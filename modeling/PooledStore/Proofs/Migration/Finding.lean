import PooledStore.Proofs.Host.Listing
import PooledStore.Proofs.Migration.Discovery
import PooledStore.Proofs.Migration.Naming

/-!
# Which scripts are found

`IsScript` says which entries of a directory are scripts, and of what version. Discovery gives all
of them and no others in the order of their versions, unless two have one version; then it reports
the smallest such version and the first two names that have it. The order in which the directory is
listed plays no part (`discover_determined`).

A file that begins with digits is found exactly if their number can be recorded; otherwise it is
left out as if it had no version (`discovered_iff_recordable`).
-/

set_option autoImplicit false

namespace PooledStore.Migration

open Text

variable {scripts scripts' sorted : List Script} {a b : Script}

/-! ## Arranging scripts -/

/-- The clash that is reported: the smallest version that two scripts have, and those two of this
version whose names come first. -/
structure Clash (scripts : List Script) (a b : Script) : Prop where
  first : a ∈ scripts
  second : b ∈ scripts
  version : a.version = b.version
  names : a.name < b.name
  least : ∀ c ∈ scripts, ∀ d ∈ scripts, c ≠ d → c.version = d.version → a.version ≤ c.version
  foremost : ∀ c ∈ scripts, c.version = a.version → c = a ∨ b.name ≤ c.name

theorem pairwise_le_mergeSort (scripts : List Script) :
    (scripts.mergeSort Script.le).Pairwise fun a b => a.le b = true :=
  @List.pairwise_mergeSort _ Script.le (fun _ _ _ => Script.le_trans) Script.le_total scripts

/-- Among scripts in the strict order of versions there is one of a version. -/
theorem eq_of_version_eq (h : scripts.Pairwise fun a b => a.version < b.version) (ha : a ∈ scripts)
    (hb : b ∈ scripts) (heq : a.version = b.version) : a = b := by
  have hnodup : (scripts.map Script.version).Nodup :=
    List.pairwise_map.mpr (h.imp fun hlt => hlt.ne)
  exact List.inj_on_of_nodup_map hnodup ha hb heq

/-- The first neighbours of one version, with what comes before and after them. -/
theorem exists_of_neighbours?_eq_some {l : List Script} (h : neighbours? l = some (a, b)) :
    ∃ before after, l = before ++ a :: b :: after ∧ a.version = b.version ∧
      neighbours? (before ++ [a]) = none := by
  induction l with
  | nil => cases h
  | cons c l ih =>
      cases l with
      | nil => cases h
      | cons d l =>
          rw [neighbours?] at h
          split at h
          · next heq =>
              obtain ⟨rfl, rfl⟩ := Prod.mk.inj (Option.some.inj h)
              exact ⟨[], l, rfl, heq, rfl⟩
          · next hne =>
              obtain ⟨before, after, hl, heq, hbefore⟩ := ih h
              refine ⟨c :: before, after, by rw [hl, List.cons_append], heq, ?_⟩
              -- What follows `c` begins with `d` still.
              obtain ⟨rest, hrest⟩ : ∃ rest, before ++ [a] = d :: rest := by
                cases before with
                | nil =>
                    obtain rfl : d = a := (List.cons.inj hl).1
                    exact ⟨[], rfl⟩
                | cons e before =>
                    obtain rfl : d = e := (List.cons.inj hl).1
                    exact ⟨before ++ [a], rfl⟩
              rw [List.cons_append, hrest, neighbours?, if_neg hne, ← hrest, hbefore]

/-- The first neighbours of one version, in sorted scripts with different names. -/
theorem clash_of_neighbours {l : List Script} (hs : l.Pairwise fun a b => a.le b = true)
    (hn : (l.map Script.name).Nodup) (h : neighbours? l = some (a, b)) : Clash l a b := by
  obtain ⟨before, after, rfl, hversion, hbefore⟩ := exists_of_neighbours?_eq_some h
  have hfront : (before ++ [a]).Pairwise fun a b => a.version < b.version := by
    refine ascending_of_neighbours (hs.sublist ?_) hbefore
    exact List.Sublist.append_left ((List.nil_sublist _).cons_cons a) before
  obtain ⟨hfirst, -, hcross⟩ := List.pairwise_append.mp hfront
  have hlt : ∀ c ∈ before, c.version < a.version := fun c hc =>
    hcross c hc a (List.mem_singleton.mpr rfl)
  obtain ⟨-, hback, -⟩ := List.pairwise_append.mp hs
  obtain ⟨hafter, hback⟩ := List.pairwise_cons.mp hback
  obtain ⟨hafter', -⟩ := List.pairwise_cons.mp hback
  have hle : ∀ c ∈ a :: b :: after, a.version ≤ c.version := by
    intro c hc
    obtain rfl | hc := List.mem_cons.mp hc
    · exact le_refl _
    · obtain h | ⟨h, -⟩ := Script.le_iff.mp (hafter c hc)
      · exact h.le
      · exact h.le
  refine ⟨by simp, by simp, hversion, ?_, ?_, ?_⟩
  · have hne : a.name ≠ b.name := by
      intro heq
      rw [List.map_append, List.map_cons, List.map_cons, heq] at hn
      exact (List.nodup_cons.mp hn.of_append_right).1 List.mem_cons_self
    obtain h | ⟨-, h⟩ := Script.le_iff.mp (hafter b List.mem_cons_self)
    · exact absurd hversion h.ne
    · exact lt_of_le_of_ne h hne
  · intro c hc d hd hne heq
    obtain hc | hc := List.mem_append.mp hc
    · obtain hd | hd := List.mem_append.mp hd
      · -- Before the clash no version is there twice.
        exact absurd (eq_of_version_eq hfirst hc hd heq) hne
      · exact heq ▸ hle d hd
    · exact hle c hc
  · intro c hc heq
    obtain hc | hc := List.mem_append.mp hc
    · exact absurd heq (hlt c hc).ne
    · obtain rfl | hc := List.mem_cons.mp hc
      · exact Or.inl rfl
      · obtain rfl | hc := List.mem_cons.mp hc
        · exact Or.inr (String.le_refl _)
        · obtain h | ⟨-, h⟩ := Script.le_iff.mp (hafter' c hc)
          · rw [← hversion, heq] at h
            exact absurd h (lt_irrefl _)
          · exact Or.inr h

theorem Clash.of_perm (h : Clash sorted a b) (hp : sorted.Perm scripts) : Clash scripts a b where
  first := hp.mem_iff.mp h.first
  second := hp.mem_iff.mp h.second
  version := h.version
  names := h.names
  least := fun c hc d hd => h.least c (hp.mem_iff.mpr hc) d (hp.mem_iff.mpr hd)
  foremost := fun c hc => h.foremost c (hp.mem_iff.mpr hc)

theorem perm_of_arrange (h : arrange scripts = .ok sorted) : sorted.Perm scripts := by
  unfold arrange at h
  dsimp only at h
  split at h
  · cases h
  · exact Except.ok.inj h ▸ List.mergeSort_perm _ _

/-- Scripts with different names are arranged in the order of their versions, unless two clash. -/
theorem arrange_cases (hn : (scripts.map Script.name).Nodup) :
    (∃ sorted, arrange scripts = .ok sorted ∧ sorted.Perm scripts ∧
      sorted.Pairwise fun a b => a.version < b.version) ∨
    ∃ a b, arrange scripts = .error (.duplicateVersion a.version a.name b.name) ∧
      Clash scripts a b := by
  have hp : (scripts.mergeSort Script.le).Perm scripts := List.mergeSort_perm _ _
  have hs := pairwise_le_mergeSort scripts
  cases hdup : neighbours? (scripts.mergeSort Script.le) with
  | none =>
      have hok : arrange scripts = .ok (scripts.mergeSort Script.le) := by
        rw [arrange, hdup]
      exact Or.inl ⟨_, hok, hp, ascending_of_neighbours hs hdup⟩
  | some pair =>
      obtain ⟨a, b⟩ := pair
      have herr : arrange scripts = .error (.duplicateVersion a.version a.name b.name) := by
        rw [arrange, hdup]
      have hc : Clash (scripts.mergeSort Script.le) a b :=
        clash_of_neighbours hs ((hp.map Script.name).nodup_iff.mpr hn) hdup
      exact Or.inr ⟨a, b, herr, hc.of_perm hp⟩

theorem Script.eq_of_le (hn : (scripts.map Script.name).Nodup) (ha : a ∈ scripts) (hb : b ∈ scripts)
    (hab : a.le b = true) (hba : b.le a = true) : a = b := by
  refine List.inj_on_of_nodup_map hn ha hb ?_
  obtain h | ⟨h, hname⟩ := Script.le_iff.mp hab
  · obtain h' | ⟨h', -⟩ := Script.le_iff.mp hba
    · exact absurd h h'.le.not_gt
    · exact absurd h' h.ne'
  · obtain h' | ⟨-, hname'⟩ := Script.le_iff.mp hba
    · exact absurd h h'.ne'
    · exact le_antisymm hname hname'

/-- The order in which scripts are given plays no part. -/
theorem arrange_of_perm (hn : (scripts.map Script.name).Nodup) (hp : scripts'.Perm scripts) :
    arrange scripts' = arrange scripts := by
  have hsort : scripts'.mergeSort Script.le = scripts.mergeSort Script.le := by
    have hmem : ∀ c, c ∈ scripts.mergeSort Script.le → c ∈ scripts := fun _ => List.mem_mergeSort.mp
    have hmem' : ∀ c, c ∈ scripts'.mergeSort Script.le → c ∈ scripts := fun _ hc =>
      hp.mem_iff.mp (List.mem_mergeSort.mp hc)
    have hperm : (scripts'.mergeSort Script.le).Perm (scripts.mergeSort Script.le) :=
      (List.mergeSort_perm _ _).trans (hp.trans (List.mergeSort_perm _ _).symm)
    exact hperm.eq_of_pairwise
      (fun c d hc hd => Script.eq_of_le hn (hmem' c hc) (hmem d hd))
      (pairwise_le_mergeSort _) (pairwise_le_mergeSort _)
  rw [arrange, arrange, hsort]

/-- Scripts in the strict order of versions are known by their members. -/
theorem eq_of_ascending_of_mem_iff (h : scripts.Pairwise fun a b => a.version < b.version)
    (h' : scripts'.Pairwise fun a b => a.version < b.version)
    (hmem : ∀ s, s ∈ scripts ↔ s ∈ scripts') : scripts = scripts' := by
  have hnodup : ∀ {l : List Script}, (l.Pairwise fun a b => a.version < b.version) → l.Nodup :=
    fun hl => hl.imp fun hlt heq => (heq ▸ hlt).ne rfl
  have hperm : scripts.Perm scripts' :=
    (List.perm_ext_iff_of_nodup (hnodup h) (hnodup h')).mpr hmem
  exact hperm.eq_of_pairwise (fun _ _ _ _ hab hba => absurd hab hba.not_gt) h h'

/-! ## The scripts of a directory -/

variable {files files' : FileTree} {dir : Path} {provider : Provider} {names : List Bytes}
  {s : Script} {n : Bytes}

/-- The entry of the directory is the script: a regular file, perhaps behind links, with the name of
one, whose number can be recorded. -/
structure IsScript (files : FileTree) (dir : Path) (provider : Provider) (n : Bytes) (s : Script) :
    Prop where
  regular : ∃ l mode contents, files.resolve true (dir.join ⟨n⟩) = .ok l ∧
    files.node? l = some (.file mode contents)
  named : ∃ ds, ScriptName provider n s.name ds ∧ numberOf ds ≤ maxVersion ∧ s.version = numberOf ds
  path : s.path = dir.join ⟨n⟩

/-- The scripts among the entries of a directory. -/
def scriptsAmong (files : FileTree) (dir : Path) (provider : Provider) (names : List Bytes) :
    List Script :=
  names.filterMap fun n => (classify dir provider n (files.isFile (dir.join ⟨n⟩))).script?

theorem isFile_iff {p : Path} : files.isFile p = true ↔
    ∃ l mode contents, files.resolve true p = .ok l ∧
      files.node? l = some (.file mode contents) := by
  unfold FileTree.isFile FileTree.lookup
  cases hr : files.resolve true p with
  | error e => simp [bind, Except.bind]
  | ok l =>
      cases hn : files.node? l with
      | none => simp [bind, Except.bind, hn]
      | some node => cases node <;> simp [bind, Except.bind, hn]

theorem script?_eq_some_iff {f : Finding} : f.script? = some s ↔ f = .script s := by
  cases f <;> simp [Finding.script?]

theorem isScript_iff : IsScript files dir provider n s ↔
    (classify dir provider n (files.isFile (dir.join ⟨n⟩))).script? = some s := by
  rw [script?_eq_some_iff, classify_eq_script_iff, isFile_iff]
  exact ⟨fun h => ⟨h.regular, h.path, h.named⟩, fun ⟨hr, hp, hn⟩ => ⟨hr, hn, hp⟩⟩

theorem mem_scriptsAmong : s ∈ scriptsAmong files dir provider names ↔
    ∃ n ∈ names, IsScript files dir provider n s := by
  simp only [scriptsAmong, List.mem_filterMap, isScript_iff]

theorem IsScript.encode_name (h : IsScript files dir provider n s) : encode s.name = n := by
  obtain ⟨ds, hname, -, -⟩ := h.named
  exact hname.encoded

theorem nodup_name_scriptsAmong (hn : names.Nodup) :
    ((scriptsAmong files dir provider names).map Script.name).Nodup := by
  rw [scriptsAmong, List.map_filterMap]
  refine hn.filterMap ?_
  intro n n' name hname hname'
  obtain ⟨s, hs, rfl⟩ := Option.map_eq_some_iff.mp hname
  obtain ⟨s', hs', heq⟩ := Option.map_eq_some_iff.mp hname'
  rw [← (isScript_iff.mpr hs).encode_name, ← (isScript_iff.mpr hs').encode_name, heq]

theorem discover_of_list (hl : files.list dir = .ok names) :
    (discover files dir provider).1 = arrange (scriptsAmong files dir provider names) := by
  simp only [discover, hl, ofEntries, scriptsAmong, List.map_map, List.filterMap_map,
    Function.comp_def]

theorem discover_of_list_error {e : FileError} (hl : files.list dir = .error e) :
    discover files dir provider = (.error (.unreadable dir e), []) := by
  rw [discover, hl]

/-- The order in which the nodes of the tree are held plays no part. -/
theorem discover_of_reordered (hd : files.Distinct) (h : files.Reordered files') :
    (discover files' dir provider).1 = (discover files dir provider).1 := by
  obtain ⟨e, hl, hl'⟩ | ⟨names, names', hl, hl', hp⟩ := FileTree.list_of_reordered h hd dir
  · rw [discover_of_list_error hl, discover_of_list_error hl']
  · have hsame : scriptsAmong files' dir provider names' =
        scriptsAmong files dir provider names' := by
      simp only [scriptsAmong, FileTree.isFile_of_reordered h hd]
    rw [discover_of_list hl, discover_of_list hl', hsame]
    exact arrange_of_perm (nodup_name_scriptsAmong (FileTree.nodup_of_list hd hl)) (hp.filterMap _)

/-- No two entries are scripts of one version. -/
def VersionsDiffer (files : FileTree) (dir : Path) (provider : Provider) (names : List Bytes) :
    Prop :=
  ∀ n ∈ names, ∀ n' ∈ names, ∀ s s', IsScript files dir provider n s →
    IsScript files dir provider n' s' → s.version = s'.version → n = n'

theorem versionsDiffer_iff : VersionsDiffer files dir provider names ↔
    ∀ s ∈ scriptsAmong files dir provider names, ∀ s' ∈ scriptsAmong files dir provider names,
      s.version = s'.version → s = s' := by
  constructor
  · intro h s hs s' hs' heq
    obtain ⟨n, hn, hs⟩ := mem_scriptsAmong.mp hs
    obtain ⟨n', hn', hs'⟩ := mem_scriptsAmong.mp hs'
    obtain rfl := h n hn n' hn' s s' hs hs' heq
    exact Option.some.inj ((isScript_iff.mp hs).symm.trans (isScript_iff.mp hs'))
  · intro h n hn n' hn' s s' hs hs' heq
    have hsame : s = s' :=
      h s (mem_scriptsAmong.mpr ⟨n, hn, hs⟩) s' (mem_scriptsAmong.mpr ⟨n', hn', hs'⟩) heq
    rw [← hs.encode_name, ← hs'.encode_name, hsame]

/-- The two entries are the scripts that clash: theirs is the smallest version that two scripts
have, and of the names that have it theirs come first, byte by byte. -/
structure FirstClash (files : FileTree) (dir : Path) (provider : Provider) (names : List Bytes)
    (n₁ n₂ : Bytes) (a b : Script) : Prop where
  first : n₁ ∈ names ∧ IsScript files dir provider n₁ a
  second : n₂ ∈ names ∧ IsScript files dir provider n₂ b
  version : a.version = b.version
  before : n₁ < n₂
  least : ∀ n ∈ names, ∀ n' ∈ names, ∀ s s', IsScript files dir provider n s →
    IsScript files dir provider n' s' → n ≠ n' → s.version = s'.version → a.version ≤ s.version
  foremost : ∀ n ∈ names, ∀ s, IsScript files dir provider n s → s.version = a.version →
    n = n₁ ∨ n₂ ≤ n

theorem firstClash_of_clash (h : Clash (scriptsAmong files dir provider names) a b) :
    ∃ n₁ n₂, FirstClash files dir provider names n₁ n₂ a b := by
  obtain ⟨n₁, hn₁, ha⟩ := mem_scriptsAmong.mp h.first
  obtain ⟨n₂, hn₂, hb⟩ := mem_scriptsAmong.mp h.second
  refine ⟨n₁, n₂, ⟨hn₁, ha⟩, ⟨hn₂, hb⟩, h.version, ?_, ?_, ?_⟩
  · rw [← ha.encode_name, ← hb.encode_name]
    exact encode_lt_encode_iff.mpr h.names
  · intro n hn n' hn' s s' hs hs' hne heq
    refine h.least s (mem_scriptsAmong.mpr ⟨n, hn, hs⟩) s'
      (mem_scriptsAmong.mpr ⟨n', hn', hs'⟩) ?_ heq
    rintro rfl
    exact hne (hs.encode_name.symm.trans hs'.encode_name)
  · intro n hn s hs heq
    obtain rfl | hle := h.foremost s (mem_scriptsAmong.mpr ⟨n, hn, hs⟩) heq
    · exact Or.inl (hs.encode_name.symm.trans ha.encode_name)
    · rw [← hs.encode_name, ← hb.encode_name]
      refine Or.inr (List.not_lt.mp fun hlt => ?_)
      exact String.not_lt.mpr hle (encode_lt_encode_iff.mp hlt)

/-- **Discovery is determined by what the directory holds.** The order in which the tree holds its
nodes plays no part. If no two entries are scripts of one version, all the scripts are given, and
nothing else, in the order of their versions; otherwise the first clash is reported. -/
theorem discover_determined (files : FileTree) (dir : Path) (provider : Provider)
    (hd : files.Distinct) :
    (∀ files', files.Reordered files' →
      (discover files' dir provider).1 = (discover files dir provider).1) ∧
    ∀ names, files.list dir = .ok names →
      (VersionsDiffer files dir provider names →
        ∃ scripts, (discover files dir provider).1 = .ok scripts ∧
          (scripts.Pairwise fun a b => a.version < b.version) ∧
          ∀ s, s ∈ scripts ↔ ∃ n ∈ names, IsScript files dir provider n s) ∧
      (¬ VersionsDiffer files dir provider names →
        ∃ n₁ n₂ a b, FirstClash files dir provider names n₁ n₂ a b ∧
          (discover files dir provider).1 =
            .error (.duplicateVersion a.version a.name b.name)) := by
  refine ⟨fun files' h => discover_of_reordered hd h, fun names hl => ?_⟩
  rw [discover_of_list hl]
  have hn : ((scriptsAmong files dir provider names).map Script.name).Nodup :=
    nodup_name_scriptsAmong (FileTree.nodup_of_list hd hl)
  obtain ⟨scripts, hok, hp, hasc⟩ | ⟨a, b, herr, hclash⟩ := arrange_cases hn
  · have hmem : ∀ s, s ∈ scripts ↔ ∃ n ∈ names, IsScript files dir provider n s := fun s =>
      hp.mem_iff.trans mem_scriptsAmong
    have hdiffer : VersionsDiffer files dir provider names :=
      versionsDiffer_iff.mpr fun s hs s' hs' =>
        eq_of_version_eq hasc (hp.mem_iff.mpr hs) (hp.mem_iff.mpr hs')
    exact ⟨fun _ => ⟨scripts, hok, hasc, hmem⟩, fun hclash => absurd hdiffer hclash⟩
  · obtain ⟨n₁, n₂, hfirst⟩ := firstClash_of_clash hclash
    refine ⟨fun hdiffer => ?_, fun _ => ⟨n₁, n₂, a, b, hfirst, herr⟩⟩
    have hsame : n₁ = n₂ := hdiffer n₁ hfirst.first.1 n₂ hfirst.second.1 a b hfirst.first.2
      hfirst.second.2 hfirst.version
    exact absurd (hsame ▸ hfirst.before) (List.lt_irrefl _)

/-- An empty file. -/
def emptyFile : Node := .file 0o644 (.bytes [])

/-- A directory `m` with scripts of different versions, one of them behind a link, and things that
are not scripts; and a directory `n` in which two scripts have one version. -/
def twoDirectories : FileTree where
  cwd := []
  nodes :=
    [([encode "m"], .directory 0o755),
      ([encode "m", encode "4_d.sqlite"], .link (.ofText "1_a.sql")),
      ([encode "m", encode "2_b.sqlite"], emptyFile), ([encode "m", encode "1_a.sql"], emptyFile),
      ([encode "m", encode "3_c.sql"], .directory 0o755),
      ([encode "m", encode "notes.sqlite"], emptyFile),
      ([encode "m", 0x35 :: 0xFF :: encode ".sql"], emptyFile),
      ([encode "n"], .directory 0o755), ([encode "n", encode "2_c.sql"], emptyFile),
      ([encode "n", encode "1_b.sql"], emptyFile), ([encode "n", encode "001_a.sqlite"], emptyFile)]

theorem list_twoDirectories :
    twoDirectories.list (.ofText "m") = .ok (twoDirectories.childNames [encode "m"]) ∧
      twoDirectories.list (.ofText "n") = .ok (twoDirectories.childNames [encode "n"]) := by
  decide

/-- The scripts in `m`, in the order of their versions. -/
def scriptsInM : List Script :=
  [⟨1, "1_a.sql", .ofText "m/1_a.sql"⟩, ⟨2, "2_b.sqlite", .ofText "m/2_b.sqlite"⟩,
    ⟨4, "4_d.sqlite", .ofText "m/4_d.sqlite"⟩]

/-- The scripts in `n`. -/
def scriptsInN : List Script :=
  [⟨2, "2_c.sql", .ofText "n/2_c.sql"⟩, ⟨1, "1_b.sql", .ofText "n/1_b.sql"⟩,
    ⟨1, "001_a.sqlite", .ofText "n/001_a.sqlite"⟩]

theorem scriptsAmong_twoDirectories :
    scriptsAmong twoDirectories (.ofText "m") .sqlite (twoDirectories.childNames [encode "m"]) =
      scriptsInM.reverse ∧
    scriptsAmong twoDirectories (.ofText "n") .sqlite (twoDirectories.childNames [encode "n"]) =
      scriptsInN := by
  decide

theorem discover_determined_twoDirectories :
    twoDirectories.Distinct ∧
      ∀ files', twoDirectories.Reordered files' →
        (discover files' (.ofText "m") .sqlite).1 = .ok scriptsInM ∧
        (discover files' (.ofText "n") .sqlite).1 =
          .error (.duplicateVersion 1 "001_a.sqlite" "1_b.sql") := by
  have hd : twoDirectories.Distinct := by decide
  obtain ⟨hm, hn⟩ := list_twoDirectories
  obtain ⟨hscriptsM, hscriptsN⟩ := scriptsAmong_twoDirectories
  refine ⟨hd, fun files' h => ⟨?_, ?_⟩⟩
  · obtain ⟨horder, hspec⟩ := discover_determined twoDirectories (.ofText "m") .sqlite hd
    have hdiffer : VersionsDiffer twoDirectories (.ofText "m") .sqlite
        (twoDirectories.childNames [encode "m"]) := by
      rw [versionsDiffer_iff, hscriptsM]
      decide
    obtain ⟨scripts, hok, hasc, hmem⟩ := (hspec _ hm).1 hdiffer
    rw [horder files' h, hok]
    refine congrArg Except.ok (eq_of_ascending_of_mem_iff hasc (by decide) fun s => ?_)
    rw [hmem, ← mem_scriptsAmong, hscriptsM]
    exact List.mem_reverse
  · obtain ⟨horder, hspec⟩ := discover_determined twoDirectories (.ofText "n") .sqlite hd
    have hclash : ¬ VersionsDiffer twoDirectories (.ofText "n") .sqlite
        (twoDirectories.childNames [encode "n"]) := by
      rw [versionsDiffer_iff, hscriptsN]
      decide
    obtain ⟨n₁, n₂, a, b, hfirst, herr⟩ := (hspec _ hn).2 hclash
    have ha := mem_scriptsAmong.mpr ⟨n₁, hfirst.first⟩
    have hb := mem_scriptsAmong.mpr ⟨n₂, hfirst.second⟩
    have hlt : a.name < b.name := by
      rw [← encode_lt_encode_iff, hfirst.first.2.encode_name, hfirst.second.2.encode_name]
      exact hfirst.before
    rw [hscriptsN] at ha hb
    have hall : ∀ a ∈ scriptsInN, ∀ b ∈ scriptsInN, a.version = b.version → a.name < b.name →
        a.version = 1 ∧ a.name = "001_a.sqlite" ∧ b.name = "1_b.sql" := by decide
    obtain ⟨hversion, hfirst, hsecond⟩ := hall a ha b hb hfirst.version hlt
    rw [horder files' h, herr, hversion, hfirst, hsecond]

/-- **A file that begins with digits is found exactly if their number can be recorded.** Otherwise
there is no script of its name, and it is reported as one without a version. -/
theorem discovered_iff_recordable {files : FileTree} {dir : Path} {provider : Provider}
    {scripts : List Script} (h : (discover files dir provider).1 = .ok scripts) :
    ∃ names, files.list dir = .ok names ∧
      ∀ n ∈ names, ∀ l mode contents, files.resolve true (dir.join ⟨n⟩) = .ok l →
        files.node? l = some (.file mode contents) →
        ∀ text ds, ScriptName provider n text ds →
          (⟨numberOf ds, text, dir.join ⟨n⟩⟩ ∈ scripts ↔ numberOf ds ≤ maxVersion) ∧
          (maxVersion < numberOf ds → (∀ s ∈ scripts, s.name ≠ text) ∧
            .scriptUnversioned text ∈ (discover files dir provider).2) := by
  cases hl : files.list dir with
  | error e =>
      rw [discover_of_list_error hl] at h
      cases h
  | ok names =>
      refine ⟨names, rfl, fun n hn l mode contents hr hnode text ds hname => ?_⟩
      rw [discover_of_list hl] at h
      have hmem : ∀ s, s ∈ scripts ↔ ∃ n ∈ names, IsScript files dir provider n s := fun s =>
        (perm_of_arrange h).mem_iff.trans mem_scriptsAmong
      -- A script of this name has the number of these digits.
      have hfits : ∀ s ∈ scripts, s.name = text → numberOf ds ≤ maxVersion := by
        rintro s hs rfl
        obtain ⟨n', -, hscript⟩ := (hmem s).mp hs
        obtain ⟨ds', hname', hle, -⟩ := hscript.named
        rwa [hname.digits.unique hname'.digits]
      have hfile : files.isFile (dir.join ⟨n⟩) = true :=
        isFile_iff.mpr ⟨l, mode, contents, hr, hnode⟩
      refine ⟨⟨fun hs => hfits _ hs rfl, fun hle => ?_⟩, fun hlt => ⟨fun s hs heq => ?_, ?_⟩⟩
      · exact (hmem _).mpr ⟨n, hn, ⟨l, mode, contents, hr, hnode⟩, ⟨ds, hname, hle, rfl⟩, rfl⟩
      · exact absurd (hfits s hs heq) (Nat.not_le_of_lt hlt)
      · have hskipped : classify dir provider n (files.isFile (dir.join ⟨n⟩)) =
            .skipped (.scriptUnversioned text) := by
          rw [hfile, classify_of_scriptName hname, if_neg (Nat.not_le_of_lt hlt)]
        simp only [discover, hl, ofEntries, List.map_map, List.mem_filterMap, List.mem_map]
        exact ⟨_, ⟨n, hn, hskipped⟩, rfl⟩

/-- A directory `m` with one script whose number is too large and another. -/
def lateScript : FileTree where
  cwd := []
  nodes :=
    [([encode "m"], .directory 0o755),
      ([encode "m", encode "10000000000000000000_late.sql"], emptyFile),
      ([encode "m", encode "2_b.sqlite"], emptyFile)]

theorem discover_lateScript : (discover lateScript (.ofText "m") .sqlite).1 =
    .ok [⟨2, "2_b.sqlite", .ofText "m/2_b.sqlite"⟩] := by
  have hl : lateScript.list (.ofText "m") = .ok (lateScript.childNames [encode "m"]) := by
    decide
  have heval : scriptsAmong lateScript (.ofText "m") .sqlite (lateScript.childNames [encode "m"]) =
      [⟨2, "2_b.sqlite", .ofText "m/2_b.sqlite"⟩] := by decide
  rw [discover_of_list hl, heval]
  exact arrange_of_ascending (List.pairwise_singleton _ _)

/-- The names in `m`, their texts and digits. -/
theorem scriptName_lateScript :
    ScriptName .sqlite (encode "10000000000000000000_late.sql") "10000000000000000000_late.sql"
        "10000000000000000000".toList ∧
      ScriptName .sqlite (encode "2_b.sqlite") "2_b.sqlite" ['2'] := by
  refine ⟨⟨rfl, ⟨encode "10000000000000000000_late", by decide,
      Or.inr (by decide)⟩, ?_⟩,
    ⟨rfl, ⟨encode "2_b", by decide, Or.inl (by decide)⟩, ?_⟩⟩
  · exact leadingDigits_iff.mpr (by decide)
  · exact leadingDigits_iff.mpr (by decide)

theorem discovered_iff_recordable_lateScript :
    ∃ scripts, (discover lateScript (.ofText "m") .sqlite).1 = .ok scripts ∧
      ⟨2, "2_b.sqlite", .ofText "m/2_b.sqlite"⟩ ∈ scripts ∧
      (∀ s ∈ scripts, s.name ≠ "10000000000000000000_late.sql") ∧
      .scriptUnversioned "10000000000000000000_late.sql" ∈
        (discover lateScript (.ofText "m") .sqlite).2 := by
  obtain ⟨hlate, hsecond⟩ := scriptName_lateScript
  obtain ⟨names, hl, hall⟩ := discovered_iff_recordable discover_lateScript
  have hnames : names = lateScript.childNames [encode "m"] :=
    Except.ok.inj (hl.symm.trans (by decide))
  have hfound := (hall (encode "2_b.sqlite") (hnames ▸ by decide) _ _ _
    (show _ = Except.ok [encode "m", encode "2_b.sqlite"] by decide)
    (show _ = some emptyFile by decide) _ _ hsecond).1
  have hdropped := (hall (encode "10000000000000000000_late.sql") (hnames ▸ by decide) _ _ _
    (show _ = Except.ok [encode "m", encode "10000000000000000000_late.sql"] by decide)
    (show _ = some emptyFile by decide) _ _ hlate).2 (by decide)
  exact ⟨_, discover_lateScript, hfound.mpr (by decide), hdropped⟩

/-- A file can begin with digits and be left out. -/
theorem not_forall_discovered :
    ¬ ∀ (files : FileTree) (dir : Path) (provider : Provider) (scripts : List Script)
      (names : List Bytes), (discover files dir provider).1 = .ok scripts →
      files.list dir = .ok names → ∀ n ∈ names, ∀ l mode contents,
      files.resolve true (dir.join ⟨n⟩) = .ok l → files.node? l = some (.file mode contents) →
      ∀ text ds, ScriptName provider n text ds →
        ⟨numberOf ds, text, dir.join ⟨n⟩⟩ ∈ scripts := by
  intro h
  have hmem := h lateScript (.ofText "m") .sqlite _ _ discover_lateScript
    (show _ = Except.ok (lateScript.childNames [encode "m"]) by decide)
    (encode "10000000000000000000_late.sql") (by decide) _ _ _
    (show _ = Except.ok [encode "m", encode "10000000000000000000_late.sql"] by decide)
    (show _ = some emptyFile by decide) _ _ scriptName_lateScript.1
  revert hmem
  decide

end PooledStore.Migration
