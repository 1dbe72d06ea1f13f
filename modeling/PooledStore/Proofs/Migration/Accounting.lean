import PooledStore.Proofs.Migration.Finding

/-!
# What becomes of each entry of a directory

Discovery puts a regular file into the list of scripts or reports why it did not, once, and never
both (`accounted_iff_regular`). An entry that leads to no regular file it passes over without a
report: subdirectories, dangling links, and whatever cannot be looked up.
-/

set_option autoImplicit false

namespace PooledStore.Migration

open Log Text

variable {files : FileTree} {dir : Path} {provider : Provider} {names : List Bytes} {n : Bytes}
  {e : Event} {s : Script}

/-! ## Reports -/

/-- The name has the provider's extension or the portable one. -/
def Matches (provider : Provider) (n : Bytes) : Prop :=
  ∃ stem, stem ≠ [] ∧ (n = stem ++ Path.dot :: encode provider.extension ∨
    n = stem ++ Path.dot :: encode portableExtension)

/-- The text begins with digits, and their number can be recorded. -/
def Versioned (text : String) : Prop := ∃ ds, LeadingDigits text ds ∧ numberOf ds ≤ maxVersion

/-- The event reports why the entry is left out: its name does not match, or is not text, or has no
usable version. -/
inductive Reports (dir : Path) (provider : Provider) (n : Bytes) : Event → Prop where
  | ignored : ¬ Matches provider n →
      Reports dir provider n (.fileIgnored (dir.join ⟨n⟩).display provider.name)
  | undecodable : Matches provider n → (∀ text, encode text ≠ n) →
      Reports dir provider n (.fileNameUndecodable (dir.join ⟨n⟩).display)
  | unversioned {text : String} : Matches provider n → encode text = n → ¬ Versioned text →
      Reports dir provider n (.scriptUnversioned text)

theorem Reports.level (h : Reports dir provider n e) :
    (Matches provider n → e.record.level = .warn) ∧
      (¬ Matches provider n → e.record.level = .debug) := by
  cases h with
  | ignored hno => exact ⟨fun hm => absurd hm hno, fun _ => rfl⟩
  | undecodable hm _ => exact ⟨fun _ => rfl, fun hno => absurd hm hno⟩
  | unversioned hm _ _ => exact ⟨fun _ => rfl, fun hno => absurd hm hno⟩

theorem versionOf?_eq_none_iff {text : String} : versionOf? text = none ↔ ¬ Versioned text := by
  rw [Option.eq_none_iff_forall_ne_some]
  constructor
  · rintro hnone ⟨ds, hds, hle⟩
    exact hnone _ (versionOf?_eq_some_iff.mpr ⟨ds, hds, hle, rfl⟩)
  · intro hno version hv
    obtain ⟨ds, hds, hle, -⟩ := versionOf?_eq_some_iff.mp hv
    exact hno ⟨ds, hds, hle⟩

/-! ## What an entry is taken for -/

theorem classify_of_not_file : classify dir provider n false = .notAFile := rfl

/-- A regular file is a script, or is left out with a report that is true of it. -/
theorem classify_cases (dir : Path) (provider : Provider) (n : Bytes) :
    (∃ s, classify dir provider n true = .script s) ∨
    ∃ e, classify dir provider n true = .skipped e ∧ Reports dir provider n e := by
  unfold classify
  dsimp only
  rw [if_neg nofun]
  split
  · next hext =>
      refine Or.inr ⟨_, rfl, .ignored fun hm => ?_⟩
      rw [extension_refused_iff.mpr hm] at hext
      cases hext
  · next hext =>
      have hm : Matches provider n := extension_refused_iff.mp (Bool.eq_false_iff.mpr hext)
      split
      · next hname => exact Or.inr ⟨_, rfl, .undecodable hm (decode?_eq_none_iff.mp hname)⟩
      · next text hname =>
          split
          · next hnone =>
              exact Or.inr ⟨_, rfl, .unversioned hm (decode?_eq_some_iff.mp hname)
                (versionOf?_eq_none_iff.mp hnone)⟩
          · exact Or.inl ⟨_, rfl⟩

/-- The report of an entry that is left out, if there is one. -/
def report? (files : FileTree) (dir : Path) (provider : Provider) (n : Bytes) : Option Event :=
  (classify dir provider n (files.isFile (dir.join ⟨n⟩))).event?

theorem reports_of_report? (h : report? files dir provider n = some e) :
    Reports dir provider n e := by
  unfold report? at h
  cases hfile : files.isFile (dir.join ⟨n⟩) with
  | false =>
      rw [hfile, classify_of_not_file] at h
      cases h
  | true =>
      obtain ⟨s, hs⟩ | ⟨e', he, hr⟩ := classify_cases dir provider n
      · rw [hfile, hs] at h
        cases h
      · rw [hfile, he] at h
        exact Option.some.inj h ▸ hr

/-- No entry is both a script and reported. -/
theorem IsScript.report?_eq_none (h : IsScript files dir provider n s) :
    report? files dir provider n = none := by
  rw [report?, script?_eq_some_iff.mp (isScript_iff.mp h)]
  rfl

/-- An entry is one of the two exactly if it leads to a regular file. -/
theorem isScript_or_reported_iff :
    ((∃ s, IsScript files dir provider n s) ∨ ∃ e, report? files dir provider n = some e) ↔
      files.isFile (dir.join ⟨n⟩) = true := by
  constructor
  · rintro (⟨s, hs⟩ | ⟨e, he⟩)
    · exact isFile_iff.mpr hs.regular
    · by_contra hno
      rw [report?, Bool.eq_false_iff.mpr hno, classify_of_not_file] at he
      cases he
  · intro hfile
    obtain ⟨s, hs⟩ | ⟨e, he, -⟩ := classify_cases dir provider n
    · exact Or.inl ⟨s, isScript_iff.mpr (by rw [hfile, hs]; rfl)⟩
    · exact Or.inr ⟨e, by rw [report?, hfile, he]; rfl⟩

/-! ## The accounts of a directory -/

/-- The reports of a directory, each with the entry it is about. -/
def reportsAmong (files : FileTree) (dir : Path) (provider : Provider) (names : List Bytes) :
    List (Bytes × Event) :=
  names.filterMap fun n => (report? files dir provider n).map (n, ·)

theorem mem_reportsAmong : (n, e) ∈ reportsAmong files dir provider names ↔
    n ∈ names ∧ report? files dir provider n = some e := by
  simp only [reportsAmong, List.mem_filterMap, Option.map_eq_some_iff, Prod.mk.injEq]
  constructor
  · rintro ⟨n', hn, e', he, rfl, rfl⟩
    exact ⟨hn, he⟩
  · rintro ⟨hn, he⟩
    exact ⟨n, hn, e, he, rfl, rfl⟩

theorem nodup_reportsAmong (hn : names.Nodup) :
    ((reportsAmong files dir provider names).map Prod.fst).Nodup := by
  rw [reportsAmong, List.map_filterMap]
  refine hn.filterMap ?_
  intro n n' m hm hm'
  obtain ⟨r, hr, rfl⟩ := Option.map_eq_some_iff.mp hm
  obtain ⟨r', hr', heq⟩ := Option.map_eq_some_iff.mp hm'
  obtain ⟨e, -, rfl⟩ := Option.map_eq_some_iff.mp hr
  obtain ⟨e', -, rfl⟩ := Option.map_eq_some_iff.mp hr'
  exact heq.symm

/-- Discovery arranges the scripts of the directory and makes its reports, in the order in which the
directory is listed. -/
theorem discover_eq (hl : files.list dir = .ok names) :
    discover files dir provider = (arrange (scriptsAmong files dir provider names),
      (reportsAmong files dir provider names).map Prod.snd) := by
  refine Prod.ext (discover_of_list hl) ?_
  simp only [discover, hl, ofEntries, reportsAmong, report?, List.map_map, List.filterMap_map,
    List.map_filterMap, Option.map_map, Function.comp_def, Option.map_id']

/-- **Every regular file is accounted for.** What discovery sorts and checks are the scripts of the
directory, and it logs one event for every entry it reports, which says why the entry is left out:
at `debug` if its name does not match, otherwise at `warn`. No entry is both a script and reported,
and it is one of the two exactly if it leads to a regular file. -/
theorem accounted_iff_regular (provider : Provider) (hd : files.Distinct)
    (hl : files.list dir = .ok names) :
    ∃ (scripts : List Script) (reports : List (Bytes × Event)),
      discover files dir provider = (arrange scripts, reports.map Prod.snd) ∧
      (scripts.map Script.name).Nodup ∧
      (∀ s, s ∈ scripts ↔ ∃ n ∈ names, IsScript files dir provider n s) ∧
      (reports.map Prod.fst).Nodup ∧
      (∀ r ∈ reports, r.1 ∈ names ∧ Reports dir provider r.1 r.2 ∧
        (Matches provider r.1 → r.2.record.level = .warn) ∧
        (¬ Matches provider r.1 → r.2.record.level = .debug)) ∧
      ∀ n ∈ names,
        ¬ ((∃ s ∈ scripts, IsScript files dir provider n s) ∧ ∃ e, (n, e) ∈ reports) ∧
        ((∃ s ∈ scripts, IsScript files dir provider n s) ∨ (∃ e, (n, e) ∈ reports) ↔
          ∃ l mode contents, files.resolve true (dir.join ⟨n⟩) = .ok l ∧
            files.node? l = some (.file mode contents)) := by
  have hn := FileTree.nodup_of_list hd hl
  refine ⟨scriptsAmong files dir provider names, reportsAmong files dir provider names,
    discover_eq hl, nodup_name_scriptsAmong hn, fun s => mem_scriptsAmong, nodup_reportsAmong hn,
    fun r hr => ?_, fun n hmem => ⟨?_, ?_⟩⟩
  · obtain ⟨hmem, he⟩ := mem_reportsAmong.mp hr
    exact ⟨hmem, reports_of_report? he, (reports_of_report? he).level⟩
  · rintro ⟨⟨s, -, hs⟩, e, he⟩
    rw [mem_reportsAmong, hs.report?_eq_none] at he
    cases he.2
  · have hlisted : (∃ s ∈ scriptsAmong files dir provider names, IsScript files dir provider n s) ↔
        ∃ s, IsScript files dir provider n s :=
      ⟨fun ⟨s, _, hs⟩ => ⟨s, hs⟩, fun ⟨s, hs⟩ => ⟨s, mem_scriptsAmong.mpr ⟨n, hmem, hs⟩, hs⟩⟩
    simp only [mem_reportsAmong, hmem, true_and, hlisted]
    exact isScript_or_reported_iff.trans isFile_iff

/-- A directory `m` with a script, a file that is no script, one without a version, a subdirectory
and a link that leads nowhere. -/
def assorted : FileTree where
  cwd := []
  nodes :=
    [([encode "m"], .directory 0o755), ([encode "m", encode "1_a.sql"], emptyFile),
      ([encode "m", encode "readme.txt"], emptyFile), ([encode "m", encode "late.sql"], emptyFile),
      ([encode "m", encode "sub"], .directory 0o755),
      ([encode "m", encode "2_b.sql"], .link (.ofText "gone"))]

theorem list_assorted :
    assorted.list (.ofText "m") = .ok (assorted.childNames [encode "m"]) := by decide

theorem accounted_iff_regular_assorted :
    assorted.Distinct ∧ assorted.list (.ofText "m") = .ok (assorted.childNames [encode "m"]) ∧
      ∃ (scripts : List Script) (reports : List (Bytes × Event)),
        discover assorted (.ofText "m") .sqlite = (arrange scripts, reports.map Prod.snd) ∧
        ((∃ s ∈ scripts, IsScript assorted (.ofText "m") .sqlite (encode "late.sql") s) ∨
          ∃ e, (encode "late.sql", e) ∈ reports) ∧
        ¬ ((∃ s ∈ scripts, IsScript assorted (.ofText "m") .sqlite (encode "sub") s) ∨
          ∃ e, (encode "sub", e) ∈ reports) := by
  have hd : assorted.Distinct := by decide
  obtain ⟨scripts, reports, hrun, -, -, -, -, hall⟩ :=
    accounted_iff_regular .sqlite hd list_assorted
  refine ⟨hd, list_assorted, scripts, reports, hrun, ?_, ?_⟩
  · exact (hall _ (by decide)).2.mpr (isFile_iff.mp (by decide))
  · rw [(hall _ (by decide)).2, ← isFile_iff]
    decide

/-- A subdirectory can be left out without a report. -/
theorem not_forall_accounted :
    ¬ ∀ (files : FileTree) (dir : Path) (provider : Provider) (names : List Bytes),
      files.Distinct → files.list dir = .ok names → ∀ n ∈ names,
        (∃ s, IsScript files dir provider n s) ∨
          ∃ e ∈ (discover files dir provider).2, Reports dir provider n e := by
  intro h
  obtain ⟨s, hs⟩ | ⟨e, he, hr⟩ := h assorted (.ofText "m") .sqlite _ (by decide) list_assorted
    (encode "sub") (by decide)
  · exact absurd (isFile_iff.mpr hs.regular) (by decide)
  · rw [discover_eq list_assorted] at he
    cases hr with
    | ignored _ => exact absurd he (by decide)
    | undecodable _ htext => exact absurd rfl (htext "sub")
    | unversioned hm _ _ => exact absurd (extension_refused_iff.mpr hm) (by decide)

end PooledStore.Migration
