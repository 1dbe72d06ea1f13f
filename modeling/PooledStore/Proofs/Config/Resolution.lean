import Mathlib.Data.List.TakeWhile
import PooledStore.Config.Options
import PooledStore.Proofs.Host.Paths
import PooledStore.Toml.Document

/-!
# What options are resolved to

The options that settings ask for, told without the functions that resolve them. A provider is asked
for by one of its names, with white space around it and in any case (`Provider.Named`). The embedded
store is in the first directory that is given and not blank (`FirstGiven`), in a file whose path
leads along the same names as the directory's, and then to the store's name (`StoredIn`). What else
the settings hold, the provider that is not asked for included, makes no difference
(`Source.resolve_of_load`).
-/

set_option autoImplicit false

namespace PooledStore

/-! ## Trimmed texts -/

namespace Text

/-- A text is what trimming leaves of it, between white space. -/
theorem exists_trimmed (s : List Char) : ∃ l r, s = l ++ trimmed s ++ r ∧
    (∀ c ∈ l, isBlankChar c = true) ∧ ∀ c ∈ r, isBlankChar c = true := by
  have hback := List.takeWhile_append_dropWhile (p := isBlankChar)
    (l := (s.dropWhile isBlankChar).reverse)
  refine ⟨s.takeWhile isBlankChar,
    ((s.dropWhile isBlankChar).reverse.takeWhile isBlankChar).reverse, ?_, ?_, ?_⟩
  · calc s = s.takeWhile isBlankChar ++ s.dropWhile isBlankChar :=
          List.takeWhile_append_dropWhile.symm
      _ = s.takeWhile isBlankChar ++
            ((s.dropWhile isBlankChar).reverse.takeWhile isBlankChar ++
              (s.dropWhile isBlankChar).reverse.dropWhile isBlankChar).reverse := by
          rw [hback, List.reverse_reverse]
      _ = _ := by rw [List.reverse_append, trimmed, List.append_assoc]
  · exact fun c hc => List.mem_takeWhile_imp hc
  · exact fun c hc => List.mem_takeWhile_imp (List.mem_reverse.mp hc)

/-- What stands between white space, and does not begin or end with it, is what trimming leaves. -/
theorem trimmed_of_between {l core r : List Char} {a b : Char}
    (hl : ∀ c ∈ l, isBlankChar c = true) (hr : ∀ c ∈ r, isBlankChar c = true)
    (ha : core.head? = some a) (ha' : isBlankChar a = false)
    (hb : core.getLast? = some b) (hb' : isBlankChar b = false) :
    trimmed (l ++ core ++ r) = core := by
  obtain ⟨rest, rfl⟩ := List.head?_eq_some_iff.mp ha
  obtain ⟨init, hinit⟩ := List.getLast?_eq_some_iff.mp hb
  have hfront : (l ++ (a :: rest) ++ r).dropWhile isBlankChar = (a :: rest) ++ r := by
    rw [List.append_assoc, List.dropWhile_append_of_pos hl, List.cons_append,
      List.dropWhile_cons_of_neg (by rw [ha']; exact nofun)]
  have hback : ((a :: rest) ++ r).reverse.dropWhile isBlankChar = (a :: rest).reverse := by
    rw [List.reverse_append,
      List.dropWhile_append_of_pos fun c hc => hr c (List.mem_reverse.mp hc), hinit,
      List.reverse_append, List.reverse_singleton, List.singleton_append,
      List.dropWhile_cons_of_neg (by rw [hb']; exact nofun)]
  rw [trimmed, hfront, hback, List.reverse_reverse]

/-- No character between the blank and the first one beyond ASCII is white space. -/
theorem isBlankChar_of_printable {c : Char} (hlow : 0x20 < c.toNat) (hhigh : c.toNat < 0x7F) :
    isBlankChar c = false := by
  simp [isBlankChar, blankRanges]
  omega

theorem isBlankChar_lowerChar (c : Char) : isBlankChar (lowerChar c) = isBlankChar c := by
  unfold lowerChar
  split
  · next h =>
      have hA : 65 ≤ c.toNat := h.1
      have hZ : c.toNat ≤ 90 := h.2
      have hvalid : (c.toNat + 32).isValidChar := Or.inl (by omega)
      have hlower : (Char.ofNat (c.toNat + 32)).toNat = c.toNat + 32 := by
        rw [Char.ofNat, dif_pos hvalid]
        rfl
      rw [isBlankChar_of_printable (c := c) (by omega) (by omega),
        isBlankChar_of_printable (by omega) (by omega)]
  · rfl

end Text

/-! ## Names of providers -/

namespace Provider

variable {p : Provider} {s n : String}

/-- The names under which a provider can be asked for. -/
def names : Provider → List String
  | .sqlite => ["sqlite", "embedded-file"]
  | .postgres => ["postgresql", "postgres", "networked"]

/-- The text is one of the provider's names, in any ASCII case, between white space. -/
def Named (p : Provider) (s : String) : Prop :=
  ∃ l core r : List Char, s.toList = l ++ core ++ r ∧ (∀ c ∈ l, Text.isBlankChar c = true) ∧
    (∀ c ∈ r, Text.isBlankChar c = true) ∧ String.ofList (core.map Text.lowerChar) ∈ p.names

theorem lookup_table : table.lookup n = some p ↔ n ∈ p.names := by
  constructor
  · intro h
    have hmem : (n, p) ∈ table := by
      obtain ⟨l₁, l₂, heq, -⟩ := List.lookup_eq_some_iff.mp h
      rw [heq]
      exact List.mem_append_right _ List.mem_cons_self
    simp only [table, List.mem_cons, List.not_mem_nil, or_false, Prod.mk.injEq] at hmem
    obtain ⟨rfl, rfl⟩ | ⟨rfl, rfl⟩ | ⟨rfl, rfl⟩ | ⟨rfl, rfl⟩ | ⟨rfl, rfl⟩ := hmem
    all_goals decide
  · intro h
    cases p with
    | sqlite =>
        simp only [names, List.mem_cons, List.not_mem_nil, or_false] at h
        obtain rfl | rfl := h
        all_goals rfl
    | postgres =>
        simp only [names, List.mem_cons, List.not_mem_nil, or_false] at h
        obtain rfl | rfl | rfl := h
        all_goals rfl

/-- No name begins or ends with white space. -/
theorem edges_of_mem_names (h : n ∈ p.names) : ∃ a b, n.toList.head? = some a ∧
    Text.isBlankChar a = false ∧ n.toList.getLast? = some b ∧ Text.isBlankChar b = false := by
  have hall : ∀ p : Provider, ∀ n ∈ p.names, n.toList.head?.any (!Text.isBlankChar ·) = true ∧
      n.toList.getLast?.any (!Text.isBlankChar ·) = true := by
    intro p
    cases p with
    | _ => decide
  obtain ⟨hfirst, hlast⟩ := hall p n h
  obtain ⟨a, ha, ha'⟩ := (Option.any_eq_true _ _).mp hfirst
  obtain ⟨b, hb, hb'⟩ := (Option.any_eq_true _ _).mp hlast
  exact ⟨a, b, ha, by simpa using ha', hb, by simpa using hb'⟩

theorem ofName?_eq_some_iff : ofName? s = some p ↔ p.Named s := by
  have hlower : Text.asciiLower (Text.trim s) =
      String.ofList ((Text.trimmed s.toList).map Text.lowerChar) := by
    rw [Text.asciiLower, Text.trim, String.toList_ofList]
  rw [ofName?, lookup_table, hlower]
  constructor
  · intro h
    obtain ⟨l, r, hs, hl, hr⟩ := Text.exists_trimmed s.toList
    exact ⟨l, _, r, hs, hl, hr, h⟩
  · rintro ⟨l, core, r, hs, hl, hr, h⟩
    obtain ⟨a, b, ha, ha', hb, hb'⟩ := edges_of_mem_names h
    rw [String.toList_ofList, List.head?_map, Option.map_eq_some_iff] at ha
    rw [String.toList_ofList, List.getLast?_map, Option.map_eq_some_iff] at hb
    obtain ⟨a', ha, rfl⟩ := ha
    obtain ⟨b', hb, rfl⟩ := hb
    rw [Text.isBlankChar_lowerChar] at ha' hb'
    rwa [hs, Text.trimmed_of_between hl hr ha ha' hb hb']

end Provider

namespace Config

open Log

/-! ## The directory of the embedded store -/

/-- The first of the candidates that is given and is not blank. -/
def FirstGiven (candidates : List (Option String)) (dir : String) : Prop :=
  ∃ before after, candidates = before ++ some dir :: after ∧ Text.isBlank dir = false ∧
    ∀ d, some d ∈ before → Text.isBlank d = true

theorem bind_nonBlank?_eq_some {o : Option String} {dir : String} :
    o.bind Text.nonBlank? = some dir ↔ o = some dir ∧ Text.isBlank dir = false := by
  rw [Option.bind_eq_some_iff]
  constructor
  · rintro ⟨d, rfl, h⟩
    unfold Text.nonBlank? at h
    split at h
    · cases h
    · next hd =>
        obtain rfl := Option.some.inj h
        exact ⟨rfl, by simpa using hd⟩
  · rintro ⟨rfl, h⟩
    exact ⟨dir, rfl, if_neg (by rw [h]; exact nofun)⟩

theorem bind_nonBlank?_eq_none {o : Option String} :
    o.bind Text.nonBlank? = none ↔ ∀ d, o = some d → Text.isBlank d = true := by
  rw [Option.eq_none_iff_forall_ne_some]
  simp only [ne_eq, bind_nonBlank?_eq_some, not_and, Bool.not_eq_false]

theorem dataDirectory_firstGiven (setting : Option String) (env : Environment) :
    FirstGiven [setting, env.get? dataVariable, some defaultDataDirectory]
      (dataDirectory setting env) := by
  unfold dataDirectory
  split
  · next dir h =>
      obtain ⟨rfl, hdir⟩ := bind_nonBlank?_eq_some.mp h
      exact ⟨[], _, rfl, hdir, nofun⟩
  · next h =>
      have hsetting := bind_nonBlank?_eq_none.mp h
      split
      · next dir h =>
          obtain ⟨henv, hdir⟩ := bind_nonBlank?_eq_some.mp h
          refine ⟨[setting], [some defaultDataDirectory], by rw [henv]; rfl, hdir, ?_⟩
          exact fun d hd => hsetting d (List.mem_singleton.mp hd).symm
      · next h =>
          have henv := bind_nonBlank?_eq_none.mp h
          refine ⟨[setting, env.get? dataVariable], [], rfl, by decide, fun d hd => ?_⟩
          rw [List.mem_cons, List.mem_singleton] at hd
          obtain hd | hd := hd
          · exact hsetting d hd.symm
          · exact henv d hd.symm

/-! ## The file of the embedded store -/

/-- The name of the embedded store's file, as a path. -/
def databaseName : Path := Path.ofText databaseFileName

/-- The file is that of the embedded store in the directory, on a path from the root, where relative
paths begin in `cwd`. Behind one slash, or two if the directory begins with just two, its path is
written with names alone. -/
structure StoredIn (cwd : Location) (dir file : Path) : Prop where
  written : file.bytes = dir.front ++ Path.bytesOf (dir.trail cwd ++ [databaseName.bytes])
  names : ∀ n ∈ dir.trail cwd ++ [databaseName.bytes], Path.IsName n
  absolute : file.isAbsolute = true
  last : file.fileName? = some databaseName.bytes
  /-- It leads where the directory and the name lead. -/
  trail : file.trail cwd = (dir.join databaseName).trail cwd

theorem isName_databaseName : Path.IsName databaseName.bytes := by
  unfold Path.IsName
  decide

theorem storedIn_absolute {cwd : Location} {dir : Path} (hc : ∀ n ∈ cwd, Path.IsName n)
    (hdir : dir.bytes ≠ []) :
    StoredIn cwd dir ((dir.join databaseName).absolute (FileTree.pathOf cwd)) := by
  have hn := isName_databaseName
  have hrel : databaseName.isAbsolute = false := hn.relative
  have htrail : (dir.join databaseName).trail cwd = dir.trail cwd ++ [databaseName.bytes] := by
    rw [Path.trail_join hdir hrel, Path.names_of_isName hn]
  have hnames : ∀ n ∈ dir.trail cwd ++ [databaseName.bytes], Path.IsName n :=
    List.forall_mem_append.mpr
      ⟨fun n => Path.isName_of_mem_trail hc, List.forall_mem_singleton.mpr hn⟩
  have hend : (dir.join databaseName).bytes.getLast? ≠ some Path.slash := by
    rw [Path.getLast?_join hrel hn.ne_nil]
    exact hn.getLast?_ne
  have hfile := Path.written_absolute hc hend
  rw [htrail, Path.front_join hdir hrel] at hfile
  have hne : dir.trail cwd ++ [databaseName.bytes] ≠ [] := by simp
  exact
    { written := hfile
      names := hnames
      absolute := hfile.isAbsolute
      last := hfile.fileName? hnames (by decide)
      trail := (hfile.trail hne hnames).trans htrail.symm }

/-- A text that is not blank writes a path that is not empty. -/
theorem bytes_ofText_ne_nil {dir : String} (h : Text.isBlank dir = false) :
    (Path.ofText dir).bytes ≠ [] := by
  intro hnil
  have hchars : dir.toList = [] := by
    refine List.eq_nil_iff_forall_not_mem.mpr fun c hc => ?_
    exact String.utf8EncodeChar_ne_nil (List.flatMap_eq_nil_iff.mp hnil c hc)
  rw [Text.isBlank, hchars] at h
  cases h

/-! ## Resolution -/

section Settings

variable {settings : Settings} {source : String} {cwd : Path} {env : Environment}

theorem Settings.resolve_sqlite (h : Provider.sqlite.Named settings.provider) :
    settings.resolve source cwd env = .ok (.sqlite (databaseFile cwd env settings.directory)) := by
  rw [Settings.resolve, Provider.ofName?_eq_some_iff.mpr h]

theorem Settings.resolve_postgres (h : Provider.postgres.Named settings.provider) :
    settings.resolve source cwd env = .ok (.postgres ⟨settings.host, settings.port,
      settings.database, settings.user, settings.password, settings.timeoutSeconds⟩) := by
  rw [Settings.resolve, Provider.ofName?_eq_some_iff.mpr h]

/-- Only the provider's name can be wrong. -/
theorem Settings.resolve_eq_error {e : Error} : settings.resolve source cwd env = .error e ↔
    (∀ p : Provider, ¬ p.Named settings.provider) ∧
      e = .invalidProvider settings.provider source := by
  have hnone : (∀ p : Provider, ¬ p.Named settings.provider) ↔
      Provider.ofName? settings.provider = none := by
    rw [Option.eq_none_iff_forall_ne_some]
    exact forall_congr' fun p => not_congr Provider.ofName?_eq_some_iff.symm
  rw [hnone]
  unfold Settings.resolve
  cases Provider.ofName? settings.provider with
  | none => exact ⟨fun h => ⟨rfl, (Except.error.inj h).symm⟩, fun h => congrArg _ h.2.symm⟩
  | some p =>
      refine iff_of_false ?_ (fun h => absurd h.1 nofun)
      cases p with
      | _ => exact nofun

end Settings

/-- **What the options of a source are.** Resolution fails for the provider's name alone. Options
for the embedded store hold its file, in the first directory that is given, and depend on no setting
but that directory; options for the networked one hold the settings as they are. -/
theorem Source.resolve_of_load [Toml.Parser] {files : FileTree} {s : Source} {settings : Settings}
    {log : List Event} (env : Environment) (hl : s.load files = (.ok settings, log))
    (hc : ∀ n ∈ files.cwd, Path.IsName n) :
    (s.resolve files env).2 = log ∧
    (∀ e, (s.resolve files env).1 = .error e ↔
      (∀ p : Provider, ¬ p.Named settings.provider) ∧
        e = .invalidProvider settings.provider s.display) ∧
    (Provider.sqlite.Named settings.provider → ∃ dir file,
      (s.resolve files env).1 = .ok (.sqlite file) ∧
      FirstGiven [settings.directory, env.get? dataVariable, some defaultDataDirectory] dir ∧
      StoredIn files.cwd (Path.ofText dir) file ∧
      ∀ (s' : Source) (settings' : Settings) (log' : List Event),
        s'.load files = (.ok settings', log') → Provider.sqlite.Named settings'.provider →
        settings'.directory = settings.directory →
        (s'.resolve files env).1 = .ok (.sqlite file)) ∧
    (Provider.postgres.Named settings.provider → ∀ env',
      (s.resolve files env').1 =
        .ok (.postgres ⟨settings.host, settings.port, settings.database, settings.user,
          settings.password, settings.timeoutSeconds⟩)) := by
  have loaded : ∀ {s : Source} {settings : Settings} {log : List Event} (env : Environment),
      s.load files = (.ok settings, log) → s.resolve files env =
        (settings.resolve s.display (FileTree.pathOf files.cwd) env, log) := by
    intro s settings log env h
    rw [Source.resolve, h]
  rw [loaded env hl]
  dsimp only
  refine ⟨rfl, fun e => Settings.resolve_eq_error, fun hp => ?_, fun hp env' => ?_⟩
  · have hdir := dataDirectory_firstGiven settings.directory env
    -- The directory is never blank, so its path is under the root or under the working directory.
    obtain ⟨-, -, -, hblank, -⟩ := id hdir
    refine ⟨dataDirectory settings.directory env, databaseFile (FileTree.pathOf files.cwd) env
      settings.directory, Settings.resolve_sqlite hp, hdir, ?_, ?_⟩
    · exact storedIn_absolute hc (bytes_ofText_ne_nil hblank)
    · intro s' settings' log' hl' hp' hsame
      rw [loaded env hl', Settings.resolve_sqlite hp', hsame]
  · rw [loaded env' hl, Settings.resolve_postgres hp]

/-- A source that asks for the embedded store in an odd spelling, and gives a blank directory. -/
def blankDirectory : Source :=
  .inline "odd" "provider = \" Embedded-FILE\\t\"\ndirectory = \"\\u3000 \"\nport = 1\n"

/-- Its settings. -/
def blankSettings : Settings :=
  { Settings.defaults with provider := " Embedded-FILE\t", directory := some "\u3000 ", port := 1 }

/-- An environment that names a directory by a relative path with void segments. -/
def relativeDirectory : Environment := ⟨[(dataVariable, Text.encode " d//./../e/")]⟩

theorem named_blankSettings : Provider.sqlite.Named blankSettings.provider :=
  ⟨[' '], "Embedded-FILE".toList, ['\t'], by decide, List.forall_mem_singleton.mpr (by decide),
    List.forall_mem_singleton.mpr (by decide), by decide⟩

theorem resolve_of_load_blankDirectory :
    blankDirectory.load (.empty [Text.encode "w"]) = (.ok blankSettings, []) ∧
    (∀ n ∈ (FileTree.empty [Text.encode "w"]).cwd, Path.IsName n) ∧
    Provider.sqlite.Named blankSettings.provider ∧
    (blankDirectory.resolve (.empty [Text.encode "w"]) relativeDirectory).1 =
      .ok (.sqlite (Path.ofText "/w/ d/../e/rstudio.sqlite")) ∧
    (∃ dir, FirstGiven [some "\u3000 ", some " d//./../e/", some defaultDataDirectory] dir ∧
      StoredIn [Text.encode "w"] (Path.ofText dir) (Path.ofText "/w/ d/../e/rstudio.sqlite")) := by
  have hl : blankDirectory.load (.empty [Text.encode "w"]) = (.ok blankSettings, []) := by
    decide +kernel
  have hc : ∀ n ∈ (FileTree.empty [Text.encode "w"]).cwd, Path.IsName n := by
    unfold Path.IsName
    decide
  have hfile : (blankDirectory.resolve (.empty [Text.encode "w"]) relativeDirectory).1 =
      .ok (.sqlite (Path.ofText "/w/ d/../e/rstudio.sqlite")) := by
    decide +kernel
  obtain ⟨-, -, hsqlite, -⟩ := Source.resolve_of_load relativeDirectory hl hc
  obtain ⟨dir, file, hres, hdir, hstored, -⟩ := hsqlite named_blankSettings
  obtain rfl : _ = file := Options.sqlite.inj (Except.ok.inj (hfile.symm.trans hres))
  exact ⟨hl, hc, named_blankSettings, hfile, dir, hdir, hstored⟩

end Config

end PooledStore
