import Mathlib.Data.List.Basic
import PooledStore.Proofs.Config.Keys
import PooledStore.Server.Config
import PooledStore.Toml.Document

/-!
# The layers of the server's configuration

Whether there is a configuration depends on the file alone (`Refuses`). Each of three settings is
decided by its variable, else by what the file gives for it, else by its default, whatever the
others are (`Decided`); the directory of the database settings is decided by the file alone. A
section of the file gives its fields by name, or, written as an array, by place (`given?`).
-/

set_option autoImplicit false

namespace PooledStore.Server.ServerConfig

open Config Toml

/-! ## What a document gives -/

/-- The settings that a configuration file can give. -/
inductive Setting where
  | updateSchema
  | configDir
  | level
  | json
  deriving DecidableEq, Repr

/-- The section that a setting stands in. -/
def Setting.heading : Setting → String
  | .updateSchema => "database"
  | .configDir => "database"
  | .level => "logging"
  | .json => "logging"

/-- The setting's name in its section. -/
def Setting.name : Setting → String
  | .updateSchema => "update_schema"
  | .configDir => "config_dir"
  | .level => "level"
  | .json => "json"

/-- The fields of the section that a setting stands in, in order. -/
def Setting.fields : Setting → List String
  | .updateSchema => ["update_schema", "config_dir"]
  | .configDir => ["update_schema", "config_dir"]
  | .level => ["level", "json"]
  | .json => ["level", "json"]

/-- The setting's place in its section. -/
def Setting.place : Setting → Nat
  | .updateSchema => 0
  | .configDir => 1
  | .level => 0
  | .json => 1

/-- The values that a setting can have. -/
def Setting.Admits : Setting → Value → Prop
  | .updateSchema => IsFlag
  | .configDir => IsText
  | .level => IsText
  | .json => IsFlag

/-- What a document gives for a setting. -/
def given? (doc : Entries) (k : Setting) : Option Value :=
  match doc.get? k.heading with
  | some (.table _ es) => List.lookup k.name es
  | some (.array _ vs) => vs[k.place]?
  | _ => none

/-- A section can be a table, an array, or a point in time, which gives nothing. -/
inductive IsSection : Value → Prop where
  | table (origin : Origin) (es : Entries) : IsSection (.table origin es)
  | array (byHeadings : Bool) (vs : List Value) : IsSection (.array byHeadings vs)
  | moment : IsSection .moment

/-- The document is a configuration: its sections are such, and give what the settings can be. -/
structure Decodes (doc : Entries) : Prop where
  sections : ∀ (k : Setting) (v : Value), doc.get? k.heading = some v → IsSection v
  settings : ∀ (k : Setting) (v : Value), given? doc k = some v → k.Admits v

variable {doc es : Entries} {k : Setting} {names : List String} {name : String} {vs : List Value}
  {i : Nat} {v : Value}

/-- Where names stand for places, looking up a name gives what is in its place. -/
theorem lookup_zip (hn : names.Nodup) (hi : names[i]? = some name) :
    (names.zip vs).lookup name = vs[i]? := by
  induction names generalizing vs i with
  | nil => cases hi
  | cons first names ih =>
      obtain ⟨hfirst, hn⟩ := List.nodup_cons.mp hn
      cases vs with
      | nil => rfl
      | cons v vs =>
          cases i with
          | zero =>
              obtain rfl : first = name := by simpa using hi
              simp
          | succ i =>
              have hi' : names[i]? = some name := by simpa using hi
              have hne : (name == first) = false := by
                rw [beq_eq_false_iff_ne]
                rintro rfl
                exact hfirst (List.mem_of_getElem? hi')
              rw [List.zip_cons_cons, List.lookup_cons, hne, ih hn hi', List.getElem?_cons_succ]

theorem Setting.lookup_fields : (k.fields.zip vs).lookup k.name = vs[k.place]? := by
  refine lookup_zip ?_ ?_
  · cases k <;> decide
  · cases k <;> rfl

/-! ## Sections -/

theorem isSection_iff : IsSection v ↔ ∃ es, sectionFields names (some v) = some es := by
  constructor
  · intro h
    cases h <;> exact ⟨_, rfl⟩
  · rintro ⟨es, h⟩
    cases v with
    | table origin es => exact .table origin es
    | array byHeadings vs => exact .array byHeadings vs
    | moment => exact .moment
    | text _ | integer _ | float | boolean _ => cases h

/-- Under a setting's name the fields of its section hold what the document gives for it. -/
theorem get?_of_sectionFields (h : sectionFields k.fields (doc.get? k.heading) = some es) :
    es.get? k.name = given? doc k := by
  unfold given?
  cases hv : doc.get? k.heading with
  | none =>
      rw [hv] at h
      obtain rfl := Option.some.inj h
      rfl
  | some v =>
      rw [hv] at h
      cases v with
      | table origin es' | moment =>
          obtain rfl := Option.some.inj h
          rfl
      | array byHeadings vs =>
          obtain rfl := Option.some.inj h
          exact Setting.lookup_fields
      | text _ | integer _ | float | boolean _ => cases h

theorem Decodes.exists_sectionFields (h : Decodes doc) (k : Setting) :
    ∃ es, sectionFields k.fields (doc.get? k.heading) = some es := by
  cases hv : doc.get? k.heading with
  | none => exact ⟨[], rfl⟩
  | some v => exact isSection_iff.mp (h.sections k v hv)

variable {α : Type} {read : Value → Option α} {write : α → Option Value} {a d : α}

theorem Decodes.exists_valueOr (h : Decodes doc) (hr : Reads k.Admits read write)
    (hf : sectionFields k.fields (doc.get? k.heading) = some es) :
    ∃ a, valueOr read es k.name d = some a :=
  hr.exists_valueOr fun v hv => h.settings k v (get?_of_sectionFields hf ▸ hv)

/-- A document that decodes gives a configuration. -/
theorem Decodes.exists_ofEntries? (h : Decodes doc) : ∃ c, ofEntries? doc = some c := by
  obtain ⟨database, hdatabase⟩ := h.exists_sectionFields .updateSchema
  obtain ⟨logging, hlogging⟩ := h.exists_sectionFields .level
  obtain ⟨updateSchema, hupdate⟩ :=
    h.exists_valueOr (k := .updateSchema) (d := defaults.updateSchema) reads_flag hdatabase
  obtain ⟨configDir, hdir⟩ :=
    h.exists_valueOr (k := .configDir) (d := none) reads_optionalText hdatabase
  obtain ⟨level, hlevel⟩ :=
    h.exists_valueOr (k := .level) (d := defaults.level) reads_text hlogging
  obtain ⟨json, hjson⟩ := h.exists_valueOr (k := .json) (d := defaults.json) reads_flag hlogging
  simp only [Setting.heading, Setting.fields] at hdatabase hlogging
  simp only [Setting.name] at hupdate hdir hlevel hjson
  refine ⟨⟨updateSchema, configDir.map Path.ofText, level, json⟩, ?_⟩
  simp only [ofEntries?, textOr_eq_valueOr, optionalText_eq_valueOr, flagOr_eq_valueOr, hdatabase,
    hlogging, hupdate, hdir, hlevel, hjson, Option.bind_eq_bind, Option.bind_some, Option.pure_def]

/-! ## Layers -/

/-- A setting is decided by its variable, where that is set, else by the value that the file gives,
else by the default. -/
inductive Decided {α : Type} (set? : Option String) (Means : String → α → Prop)
    (given : Option Value) (write : α → Value) (default : α) : α → Prop where
  | byVariable {v : String} {a : α} : set? = some v → Means v a →
      Decided set? Means given write default a
  | byFile {a : α} : set? = none → given = some (write a) →
      Decided set? Means given write default a
  | byDefault : set? = none → given = none →
      Decided set? Means given write default default

/-- The configuration that a document and the environment make. Only what a variable sets to a text
counts as set. The directory is decided by the document alone. -/
structure Layered (doc : Entries) (env : Environment) (c : ServerConfig) : Prop where
  level : Decided (env.get? levelVariable) (fun v s => s = v)
    (given? doc .level) .text defaults.level c.level
  json : Decided (env.get? jsonVariable) (fun v b => b = true ↔ v = "true" ∨ v = "1")
    (given? doc .json) .boolean defaults.json c.json
  updateSchema : Decided (env.get? updateVariable) (fun v b => b = false ↔ v = "false" ∨ v = "0")
    (given? doc .updateSchema) .boolean defaults.updateSchema c.updateSchema
  configDir : ∃ d : Option String, given? doc .configDir = d.map .text ∧
    c.configDir = d.map Path.ofText

variable {put : α → Value} {Means : String → α → Prop} {set? : Option String} {b : α}
  {given : Option Value} {c : ServerConfig}

theorem Decided.means {s : String} (h : Decided set? Means given put d a) (hs : set? = some s) :
    Means s a := by
  cases h with
  | byVariable hs' hmeans => exact Option.some.inj (hs'.symm.trans hs) ▸ hmeans
  | byFile hnone _ | byDefault hnone _ =>
      rw [hs] at hnone
      cases hnone

theorem Decided.written (h : Decided set? Means given put d a) (hs : set? = none)
    (hv : given = some v) : put a = v := by
  cases h with
  | byVariable hs' _ =>
      rw [hs] at hs'
      cases hs'
  | byFile _ hv' => exact Option.some.inj (hv'.symm.trans hv)
  | byDefault _ hnone =>
      rw [hv] at hnone
      cases hnone

/-- A setting that is what its variable means, where that is set, and otherwise what is read from
its section, is decided. -/
theorem decided_of_valueOr (hr : Reads k.Admits read fun a => some (put a))
    (hf : sectionFields k.fields (doc.get? k.heading) = some es)
    (h : valueOr read es k.name d = some a) (hset : ∀ v, set? = some v → Means v b)
    (hunset : set? = none → b = a) : Decided set? Means (given? doc k) put d b := by
  cases hs : set? with
  | some v => exact .byVariable rfl (hset v hs)
  | none =>
      obtain rfl := hunset hs
      obtain ⟨v, hv, -, hw⟩ | ⟨hnone, rfl⟩ := hr.valueOr_eq_some_iff.mp h
      · obtain rfl := Option.some.inj hw
        exact .byFile rfl ((get?_of_sectionFields hf).symm.trans hv)
      · exact .byDefault rfl ((get?_of_sectionFields hf).symm.trans hnone)

theorem admits_of_valueOr (hr : Reads k.Admits read write)
    (hf : sectionFields k.fields (doc.get? k.heading) = some es)
    (h : valueOr read es k.name d = some a) (hv : given? doc k = some v) : k.Admits v := by
  rw [← get?_of_sectionFields hf] at hv
  obtain ⟨v', hv', hadmits, -⟩ | ⟨hnone, -⟩ := hr.valueOr_eq_some_iff.mp h
  · exact Option.some.inj (hv'.symm.trans hv) ▸ hadmits
  · rw [hv] at hnone
    cases hnone

/-- What a document decodes to, under the variables. -/
theorem layered_of_ofEntries? (env : Environment) (h : ofEntries? doc = some c) :
    Decodes doc ∧ Layered doc env (c.override env) := by
  simp only [ofEntries?, textOr_eq_valueOr, optionalText_eq_valueOr, flagOr_eq_valueOr,
    Option.bind_eq_bind, Option.bind_eq_some_iff, Option.pure_def, Option.some.injEq] at h
  obtain ⟨database, hdatabase, updateSchema, hupdate, configDir, hdir, logging, hlogging, level,
    hlevel, json, hjson, rfl⟩ := h
  refine ⟨⟨fun k v hv => ?_, fun k v hv => ?_⟩, ⟨?_, ?_, ?_, ?_⟩⟩
  · -- A heading that is there has been read as a section.
    have hsection : ∃ names es, sectionFields names (doc.get? k.heading) = some es := by
      cases k with
      | updateSchema | configDir => exact ⟨_, _, hdatabase⟩
      | level | json => exact ⟨_, _, hlogging⟩
    obtain ⟨names, es, hes⟩ := hsection
    rw [hv] at hes
    exact isSection_iff.mpr ⟨es, hes⟩
  · cases k with
    | updateSchema => exact admits_of_valueOr (k := .updateSchema) reads_flag hdatabase hupdate hv
    | configDir => exact admits_of_valueOr (k := .configDir) reads_optionalText hdatabase hdir hv
    | level => exact admits_of_valueOr (k := .level) reads_text hlogging hlevel hv
    | json => exact admits_of_valueOr (k := .json) reads_flag hlogging hjson hv
  · refine decided_of_valueOr (k := .level) reads_text hlogging hlevel (fun v hv => ?_)
      fun hnone => ?_
    · simp only [override, hv, Option.getD_some]
    · simp only [override, hnone, Option.getD_none]
  · refine decided_of_valueOr (k := .json) reads_flag hlogging hjson (fun v hv => ?_)
      fun hnone => ?_
    · simp only [override, hv, Option.map_some, Option.getD_some, Bool.or_eq_true, beq_iff_eq]
    · simp only [override, hnone, Option.map_none, Option.getD_none]
  · refine decided_of_valueOr (k := .updateSchema) reads_flag hdatabase hupdate (fun v hv => ?_)
      fun hnone => ?_
    · simp only [override, hv, Option.map_some, Option.getD_some, Bool.not_eq_false',
        Bool.or_eq_true, beq_iff_eq]
    · simp only [override, hnone, Option.map_none, Option.getD_none]
  · refine ⟨configDir, ?_, rfl⟩
    rw [← get?_of_sectionFields (k := .configDir) hdatabase]
    obtain ⟨v, hv, -, hw⟩ | ⟨hnone, rfl⟩ := reads_optionalText.valueOr_eq_some_iff.mp hdir
    · exact hv.trans hw.symm
    · exact hnone

/-- A text is refused if it is no document, or one that does not decode. -/
theorem ofText_eq_none_iff {o : Option Entries} :
    o.bind ofEntries? = none ↔ ∀ doc, o = some doc → ¬ Decodes doc := by
  rw [Option.bind_eq_none_iff]
  refine forall_congr' fun doc => imp_congr_right fun _ => ⟨fun hnone hd => ?_, fun hno => ?_⟩
  · obtain ⟨c, hc⟩ := hd.exists_ofEntries?
    rw [hnone] at hc
    cases hc
  · exact Option.eq_none_iff_forall_ne_some.mpr fun c hc =>
      hno (layered_of_ofEntries? ⟨[]⟩ hc).1

/-! ## Loading -/

/-- There is no configuration in the file: reading it fails, with anything but its not being there,
or its text does not decode. -/
inductive Refuses [Parser] (files : FileTree) (p : Path) : ConfigError → Prop where
  | unread {e : FileError} : files.readText p = .error e → e ≠ .notFound →
      Refuses files p (.fileRead e)
  | undecoded {text : String} : files.readText p = .ok text →
      (∀ doc, Parser.parse text = some doc → ¬ Decodes doc) → Refuses files p .parse

/-- The document that the configuration is read from. It has no entries where no file is named or
none is there. -/
inductive Reading [Parser] (files : FileTree) : Option Path → Entries → Prop where
  | unnamed : Reading files none []
  | missing {p : Path} : files.readText p = .error .notFound → Reading files (some p) []
  | written {p : Path} {text : String} {doc : Entries} : files.readText p = .ok text →
      Parser.parse text = some doc → Reading files (some p) doc

section

variable [Parser] {files : FileTree} {p : Path} {e : ConfigError}

theorem ofFile_eq_error_iff : ofFile files p = .error e ↔ Refuses files p e := by
  constructor
  · intro h
    unfold ofFile at h
    split at h
    · next text ht =>
        split at h
        · cases h
        · next hnone =>
            obtain rfl := Except.error.inj h
            exact .undecoded ht (ofText_eq_none_iff.mp hnone)
    · cases h
    · next e' hno ht =>
        obtain rfl := Except.error.inj h
        exact .unread ht hno
  · intro h
    cases h with
    | @unread e ht hne =>
        cases e with
        | notFound => exact absurd rfl hne
        | _ => simp only [ofFile, ht]
    | undecoded ht hno => simp only [ofFile, ht, ofText_eq_none_iff.mpr hno]

theorem exists_reading (h : ofFile files p = .ok c) :
    ∃ doc, Reading files (some p) doc ∧ ofEntries? doc = some c := by
  unfold ofFile at h
  split at h
  · next text ht =>
      split at h
      · next c' hc =>
          obtain rfl := Except.ok.inj h
          obtain ⟨doc, hdoc, hc⟩ := Option.bind_eq_some_iff.mp hc
          exact ⟨doc, .written ht hdoc, hc⟩
      · cases h
  · next ht =>
      obtain rfl := Except.ok.inj h
      exact ⟨[], .missing ht, ofEntries?_nil⟩
  · cases h

/-- A file that is not there, and one without text, count as no file. -/
theorem ofFile_of_nothing
    (h : files.readText p = .error .notFound ∨ files.readText p = .ok "") :
    ofFile files p = .ok defaults := by
  obtain h | h := h
  · simp only [ofFile, h]
  · simp only [ofFile, h, Parser.parse_empty]
    rfl

/-- **The configuration comes in layers.** There is none exactly if the file refuses it, whatever
the environment is. Otherwise each setting is decided on its own by the layers of the document and
the environment. A missing file, no path and an empty text make the same configuration. -/
theorem load_layered (files : FileTree) (env : Environment) (path : Option Path) :
    (∀ e, load files env path = .error e ↔ ∃ p, path = some p ∧ Refuses files p e) ∧
    (∀ c, load files env path = .ok c → ∃ doc, Reading files path doc ∧ Layered doc env c) ∧
    ∀ p, files.readText p = .error .notFound ∨ files.readText p = .ok "" →
      load files env (some p) = load files env none := by
  refine ⟨fun e => ?_, fun c h => ?_, fun p hp => ?_⟩
  · cases path with
    | none => exact ⟨nofun, fun ⟨p, hp, _⟩ => nomatch hp⟩
    | some p =>
        rw [load]
        simp only [Option.some.injEq, exists_eq_left', ← ofFile_eq_error_iff]
        cases ofFile files p with
        | error e' => exact Iff.rfl
        | ok c => exact ⟨nofun, nofun⟩
  · cases path with
    | none =>
        obtain rfl := Except.ok.inj h
        exact ⟨[], .unnamed, (layered_of_ofEntries? env ofEntries?_nil).2⟩
    | some p =>
        cases hfile : ofFile files p with
        | error e =>
            rw [load, hfile] at h
            cases h
        | ok c₀ =>
            rw [load, hfile] at h
            obtain rfl := Except.ok.inj h
            obtain ⟨doc, hr, hdoc⟩ := exists_reading hfile
            exact ⟨doc, hr, (layered_of_ofEntries? env hdoc).2⟩
  · show (ofFile files p).map (·.override env) = _
    rw [ofFile_of_nothing hp]
    rfl

end

/-- A configuration file whose database section gives its fields by place, and a directory. -/
def positional : FileTree where
  cwd := []
  nodes :=
    [([Text.encode "c"], .file 0o600 (.bytes (Text.encode "database = [false, \"/d\"]"))),
      ([Text.encode "sub"], .directory 0o700)]

/-- An environment that sets how the server logs. -/
def loggingSet : Environment :=
  ⟨[(levelVariable, Text.encode "debug"), (jsonVariable, Text.encode "yes")]⟩

theorem readText_positional :
    positional.readText (.ofText "c") = .ok "database = [false, \"/d\"]" := by decide +kernel

theorem parse_positional : ∃ doc, Parser.parse "database = [false, \"/d\"]" = some doc ∧
    Decodes doc ∧ given? doc .updateSchema = some (.boolean false) := by
  have hconfig : ((Parser.parse "database = [false, \"/d\"]").bind ofEntries?).isSome = true := by
    decide +kernel
  obtain ⟨c, hc⟩ := Option.isSome_iff_exists.mp hconfig
  obtain ⟨doc, hdoc, hc⟩ := Option.bind_eq_some_iff.mp hc
  have hflag : ((Parser.parse "database = [false, \"/d\"]").bind (given? · .updateSchema)).bind
      Value.flag? = some false := by decide +kernel
  rw [hdoc, Option.bind_some] at hflag
  obtain ⟨v, hv, hflag⟩ := Option.bind_eq_some_iff.mp hflag
  obtain ⟨-, hwritten⟩ := (reads_flag.exact v false).mp hflag
  exact ⟨doc, hdoc, (layered_of_ofEntries? loggingSet hc).1, hv.trans hwritten.symm⟩

theorem load_layered_positional :
    (∃ c, load positional loggingSet (some (.ofText "c")) = .ok c ∧ c.level = "debug" ∧
      c.json = false ∧ c.updateSchema = false) ∧
    load positional loggingSet (some (.ofText "sub")) = .error (.fileRead .isADirectory) ∧
    load positional loggingSet (some (.ofText "gone")) = load positional loggingSet none := by
  obtain ⟨herror, hok, -⟩ := load_layered positional loggingSet (some (.ofText "c"))
  obtain ⟨hsub, -, hgone⟩ := load_layered positional loggingSet (some (.ofText "sub"))
  obtain ⟨doc, hdoc, hdecodes, hgiven⟩ := parse_positional
  refine ⟨?_, (hsub _).mpr ⟨_, rfl, .unread (by decide) nofun⟩, hgone _ (Or.inl (by decide))⟩
  cases hload : load positional loggingSet (some (.ofText "c")) with
  | error e =>
      obtain ⟨p, hp, hrefuses⟩ := (herror e).mp hload
      obtain rfl := Option.some.inj hp
      cases hrefuses with
      | unread hno _ =>
          rw [readText_positional] at hno
          cases hno
      | undecoded htext hno =>
          obtain rfl := Except.ok.inj (readText_positional.symm.trans htext)
          exact absurd hdecodes (hno doc hdoc)
  | ok c =>
      obtain ⟨doc', hr, hl⟩ := hok c hload
      obtain rfl : doc' = doc := by
        cases hr with
        | missing hno =>
            rw [readText_positional] at hno
            cases hno
        | written htext hdoc' =>
            obtain rfl := Except.ok.inj (readText_positional.symm.trans htext)
            exact Option.some.inj (hdoc'.symm.trans hdoc)
      have hyes : loggingSet.get? jsonVariable = some "yes" := by decide
      refine ⟨c, rfl, hl.level.means (by decide), ?_, ?_⟩
      · exact Bool.eq_false_iff.mpr (mt (hl.json.means hyes).mp (by decide))
      · exact Value.boolean.inj (hl.updateSchema.written (by decide) hgiven)

end PooledStore.Server.ServerConfig
