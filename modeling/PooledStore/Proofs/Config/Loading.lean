import PooledStore.Config.Source
import PooledStore.Proofs.Config.Keys
import PooledStore.Proofs.Host.Files
import PooledStore.Proofs.Text.Utf8
import PooledStore.Toml.Document

/-!
# What loading settings gives

Each key of the settings is decided on its own: by the value that the document gives for it, which
the key must admit, or by the default (`Settings.Takes`). A file is loaded as its text would be, and
one that is not there as the empty text. Nothing else about the file matters, its permission bits
included (`Source.load_agrees`).
-/

set_option autoImplicit false

namespace PooledStore.FileTree

/-! ## Reading a file -/

variable {files : FileTree} {p : Path} {l : Location} {mode mode' : Nat} {contents : Contents}
  {e : FileError}

/-- The text that contents are. -/
def textOf : Contents → Except FileError String
  | .bytes bs =>
    match Text.decode? bs with
    | some text => .ok text
    | none => .error .notText
  | .database _ => .error .notText

/-- Where a path leads to nothing, nothing is found to be read. -/
theorem readText_of_lookup (h : files.lookup p = .error .notFound) :
    files.readText p = .error .notFound := by
  unfold lookup at h
  unfold readText read
  cases hr : files.resolve true p with
  | error e =>
      rw [hr] at h
      obtain rfl : e = .notFound := Except.error.inj h
      rfl
  | ok l =>
      rw [hr] at h
      cases hn : files.node? l with
      | none => simp [bind, Except.bind, hn]
      | some node => simp [bind, Except.bind, hn] at h

/-- A file that may be read has the text that its contents are, whatever its bits say. -/
theorem readText_of_node (hr : files.resolve true p = .ok l)
    (hn : files.node? l = some (.file mode contents)) : files.readText p =
      if files.permits .read l mode then textOf contents else .error .permissionDenied := by
  cases hm : files.permits .read l mode with
  | false => simp [readText, read, hr, bind, Except.bind, hn, hm]
  | true =>
      simp only [readText, read, hr, bind, Except.bind, hn, hm, if_true]
      cases contents <;> rfl

/-- With other bits the file is in its place still, and can be read if that is permitted still. -/
theorem readText_set (hr : files.resolve true p = .ok l)
    (hn : files.node? l = some (.file mode contents))
    (hm : files.permits .read l mode' = files.permits .read l mode) :
    (files.set l (.file mode' contents)).readText p = files.readText p := by
  have hplace : l ≠ [] := by
    rintro rfl
    cases hn
  have hsame : files.Refined (files.set l (.file mode' contents)) :=
    refined_set (Or.inr ⟨mode, contents, hn⟩)
  rw [readText_of_node (resolve_of_refined hsame hr) (node?_set_self hplace),
    readText_of_node hr hn, hsame.permits, hm]

end PooledStore.FileTree

namespace PooledStore.Config

open Toml

/-! ## Keys -/

/-- The keys of the settings. -/
inductive Key where
  | provider
  | directory
  | host
  | port
  | database
  | user
  | password
  | timeout
  deriving DecidableEq, Repr

/-- The key as documents write it. -/
def Key.name : Key → String
  | .provider => "provider"
  | .directory => "directory"
  | .host => "host"
  | .port => "port"
  | .database => "database"
  | .user => "user"
  | .password => "password"
  | .timeout => "connection-timeout-seconds"

/-- The values that a key can have: numbers in a range, or texts. -/
def Key.Admits : Key → Value → Prop
  | .port => IsNatural Settings.maxPort
  | .timeout => IsNatural Settings.maxSeconds
  | .provider | .directory | .host | .database | .user | .password => IsText

/-- What the settings hold under a key, as a document would give it. -/
def Settings.value (s : Settings) : Key → Option Value
  | .provider => some (.text s.provider)
  | .directory => s.directory.map .text
  | .host => some (.text s.host)
  | .port => some (.integer s.port)
  | .database => some (.text s.database)
  | .user => some (.text s.user)
  | .password => some (.text s.password)
  | .timeout => some (.integer s.timeoutSeconds)

/-- Under this key the settings hold what the document gives, or else the default. -/
inductive Settings.Takes (s : Settings) (doc : Entries) (k : Key) : Prop where
  | given {v : Value} : doc.get? k.name = some v → k.Admits v → s.value k = some v → Takes s doc k
  | absent : doc.get? k.name = none → s.value k = defaults.value k → Takes s doc k

variable {doc : Entries} {s : Settings} {k : Key} {α : Type} {read : Value → Option α}
  {write : α → Option Value} {a d : α}

/-- A key is read to what the settings take from the document. -/
theorem takes_iff (s : Settings) (doc : Entries) (h : Reads k.Admits read write)
    (hs : s.value k = write a) (hd : Settings.defaults.value k = write d) :
    valueOr read doc k.name d = some a ↔ s.Takes doc k := by
  rw [h.valueOr_eq_some_iff]
  constructor
  · rintro (⟨v, hv, hadmits, hw⟩ | ⟨hnone, rfl⟩)
    · exact .given hv hadmits (hs.trans hw)
    · exact .absent hnone (hs.trans hd.symm)
  · intro ht
    cases ht with
    | given hv hadmits hsame => exact Or.inl ⟨_, hv, hadmits, hs.symm.trans hsame⟩
    | absent hnone hsame =>
        exact Or.inr ⟨hnone, h.injective (hs.symm.trans (hsame.trans hd))⟩

namespace Settings

/-! ## Documents -/

/-- The settings that a document gives take every key from it. -/
theorem ofEntries?_eq_some_iff : ofEntries? doc = some s ↔ ∀ k, s.Takes doc k := by
  have hprovider := takes_iff s doc (k := .provider) reads_text rfl rfl
  have hdirectory := takes_iff s doc (k := .directory) (d := none) reads_optionalText rfl rfl
  have hhost := takes_iff s doc (k := .host) reads_text rfl rfl
  have hport := takes_iff s doc (k := .port) (reads_natural maxPort) rfl rfl
  have hdatabase := takes_iff s doc (k := .database) reads_text rfl rfl
  have huser := takes_iff s doc (k := .user) reads_text rfl rfl
  have hpassword := takes_iff s doc (k := .password) reads_text rfl rfl
  have htimeout := takes_iff s doc (k := .timeout) (reads_natural maxSeconds) rfl rfl
  simp only [ofEntries?, textOr_eq_valueOr, optionalText_eq_valueOr, naturalOr_eq_valueOr,
    Option.bind_eq_bind, Option.bind_eq_some_iff, Option.pure_def, Option.some.injEq]
  constructor
  · rintro ⟨provider, h₁, directory, h₂, host, h₃, port, h₄, database, h₅, user, h₆, password, h₇,
      timeout, h₈, rfl⟩ k
    cases k with
    | provider => exact hprovider.mp h₁
    | directory => exact hdirectory.mp h₂
    | host => exact hhost.mp h₃
    | port => exact hport.mp h₄
    | database => exact hdatabase.mp h₅
    | user => exact huser.mp h₆
    | password => exact hpassword.mp h₇
    | timeout => exact htimeout.mp h₈
  · intro h
    exact ⟨_, hprovider.mpr (h _), _, hdirectory.mpr (h _), _, hhost.mpr (h _),
      _, hport.mpr (h _), _, hdatabase.mpr (h _), _, huser.mpr (h _), _, hpassword.mpr (h _),
      _, htimeout.mpr (h _), rfl⟩

/-- A document that gives only what its keys admit gives settings. -/
theorem exists_ofEntries? (h : ∀ k v, doc.get? (Key.name k) = some v → k.Admits v) :
    ∃ s, ofEntries? doc = some s := by
  obtain ⟨provider, hprovider⟩ := reads_text.exists_valueOr (d := defaults.provider) (h .provider)
  obtain ⟨directory, hdirectory⟩ := reads_optionalText.exists_valueOr (d := none) (h .directory)
  obtain ⟨host, hhost⟩ := reads_text.exists_valueOr (d := defaults.host) (h .host)
  obtain ⟨port, hport⟩ := (reads_natural maxPort).exists_valueOr (d := defaults.port) (h .port)
  obtain ⟨database, hdatabase⟩ := reads_text.exists_valueOr (d := defaults.database) (h .database)
  obtain ⟨user, huser⟩ := reads_text.exists_valueOr (d := defaults.user) (h .user)
  obtain ⟨password, hpassword⟩ := reads_text.exists_valueOr (d := defaults.password) (h .password)
  obtain ⟨timeout, htimeout⟩ :=
    (reads_natural maxSeconds).exists_valueOr (d := defaults.timeoutSeconds) (h .timeout)
  simp only [Key.name] at hprovider hdirectory hhost hport hdatabase huser hpassword htimeout
  refine ⟨⟨provider, directory, host, port, database, user, password, timeout⟩, ?_⟩
  simp only [ofEntries?, textOr_eq_valueOr, optionalText_eq_valueOr, naturalOr_eq_valueOr,
    hprovider, hdirectory, hhost, hport, hdatabase, huser, hpassword, htimeout,
    Option.bind_eq_bind, Option.bind_some, Option.pure_def]

/-- A document is refused if it gives a value that its key does not admit. -/
theorem ofEntries?_eq_none_iff :
    ofEntries? doc = none ↔ ∃ k v, doc.get? (Key.name k) = some v ∧ ¬ k.Admits v := by
  constructor
  · refine fun hnone => Classical.byContradiction fun hall => ?_
    obtain ⟨s, hs⟩ := exists_ofEntries? fun k v hv =>
      Classical.byContradiction fun hno => hall ⟨k, v, hv, hno⟩
    rw [hnone] at hs
    cases hs
  · rintro ⟨k, v, hv, hno⟩
    refine Option.eq_none_iff_forall_ne_some.mpr fun s hs => ?_
    cases ofEntries?_eq_some_iff.mp hs k with
    | given hv' hadmits _ => exact hno (Option.some.inj (hv'.symm.trans hv) ▸ hadmits)
    | absent hnone _ =>
        rw [hv] at hnone
        cases hnone

end Settings

/-! ## Texts -/

/-- What a text of this name is decoded to: settings that take every key from the document, or an
error where there is no document or it gives a value that its key does not admit. -/
inductive Decoded [Parser] (name text : String) : Except Error Settings → Prop where
  | settings {doc : Entries} {s : Settings} :
      Parser.parse text = some doc → (∀ k, s.Takes doc k) → Decoded name text (.ok s)
  | rejected : Parser.parse text = none → Decoded name text (.error (.parse name))
  | refused {doc : Entries} {k : Key} {v : Value} :
      Parser.parse text = some doc → doc.get? k.name = some v → ¬ k.Admits v →
      Decoded name text (.error (.parse name))

theorem Decoded.of_ofText? [Parser] {name text : String} (h : Settings.ofText? text = some s) :
    Decoded name text (.ok s) := by
  obtain ⟨doc, hdoc, hs⟩ := Option.bind_eq_some_iff.mp h
  exact .settings hdoc (Settings.ofEntries?_eq_some_iff.mp hs)

namespace Source

section

variable [Parser] {files : FileTree} {p : Path} {name text : String} {r : Except Error Settings}
  {e : FileError}

theorem decoded_iff : (inline name text).decode text = r ↔ Decoded name text r := by
  unfold decode Settings.ofText?
  constructor
  · rintro rfl
    cases hdoc : Parser.parse text with
    | none => exact .rejected hdoc
    | some doc =>
        rw [Option.bind_some]
        cases hs : Settings.ofEntries? doc with
        | none =>
            obtain ⟨k, v, hv, hno⟩ := Settings.ofEntries?_eq_none_iff.mp hs
            exact .refused hdoc hv hno
        | some s => exact .settings hdoc (Settings.ofEntries?_eq_some_iff.mp hs)
  · intro h
    cases h with
    | settings hdoc hs => rw [hdoc, Option.bind_some, Settings.ofEntries?_eq_some_iff.mpr hs]
    | rejected hdoc =>
        rw [hdoc, Option.bind_none]
        rfl
    | refused hdoc hv hno =>
        rw [hdoc, Option.bind_some, Settings.ofEntries?_eq_none_iff.mpr ⟨_, _, hv, hno⟩]
        rfl

/-! ## Files -/

theorem load_of_text (h : files.readText p = .ok text) :
    ((file p).load files).1 = ((inline p.display text).load files).1 := by
  simp only [load, h]
  rfl

theorem load_of_notFound (h : files.readText p = .error .notFound) :
    ((file p).load files).1 = ((inline p.display "").load files).1 := by
  simp only [load, h, decode, Settings.ofText?, Parser.parse_empty]
  rfl

theorem load_of_error (h : files.readText p = .error e) (hne : e ≠ .notFound) :
    ((file p).load files).1 = .error (.read p e) := by
  cases e with
  | notFound => exact absurd rfl hne
  | _ => simp only [load, h]

theorem load_congr {files' : FileTree} (h : files'.readText p = files.readText p) :
    ((file p).load files').1 = ((file p).load files).1 := by
  cases ht : files.readText p with
  | ok text =>
      rw [load_of_text ht, load_of_text (h.trans ht)]
      rfl
  | error e =>
      by_cases he : e = .notFound
      · subst he
        rw [load_of_notFound ht, load_of_notFound (h.trans ht)]
        rfl
      · rw [load_of_error ht he, load_of_error (h.trans ht) he]

/-- **Loading agrees on every path.** A text in memory is decoded, key by key. A file is loaded as
its text would be under the file's name; one that is not there, which may be a link to nothing, as
the empty text; and where the file cannot be read otherwise, loading fails with the reason. Nothing
but what reading the file gives matters: its permission bits may be any others with which it is as
permitted to read it as before. -/
theorem load_agrees (files : FileTree) :
    (∀ name text r, ((inline name text).load files).1 = r ↔ Decoded name text r) ∧
    ∀ p,
      (∀ text, files.readText p = .ok text →
        ((file p).load files).1 = ((inline p.display text).load files).1) ∧
      (files.readText p = .error .notFound →
        ((file p).load files).1 = ((inline p.display "").load files).1) ∧
      (∀ e, files.readText p = .error e → e ≠ .notFound →
        ((file p).load files).1 = .error (.read p e)) ∧
      (files.lookup p = .error .notFound → files.readText p = .error .notFound) ∧
      (∀ files', files'.readText p = files.readText p →
        ((file p).load files').1 = ((file p).load files).1) ∧
      ∀ l mode contents, files.resolve true p = .ok l →
        files.node? l = some (.file mode contents) →
        (files.permits .read l mode = true → ∀ bs, contents = .bytes bs →
          (∀ text, Text.encode text = bs → files.readText p = .ok text) ∧
          ((∀ text, Text.encode text ≠ bs) → files.readText p = .error .notText)) ∧
        ∀ mode', files.permits .read l mode' = files.permits .read l mode →
          ((file p).load (files.set l (.file mode' contents))).1 = ((file p).load files).1 := by
  refine ⟨fun name text r => decoded_iff, fun p => ⟨fun text => load_of_text, load_of_notFound,
    fun e => load_of_error, FileTree.readText_of_lookup, fun files' => load_congr, ?_⟩⟩
  intro l mode contents hr hn
  refine ⟨?_, fun mode' hm => load_congr (FileTree.readText_set hr hn hm)⟩
  rintro hm bs rfl
  rw [FileTree.readText_of_node hr hn, if_pos hm]
  refine ⟨fun text htext => ?_, fun hno => ?_⟩
  · rw [FileTree.textOf, Text.decode?_eq_some_iff.mpr htext]
  · rw [FileTree.textOf, Text.decode?_eq_none_iff.mpr hno]

end

/-- A configuration file that only its owner can read, and a link that leads nowhere. -/
def configured : FileTree where
  cwd := []
  nodes :=
    [([Text.encode "c"], .file 0o600 (.bytes (Text.encode "port = 7"))),
      ([Text.encode "ln"], .link (.ofText "gone"))]

theorem resolve_configured :
    configured.resolve true (.ofText "c") = .ok [Text.encode "c"] ∧
      configured.node? [Text.encode "c"] =
        some (.file 0o600 (.bytes (Text.encode "port = 7"))) := by decide

theorem load_agrees_configured :
    configured.readText (.ofText "c") = .ok "port = 7" ∧
    ((file (.ofText "c")).load configured).1 = .ok { Settings.defaults with port := 7 } ∧
    ((file (.ofText "ln")).load configured).1 = .ok Settings.defaults ∧
    ∀ mode', configured.permits .read [Text.encode "c"] mode' = true →
      ((file (.ofText "c")).load (configured.set [Text.encode "c"]
        (.file mode' (.bytes (Text.encode "port = 7"))))).1 =
          .ok { Settings.defaults with port := 7 } := by
  obtain ⟨hinline, hfile⟩ := load_agrees configured
  obtain ⟨htext, -, -, -, -, hplace⟩ := hfile (.ofText "c")
  obtain ⟨-, hmissing, -, hlink, -⟩ := hfile (.ofText "ln")
  obtain ⟨hr, hn⟩ := resolve_configured
  obtain ⟨hbytes, hbits⟩ := hplace _ _ _ hr hn
  have hread : configured.readText (.ofText "c") = .ok "port = 7" :=
    (hbytes (by decide) _ rfl).1 _ rfl
  have hload : ((file (.ofText "c")).load configured).1 =
      .ok { Settings.defaults with port := 7 } := by
    rw [htext _ hread, hinline]
    exact .of_ofText? (by decide +kernel)
  refine ⟨hread, hload, ?_, fun mode' hm => ?_⟩
  · rw [hmissing (hlink (by decide)), hinline]
    exact .of_ofText? (by decide +kernel)
  · rw [hbits mode' hm, hload]

end Source

end PooledStore.Config
