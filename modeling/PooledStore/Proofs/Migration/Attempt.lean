import PooledStore.Proofs.Migration.Finding
import PooledStore.Proofs.Sql.Laws

/-!
# Attempts to migrate

`update` attempts its pending migrations one after the other (`Attempt`), each in a transaction that
is given up where something in it fails. A script may end this transaction itself. What lasts before
the attempt comes to its own commit (`reach`) then stays although the attempt fails.
`update_attempts` says that an attempt is all or nothing exactly if it succeeds or nothing of it
lasts before; a script that does not control transactions leaves nothing before.
-/

set_option autoImplicit false

namespace PooledStore.Migration

open Config

variable {σ κ υ : Type} [Stores σ] {R : Reading σ κ υ}
variable {files : FileTree} {clock : Nat → String} {dir : Path} {c : Connection} {st st' : σ}
variable {db : Nat} {k l : κ} {v : Int} {text time : String} {s : Script}

/-! ## One attempt -/

/-- The stores when an attempt comes to its commit, or where it has failed before. -/
def reach (c : Connection) (v : Int) (text time : String) (st : σ) : σ :=
  match Stores.begin c st with
  | (st, .error _) => st
  | (st, .ok ()) =>
    match Stores.batch c text st with
    | (st, .error _) => st
    | (st, .ok ()) => (Stores.record c v time st).1

/-- What every operation of a connection keeps, an attempt keeps. -/
theorem apply_keep {P : σ → Prop} (keep : ∀ {a b}, P a → Acts c a b → P b) (h : P st)
    (v : Int) (text time : String) : P (apply c v text time st).1 := by
  have hb := keep h (.begin (c := c))
  unfold apply
  simp only [Connection.answer]
  rcases hbegin : Stores.begin c st with ⟨st₁, e | u⟩
  · rwa [hbegin] at hb
  · rw [hbegin] at hb
    have hs := keep hb (.batch text)
    simp only [Except.mapError]
    rcases hbatch : Stores.batch c text st₁ with ⟨st₂, e | u⟩
    · rw [hbatch] at hs
      exact keep hs .abandon
    · rw [hbatch] at hs
      have hr := keep hs (.record v time)
      simp only
      rcases hrec : Stores.record c v time st₂ with ⟨st₃, e | u⟩
      · rw [hrec] at hr
        exact keep hr .abandon
      · rw [hrec] at hr
        have hc := keep hr .commit
        simp only
        rcases hcom : Stores.commit c st₃ with ⟨st₄, e | u⟩
        · rw [hcom] at hc
          exact keep hc .abandon
        · rwa [hcom] at hc

/-- How an attempt can go: it does not begin, or fails in the script, or in the record, or it comes
to its commit. -/
inductive Goes (c : Connection) (v : Int) (text time : String) (st : σ) : σ → Prop where
  | unbegun {st₁ : σ} {e : String} : Stores.begin c st = (st₁, .error e) →
      apply c v text time st = (st₁, .error (.ofStore c.provider e)) →
      reach c v text time st = st₁ → Goes c v text time st st₁
  | script {st₁ st₂ : σ} {e : String} : Stores.begin c st = (st₁, .ok ()) →
      Stores.batch c text st₁ = (st₂, .error e) →
      apply c v text time st = (Stores.abandon c st₂, .error (.ofStore c.provider e)) →
      reach c v text time st = st₂ → Goes c v text time st st₂
  | record {st₁ st₂ st₃ : σ} {e : String} : Stores.begin c st = (st₁, .ok ()) →
      Stores.batch c text st₁ = (st₂, .ok ()) → Stores.record c v time st₂ = (st₃, .error e) →
      apply c v text time st = (Stores.abandon c st₃, .error (.ofStore c.provider e)) →
      reach c v text time st = st₃ → Goes c v text time st st₃
  | uncommitted {st₁ st₂ st₃ st₄ : σ} {e : String} : Stores.begin c st = (st₁, .ok ()) →
      Stores.batch c text st₁ = (st₂, .ok ()) → Stores.record c v time st₂ = (st₃, .ok ()) →
      Stores.commit c st₃ = (st₄, .error e) →
      apply c v text time st = (Stores.abandon c st₄, .error (.ofStore c.provider e)) →
      reach c v text time st = st₃ → Goes c v text time st st₃
  | committed {st₁ st₂ st₃ st₄ : σ} : Stores.begin c st = (st₁, .ok ()) →
      Stores.batch c text st₁ = (st₂, .ok ()) → Stores.record c v time st₂ = (st₃, .ok ()) →
      Stores.commit c st₃ = (st₄, .ok ()) → apply c v text time st = (st₄, .ok ()) →
      reach c v text time st = st₃ → Goes c v text time st st₃

theorem goes (c : Connection) (v : Int) (text time : String) (st : σ) :
    Goes c v text time st (reach c v text time st) := by
  rcases hbegin : Stores.begin c st with ⟨st₁, e | u⟩
  · have hreach : reach c v text time st = st₁ := by simp only [reach, hbegin]
    rw [hreach]
    exact .unbegun hbegin (by simp only [apply, hbegin, Connection.answer, Except.mapError]) hreach
  · rcases hbatch : Stores.batch c text st₁ with ⟨st₂, e | u⟩
    · have hreach : reach c v text time st = st₂ := by simp only [reach, hbegin, hbatch]
      rw [hreach]
      refine .script hbegin hbatch ?_ hreach
      simp only [apply, hbegin, hbatch, Connection.answer, Except.mapError]
    · rcases hrec : Stores.record c v time st₂ with ⟨st₃, r⟩
      have hreach : reach c v text time st = st₃ := by simp only [reach, hbegin, hbatch, hrec]
      rw [hreach]
      cases r with
      | error e =>
          refine .record hbegin hbatch hrec ?_ hreach
          simp only [apply, hbegin, hbatch, hrec, Connection.answer, Except.mapError]
      | ok u =>
          rcases hcom : Stores.commit c st₃ with ⟨st₄, e | u⟩
          · refine .uncommitted hbegin hbatch hrec hcom ?_ hreach
            simp only [apply, hbegin, hbatch, hrec, hcom, Connection.answer, Except.mapError]
          · refine .committed hbegin hbatch hrec hcom ?_ hreach
            simp only [apply, hbegin, hbatch, hrec, hcom, Connection.answer, Except.mapError]

/-- **An attempt that succeeds has been through all its steps.** -/
theorem steps_of_ok (hok : (apply c v text time st).2 = .ok ()) :
    ∃ st₁ st₂ st₃ st₄, Stores.begin c st = (st₁, .ok ()) ∧
      Stores.batch c text st₁ = (st₂, .ok ()) ∧ Stores.record c v time st₂ = (st₃, .ok ()) ∧
      Stores.commit c st₃ = (st₄, .ok ()) ∧ apply c v text time st = (st₄, .ok ()) := by
  cases goes c v text time st with
  | unbegun _ happly _ | script _ _ happly _ | record _ _ _ happly _
    | uncommitted _ _ _ _ happly _ =>
      rw [happly] at hok
      cases hok
  | committed hbegin hbatch hrec hcom happly _ =>
      exact ⟨_, _, _, _, hbegin, hbatch, hrec, hcom, happly⟩

/-- What a session saw along an attempt that succeeded: it ran the script inside its transaction,
recorded the version there, and what it saw then is what lasts. -/
theorem sights_of_ok (laws : R.Transactional) (hn : ¬ R.controls c.provider text)
    (h : R.Idle st c.session db k) (hok : (apply c v text time st).2 = .ok ()) :
    ∃ st₁ st₂ st₃ k₁ k₂, R.Inside st₁ c.session db k k ∧
      Stores.batch c text st₁ = (st₂, .ok ()) ∧ R.Inside st₂ c.session db k₁ k ∧
      Stores.record c v time st₂ = (st₃, .ok ()) ∧ R.Inside st₃ c.session db k₂ k ∧
      (Stores.commit c st₃).2 = .ok () ∧ R.Idle (apply c v text time st).1 c.session db k₂ := by
  obtain ⟨st₁, st₂, st₃, st₄, hbegin, hbatch, hrec, hcom, happly⟩ := steps_of_ok hok
  have h₁ := laws.begin_ok h hbegin
  obtain ⟨k₁, h₂⟩ := laws.batch_ok hn h₁ hbatch
  obtain ⟨k₂, h₃⟩ := laws.record_ok h₂ hrec
  have hi : R.Idle (apply c v text time st).1 c.session db k₂ := by
    rw [happly]
    exact laws.commit_ok h₃ hcom
  exact ⟨st₁, st₂, st₃, k₁, k₂, h₁, hbatch, h₂, hrec, h₃, by rw [hcom], hi⟩

/-- What a session has recorded, where its table of records took the record. -/
theorem records_of_record (books : R.Bookkeeping) {st₂ st₃ : σ} {s₂ s₃ : Standing κ}
    (hs₂ : R.standing st₂ c.session = some s₂) (hs₃ : R.standing st₃ c.session = some s₃)
    (h : Stores.record c v time st₂ = (st₃, .ok ())) :
    ∀ keyed vs, R.records s₂.sees = .kept keyed vs → R.records s₃.sees = .kept keyed (v ::ₘ vs) :=
  fun _ _ hk => (books.record hs₂ hk h hs₃).1

/-- **How an attempt ends**: with everything that the session saw before the commit, or with what
lasted before it. -/
theorem apply_cases (laws : R.Transactional) (h : R.Idle st c.session db k) (v : Int)
    (text time : String) :
    ∃ e, R.standing (reach c v text time st) c.session = some e ∧ e.database = db ∧
      ((apply c v text time st).2 = .ok () ∧ R.Idle (apply c v text time st).1 c.session db e.sees ∨
        (∃ x, (apply c v text time st).2 = .error x) ∧
          R.Idle (apply c v text time st).1 c.session db e.lasting) := by
  cases goes c v text time st with
  | unbegun hbegin happly hreach =>
      have hi := laws.begin_error h hbegin
      rw [hreach, happly]
      exact ⟨_, hi, rfl, Or.inr ⟨⟨_, rfl⟩, hi⟩⟩
  | script hbegin hbatch happly hreach =>
      obtain ⟨e, he, hdb⟩ := laws.batch text (laws.begin_ok h hbegin)
      rw [hbatch] at he
      rw [hreach, happly]
      exact ⟨e, he, hdb, Or.inr ⟨⟨_, rfl⟩, laws.abandon ⟨e, he, hdb, rfl⟩⟩⟩
  | record hbegin hbatch hrec happly hreach =>
      obtain ⟨e, he, hdb⟩ := laws.batch text (laws.begin_ok h hbegin)
      rw [hbatch] at he
      obtain ⟨e', he', hdb', hl⟩ := laws.record_error ⟨e, he, hdb, rfl⟩ hrec
      rw [hreach, happly]
      exact ⟨e', he', hdb', Or.inr ⟨⟨_, rfl⟩, laws.abandon ⟨e', he', hdb', rfl⟩⟩⟩
  | uncommitted hbegin hbatch hrec hcom happly hreach =>
      obtain ⟨e₂, he₂, hdb₂⟩ := laws.batch text (laws.begin_ok h hbegin)
      rw [hbatch] at he₂
      obtain ⟨e, he, hdb⟩ := laws.record_on he₂ hrec
      replace hdb := hdb.trans hdb₂
      rw [hreach, happly]
      exact ⟨e, he, hdb,
        Or.inr ⟨⟨_, rfl⟩, laws.abandon (laws.commit_error ⟨e, he, hdb, rfl⟩ hcom)⟩⟩
  | committed hbegin hbatch hrec hcom happly hreach =>
      obtain ⟨e₂, he₂, hdb₂⟩ := laws.batch text (laws.begin_ok h hbegin)
      rw [hbatch] at he₂
      obtain ⟨e, he, hdb⟩ := laws.record_on he₂ hrec
      replace hdb : e.database = db := hdb.trans hdb₂
      rw [hreach, happly]
      exact ⟨e, he, hdb, Or.inl ⟨rfl, hdb ▸ laws.commit_ok he hcom⟩⟩

/-- Nothing of a script that does not control transactions lasts before the commit. -/
theorem lasting_reach (laws : R.Transactional) (h : R.Idle st c.session db k)
    (hn : ¬ R.controls c.provider text) {e : Standing κ}
    (he : R.standing (reach c v text time st) c.session = some e) : e.lasting = k := by
  have key : R.Leaves (reach c v text time st) c.session db k := by
    cases goes c v text time st with
    | unbegun hbegin _ hreach => exact hreach ▸ (laws.begin_error h hbegin).leaves
    | script hbegin hbatch _ hreach =>
        exact hreach ▸ laws.batch_error hn (laws.begin_ok h hbegin) hbatch
    | record hbegin hbatch hrec _ hreach =>
        obtain ⟨k₂, hk₂⟩ := laws.batch_ok hn (laws.begin_ok h hbegin) hbatch
        exact hreach ▸ laws.record_error hk₂.leaves hrec
    | uncommitted hbegin hbatch hrec _ _ hreach | committed hbegin hbatch hrec _ _ hreach =>
        obtain ⟨k₂, hk₂⟩ := laws.batch_ok hn (laws.begin_ok h hbegin) hbatch
        obtain ⟨k₃, hk₃⟩ := laws.record_ok hk₂ hrec
        exact hreach ▸ hk₃.leaves
  obtain ⟨e', he', -, hl⟩ := key
  obtain rfl := Option.some.inj (he.symm.trans he')
  exact hl

/-! ## The table of records -/

/-- The table of records is made, and then the largest version in it is asked for. -/
theorem currentVersion_steps (c : Connection) (st : σ) :
    (∃ e, (Stores.batch c makeRecords st).2 = .error e ∧ currentVersion c st =
        ((Stores.batch c makeRecords st).1, .error (.bookkeeping (.ofStore c.provider e)))) ∨
      (Stores.batch c makeRecords st).2 = .ok () ∧ currentVersion c st =
        ((Stores.largest c (Stores.batch c makeRecords st).1).1,
          (Stores.largest c (Stores.batch c makeRecords st).1).2.mapError
            fun e => .bookkeeping (.ofStore c.provider e)) := by
  unfold currentVersion highestVersion Connection.executeBatch Connection.answer
  rcases Stores.batch c makeRecords st with ⟨st₁, e | u⟩
  · exact Or.inl ⟨e, rfl, rfl⟩
  · refine Or.inr ⟨rfl, ?_⟩
    simp only [Except.mapError]
    rcases Stores.largest c st₁ with ⟨st₂, e | m⟩
    · rfl
    · rfl

/-- What every operation of a connection keeps, asking for the version keeps. -/
theorem currentVersion_keep {P : σ → Prop} (keep : ∀ {a b}, P a → Acts c a b → P b) (h : P st) :
    P (currentVersion c st).1 := by
  have hmade := keep h (.batch (c := c) makeRecords)
  obtain ⟨e, -, hv⟩ | ⟨-, hv⟩ := currentVersion_steps c st
  · rwa [hv]
  · rw [hv]
    exact keep hmade .largest

theorem currentVersion_idle (laws : R.Transactional) (h : R.Idle st c.session db k) :
    ∃ k', R.Idle (currentVersion c st).1 c.session db k' := by
  obtain ⟨k', hk⟩ := laws.batch_idle (laws.make_controls c.provider) h
  refine ⟨k', ?_⟩
  obtain ⟨e, -, hv⟩ | ⟨-, hv⟩ := currentVersion_steps c st
  · rwa [hv]
  · rw [hv]
    exact (laws.largest c _).trans hk

/-- The second contents are the first with a table of records, which is new if none was there. -/
inductive Furnished (R : Reading σ κ υ) (p : Provider) (k : κ) : κ → Prop where
  | same {keyed : Bool} {vs : Multiset Int} : R.records k = .kept keyed vs → Furnished R p k k
  | made {k' : κ} : R.records k = .absent → R.Made p k k' → R.records k' = .kept true 0 →
      R.own k' = R.own k → Furnished R p k k'

theorem Furnished.kept {p : Provider} {k' : κ} (h : Furnished R p k k') :
    ∃ keyed, R.records k' = .kept keyed (R.records k).versions := by
  cases h with
  | same hk => exact ⟨_, by rw [hk]; rfl⟩
  | made hk _ hk' _ => exact ⟨true, by rw [hk', hk]; rfl⟩

theorem furnished_of_make (books : R.Bookkeeping) (h : R.Idle st c.session db k)
    (hr : R.records k ≠ .other) (hm : Stores.batch c makeRecords st = (st', .ok ())) :
    ∃ k', R.Idle st' c.session db k' ∧ Furnished R c.provider k k' := by
  cases hk : R.records k with
  | absent =>
      obtain ⟨k', hk', hkept, hown⟩ := books.make_absent h hk hm
      exact ⟨k', hk', .made hk ⟨c, st, st', db, rfl, h, hm, hk'⟩ hkept hown⟩
  | kept keyed vs => exact ⟨k, books.make_kept h hk hm, .same hk⟩
  | other => exact absurd hk hr

/-- Where the table of records is made or found, the largest version is told. -/
theorem currentVersion_ok (laws : R.Transactional) (books : R.Bookkeeping) {m : Option Int}
    (h : R.Idle st c.session db k) (hr : R.records k ≠ .other)
    (hv : currentVersion c st = (st', .ok m)) :
    ∃ k', R.Idle st' c.session db k' ∧ Furnished R c.provider k k' ∧
      Greatest (R.records k).versions m := by
  obtain ⟨e, -, heq⟩ | ⟨hok, heq⟩ := currentVersion_steps c st
  · cases (Prod.mk.inj (heq.symm.trans hv)).2
  · obtain ⟨k', hk, hf⟩ := furnished_of_make books h hr (Prod.ext rfl hok)
    obtain ⟨keyed, hkept⟩ := hf.kept
    obtain ⟨rfl, hm⟩ := Prod.mk.inj (heq.symm.trans hv)
    rcases hlarge : Stores.largest c (Stores.batch c makeRecords st).1 with ⟨st₂, e | m'⟩
    · rw [hlarge] at hm
      cases hm
    · rw [hlarge] at hm
      obtain rfl := Except.ok.inj hm
      have hidle := (laws.largest c (Stores.batch c makeRecords st).1).trans hk
      rw [hlarge] at hidle
      exact ⟨k', hidle, hf, books.largest hk hkept hlarge⟩

/-- Where the version is not told, at most the table of records was made. -/
theorem currentVersion_error (laws : R.Transactional) (books : R.Bookkeeping) {e : Error}
    (h : R.Idle st c.session db k) (hr : R.records k ≠ .other)
    (hv : currentVersion c st = (st', .error e)) :
    (∃ cause, e = .bookkeeping cause) ∧
      ∃ k', R.Idle st' c.session db k' ∧ (k' = k ∨ Furnished R c.provider k k') := by
  obtain ⟨x, hx, heq⟩ | ⟨hok, heq⟩ := currentVersion_steps c st
  · obtain ⟨rfl, he⟩ := Prod.mk.inj (heq.symm.trans hv)
    exact ⟨⟨_, (Except.error.inj he).symm⟩, k, books.make_error h (Prod.ext rfl hx), Or.inl rfl⟩
  · obtain ⟨k', hk, hf⟩ := furnished_of_make books h hr (Prod.ext rfl hok)
    obtain ⟨rfl, hm⟩ := Prod.mk.inj (heq.symm.trans hv)
    refine ⟨?_, k', (laws.largest c _).trans hk, Or.inr hf⟩
    rcases hlarge : (Stores.largest c (Stores.batch c makeRecords st).1).2 with x | m'
    · rw [hlarge] at hm
      exact ⟨_, (Except.error.inj hm).symm⟩
    · rw [hlarge] at hm
      cases hm

/-- A table of records that was made or found is made or found again. -/
theorem Furnished.again {p : Provider} {k' : κ} (books : R.Bookkeeping) (steady : R.Steady)
    (h : Furnished R p k k') (hp : c.provider = p) (hi : R.Idle st c.session db k)
    (hu : R.undisturbed st c.session) :
    ∃ st', Stores.batch c makeRecords st = (st', .ok ()) ∧ R.Idle st' c.session db k' := by
  cases h with
  | same hk =>
      rcases hb : Stores.batch c makeRecords st with ⟨st', e | u⟩
      · have hok := steady.make_kept hi hu hk
        rw [hb] at hok
        cases hok
      · exact ⟨st', rfl, books.make_kept hi hk hb⟩
  | made _ hmade _ _ =>
      obtain ⟨c₀, st₀, a, db₀, hp₀, hi₀, hb₀, ha⟩ := hmade
      exact steady.make (hp.trans hp₀.symm) hi₀ hi hu hb₀ ha

/-- A session that nothing disturbs is told the largest version, once the table of records was made
or found. -/
theorem currentVersion_again {p : Provider} {k' : κ} (laws : R.Transactional)
    (books : R.Bookkeeping) (steady : R.Steady) (h : Furnished R p k k') (hp : c.provider = p)
    (hi : R.Idle st c.session db k) (hu : R.undisturbed st c.session) :
    ∃ st' m, currentVersion c st = (st', .ok m) ∧ R.Idle st' c.session db k' ∧
      R.undisturbed st' c.session ∧ Greatest (R.records k).versions m := by
  obtain ⟨st₁, hb, hi₁⟩ := h.again books steady hp hi hu
  have hu₁ := steady.acts (.batch makeRecords) hu
  rw [hb] at hu₁
  obtain ⟨kd, hkept⟩ := h.kept
  obtain ⟨m, hm⟩ := steady.largest hi₁ hu₁ hkept
  have hi₂ := (laws.largest c st₁).trans hi₁
  have hu₂ := steady.acts (.largest (c := c)) hu₁
  refine ⟨(Stores.largest c st₁).1, m, ?_, hi₂, hu₂, books.largest hi₁ hkept (Prod.ext rfl hm)⟩
  obtain ⟨e, hx, -⟩ | ⟨-, hv⟩ := currentVersion_steps c st
  · rw [hb] at hx
    cases hx
  · rw [hv, hb, hm]
    rfl

/-! ## Attempts of an update -/

/-- `update` comes to the script when the stores are `reached`, reads its text, and then the
clock. -/
def Attempt (files : FileTree) (clock : Nat → String) (dir : Path) (c : Connection) (st reached : σ)
    (s : Script) (text time : String) : Prop :=
  ∃ first before after log more,
    pending files dir c st = (first, .ok (before ++ s :: after), log) ∧
      applyAll files c clock before first = (reached, .ok (), more) ∧
      files.readText s.path = .ok text ∧ time = clock before.length

/-- The directory is read first, and the scripts with newer versions than those recorded are
pending. -/
theorem pending_cases (files : FileTree) (dir : Path) (c : Connection) (st : σ) :
    (∃ e log, discover files dir c.provider = (.error e, log) ∧
        pending files dir c st = (st, .error (.discovery e), log)) ∨
      ∃ scripts log, discover files dir c.provider = (.ok scripts, log) ∧
        pending files dir c st =
          ((currentVersion c st).1, (currentVersion c st).2.map (newer · scripts), log) := by
  unfold pending
  rcases discover files dir c.provider with ⟨e | scripts, log⟩
  · exact Or.inl ⟨e, log, rfl, rfl⟩
  · refine Or.inr ⟨scripts, log, rfl, ?_⟩
    rcases currentVersion c st with ⟨st₁, e | m⟩
    · rfl
    · rfl

theorem pending_keep {P : σ → Prop} (files : FileTree) (dir : Path)
    (keep : ∀ {a b}, P a → Acts c a b → P b) (h : P st) : P (pending files dir c st).1 := by
  obtain ⟨e, log, -, hp⟩ | ⟨scripts, log, -, hp⟩ := pending_cases files dir c st
  · rwa [hp]
  · rw [hp]
    exact currentVersion_keep keep h

theorem pending_ok {rest : List Script} {log : List Log.Event}
    (h : pending files dir c st = (st', .ok rest, log)) :
    ∃ scripts m, discover files dir c.provider = (.ok scripts, log) ∧
      currentVersion c st = (st', .ok m) ∧ rest = newer m scripts := by
  obtain ⟨e, log', -, hp⟩ | ⟨scripts, log', hd, hp⟩ := pending_cases files dir c st
  · cases (Prod.mk.inj (Prod.mk.inj (hp.symm.trans h)).2).1
  · rcases hv : currentVersion c st with ⟨st₁, e | m⟩
    · rw [hv] at hp
      cases (Prod.mk.inj (Prod.mk.inj (hp.symm.trans h)).2).1
    · rw [hv] at hp
      obtain ⟨rfl, h₂⟩ := Prod.mk.inj (hp.symm.trans h)
      obtain ⟨hr, rfl⟩ := Prod.mk.inj h₂
      exact ⟨scripts, m, hd, rfl, (Except.ok.inj hr).symm⟩

theorem pending_idle (files : FileTree) (dir : Path) (laws : R.Transactional)
    (h : R.Idle st c.session db k) :
    ∃ k', R.Idle (pending files dir c st).1 c.session db k' := by
  obtain ⟨e, log, -, hp⟩ | ⟨scripts, log, -, hp⟩ := pending_cases files dir c st
  · exact ⟨k, by rwa [hp]⟩
  · rw [hp]
    exact currentVersion_idle laws h

/-- Only a script can fail. -/
theorem pending_ne_failed {name : String} {cause : ConnectionError} {log : List Log.Event} :
    pending files dir c st ≠ (st', .error (.failed v name cause), log) := by
  intro h
  obtain ⟨e, log', -, hp⟩ | ⟨scripts, log', -, hp⟩ := pending_cases files dir c st
  · cases (Prod.mk.inj (Prod.mk.inj (hp.symm.trans h)).2).1
  · have hr := (Prod.mk.inj (Prod.mk.inj (hp.symm.trans h)).2).1
    obtain ⟨e, -, hv⟩ | ⟨-, hv⟩ := currentVersion_steps c st
    · rw [hv] at hr
      cases hr
    · rw [hv] at hr
      rcases hl : Stores.largest c (Stores.batch c makeRecords st).1 with ⟨st₂, e | m⟩
      · rw [hl] at hr
        cases hr
      · rw [hl] at hr
        cases hr

theorem mem_newer {m : Option Int} {scripts : List Script} :
    s ∈ newer m scripts ↔ s ∈ scripts ∧ ∀ n, m = some n → n < s.version := by
  cases m with
  | none => simp [newer]
  | some n => simp [newer]

/-- The report of an attempt. -/
def begun (s : Script) : Log.Event := .migrationApplying s.version s.name

/-- The scripts after the first are applied with the later readings of the clock. -/
theorem applyAll_cons_read (rest : List Script) (ht : files.readText s.path = .ok text)
    (ha : apply c s.version text (clock 0) st = (st', .ok ())) :
    applyAll files c clock (s :: rest) st =
      ((applyAll files c (fun i => clock (i + 1)) rest st').1,
        (applyAll files c (fun i => clock (i + 1)) rest st').2.1,
        begun s :: (applyAll files c (fun i => clock (i + 1)) rest st').2.2) := by
  simp only [applyAll, ht, ha, begun]

theorem applyAll_cons_failed {rest : List Script} {e : ConnectionError}
    (ht : files.readText s.path = .ok text)
    (ha : apply c s.version text (clock 0) st = (st', .error e)) :
    applyAll files c clock (s :: rest) st =
      (st', .error (.failed s.version s.name e), [begun s]) := by
  simp only [applyAll, ht, ha, begun]

theorem applyAll_cons_unread {rest : List Script} {e : FileError}
    (ht : files.readText s.path = .error e) :
    applyAll files c clock (s :: rest) st =
      (st, .error (.readScript s.version s.name e), [begun s]) := by
  simp only [applyAll, ht, begun]

/-- What every attempt keeps, all of them keep. -/
theorem applyAll_keep_attempts {P : σ → Prop}
    (keep : ∀ {a : σ} (v : Int) (text time : String), P a → P (apply c v text time a).1)
    (scripts : List Script) (clock : Nat → String) (h : P st) :
    P (applyAll files c clock scripts st).1 := by
  induction scripts generalizing st clock with
  | nil => exact h
  | cons s rest ih =>
      rcases ht : files.readText s.path with e | text
      · rwa [applyAll_cons_unread ht]
      · have hs := keep s.version text (clock 0) h
        rcases ha : apply c s.version text (clock 0) st with ⟨st₁, e | u⟩
        · rw [ha] at hs
          rwa [applyAll_cons_failed ht ha]
        · rw [ha] at hs
          rw [applyAll_cons_read rest ht ha]
          exact ih _ hs

theorem applyAll_keep {P : σ → Prop} (keep : ∀ {a b}, P a → Acts c a b → P b)
    (scripts : List Script) (clock : Nat → String) (h : P st) :
    P (applyAll files c clock scripts st).1 :=
  applyAll_keep_attempts (P := P) (fun v text time ha => apply_keep keep ha v text time) scripts
    clock h

theorem applyAll_idle (files : FileTree) (laws : R.Transactional) (scripts : List Script)
    (clock : Nat → String) (h : R.Idle st c.session db k) :
    ∃ k', R.Idle (applyAll files c clock scripts st).1 c.session db k' := by
  refine applyAll_keep_attempts (P := fun a => ∃ k', R.Idle a c.session db k')
    (fun v text time ⟨k', hk⟩ => ?_) scripts clock ⟨k, h⟩
  obtain ⟨e, -, -, ⟨-, hi⟩ | ⟨-, hi⟩⟩ := apply_cases laws hk v text time
  · exact ⟨_, hi⟩
  · exact ⟨_, hi⟩

/-- The report of an update that has applied all pending scripts. -/
def closing (dir : Path) (scripts : List Script) : Log.Event :=
  match scripts.getLast? with
  | none => .schemaCurrent dir.display
  | some last => .schemaUpdated scripts.length last.version

theorem update_of_error {e : Error} {log : List Log.Event}
    (hp : pending files dir c st = (st', .error e, log)) :
    update files clock dir c st = (st', .error e, log) := by
  simp only [update, hp]

/-- An update applies what is pending, and reports it where this succeeds. -/
theorem update_of_pending (clock : Nat → String) {scripts : List Script} {log : List Log.Event}
    (hp : pending files dir c st = (st', .ok scripts, log)) :
    update files clock dir c st = ((applyAll files c clock scripts st').1,
      (applyAll files c clock scripts st').2.1.map fun _ => scripts.length,
      log ++ (applyAll files c clock scripts st').2.2 ++
        match (applyAll files c clock scripts st').2.1 with
        | .ok _ => [closing dir scripts]
        | .error _ => []) := by
  simp only [update, hp, closing]
  cases hl : scripts.getLast? with
  | none =>
      obtain rfl := List.getLast?_eq_none_iff.mp hl
      simp [applyAll, Except.map]
  | some last =>
      rcases applyAll files c clock scripts st' with ⟨st₂, e | u, more⟩
      · simp [Except.map]
      · simp [Except.map]

/-- What every operation of a connection keeps, its update keeps. -/
theorem update_keep {P : σ → Prop} (keep : ∀ {a b}, P a → Acts c a b → P b) (h : P st) :
    P (update files clock dir c st).1 := by
  have hpend := pending_keep files dir keep h
  rcases hp : pending files dir c st with ⟨st₁, e | scripts, log⟩
  · rw [hp] at hpend
    rwa [update_of_error hp]
  · rw [hp] at hpend
    rw [update_of_pending clock hp]
    exact applyAll_keep keep scripts clock hpend

/-- After an update the session is in no transaction. -/
theorem update_idle (laws : R.Transactional) (clock : Nat → String)
    (h : R.Idle st c.session db k) :
    ∃ k', R.Idle (update files clock dir c st).1 c.session db k' := by
  obtain ⟨k₁, hk₁⟩ := pending_idle files dir laws h
  rcases hp : pending files dir c st with ⟨st₁, e | scripts, log⟩
  · rw [hp] at hk₁
    exact ⟨k₁, by rwa [update_of_error hp]⟩
  · rw [hp] at hk₁
    rw [update_of_pending clock hp]
    exact applyAll_idle files laws scripts clock hk₁

/-- Where a script fails, all before it were applied. -/
theorem applyAll_failed {scripts : List Script} {name : String} {cause : ConnectionError}
    {log : List Log.Event}
    (h : applyAll files c clock scripts st = (st', .error (.failed v name cause), log)) :
    ∃ before s after reached more text, scripts = before ++ s :: after ∧
      applyAll files c clock before st = (reached, .ok (), more) ∧
      files.readText s.path = .ok text ∧ s.version = v ∧ s.name = name ∧
      apply c v text (clock before.length) reached = (st', .error cause) := by
  induction scripts generalizing st clock log with
  | nil => cases (Prod.mk.inj (Prod.mk.inj h).2).1
  | cons s rest ih =>
      rcases ht : files.readText s.path with e | text
      · rw [applyAll_cons_unread ht] at h
        cases (Prod.mk.inj (Prod.mk.inj h).2).1
      · rcases ha : apply c s.version text (clock 0) st with ⟨st₁, e | u⟩
        · rw [applyAll_cons_failed ht ha] at h
          simp only [Prod.mk.injEq, Except.error.injEq, Error.failed.injEq] at h
          obtain ⟨rfl, ⟨rfl, rfl, rfl⟩, -⟩ := h
          exact ⟨[], s, rest, st, [], text, rfl, rfl, ht, rfl, rfl, ha⟩
        · rw [applyAll_cons_read rest ht ha] at h
          obtain ⟨rfl, hrest⟩ := Prod.mk.inj h
          obtain ⟨hr, -⟩ := Prod.mk.inj hrest
          obtain ⟨before, s', after, reached, more, text', rfl, hall, ht', hv, hn, hap⟩ :=
            ih (Prod.ext rfl (Prod.ext hr rfl))
          refine ⟨s :: before, s', after, reached, begun s :: more, text', rfl, ?_, ht', hv, hn,
            hap⟩
          rw [applyAll_cons_read before ht ha, hall]

theorem Attempt.idle {reached : σ} (laws : R.Transactional) (h : R.Idle st c.session db k)
    (ha : Attempt files clock dir c st reached s text time) :
    ∃ k', R.Idle reached c.session db k' := by
  obtain ⟨first, before, after, log, more, hp, hall, -⟩ := ha
  obtain ⟨k₁, hk₁⟩ := pending_idle files dir laws h
  rw [hp] at hk₁
  obtain ⟨k₂, hk₂⟩ := applyAll_idle files laws before clock hk₁
  rw [hall] at hk₂
  exact ⟨k₂, hk₂⟩

theorem Attempt.discovered {reached : σ}
    (ha : Attempt files clock dir c st reached s text time) :
    ∃ scripts log, discover files dir c.provider = (.ok scripts, log) ∧ s ∈ scripts := by
  obtain ⟨first, before, after, log, more, hp, -, -⟩ := ha
  obtain ⟨scripts, m, hd, -, hn⟩ := pending_ok hp
  have hs : s ∈ newer m scripts := by
    rw [← hn]
    exact List.mem_append_right _ List.mem_cons_self
  exact ⟨scripts, log, hd, (mem_newer.mp hs).1⟩

/-- A version that is greater than every recorded one is pending, if the stores answer. -/
theorem pending_of_awaits (laws : R.Transactional) (books : R.Bookkeeping)
    {scripts rest : List Script} {log log' : List Log.Event} (h : R.Idle st c.session db k)
    (hr : R.records k ≠ .other) (hgt : ∀ w ∈ (R.records k).versions, w < s.version)
    (hd : discover files dir c.provider = (.ok scripts, log)) (hs : s ∈ scripts)
    (hp : pending files dir c st = (st', .ok rest, log')) : s ∈ rest := by
  obtain ⟨scripts', m, hd', hv, rfl⟩ := pending_ok hp
  obtain rfl := Except.ok.inj (Prod.mk.inj (hd.symm.trans hd')).1
  obtain ⟨k', -, -, hm⟩ := currentVersion_ok laws books h hr hv
  refine mem_newer.mpr ⟨hs, fun n hn => ?_⟩
  rw [hn] at hm
  exact hgt n hm.1

/-! ## All or nothing -/

/-- The attempt succeeds, and all that the session saw of it lasts. -/
def AllDone (R : Reading σ κ υ) (c : Connection) (v : Int) (text time : String) (st : σ)
    (db : Nat) : Prop :=
  (apply c v text time st).2 = .ok () ∧
    ∃ e, R.standing (reach c v text time st) c.session = some e ∧
      R.Idle (apply c v text time st).1 c.session db e.sees

/-- The attempt leaves the database as it was. -/
def Undone (R : Reading σ κ υ) (c : Connection) (v : Int) (text time : String) (st : σ)
    (db : Nat) (k : κ) : Prop :=
  R.Idle (apply c v text time st).1 c.session db k

/-- **An attempt is all or nothing** exactly if it succeeds, or nothing of it lasts before its
commit. -/
theorem all_or_nothing_iff (laws : R.Transactional) (h : R.Idle st c.session db k) {e : Standing κ}
    (he : R.standing (reach c v text time st) c.session = some e) :
    AllDone R c v text time st db ∨ Undone R c v text time st db k ↔
      (apply c v text time st).2 = .ok () ∨ e.lasting = k := by
  obtain ⟨e', he', -, hends⟩ := apply_cases laws h v text time
  obtain rfl := Option.some.inj (he.symm.trans he')
  obtain ⟨hok, hi⟩ | ⟨⟨x, hx⟩, hi⟩ := hends
  · exact iff_of_true (Or.inl ⟨hok, e, he, hi⟩) (Or.inl hok)
  · have hne : (apply c v text time st).2 ≠ .ok () := by
      rw [hx]
      nofun
    rw [or_iff_right fun hd : AllDone R c v text time st db => hne hd.1, or_iff_right hne]
    constructor
    · intro hu
      exact (hi.unique hu).2
    · rintro rfl
      exact hi

/-- Where the script has left a table of records, an attempt that succeeds records the version. -/
theorem records_of_allDone (laws : R.Transactional) (books : R.Bookkeeping)
    (h : R.Idle st c.session db k) (hok : (apply c v text time st).2 = .ok ()) {e : Standing κ}
    {keyed : Bool} {vs : Multiset Int}
    (he : R.standing (Stores.batch c text (Stores.begin c st).1).1 c.session = some e)
    (hk : R.records e.sees = .kept keyed vs) :
    ∃ k', R.Idle (apply c v text time st).1 c.session db k' ∧
      R.records k' = .kept keyed (v ::ₘ vs) := by
  obtain ⟨st₁, st₂, st₃, st₄, hbegin, hbatch, hrec, hcom, happly⟩ := steps_of_ok hok
  rw [hbegin, hbatch] at he
  obtain ⟨e₂, he₂, hdb₂⟩ := laws.batch text (laws.begin_ok h hbegin)
  rw [hbatch] at he₂
  obtain rfl := Option.some.inj (he.symm.trans he₂)
  obtain ⟨e₃, he₃, hdb₃⟩ := laws.record_on he hrec
  rw [happly]
  have hi := laws.commit_ok he₃ hcom
  rw [hdb₃, hdb₂] at hi
  exact ⟨e₃.sees, hi, records_of_record books he he₃ hrec keyed vs hk⟩

/-- **Every attempt of an update is all or nothing exactly under the condition above.** A script
that does not control transactions meets it. What is all done is recorded, and what is undone is
pending again, as long as the table of records is one. An update that fails for a version has
attempted a script of that version, and has ended with it. -/
theorem update_attempts (laws : R.Transactional) (books : R.Bookkeeping)
    (h : R.Idle st c.session db k) :
    (∀ reached s text time, Attempt files clock dir c st reached s text time →
      ∃ k' e, R.Idle reached c.session db k' ∧
        R.standing (reach c s.version text time reached) c.session = some e ∧
        (AllDone R c s.version text time reached db ∨ Undone R c s.version text time reached db k' ↔
          (apply c s.version text time reached).2 = .ok () ∨ e.lasting = k') ∧
        (¬ R.controls c.provider text → e.lasting = k') ∧
        (AllDone R c s.version text time reached db → ∀ e₁ keyed vs,
          R.standing (Stores.batch c text (Stores.begin c reached).1).1 c.session = some e₁ →
          R.records e₁.sees = .kept keyed vs →
          ∃ k₂, R.Idle (apply c s.version text time reached).1 c.session db k₂ ∧
            R.records k₂ = .kept keyed (s.version ::ₘ vs)) ∧
        (Undone R c s.version text time reached db k' → R.records k' ≠ .other →
          (∀ w ∈ (R.records k').versions, w < s.version) → ∀ st' rest log,
          pending files dir c (apply c s.version text time reached).1 = (st', .ok rest, log) →
          s ∈ rest)) ∧
    ∀ st' v name cause log,
      update files clock dir c st = (st', .error (.failed v name cause), log) →
        ∃ reached s text time, Attempt files clock dir c st reached s text time ∧ s.version = v ∧
          s.name = name ∧ apply c v text time reached = (st', .error cause) := by
  constructor
  · intro reached s text time ha
    obtain ⟨k', hi⟩ := ha.idle laws h
    obtain ⟨e, he, -, -⟩ := apply_cases laws hi s.version text time
    refine ⟨k', e, hi, he, all_or_nothing_iff laws hi he, fun hn => lasting_reach laws hi hn he,
      fun hd e₁ keyed vs he₁ hk => records_of_allDone laws books hi hd.1 he₁ hk, ?_⟩
    intro hu hr hgt st' rest log hp
    obtain ⟨scripts, log', hd, hs⟩ := ha.discovered
    exact pending_of_awaits laws books hu hr hgt hd hs hp
  · intro st' v name cause log hup
    rcases hp : pending files dir c st with ⟨first, e | scripts, log'⟩
    · rw [update_of_error hp] at hup
      obtain ⟨rfl, hr⟩ := Prod.mk.inj hup
      obtain rfl := Except.error.inj (Prod.mk.inj hr).1
      -- Before the scripts nothing fails for a version.
      exact absurd hp pending_ne_failed
    · rw [update_of_pending clock hp] at hup
      obtain ⟨rfl, hr⟩ := Prod.mk.inj hup
      obtain ⟨hr, -⟩ := Prod.mk.inj hr
      rcases hall : applyAll files c clock scripts first with ⟨st₁, e | u, more⟩
      · rw [hall] at hr
        obtain rfl := Except.error.inj hr
        obtain ⟨before, s, after, reached, more', text, rfl, hb, ht, hv, hn, ha⟩ :=
          applyAll_failed hall
        exact ⟨reached, s, text, _, ⟨first, before, after, log', more', hp, hb, ht, rfl⟩, hv, hn,
          ha⟩
      · rw [hall] at hr
        cases hr

/-! ## A script that commits -/

open Sql

/-- The session on a database in memory. -/
def memoryConnection : Connection := ⟨.sqlite, 0⟩

/-- The directory of the tree below. -/
def scriptDirectory : Path := ⟨Text.encode "m"⟩

/-- A script that makes a table and commits it. -/
def commitText : String := "CREATE TABLE a(x INTEGER); COMMIT;"

/-- A directory with this script. -/
def committingScript : FileTree where
  cwd := []
  nodes :=
    [([Text.encode "m"], .directory 0o755),
      ([Text.encode "m", Text.encode "1_a.sqlite"],
        .file 0o644 (.bytes (Text.encode commitText)))]

/-- The script in that directory. -/
def commits : Script := ⟨1, "1_a.sqlite", ⟨Text.encode "m/1_a.sqlite"⟩⟩

/-- An empty database with a table of records. -/
def furnished : World := (currentVersion memoryConnection (World.inMemory .empty)).1

/-- What the update leaves. -/
def committed : World :=
  (update committingScript (fun _ => "now") scriptDirectory memoryConnection
    (World.inMemory .empty)).1

theorem update_committingScript :
    (update committingScript (fun _ => "now") scriptDirectory memoryConnection
        (World.inMemory .empty)).2.1 =
        .error (.failed 1 "1_a.sqlite" (.sqlite Sql.Error.nothingToCommit.message)) ∧
      (highestVersion memoryConnection committed).2 = .ok (some 1) := by
  decide +kernel

theorem attempt_committingScript :
    Attempt committingScript (fun _ => "now") scriptDirectory memoryConnection
      (World.inMemory .empty) furnished commits commitText "now" := by
  have hpending : (pending committingScript scriptDirectory memoryConnection
      (World.inMemory .empty)).2.1 = .ok [commits] := by decide +kernel
  have hread : committingScript.readText commits.path = .ok commitText := by decide +kernel
  obtain ⟨e, log, -, hp⟩ | ⟨scripts, log, -, hp⟩ := pending_cases committingScript scriptDirectory
    memoryConnection (World.inMemory .empty)
  · rw [hp] at hpending
    cases hpending
  · rw [hp] at hpending
    simp only at hpending
    rw [hpending] at hp
    exact ⟨furnished, [], [], log, [], hp, rfl, hread, rfl⟩

/-- Before the attempt a table lasts, and two once it comes to its commit. -/
theorem lasting_committingScript :
    (furnished.store.standing memoryConnection.session).map
        (·.lasting.database.tables.length) = some 1 ∧
      ((reach memoryConnection commits.version commitText "now"
        furnished).store.standing memoryConnection.session).map
          (·.lasting.database.tables.length) = some 2 ∧
      (apply memoryConnection commits.version commitText "now"
        furnished).2 ≠ .ok () := by
  decide +kernel

theorem update_attempts_committingScript :
    World.reading.Transactional ∧ World.reading.Bookkeeping ∧
      World.reading.Idle (World.inMemory .empty) memoryConnection.session 0
        (timeless ⟨.empty, .empty⟩) ∧
      ∃ k, World.reading.Idle furnished memoryConnection.session 0 k ∧
        ¬ (AllDone World.reading memoryConnection commits.version commitText "now" furnished 0 ∨
          Undone World.reading memoryConnection commits.version commitText "now" furnished 0
            k) := by
  obtain ⟨hattempts, -⟩ := @update_attempts World _ _ _ World.reading committingScript
    (fun _ => "now") scriptDirectory memoryConnection (World.inMemory .empty) 0 _
    World.transactional World.bookkeeping (World.idle_inMemory .empty)
  obtain ⟨k, e, hi, he, hiff, -⟩ := hattempts _ _ _ _ attempt_committingScript
  obtain ⟨hone, htwo, hfails⟩ := lasting_committingScript
  refine ⟨World.transactional, World.bookkeeping, World.idle_inMemory .empty, k, hi, fun h => ?_⟩
  obtain hok | heq := hiff.mp h
  · exact hfails hok
  · rw [Reading.Idle, World.reading_standing] at hi
    rw [World.reading_standing] at he
    rw [hi, Option.map_some] at hone
    rw [he, Option.map_some, heq] at htwo
    exact absurd (hone.symm.trans htwo) (by decide)

theorem not_forall_update_failed_awaits :
    ¬ ∀ (files : FileTree) (clock : Nat → String) (w w' : World) (c : Connection) (db : DatabaseId)
      (k : Sight) (dir : Path) (v : Int) (name : String) (cause : ConnectionError)
      (log : List Log.Event), World.reading.Idle w c.session db k →
      update files clock dir c w = (w', .error (.failed v name cause), log) →
        ∃ m, (highestVersion c w').2 = .ok m ∧ ∀ n, m = some n → n < v := by
  intro h
  obtain ⟨hup, hone⟩ := update_committingScript
  obtain ⟨m, hm, hlt⟩ := h _ _ _ committed memoryConnection _ _ _ _ _ _ _
    (World.idle_inMemory .empty) (Prod.ext rfl (Prod.ext hup rfl))
  rw [hone] at hm
  obtain rfl := Except.ok.inj hm
  exact absurd (hlt 1 rfl) (Int.lt_irrefl 1)

end PooledStore.Migration
