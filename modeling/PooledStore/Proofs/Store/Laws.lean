import Mathlib.Data.Multiset.AddSub
import PooledStore.Migration.Update

/-!
# What stores promise

`Stores` says what can be asked of stores, and this module what the answers mean. A `Reading` tells
where a session stands in a state of the stores: whether it is inside a transaction, what it sees,
and what of that lasts if the transaction is given up. The laws say how the operations change this,
in the embedded and in the networked store alike. No operation has to succeed, unless nothing
disturbs the session.

* `Reading.Sessions`: sessions begin and end.
* `Reading.Transactional`: what is done in a transaction lasts once it is committed.
* `Reading.Bookkeeping`: the table of records.
* `Reading.Shared`: sessions on one database.
* `Reading.Steady`: what a session has done, one that nothing disturbs does as well.
-/

set_option autoImplicit false

namespace PooledStore

open Config Migration

/-! ## Readings -/

/-- What the table of records holds. -/
inductive Records where
  /-- Nothing has the name of the table. -/
  | absent
  /-- There is a table that takes the records of updates and keeps their versions as integers. It
  takes no version twice where they are a key. -/
  | kept (keyed : Bool) (versions : Multiset Int)
  | other

/-- The recorded versions. -/
def Records.versions : Records → Multiset Int
  | .kept _ versions => versions
  | _ => 0

section

variable {r : Records} {keyed : Bool} {vs : Multiset Int}

theorem Records.ne_other_of_kept (h : r = .kept keyed vs) : r ≠ .other := by
  rintro rfl
  cases h

theorem Records.ne_absent_of_kept (h : r = .kept keyed vs) : r ≠ .absent := by
  rintro rfl
  cases h

theorem Records.ne_other_of_absent (h : r = .absent) : r ≠ .other := by
  rintro rfl
  cases h

end

/-- Where a session stands, in terms of contents `κ`. -/
structure Standing (κ : Type) where
  database : Nat
  inside : Bool
  /-- What is left if the transaction is committed. This is what the session sees, unless others
  have committed something since its transaction first looked at the database. -/
  sees : κ
  /-- What is left if the transaction is given up. -/
  lasting : κ

/-- How states `σ` of stores are read: contents `κ` are what the table of records holds, and
something else `υ`. -/
structure Reading (σ κ υ : Type) where
  /-- Where a session stands, as long as it is open. -/
  standing : σ → SessionId → Option (Standing κ)
  records : κ → Records
  own : κ → υ
  /-- There are no temporary tables. -/
  bare : κ → Prop
  /-- Nobody keeps the session from reading or writing. -/
  undisturbed : σ → SessionId → Prop
  /-- The script begins or ends transactions. -/
  controls : Provider → String → Prop
  /-- The script has to do with the table of records. -/
  names : Provider → String → Prop
  /-- The script makes temporary tables. -/
  temporary : Provider → String → Prop

/-- The second state is what an operation of a connection makes of the first. -/
inductive Acts {σ : Type} [Stores σ] (c : Connection) (st : σ) : σ → Prop where
  | batch (text : String) : Acts c st (Stores.batch c text st).1
  | begin : Acts c st (Stores.begin c st).1
  | record (v : Int) (time : String) : Acts c st (Stores.record c v time st).1
  | largest : Acts c st (Stores.largest c st).1
  | commit : Acts c st (Stores.commit c st).1
  | abandon : Acts c st (Stores.abandon c st)

/-- The largest of the versions, if there are any. -/
def Greatest (versions : Multiset Int) : Option Int → Prop
  | none => versions = 0
  | some m => m ∈ versions ∧ ∀ v ∈ versions, v ≤ m

namespace Reading

variable {σ κ υ : Type}

/-- The session is on a database and in no transaction, and sees the contents. -/
def Idle (R : Reading σ κ υ) (st : σ) (id : SessionId) (db : Nat) (k : κ) : Prop :=
  R.standing st id = some ⟨db, false, k, k⟩

/-- The session is in a transaction that makes the contents `k`, while `l` lasts. -/
def Inside (R : Reading σ κ υ) (st : σ) (id : SessionId) (db : Nat) (k l : κ) : Prop :=
  R.standing st id = some ⟨db, true, k, l⟩

/-- The session is on a database, whose contents `l` last. -/
def Leaves (R : Reading σ κ υ) (st : σ) (id : SessionId) (db : Nat) (l : κ) : Prop :=
  ∃ s, R.standing st id = some s ∧ s.database = db ∧ s.lasting = l

/-! ## Laws -/

variable [Stores σ]

/-- A new session is in no transaction and has no temporary tables, and no other session notices. -/
structure Begun (R : Reading σ κ υ) (st st' : σ) (id : SessionId) : Prop where
  new : R.standing st id = none
  idle : ∃ db k, R.Idle st' id db k ∧ R.bare k
  others : ∀ j, j ≠ id → R.standing st' j = R.standing st j

/-- Sessions begin when they are opened, and end when they are closed. -/
structure Sessions (R : Reading σ κ υ) : Prop where
  openFile_ok {file : Path} {files files' : FileTree} {st st' : σ} {id : SessionId} :
    Stores.openFile file files st = (files', st', .ok id) → R.Begun st st' id
  openFile_error {file : Path} {files files' : FileTree} {st st' : σ} {e : String} :
    Stores.openFile file files st = (files', st', .error e) → R.standing st' = R.standing st
  setJournal (c : Connection) (st : σ) : R.standing (Stores.setJournal c st).1 = R.standing st
  configure (c : Connection) (busyTimeout : Nat) (st : σ) :
    R.standing (Stores.configure c busyTimeout st).1 = R.standing st
  dial_answered {network : NetworkOptions} {st st' : σ} {id : SessionId} :
    Stores.dial network st = (st', .answered id) → R.Begun st st' id
  dial_failed {network : NetworkOptions} {st st' : σ} {e : String} :
    Stores.dial network st = (st', .failed e) → R.standing st' = R.standing st
  dial_late {network : NetworkOptions} {st st' : σ} :
    Stores.dial network st = (st', .late) → R.standing st' = R.standing st
  close_self (c : Connection) (st : σ) : R.standing (Stores.close c st) c.session = none
  close_other {c : Connection} {st : σ} {id : SessionId} : id ≠ c.session →
    R.standing (Stores.close c st) id = R.standing st id
  /-- No other operation ends a session. -/
  acts {c : Connection} {st st' : σ} (id : SessionId) : Acts c st st' →
    (R.standing st' id).isSome = (R.standing st id).isSome

/-- What is done in a transaction lasts once it is committed, and is undone where it is given up.
Outside of transactions everything lasts at once. A script that does not control transactions stays
in the one that it is in, unless it fails. -/
structure Transactional (R : Reading σ κ υ) : Prop where
  idle_sees {st : σ} {id : SessionId} {s : Standing κ} : R.standing st id = some s →
    s.inside = false → s.sees = s.lasting
  begin_ok {c : Connection} {st st' : σ} {db : Nat} {k : κ} : R.Idle st c.session db k →
    Stores.begin c st = (st', .ok ()) → R.Inside st' c.session db k k
  begin_error {c : Connection} {st st' : σ} {db : Nat} {k : κ} {e : String} :
    R.Idle st c.session db k → Stores.begin c st = (st', .error e) → R.Idle st' c.session db k
  make_controls (p : Provider) : ¬ R.controls p makeRecords
  batch {c : Connection} {st : σ} {s : Standing κ} (text : String) :
    R.standing st c.session = some s →
    ∃ s', R.standing (Stores.batch c text st).1 c.session = some s' ∧ s'.database = s.database
  batch_idle {c : Connection} {st : σ} {db : Nat} {k : κ} {text : String} :
    ¬ R.controls c.provider text → R.Idle st c.session db k →
    ∃ k', R.Idle (Stores.batch c text st).1 c.session db k'
  batch_ok {c : Connection} {st st' : σ} {db : Nat} {k l : κ} {text : String} :
    ¬ R.controls c.provider text → R.Inside st c.session db k l →
    Stores.batch c text st = (st', .ok ()) → ∃ k', R.Inside st' c.session db k' l
  batch_error {c : Connection} {st st' : σ} {db : Nat} {k l : κ} {text e : String} :
    ¬ R.controls c.provider text → R.Inside st c.session db k l →
    Stores.batch c text st = (st', .error e) → R.Leaves st' c.session db l
  record_idle {c : Connection} {st st' : σ} {db : Nat} {k : κ} {v : Int} {time : String} :
    R.Idle st c.session db k → Stores.record c v time st = (st', .ok ()) →
    ∃ k', R.Idle st' c.session db k'
  record_ok {c : Connection} {st st' : σ} {db : Nat} {k l : κ} {v : Int} {time : String} :
    R.Inside st c.session db k l → Stores.record c v time st = (st', .ok ()) →
    ∃ k', R.Inside st' c.session db k' l
  record_error {c : Connection} {st st' : σ} {db : Nat} {l : κ} {v : Int} {time e : String} :
    R.Leaves st c.session db l → Stores.record c v time st = (st', .error e) →
    R.Leaves st' c.session db l
  largest (c : Connection) (st : σ) :
    R.standing (Stores.largest c st).1 c.session = R.standing st c.session
  commit_ok {c : Connection} {st st' : σ} {s : Standing κ} : R.standing st c.session = some s →
    Stores.commit c st = (st', .ok ()) → R.Idle st' c.session s.database s.sees
  commit_error {c : Connection} {st st' : σ} {db : Nat} {l : κ} {e : String} :
    R.Leaves st c.session db l → Stores.commit c st = (st', .error e) →
    R.Leaves st' c.session db l
  abandon {c : Connection} {st : σ} {db : Nat} {l : κ} : R.Leaves st c.session db l →
    R.Idle (Stores.abandon c st) c.session db l

/-- The table of records is made where it is not there, takes records, and tells the largest
version. A script that has nothing to do with it does not change what it holds. -/
structure Bookkeeping (R : Reading σ κ υ) : Prop where
  make_absent {c : Connection} {st st' : σ} {db : Nat} {k : κ} : R.Idle st c.session db k →
    R.records k = .absent → Stores.batch c makeRecords st = (st', .ok ()) →
    ∃ k', R.Idle st' c.session db k' ∧ R.records k' = .kept true 0 ∧ R.own k' = R.own k
  make_kept {c : Connection} {st st' : σ} {db : Nat} {k : κ} {keyed : Bool} {vs : Multiset Int} :
    R.Idle st c.session db k → R.records k = .kept keyed vs →
    Stores.batch c makeRecords st = (st', .ok ()) → R.Idle st' c.session db k
  make_error {c : Connection} {st st' : σ} {db : Nat} {k : κ} {e : String} :
    R.Idle st c.session db k → Stores.batch c makeRecords st = (st', .error e) →
    R.Idle st' c.session db k
  record {c : Connection} {st st' : σ} {s s' : Standing κ} {keyed : Bool} {vs : Multiset Int}
    {v : Int} {time : String} : R.standing st c.session = some s →
    R.records s.sees = .kept keyed vs → Stores.record c v time st = (st', .ok ()) →
    R.standing st' c.session = some s' → R.records s'.sees = .kept keyed (v ::ₘ vs) ∧
      R.own s'.sees = R.own s.sees ∧ (keyed = true → v ∉ vs)
  largest {c : Connection} {st st' : σ} {db : Nat} {k : κ} {keyed : Bool} {vs : Multiset Int}
    {m : Option Int} : R.Idle st c.session db k → R.records k = .kept keyed vs →
    Stores.largest c st = (st', .ok m) → Greatest vs m
  unnamed {c : Connection} {st : σ} {s s' : Standing κ} {r : Records} {text : String} :
    ¬ R.names c.provider text → R.standing st c.session = some s → r ≠ .other →
    R.records s.sees = r → R.records s.lasting = r →
    R.standing (Stores.batch c text st).1 c.session = some s' →
    R.records s'.sees = r ∧ R.records s'.lasting = r

/-- Sessions without temporary tables that are on one database share what lasts, and what one
session does puts no other into a transaction. -/
structure Shared (R : Reading σ κ υ) : Prop where
  others {c : Connection} {st st' : σ} {t : Standing κ} {id : SessionId} : Acts c st st' →
    id ≠ c.session → R.standing st id = some t →
    ∃ t', R.standing st' id = some t' ∧ t'.database = t.database ∧ t'.inside = t.inside ∧
      (R.bare t.lasting → R.bare t'.lasting)
  lasting {st : σ} {id j : SessionId} {s t : Standing κ} : R.standing st id = some s →
    R.standing st j = some t → s.database = t.database → R.bare s.lasting → R.bare t.lasting →
    s.lasting = t.lasting
  records {st : σ} {id j : SessionId} {s t : Standing κ} : R.standing st id = some s →
    R.standing st j = some t → s.database = t.database → R.bare t.lasting →
    R.records s.lasting ≠ .other → R.records t.lasting = R.records s.lasting
  bare_batch {c : Connection} {st st' : σ} {s s' : Standing κ} {text : String} :
    ¬ R.controls c.provider text → ¬ R.temporary c.provider text →
    R.standing st c.session = some s → R.bare s.sees → Stores.batch c text st = (st', .ok ()) →
    R.standing st' c.session = some s' → R.bare s'.sees
  bare_record {c : Connection} {st st' : σ} {s s' : Standing κ} {v : Int} {time : String} :
    R.standing st c.session = some s → R.bare s.sees →
    Stores.record c v time st = (st', .ok ()) → R.standing st' c.session = some s' →
    R.bare s'.sees
  make_temporary (p : Provider) : ¬ R.temporary p makeRecords

/-- What a session has done, one that sees the same does as well, with the same effect, where
nothing disturbs it. -/
structure Steady (R : Reading σ κ υ) : Prop where
  acts {c : Connection} {st st' : σ} : Acts c st st' → R.undisturbed st c.session →
    R.undisturbed st' c.session
  begin {c : Connection} {st : σ} {db : Nat} {k : κ} : R.Idle st c.session db k →
    R.undisturbed st c.session → (Stores.begin c st).2 = .ok ()
  make_kept {c : Connection} {st : σ} {db : Nat} {k : κ} {keyed : Bool} {vs : Multiset Int} :
    R.Idle st c.session db k → R.undisturbed st c.session → R.records k = .kept keyed vs →
    (Stores.batch c makeRecords st).2 = .ok ()
  largest {c : Connection} {st : σ} {db : Nat} {k : κ} {keyed : Bool} {vs : Multiset Int} :
    R.Idle st c.session db k → R.undisturbed st c.session → R.records k = .kept keyed vs →
    ∃ m, (Stores.largest c st).2 = .ok m
  make {c c' : Connection} {st st' a : σ} {db db' : Nat} {k k' : κ} : c'.provider = c.provider →
    R.Idle st c.session db k → R.Idle st' c'.session db' k → R.undisturbed st' c'.session →
    Stores.batch c makeRecords st = (a, .ok ()) → R.Idle a c.session db k' →
    ∃ a', Stores.batch c' makeRecords st' = (a', .ok ()) ∧ R.Idle a' c'.session db' k'
  record {c c' : Connection} {st st' a : σ} {db db' : Nat} {k l k' : κ} {keyed : Bool}
    {vs : Multiset Int} {v : Int} {time : String} (time' : String) : c'.provider = c.provider →
    R.Inside st c.session db k l → R.Inside st' c'.session db' k l →
    R.undisturbed st' c'.session → R.records k = .kept keyed vs →
    Stores.record c v time st = (a, .ok ()) → R.Inside a c.session db k' l →
    ∃ a', Stores.record c' v time' st' = (a', .ok ()) ∧ R.Inside a' c'.session db' k' l
  commit {c c' : Connection} {st st' : σ} {db db' : Nat} {k l : κ} {keyed : Bool}
    {vs : Multiset Int} : c'.provider = c.provider → R.Inside st c.session db k l →
    R.Inside st' c'.session db' k l → R.undisturbed st' c'.session →
    R.records k = .kept keyed vs → R.records l ≠ .other → (Stores.commit c st).2 = .ok () →
    (Stores.commit c' st').2 = .ok ()

/-! ## What is made of contents -/

/-- Somebody has carried out a script, in a store of the provider and in a transaction that saw `k`,
and saw `k'` then. -/
def Ran (R : Reading σ κ υ) (p : Provider) (text : String) (k k' : κ) : Prop :=
  ∃ (c : Connection) (st st' : σ) (db : Nat) (l : κ), c.provider = p ∧
    R.Inside st c.session db k l ∧ Stores.batch c text st = (st', .ok ()) ∧
    R.Inside st' c.session db k' l

/-- Somebody has recorded a version in the same way. -/
def Noted (R : Reading σ κ υ) (p : Provider) (v : Int) (k k' : κ) : Prop :=
  ∃ (c : Connection) (time : String) (st st' : σ) (db : Nat) (l : κ), c.provider = p ∧
    R.Inside st c.session db k l ∧ Stores.record c v time st = (st', .ok ()) ∧
    R.Inside st' c.session db k' l

/-- Somebody has made sure that there is a table of records, in a store of the provider in which `k`
was seen, and saw `k'` then. -/
def Made (R : Reading σ κ υ) (p : Provider) (k k' : κ) : Prop :=
  ∃ (c : Connection) (st st' : σ) (db : Nat), c.provider = p ∧ R.Idle st c.session db k ∧
    Stores.batch c makeRecords st = (st', .ok ()) ∧ R.Idle st' c.session db k'

/-! ## First consequences -/

variable {R : Reading σ κ υ} {st : σ} {id : SessionId} {db : Nat} {k l : κ}

omit [Stores σ] in
theorem Idle.leaves (h : R.Idle st id db k) : R.Leaves st id db k := ⟨_, h, rfl, rfl⟩

omit [Stores σ] in
theorem Inside.leaves (h : R.Inside st id db k l) : R.Leaves st id db l := ⟨_, h, rfl, rfl⟩

omit [Stores σ] in
/-- A session sees only one thing. -/
theorem Idle.unique {db' : Nat} {k' : κ} (h : R.Idle st id db k) (h' : R.Idle st id db' k') :
    db = db' ∧ k = k' := by
  have heq := Option.some.inj (h.symm.trans h')
  simp only [Standing.mk.injEq] at heq
  exact ⟨heq.1, heq.2.2.1⟩

/-- A session in no transaction sees what lasts. -/
theorem Transactional.idle {s : Standing κ} (laws : R.Transactional)
    (hs : R.standing st id = some s) (hi : s.inside = false) :
    R.Idle st id s.database s.lasting := by
  rcases s with ⟨db, inside, sees, lasting⟩
  obtain rfl : inside = false := hi
  obtain rfl : sees = lasting := laws.idle_sees hs rfl
  exact hs

/-- A session that has made a record is on its database. -/
theorem Transactional.record_on {c : Connection} {st' : σ} {s : Standing κ} {v : Int}
    {time : String} (laws : R.Transactional) (hs : R.standing st c.session = some s)
    (h : Stores.record c v time st = (st', .ok ())) :
    ∃ s', R.standing st' c.session = some s' ∧ s'.database = s.database := by
  cases hi : s.inside with
  | false =>
      obtain ⟨k', hk⟩ := laws.record_idle (laws.idle hs hi) h
      exact ⟨_, hk, rfl⟩
  | true =>
      rcases s with ⟨db, inside, sees, lasting⟩
      obtain rfl : inside = true := hi
      obtain ⟨k', hk⟩ := laws.record_ok hs h
      exact ⟨_, hk, rfl⟩

end Reading

end PooledStore
