import PooledStore.Proofs.Sql.Tables
import PooledStore.Sql.Session

/-!
# What statements do in a session

Two things are told apart: what lasts once an unfinished transaction was given up (`Site.lasting`),
and what lasts once it was committed (`Site.sees`). The latter is what the session sees, unless its
transaction has changed nothing and others have committed since it first looked. A statement that
does not control transactions is a partial function of what the session sees (`Sight.does`), and
inside a transaction it leaves what lasts alone (`Site.Done`); one that fails leaves everything
(`Site.Alike`). Where a session may write, it goes on doing so (`Site.mayWrite`), and then a
statement that can be carried out on what it sees is carried out (`Site.execute_of_does`).
-/

set_option autoImplicit false

namespace PooledStore.Sql

/-! ## What is seen -/

/-- A catalog, and the temporary tables of a session. -/
structure Sight where
  database : Catalog
  temporary : Catalog

namespace Sight

/-- Whether a statement is for the temporary tables. -/
def isTemporary (c : Sight) : Statement → Bool
  | .createTable temporary .. => temporary
  | .dropIndex _ name => (c.temporary.index? name).isSome
  | stmt => ((Site.subject? stmt).bind c.temporary.table?).isSome

/-- What a statement makes of what is seen, if it can be carried out there. -/
def does (c : Sight) (stmt : Statement) : Option Sight :=
  if c.isTemporary stmt then (c.temporary.does stmt).map fun t => { c with temporary := t }
  else (c.database.does stmt).map fun d => { c with database := d }

/-- The table of a name; temporary tables come first. -/
def table? (c : Sight) (name : String) : Option Table :=
  match c.temporary.table? name with
  | some t => some t
  | none => c.database.table? name

variable {c c' : Sight} {stmt : Statement}

/-- A statement changes the database or the temporary tables. -/
theorem does_cases (h : c.does stmt = some c') :
    (c.isTemporary stmt = true ∧ c.temporary.does stmt = some c'.temporary ∧
        c'.database = c.database) ∨
      c.isTemporary stmt = false ∧ c.database.does stmt = some c'.database ∧
        c'.temporary = c.temporary := by
  unfold does at h
  split at h
  · rename_i ht
    obtain ⟨t, hd, rfl⟩ := Option.map_eq_some_iff.mp h
    exact Or.inl ⟨ht, hd, rfl⟩
  · rename_i ht
    obtain ⟨d, hd, rfl⟩ := Option.map_eq_some_iff.mp h
    exact Or.inr ⟨by simpa using ht, hd, rfl⟩

end Sight

/-- The statement begins or ends a transaction. -/
def Statement.controls : Statement → Bool
  | .begin _ => true
  | .commit => true
  | .rollback => true
  | _ => false

namespace Site

variable {x y : Site} {id : SessionId} {stmt : Statement} {c : Catalog} {t : Transaction}

/-! ## What lasts -/

/-- The catalog that is committed if the session commits now. -/
def outcome (x : Site) : Catalog :=
  match x.session.transaction with
  | some ⟨_, some v, true⟩ => v.current
  | _ => x.database.committed

/-- What lasts if the session commits now. -/
def sees (x : Site) : Sight := ⟨x.outcome, x.session.temporary⟩

/-- The session's temporary tables, as they are once an unfinished transaction was undone. -/
def lastingTemporary (x : Site) : Catalog :=
  match x.session.transaction with
  | some t => t.temporaryBefore
  | none => x.session.temporary

/-- What lasts if the session gives its transaction up. -/
def lasting (x : Site) : Sight := ⟨x.database.committed, x.lastingTemporary⟩

theorem transaction_of_outside (h : x.inside = false) : x.session.transaction = none :=
  Option.isNone_iff_eq_none.mp (by simpa [inside] using h)

theorem view_of_outside (h : x.inside = false) :
    x.view = ⟨x.database.committed, x.database.version⟩ := by
  simp only [view, transaction_of_outside h]

/-- Outside of transactions everything that is seen lasts. -/
theorem sees_of_outside (h : x.inside = false) : x.sees = x.lasting := by
  simp only [sees, outcome, lasting, lastingTemporary, transaction_of_outside h]

/-- A session that may write sees what it would commit. -/
theorem view_of_mayWrite (h : x.mayWrite id = true) : x.view.current = x.outcome := by
  have hv := of_decide_eq_true (Bool.and_eq_true_iff.mp h).2
  rcases ht : x.session.transaction with _ | ⟨before, _ | v, _ | _⟩
  · simp only [view, outcome, ht]
  · simp only [view, outcome, ht]
  · simp only [view, outcome, ht]
  · -- A transaction that has changed nothing goes with the database, or it may not write.
    simp only [view, outcome, ht, Bool.not_false, Bool.true_and, decide_eq_true_eq] at hv ⊢
    split at hv
    · rename_i heq
      rw [if_pos heq]
    · rename_i hne
      exact absurd hv hne
  · simp only [view, outcome, ht, Bool.not_true, Bool.false_and, Bool.false_eq_true, if_false]

/-- Either the session sees what it would commit, or it is in a transaction and may not write. -/
theorem view_or (x : Site) (id : SessionId) :
    x.view.current = x.outcome ∨ x.inside = true ∧ x.mayWrite id = false := by
  cases hw : x.mayWrite id with
  | true => exact Or.inl (view_of_mayWrite hw)
  | false =>
      cases hi : x.inside with
      | true => exact Or.inr ⟨rfl, rfl⟩
      | false =>
          rw [view_of_outside hi]
          simp only [outcome, transaction_of_outside hi, true_or]

/-! ## Changes that nobody notices -/

/-- The sites are alike in all that is seen and all that lasts. -/
structure Alike (id : SessionId) (x y : Site) : Prop where
  inside : y.inside = x.inside
  sees : y.sees = x.sees
  lasting : y.lasting = x.lasting
  free : x.mayWrite id = true → y.mayWrite id = true

theorem Alike.refl (id : SessionId) (x : Site) : Alike id x x := ⟨rfl, rfl, rfl, fun h => h⟩

theorem Alike.trans {z : Site} (h : Alike id x y) (h' : Alike id y z) : Alike id x z :=
  ⟨h'.inside.trans h.inside, h'.sees.trans h.sees, h'.lasting.trans h.lasting,
    fun hw => h'.free (h.free hw)⟩

theorem alike_learn (id : SessionId) (x : Site) : Alike id x x.learn := ⟨rfl, rfl, rfl, fun h => h⟩

theorem view_look (x : Site) : x.look.view = x.view := by
  unfold look
  cases ht : x.session.transaction with
  | none => rfl
  | some t =>
      rcases t with ⟨before, v, changed⟩
      cases changed with
      | true =>
          cases v with
          | none => simp [withTransaction, view, ht]
          | some v => simp [withTransaction, view, ht]
      | false =>
          cases v with
          | none => simp [withTransaction, view, ht]
          | some v =>
              by_cases hv : v.version = x.database.version
              · simp [withTransaction, view, ht, hv]
              · simp [withTransaction, view, ht, hv]

theorem alike_look (id : SessionId) (x : Site) : Alike id x x.look := by
  have hview := view_look x
  have hdb : x.look.database = x.database := by
    unfold look
    split <;> rfl
  have hfree : x.mayWrite id = true → x.look.mayWrite id = true := by
    intro h
    rwa [mayWrite, hview, hdb]
  cases ht : x.session.transaction with
  | none =>
      have hx : x.look = x := by simp only [look, ht]
      rw [hx]
      exact .refl id x
  | some t =>
      rcases t with ⟨before, v, changed⟩
      refine ⟨?_, ?_, ?_, hfree⟩
      · simp only [look, ht, inside, withTransaction, Option.isSome_some]
      · -- A transaction that has changed nothing commits nothing.
        cases changed with
        | false => simp only [look, ht, withTransaction, sees, outcome]
        | true =>
            cases v with
            | none => simp only [look, ht, withTransaction, sees, outcome, view]
            | some v => simp [look, ht, withTransaction, sees, outcome, view]
      · simp only [look, ht, withTransaction, lasting, lastingTemporary]

theorem alike_hold (id : SessionId) (x : Site) : Alike id x (x.hold id) := by
  refine ⟨rfl, rfl, rfl, fun h => ?_⟩
  obtain ⟨-, hv⟩ := Bool.and_eq_true_iff.mp h
  exact Bool.and_eq_true_iff.mpr ⟨by simp [hold], hv⟩

theorem alike_seize (h : x.seize id = .ok y) : Alike id x y := by
  unfold seize at h
  split at h
  · obtain rfl := Except.ok.inj h
    exact (alike_look id x).trans (alike_hold id _)
  · cases h

theorem seize_of_mayWrite (h : x.mayWrite id = true) : x.seize id = .ok (x.look.hold id) := by
  rw [seize, if_pos h]

theorem alike_claim (h : x.claim id = .ok y) : Alike id x y := by
  unfold claim at h
  split at h
  · exact alike_seize h
  · split at h
    · obtain rfl := Except.ok.inj h
      exact .refl id x
    · cases h

theorem claim_of_mayWrite (h : x.mayWrite id = true) : ∃ y, x.claim id = .ok y := by
  rw [claim, if_pos h]
  split
  · exact ⟨_, seize_of_mayWrite h⟩
  · exact ⟨x, rfl⟩

theorem alike_discover (x : Site) (id : SessionId) (outcome : Except Fault Unit) :
    Alike id x (x.discover id outcome).1 := by
  unfold discover
  cases hc : x.claim id with
  | error e => exact .refl id x
  | ok y => exact (alike_claim hc).trans (alike_learn id y)

/-! ## Statements -/

/-- The statement was carried out: on what the session sees, or it has read something that has been
replaced since. -/
structure Done (id : SessionId) (stmt : Statement) (x y : Site) : Prop where
  inside : y.inside = x.inside
  lasting : x.inside = true → y.lasting = x.lasting
  sees : x.sees.does stmt = some y.sees ∨
    y.sees = x.sees ∧ x.inside = true ∧ x.mayWrite id = false ∧
      ∃ c : Catalog, c.check stmt = .ok false
  free : x.mayWrite id = true → y.mayWrite id = true

theorem isTemporary_sees (x : Site) (stmt : Statement) :
    x.sees.isTemporary stmt = x.isTemporary stmt := by
  cases stmt <;> rfl

/-- A statement for the database, of which the check says that there is nothing to write. -/
theorem Done.of_alike (h : Alike id x y) (ht : x.isTemporary stmt = false)
    (hc : x.view.current.check stmt = .ok false) : Done id stmt x y where
  inside := h.inside
  lasting _ := h.lasting
  sees := by
    rcases view_or x id with hv | ⟨hi, hw⟩
    · refine Or.inl ?_
      have hc : x.sees.database.check stmt = .ok false := by rwa [hv] at hc
      have hdoes : x.sees.database.does stmt = some x.sees.database := by
        simp only [Catalog.does, hc]
      rw [Sight.does, isTemporary_sees, ht, if_neg nofun, hdoes, h.sees]
      rfl
    · exact Or.inr ⟨h.sees, hi, hw, _, hc⟩
  free := h.free

/-- A statement for the database that was run on what the session sees. -/
theorem Done.of_run (hw : x.mayWrite id = true) (ht : x.isTemporary stmt = false)
    (hc : x.view.current.check stmt = .ok true) (hr : x.view.current.run stmt = .ok c)
    (hi : y.inside = x.inside) (hl : x.inside = true → y.lasting = x.lasting)
    (hs : y.sees = { x.sees with database := c }) (hf : y.mayWrite id = true) :
    Done id stmt x y where
  inside := hi
  lasting := hl
  sees := by
    refine Or.inl ?_
    rw [view_of_mayWrite hw] at hc hr
    have hc : x.sees.database.check stmt = .ok true := hc
    have hr : x.sees.database.run stmt = .ok c := hr
    have hdoes : x.sees.database.does stmt = some c := by
      simp only [Catalog.does, hc, hr, Except.toOption]
    rw [Sight.does, isTemporary_sees, ht, if_neg nofun, hdoes, hs]
    rfl
  free _ := hf

theorem alike_write {e : Error} (h : x.write id stmt = (y, .error e)) : Alike id x y := by
  unfold write at h
  split at h
  · obtain ⟨rfl, -⟩ := Prod.mk.inj h
    exact .refl id x
  · split at h
    · cases (Prod.mk.inj h).2
    · obtain ⟨rfl, -⟩ := Prod.mk.inj h
      exact (alike_look id x).trans (alike_hold id _)
    · split at h
      · obtain ⟨rfl, -⟩ := Prod.mk.inj h
        exact .refl id x
      · cases (Prod.mk.inj h).2
    · obtain ⟨rfl, -⟩ := Prod.mk.inj h
      exact .refl id x

theorem done_write (h : x.write id stmt = (y, .ok ())) (ht : x.isTemporary stmt = false)
    (hc : x.view.current.check stmt = .ok true) : Done id stmt x y := by
  unfold write at h
  split at h
  · cases (Prod.mk.inj h).2
  · rename_i hw
    have hw : x.mayWrite id = true := by simpa using hw
    obtain ⟨hwriter, hversion⟩ := Bool.and_eq_true_iff.mp hw
    split at h
    · rename_i t c hin hr
      obtain ⟨rfl, -⟩ := Prod.mk.inj h
      refine .of_run hw ht hc hr ?_ ?_ rfl ?_
      · simp only [inside, hold, withTransaction, hin, Option.isSome_some]
      · intro _
        simp only [lasting, lastingTemporary, hold, withTransaction, hin]
      · simpa [mayWrite, hold, withTransaction, view] using hversion
    · cases (Prod.mk.inj h).2
    · rename_i c hin hr
      split at h
      · cases (Prod.mk.inj h).2
      · -- Outside of a transaction the change is committed at once.
        obtain ⟨rfl, -⟩ := Prod.mk.inj h
        refine .of_run hw ht hc hr rfl ?_ ?_ ?_
        · intro hi
          simp only [inside, hin, Option.isSome_none, Bool.false_eq_true] at hi
        · simp only [sees, outcome, hin, Database.replace]
        · simp only [mayWrite, view, hin, Database.replace, decide_true, Bool.and_true]
          exact hwriter
    · cases (Prod.mk.inj h).2

theorem manipulate_cases {r : Except Fault Unit} (ht : x.isTemporary stmt = false)
    (h : x.manipulate id stmt = (y, r)) :
    (∃ f, r = .error f) ∧ Alike id x y ∨ r = .ok () ∧ Done id stmt x y := by
  unfold manipulate at h
  -- The check says whether the statement fails, does nothing or has something to write.
  split at h
  · rename_i f hc
    split at h
    · split at h
      · have hy := alike_discover x id (.error f)
        rw [h] at hy
        refine Or.inl ⟨?_, hy⟩
        unfold discover at h
        split at h <;> exact ⟨_, (Prod.mk.inj h).2.symm⟩
      · obtain ⟨rfl, rfl⟩ := Prod.mk.inj h
        exact Or.inl ⟨⟨f, rfl⟩, .refl id x⟩
    · obtain ⟨rfl, rfl⟩ := Prod.mk.inj h
      exact Or.inl ⟨⟨f, rfl⟩, alike_learn id x⟩
  · rename_i hc
    split at h
    · have hy := alike_discover x id (.ok ())
      rw [h] at hy
      rcases r with f | u
      · exact Or.inl ⟨⟨f, rfl⟩, hy⟩
      · exact Or.inr ⟨rfl, .of_alike hy ht hc⟩
    · split at h
      · obtain ⟨rfl, rfl⟩ := Prod.mk.inj h
        exact Or.inr ⟨rfl, .of_alike ((alike_look id x).trans (alike_learn id _)) ht hc⟩
      · obtain ⟨rfl, rfl⟩ := Prod.mk.inj h
        exact Or.inr ⟨rfl, .of_alike (.refl id x) ht hc⟩
  · rename_i hc
    rcases hw : x.write id stmt with ⟨z, e | u⟩
    · rw [hw] at h
      obtain ⟨rfl, rfl⟩ := Prod.mk.inj h
      exact Or.inl ⟨⟨_, rfl⟩, (alike_write hw).trans (alike_learn id z)⟩
    · rw [hw] at h
      obtain ⟨rfl, rfl⟩ := Prod.mk.inj h
      have hz := done_write hw ht hc
      exact Or.inr ⟨rfl, hz.inside, hz.lasting, hz.sees, hz.free⟩

theorem manipulateTemporary_cases {r : Except Fault Unit} (id : SessionId)
    (ht : x.isTemporary stmt = true) (h : x.manipulateTemporary stmt = (y, r)) :
    (∃ f, r = .error f) ∧ Alike id x y ∨ r = .ok () ∧ Done id stmt x y := by
  have does : ∀ {c}, x.session.temporary.does stmt = some c →
      x.sees.does stmt = some { x.sees with temporary := c } := by
    intro c hc
    have hc : x.sees.temporary.does stmt = some c := hc
    rw [Sight.does, isTemporary_sees, ht, if_pos rfl, hc, Option.map_some]
  unfold manipulateTemporary at h
  split at h
  · rename_i f hc
    obtain ⟨rfl, rfl⟩ := Prod.mk.inj h
    exact Or.inl ⟨⟨f, rfl⟩, .refl id x⟩
  · rename_i hc
    obtain ⟨rfl, rfl⟩ := Prod.mk.inj h
    exact Or.inr ⟨rfl, rfl, fun _ => rfl, Or.inl (does (by simp only [Catalog.does, hc])),
      fun h => h⟩
  · rename_i hc
    split at h
    · obtain ⟨rfl, rfl⟩ := Prod.mk.inj h
      exact Or.inl ⟨⟨_, rfl⟩, .refl id x⟩
    · rename_i c hr
      obtain ⟨rfl, rfl⟩ := Prod.mk.inj h
      refine Or.inr ⟨rfl, rfl, fun hi => ?_, Or.inl (does ?_), fun h => h⟩
      · obtain ⟨t, htr⟩ := Option.isSome_iff_exists.mp hi
        simp only [lasting, lastingTemporary, htr]
      · simp only [Catalog.does, hc, hr, Except.toOption]

theorem execute_of_not_controls (x : Site) (id : SessionId) (hn : stmt.controls = false) :
    x.execute id stmt =
      if x.isTemporary stmt then x.manipulateTemporary stmt else x.manipulate id stmt := by
  cases stmt with
  | begin _ | commit | rollback => cases hn
  | _ => rfl

/-- **A statement that does not control transactions is carried out, or it fails** and nobody
notices. -/
theorem execute_cases {r : Except Fault Unit} (hn : stmt.controls = false)
    (h : x.execute id stmt = (y, r)) :
    (∃ f, r = .error f) ∧ Alike id x y ∨ r = .ok () ∧ Done id stmt x y := by
  rw [execute_of_not_controls x id hn] at h
  split at h
  · rename_i ht
    exact manipulateTemporary_cases id ht h
  · rename_i ht
    exact manipulate_cases (by simpa using ht) h

/-- In a session that may write, a statement is carried out that can be carried out on what the
session sees. Outside of a transaction it must not leave more foreign keys that lead nowhere. -/
theorem execute_of_does {c : Sight} (hn : stmt.controls = false) (hw : x.mayWrite id = true)
    (hd : x.sees.does stmt = some c)
    (hk : x.inside = false → ¬ x.sees.database.dangling true < c.database.dangling true) :
    (x.execute id stmt).2 = .ok () := by
  have hview := view_of_mayWrite hw
  rw [execute_of_not_controls x id hn]
  obtain ⟨ht, hd, -⟩ | ⟨ht, hd, -⟩ := Sight.does_cases hd
  · rw [isTemporary_sees] at ht
    have hd : x.session.temporary.does stmt = some c.temporary := hd
    rw [if_pos ht]
    obtain ⟨hc, -⟩ | ⟨hc, hr⟩ := Catalog.does_cases hd
    · simp only [manipulateTemporary, hc]
    · simp only [manipulateTemporary, hc, hr]
  · rw [isTemporary_sees] at ht
    have hd : x.outcome.does stmt = some c.database := hd
    rw [ht, if_neg nofun]
    obtain ⟨hc, -⟩ | ⟨hc, hr⟩ := Catalog.does_cases hd
    · rw [← hview] at hc
      simp only [manipulate, hc]
      split
      · obtain ⟨y, hy⟩ := claim_of_mayWrite hw
        simp only [discover, hy]
        rfl
      · split <;> rfl
    · have hrun : x.view.current.run stmt = .ok c.database := by rw [hview, hr]
      rw [← hview] at hc
      have hwrite : (x.write id stmt).2 = .ok () := by
        unfold write
        rw [hw, hrun]
        cases hin : x.session.transaction with
        | some t => rfl
        | none =>
            have hi : x.inside = false := by rw [inside, hin]; rfl
            have hle : ¬ x.database.committed.dangling true < c.database.dangling true := by
              have hle := hk hi
              rwa [sees_of_outside hi] at hle
            simp only [Bool.not_true, Bool.false_eq_true, if_false]
            rw [if_neg hle]
      simp only [manipulate, hc, hwrite]
      rfl

/-- What a session that may write has carried out, it has carried out on what it saw. -/
theorem Done.does (h : Done id stmt x y) (hw : x.mayWrite id = true) :
    x.sees.does stmt = some y.sees := by
  obtain hd | ⟨-, -, hno, -⟩ := h.sees
  · exact hd
  · rw [hw] at hno
    cases hno

theorem exists_execute {c : Sight} (stmt : Statement) (hn : stmt.controls = false)
    (hw : x.mayWrite id = true) (hd : x.sees.does stmt = some c)
    (hk : x.inside = false → ¬ x.sees.database.dangling true < c.database.dangling true) :
    ∃ y, x.execute id stmt = (y, .ok ()) ∧ Done id stmt x y ∧ y.sees = c := by
  rcases he : x.execute id stmt with ⟨y, r⟩
  have hok := execute_of_does hn hw hd hk
  obtain ⟨⟨f, rfl⟩, -⟩ | ⟨rfl, hdone⟩ := execute_cases hn he
  · rw [he] at hok
    cases hok
  · exact ⟨y, rfl, hdone, Option.some.inj ((hdone.does hw).symm.trans hd)⟩

/-! ## Transactions -/

/-- Beginning a transaction changes nothing that is seen or that lasts. -/
theorem begin_of_outside (id : SessionId) (h : x.inside = false) :
    ∃ y, x.begin id .deferred = (y, .ok ()) ∧ y.inside = true ∧ y.sees = x.sees ∧
      y.lasting = x.lasting ∧ (x.mayWrite id = true → y.mayWrite id = true) := by
  have ht := transaction_of_outside h
  refine ⟨x.withTransaction (some ⟨x.session.temporary, none, false⟩), by simp only [begin, h], rfl,
    ?_, ?_, fun hw => ?_⟩
  · simp only [sees, outcome, withTransaction, ht]
  · simp only [lasting, lastingTemporary, withTransaction, ht]
  · simpa [mayWrite, view, withTransaction, ht] using hw

theorem alike_begin_of_inside (h : x.inside = true) (mode : BeginMode) :
    Alike id x (x.begin id mode).1 ∧ ∃ e, (x.begin id mode).2 = .error e := by
  cases mode with
  | deferred => simp only [begin, h]; exact ⟨.refl id x, _, rfl⟩
  | immediate =>
      simp only [begin, h]
      cases hs : x.seize id with
      | error e => exact ⟨.refl id x, e, rfl⟩
      | ok y => exact ⟨alike_seize hs, _, rfl⟩

theorem mayWrite_release (h : x.mayWrite id = true) :
    (x.database.release id).writer.all (· = id) = true := by
  obtain ⟨hw, -⟩ := Bool.and_eq_true_iff.mp h
  unfold Database.release
  split
  · rfl
  · exact hw

theorem committed_release (d : Database) (id : SessionId) :
    (d.release id).committed = d.committed ∧ (d.release id).version = d.version := by
  unfold Database.release
  split <;> exact ⟨rfl, rfl⟩

/-- What is left when a transaction was ended. -/
structure Ended (id : SessionId) (x y : Site) (c : Sight) : Prop where
  outside : y.inside = false
  sees : y.sees = c
  free : x.mayWrite id = true → y.mayWrite id = true

theorem Ended.of_release {s : Session} (hs : s.transaction = none) :
    Ended id x ⟨s, x.database.release id⟩ ⟨x.database.committed, s.temporary⟩ where
  outside := by rw [inside, hs]; rfl
  sees := by simp only [Site.sees, outcome, hs, (committed_release _ _).1]
  free hw := by
    simp only [mayWrite, view, hs, decide_true, Bool.and_true]
    exact mayWrite_release hw

/-- A transaction is committed unless it leaves more foreign keys that lead nowhere, and then what
was seen lasts. -/
theorem commit_of_inside (id : SessionId) (h : x.inside = true) :
    (x.database.committed.dangling true < x.outcome.dangling true ∧
        ∃ e, x.commit id = (x, .error e)) ∨
      (¬ x.database.committed.dangling true < x.outcome.dangling true ∧
        ∃ y, x.commit id = (y, .ok ()) ∧ Ended id x y x.sees) := by
  obtain ⟨t, ht⟩ := Option.isSome_iff_exists.mp h
  rcases t with ⟨before, v, changed⟩
  have unchanged : x.outcome = x.database.committed →
      x.commit id = ({ x.withTransaction none with database := x.database.release id }, .ok ()) →
      ¬ x.database.committed.dangling true < x.outcome.dangling true ∧
        ∃ y, x.commit id = (y, .ok ()) ∧ Ended id x y x.sees := by
    intro ho hc
    refine ⟨by rw [ho]; exact Nat.lt_irrefl _, _, hc, ?_⟩
    rw [sees, ho]
    exact .of_release rfl
  cases v with
  | none =>
      exact Or.inr (unchanged (by simp only [outcome, ht]) (by simp only [commit, ht]))
  | some v =>
      cases changed with
      | false =>
          exact Or.inr (unchanged (by simp only [outcome, ht]) (by simp only [commit, ht]))
      | true =>
          have ho : x.outcome = v.current := by simp only [outcome, ht]
          by_cases hlt : x.database.committed.dangling true < v.current.dangling true
          · exact Or.inl ⟨by rwa [ho], _, by simp only [commit, ht, hlt, if_true]; rfl⟩
          · refine Or.inr ⟨by rwa [ho], _, by simp only [commit, ht, hlt, if_false]; rfl, rfl, ?_,
              ?_⟩
            · simp only [sees, outcome, ht, withTransaction, Database.replace]
            · intro _
              simp [mayWrite, view, withTransaction]

/-- A commit fails and leaves everything as it is, or it ends a transaction with what was seen. -/
theorem commit_cases (x : Site) (id : SessionId) :
    (∃ e, x.commit id = (x, .error e)) ∨ ∃ y, x.commit id = (y, .ok ()) ∧ Ended id x y x.sees := by
  cases hi : x.inside with
  | false => exact Or.inl ⟨.nothingToCommit, by simp only [commit, transaction_of_outside hi]⟩
  | true =>
      obtain ⟨-, e, hc⟩ | ⟨-, y, hc, hy⟩ := commit_of_inside id hi
      · exact Or.inl ⟨e, hc⟩
      · exact Or.inr ⟨y, hc, hy⟩

/-- A transaction that is undone leaves what lasted. -/
theorem rollback_of_inside (id : SessionId) (h : x.inside = true) :
    ∃ y, x.rollback id = (y, .ok ()) ∧ Ended id x y x.lasting := by
  obtain ⟨t, ht⟩ := Option.isSome_iff_exists.mp h
  have hend : Ended id x
      ⟨{ x.session with temporary := t.temporaryBefore, transaction := none },
        x.database.release id⟩ x.lasting := by
    have hl : x.lasting = ⟨x.database.committed, t.temporaryBefore⟩ := by
      simp only [lasting, lastingTemporary, ht]
    rw [hl]
    exact .of_release rfl
  refine ⟨_, by simp only [rollback, ht]; rfl, ?_⟩
  split
  · -- A session that had changed something learns the schema anew, and sees no difference.
    exact ⟨hend.outside, hend.sees, hend.free⟩
  · exact hend

/-- Statements that control transactions change neither what is seen nor what lasts, except that one
may be put in place of the other. -/
structure Switched (id : SessionId) (x y : Site) : Prop where
  sees : y.sees = x.sees ∨ y.sees = x.lasting
  lasting : y.lasting = x.lasting ∨ y.lasting = x.sees
  free : x.mayWrite id = true → y.mayWrite id = true

theorem Alike.switched (h : Alike id x y) : Switched id x y :=
  ⟨Or.inl h.sees, Or.inl h.lasting, h.free⟩

theorem Ended.lasting {c : Sight} (h : Ended id x y c) : y.lasting = c :=
  (sees_of_outside h.outside).symm.trans h.sees

theorem switched_begin (x : Site) (id : SessionId) (mode : BeginMode) :
    Switched id x (x.begin id mode).1 := by
  cases hi : x.inside with
  | true => exact (alike_begin_of_inside hi mode).1.switched
  | false =>
      obtain ⟨y, hy, -, hs, hl, hf⟩ := begin_of_outside id hi
      cases mode with
      | deferred =>
          rw [hy]
          exact ⟨Or.inl hs, Or.inl hl, hf⟩
      | immediate =>
          -- A transaction that has begun takes the right to write as well.
          have hbegun : x.withTransaction (some ⟨x.session.temporary, none, false⟩) = y := by
            simp only [begin, hi] at hy
            exact (Prod.mk.inj hy).1
          simp only [begin, hi, hbegun]
          cases hz : y.seize id with
          | error e => exact (Alike.refl id x).switched
          | ok z =>
              have hyz := alike_seize hz
              exact ⟨Or.inl (hyz.sees.trans hs), Or.inl (hyz.lasting.trans hl),
                fun hw => hyz.free (hf hw)⟩

theorem switched_commit (x : Site) (id : SessionId) : Switched id x (x.commit id).1 := by
  obtain ⟨e, hc⟩ | ⟨y, hc, hy⟩ := x.commit_cases id
  · rw [hc]
    exact (Alike.refl id x).switched
  · rw [hc]
    exact ⟨Or.inl hy.sees, Or.inr hy.lasting, hy.free⟩

theorem switched_rollback (x : Site) (id : SessionId) : Switched id x (x.rollback id).1 := by
  cases hi : x.inside with
  | false =>
      have hc : x.rollback id = (x, .error .nothingToRollBack) := by
        simp only [rollback, transaction_of_outside hi]
      rw [hc]
      exact (Alike.refl id x).switched
  | true =>
      obtain ⟨y, hc, hy⟩ := rollback_of_inside id hi
      rw [hc]
      exact ⟨Or.inr hy.sees, Or.inl hy.lasting, hy.free⟩

theorem switched_execute (x : Site) (id : SessionId) (hc : stmt.controls = true) :
    Switched id x (x.execute id stmt).1 := by
  cases stmt with
  | begin mode => exact switched_begin x id mode
  | commit => exact switched_commit x id
  | rollback => exact switched_rollback x id
  | _ => cases hc

/-- A session that may write goes on doing so. -/
theorem mayWrite_execute (hw : x.mayWrite id = true) (stmt : Statement) :
    (x.execute id stmt).1.mayWrite id = true := by
  cases hc : stmt.controls with
  | true => exact (switched_execute x id hc).free hw
  | false =>
      rcases he : x.execute id stmt with ⟨y, r⟩
      obtain ⟨-, hy⟩ | ⟨-, hy⟩ := execute_cases hc he
      · exact hy.free hw
      · exact hy.free hw

end Site

/-! ## Scripts -/

/-- The statements that are read from a text, at most `fuel` of them, up to the first stretch that
is none. -/
def statementsFor : Nat → List Char → List Statement
  | 0, _ => []
  | fuel + 1, sql =>
    match nextStatement sql with
    | .error _ => []
    | .ok none => []
    | .ok (some (stmt, n)) => stmt :: statementsFor fuel (sql.drop n)

/-- The statements that are read from a script. -/
def statements (sql : String) : List Statement :=
  statementsFor (sql.toList.length + 1) sql.toList

namespace Site

variable {x : Site} {id : SessionId}

theorem scriptFor_keep {P : Site → Prop} {fuel : Nat} {sql : List Char}
    (keep : ∀ stmt ∈ statementsFor fuel sql, ∀ {y}, P y → P (y.execute id stmt).1) (h : P x) :
    P (scriptFor id fuel x sql).1 := by
  induction fuel generalizing x sql with
  | zero => exact h
  | succ fuel ih =>
      unfold scriptFor
      split
      · exact h
      · exact h
      · rename_i stmt n hn
        have hs : statementsFor (fuel + 1) sql = stmt :: statementsFor fuel (sql.drop n) := by
          simp only [statementsFor, hn]
        rw [hs] at keep
        have hnext := keep stmt List.mem_cons_self h
        split
        · rename_i he
          rwa [he] at hnext
        · rename_i he
          rw [he] at hnext
          exact ih (fun w hw => keep w (List.mem_cons_of_mem _ hw)) hnext

/-- What every statement of a script keeps, the script keeps. -/
theorem script_keep {P : Site → Prop} {sql : String}
    (keep : ∀ stmt ∈ statements sql, ∀ {y}, P y → P (y.execute id stmt).1) (h : P x) :
    P (x.script id sql).1 :=
  scriptFor_keep keep h

/-- A script that does not control transactions stays in the one that it is in, or outside. -/
theorem inside_script (x : Site) (id : SessionId) {sql : String}
    (hn : ∀ stmt ∈ statements sql, stmt.controls = false) :
    (x.script id sql).1.inside = x.inside ∧
      (x.inside = true → (x.script id sql).1.lasting = x.lasting) := by
  refine script_keep (P := fun y => y.inside = x.inside ∧ (x.inside = true → y.lasting = x.lasting))
    (fun stmt hs {y} ⟨hi, hl⟩ => ?_) ⟨rfl, fun _ => rfl⟩
  rcases he : y.execute id stmt with ⟨z, r⟩
  obtain ⟨-, hz⟩ | ⟨-, hz⟩ := execute_cases (hn stmt hs) he
  · exact ⟨hz.inside.trans hi, fun h => hz.lasting.trans (hl h)⟩
  · exact ⟨hz.inside.trans hi, fun h => (hz.lasting (hi.trans h)).trans (hl h)⟩

end Site

end PooledStore.Sql
