import PooledStore.Proofs.Sql.Records

/-!
# Where sessions stand

How the embedded store is read: a session stands on its database, with what it sees and what lasts,
but for the times of records (`Store.standing`, `World.reading`). What a session does replaces its
own site and nothing else (`Store.Has.put`, `Store.Has.put_other`).
-/

set_option autoImplicit false

namespace PooledStore.Sql

/-- The statement makes a temporary table. -/
def Statement.makesTemporary : Statement → Bool
  | .createTable temporary .. => temporary
  | _ => false

namespace Store

variable {st : Store} {id j : SessionId} {db db' : DatabaseId} {x y z : Site} {s : Session}
variable {a : Seat}

/-! ## Sites in a store -/

/-- The session is open, on the database, and this is its site. -/
structure Has (st : Store) (id : SessionId) (db : DatabaseId) (x : Site) : Prop where
  seat : st.seat? id = some ⟨db, x.session⟩
  database : st.database? db = some x.database

theorem Has.site (h : st.Has id db x) : st.site? id = some x := by
  simp only [site?, h.seat, Option.bind_some, h.database, Option.map_some]

/-- Sessions on one database share it. -/
theorem Has.same_database (h : st.Has id db x) (h' : st.Has j db y) : x.database = y.database :=
  Option.some.inj (h.database.symm.trans h'.database)

theorem mem_of_seat (h : st.seat? id = some a) : some a ∈ st.sessions := by
  unfold seat? at h
  cases hs : st.sessions[id]? with
  | none =>
      rw [hs] at h
      cases h
  | some o =>
      rw [hs] at h
      obtain rfl : o = some a := h
      exact List.mem_of_getElem? hs

theorem exists_has (h : st.seat? id = some a) : ∃ d, st.Has id a.database ⟨a.session, d⟩ :=
  ⟨_, h, List.getElem?_eq_getElem (st.grounded a (mem_of_seat h))⟩

theorem Has.lt_database (h : st.Has id db x) : db < st.databases.length :=
  (List.getElem?_eq_some_iff.mp h.database).1

theorem seat?_setSession : (st.setSession id s).seat? j =
    if id = j then (st.seat? j).map fun a => { a with session := s } else st.seat? j := by
  unfold seat? setSession
  simp only [List.getElem?_modify]
  split
  · cases st.sessions[j]? with
    | none => rfl
    | some o => cases o <;> rfl
  · cases st.sessions[j]? <;> rfl

theorem Has.put (h : st.Has id db x) (y : Site) : (st.put id y).Has id db y := by
  have hput : st.put id y = (st.setSession id y.session).setDatabase db y.database := by
    simp only [Store.put, h.seat]
  rw [hput]
  constructor
  · show (st.setSession id y.session).seat? id = _
    rw [seat?_setSession, if_pos rfl, h.seat]
    rfl
  · exact List.getElem?_set_self h.lt_database

/-- Other sessions stay, and those on the same database see what has become of it. -/
theorem Has.put_other (h : st.Has id db x) (h' : st.Has j db' z) (hj : j ≠ id) (y : Site) :
    (st.put id y).Has j db' ⟨z.session, if db' = db then y.database else z.database⟩ := by
  have hput : st.put id y = (st.setSession id y.session).setDatabase db y.database := by
    simp only [Store.put, h.seat]
  rw [hput]
  constructor
  · show (st.setSession id y.session).seat? j = _
    rw [seat?_setSession, if_neg (Ne.symm hj), h'.seat]
  · show (st.databases.set db y.database)[db']? = _
    split
    · rename_i heq
      rw [heq]
      exact List.getElem?_set_self h.lt_database
    · rename_i hne
      rw [List.getElem?_set_ne (Ne.symm hne)]
      exact h'.database

theorem seat?_put_none (h : st.seat? j = none) (y : Site) : (st.put id y).seat? j = none := by
  unfold Store.put
  split
  · show (st.setSession id y.session).seat? j = _
    rw [seat?_setSession, h]
    split <;> rfl
  · exact h

theorem Has.act {α : Type} (h : st.Has id db x) (f : Site → Site × α) (answer : α) :
    st.act id f answer = (st.put id (f x).1, (f x).2) := by
  simp only [Store.act, h.site]

theorem act_closed {α : Type} (h : st.seat? id = none) (f : Site → Site × α) (answer : α) :
    st.act id f answer = (st, answer) := by
  simp only [Store.act, site?, h, Option.bind_none]

/-! ## Standing -/

/-- Where the session stands, but for the times of records. -/
def standing (st : Store) (id : SessionId) : Option (Standing Sight) :=
  (st.seat? id).bind fun a => (st.site? id).map fun x =>
    ⟨a.database, x.inside, timeless x.sees, timeless x.lasting⟩

theorem Has.standing (h : st.Has id db x) :
    st.standing id = some ⟨db, x.inside, timeless x.sees, timeless x.lasting⟩ := by
  simp only [Store.standing, h.seat, h.site, Option.bind_some, Option.map_some]

theorem has_of_standing {s : Standing Sight} (h : st.standing id = some s) :
    ∃ x, st.Has id s.database x ∧
      s = ⟨s.database, x.inside, timeless x.sees, timeless x.lasting⟩ := by
  obtain ⟨a, ha, -⟩ := Option.bind_eq_some_iff.mp h
  obtain ⟨d, hd⟩ := exists_has ha
  obtain rfl := Option.some.inj (hd.standing.symm.trans h)
  exact ⟨_, hd, rfl⟩

theorem standing_eq_none : st.standing id = none ↔ st.seat? id = none := by
  constructor
  · intro h
    cases ha : st.seat? id with
    | none => rfl
    | some a =>
        obtain ⟨d, hd⟩ := exists_has ha
        rw [hd.standing] at h
        cases h
  · intro h
    simp only [Store.standing, h, Option.bind_none]

end Store

namespace World

/-- How the embedded store is read. What is recorded counts as such where the table of records is as
updates make it. -/
noncomputable def reading : Reading World Sight (List Table × List Index × Catalog) where
  standing w id := w.store.standing id
  records := records
  own := own
  bare c := c.temporary = .empty
  undisturbed w id := ∃ x, w.store.site? id = some x ∧ x.mayWrite id = true
  controls _ text := ∃ stmt ∈ statements text, stmt.controls = true
  names _ text := ∃ stmt ∈ statements text, stmt.mentions recordTable = true
  temporary _ text := ∃ stmt ∈ statements text, stmt.makesTemporary = true

variable {w w' : World} {id : SessionId} {db : DatabaseId} {x y : Site} {k l : Sight}

theorem reading_standing (w : World) (id : SessionId) :
    reading.standing w id = w.store.standing id := rfl

theorem idle_iff : reading.Idle w id db k ↔
    ∃ x, w.store.Has id db x ∧ x.inside = false ∧ timeless x.sees = k := by
  constructor
  · intro h
    obtain ⟨x, hx, heq⟩ := Store.has_of_standing h
    simp only [Standing.mk.injEq, true_and] at heq
    exact ⟨x, hx, heq.1.symm, heq.2.1.symm⟩
  · rintro ⟨x, hx, hi, rfl⟩
    have hs := hx.standing
    rw [hi, ← Site.sees_of_outside hi] at hs
    exact hs

theorem inside_iff : reading.Inside w id db k l ↔
    ∃ x, w.store.Has id db x ∧ x.inside = true ∧ timeless x.sees = k ∧ timeless x.lasting = l := by
  constructor
  · intro h
    obtain ⟨x, hx, heq⟩ := Store.has_of_standing h
    simp only [Standing.mk.injEq, true_and] at heq
    exact ⟨x, hx, heq.1.symm, heq.2.1.symm, heq.2.2.symm⟩
  · rintro ⟨x, hx, hi, rfl, rfl⟩
    have hs := hx.standing
    rw [hi] at hs
    exact hs

theorem leaves_iff : reading.Leaves w id db l ↔
    ∃ x, w.store.Has id db x ∧ timeless x.lasting = l := by
  constructor
  · rintro ⟨s, hs, rfl, rfl⟩
    obtain ⟨x, hx, heq⟩ := Store.has_of_standing hs
    exact ⟨x, hx, (congrArg Standing.lasting heq).symm⟩
  · rintro ⟨x, hx, rfl⟩
    exact ⟨_, hx.standing, rfl, rfl⟩

theorem undisturbed_iff (h : w.store.Has id db x) :
    reading.undisturbed w id ↔ x.mayWrite id = true := by
  constructor
  · rintro ⟨y, hy, hw⟩
    obtain rfl := Option.some.inj (h.site.symm.trans hy)
    exact hw
  · exact fun hw => ⟨x, h.site, hw⟩

/-- The world after the session has done something. -/
def put (w : World) (id : SessionId) (y : Site) : World := { w with store := w.store.put id y }

theorem act_eq {α : Type} (h : w.store.Has id db x) (f : Site → Site × Except Failure α)
    (answer : α) :
    w.act id f answer = (w.put id (f x).1, (f x).2.mapError Failure.message) := by
  simp only [act, h.act, put]

theorem act_closed {α : Type} (h : w.store.seat? id = none)
    (f : Site → Site × Except Failure α) (answer : α) : w.act id f answer = (w, .ok answer) := by
  simp only [act, Store.act_closed h]
  rfl

end World

end PooledStore.Sql
