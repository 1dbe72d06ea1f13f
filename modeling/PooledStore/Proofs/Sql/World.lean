import PooledStore.Proofs.Sql.Standing

/-!
# Sessions of the embedded store

What an operation does is what happens on the site of its session (`World.batch_eq` and the like).
Sessions begin when they are opened, and end when they are closed (`World.sessions`).
-/

set_option autoImplicit false

namespace PooledStore.Sql

open Config Migration

namespace World

variable {c : Connection} {w w' : World} {id : SessionId} {db : DatabaseId} {x y : Site}
variable {k l : Sight} {text time : String} {v : Int}

/-! ## Operations on a site -/

theorem batch_eq (h : w.store.Has c.session db x) (text : String) :
    Stores.batch c text w = (w.put c.session (x.script c.session text).1,
      (x.script c.session text).2.mapError Failure.message) :=
  act_eq h _ ()

theorem begin_eq (h : w.store.Has c.session db x) :
    Stores.begin c w = (w.put c.session (x.begin c.session .deferred).1,
      ((x.begin c.session .deferred).2.mapError Error.nowhere).mapError Failure.message) :=
  act_eq h _ ()

theorem record_eq (h : w.store.Has c.session db x) (v : Int) (time : String) :
    Stores.record c v time w =
      (w.put c.session (x.execute c.session (recordStatement v time)).1,
        ((x.execute c.session (recordStatement v time)).2.mapError
          (·.inText recordText.toList)).mapError Failure.message) :=
  act_eq h _ ()

theorem largest_eq (h : w.store.Has c.session db x) :
    Stores.largest c w = (w.put c.session x, x.largest.mapError Failure.message) :=
  act_eq h _ none

theorem commit_eq (h : w.store.Has c.session db x) :
    Stores.commit c w = (w.put c.session (x.commit c.session).1,
      ((x.commit c.session).2.mapError Error.nowhere).mapError Failure.message) :=
  act_eq h _ ()

theorem abandon_eq (h : w.store.Has c.session db x) :
    Stores.abandon c w = w.put c.session (x.abandon c.session) :=
  congrArg Prod.fst (act_eq h (fun x => (x.abandon c.session, .ok ())) ())

theorem has_put (h : w.store.Has id db x) (y : Site) : (w.put id y).store.Has id db y := h.put y

theorem ok_of_mapError {α ε ε' : Type} {r : Except ε α} {f : ε → ε'} {a : α}
    (h : r.mapError f = .ok a) : r = .ok a := by
  cases r with
  | error e => cases h
  | ok b => exact congrArg Except.ok (Except.ok.inj h)

/-- An operation of a closed session does nothing. Any other replaces the site of its session, which
may go on writing if it could before. -/
theorem acts_cases (h : Acts c w w') :
    (w.store.seat? c.session = none ∧ w' = w) ∨
      ∃ db x y, w.store.Has c.session db x ∧ w' = w.put c.session y ∧
        (x.mayWrite c.session = true → y.mayWrite c.session = true) := by
  cases ha : w.store.seat? c.session with
  | none =>
      refine Or.inl ⟨rfl, ?_⟩
      cases h with
      | abandon =>
          exact congrArg Prod.fst (act_closed ha (fun x => (x.abandon c.session, .ok ())) ())
      | batch _ | begin | record _ _ | largest | commit =>
          exact congrArg Prod.fst (act_closed ha _ _)
  | some a =>
      obtain ⟨d, hx⟩ := Store.exists_has ha
      refine Or.inr ⟨a.database, ⟨a.session, d⟩, ?_⟩
      cases h with
      | batch text =>
          refine ⟨_, hx, congrArg Prod.fst (batch_eq hx text), fun hw => ?_⟩
          exact Site.script_keep (P := fun y => y.mayWrite c.session = true)
            (fun stmt _ {y} hy => Site.mayWrite_execute hy stmt) hw
      | begin =>
          exact ⟨_, hx, congrArg Prod.fst (begin_eq hx), (Site.switched_begin _ _ _).free⟩
      | record v time =>
          exact ⟨_, hx, congrArg Prod.fst (record_eq hx v time),
            fun hw => Site.mayWrite_execute hw _⟩
      | largest => exact ⟨_, hx, congrArg Prod.fst (largest_eq hx), fun hw => hw⟩
      | commit => exact ⟨_, hx, congrArg Prod.fst (commit_eq hx), (Site.switched_commit _ _).free⟩
      | abandon =>
          refine ⟨_, hx, abandon_eq hx, fun hw => ?_⟩
          unfold Site.abandon
          split
          · exact (Site.switched_rollback _ _).free hw
          · exact hw

/-! ## Sessions -/

theorem seat?_append {l : List (Option Seat)} {a : Option Seat} {j : SessionId}
    (hj : j ≠ l.length) : ((l ++ [a])[j]?).join = (l[j]?).join := by
  rcases Nat.lt_or_ge j l.length with hlt | hge
  · rw [List.getElem?_append_left hlt]
  · have hnone : (l ++ [a])[j]? = none :=
      List.getElem?_eq_none (by
        rw [List.length_append, List.length_singleton]
        exact Nat.succ_le_of_lt (Nat.lt_of_le_of_ne hge (Ne.symm hj)))
    rw [hnone, List.getElem?_eq_none hge]

/-- A store with one more session, and with more databases perhaps. -/
theorem begun_of_append {s : Session}
    (hs : w'.store.sessions = w.store.sessions ++ [some ⟨db, s⟩])
    (hd : ∀ b, b < w.store.databases.length →
      w'.store.databases[b]? = w.store.databases[b]?)
    (ht : s.transaction = none) (htemp : s.temporary = .empty) :
    reading.Begun w w' w.store.nextSession := by
  have hseat : w'.store.seat? w.store.nextSession = some ⟨db, s⟩ := by
    simp [Store.seat?, hs, Store.nextSession]
  have hnew : w.store.seat? w.store.nextSession = none := by
    simp [Store.seat?, Store.nextSession]
  refine ⟨Store.standing_eq_none.mpr hnew, ?_, fun j hj => ?_⟩
  · obtain ⟨d, hx⟩ := Store.exists_has hseat
    have hi : (⟨s, d⟩ : Site).inside = false := by rw [Site.inside, ht]; rfl
    exact ⟨db, _, idle_iff.mpr ⟨_, hx, hi, rfl⟩, htemp⟩
  · have hother : w'.store.seat? j = w.store.seat? j := by
      rw [Store.seat?, hs, seat?_append hj, Store.seat?]
    cases ha : w.store.seat? j with
    | none =>
        exact (Store.standing_eq_none.mpr (hother.trans ha)).trans
          (Store.standing_eq_none.mpr ha).symm
    | some a =>
        obtain ⟨d, hx⟩ := Store.exists_has ha
        have hx' : w'.store.Has j a.database ⟨a.session, d⟩ :=
          ⟨hother.trans ha, (hd _ hx.lt_database).trans hx.database⟩
        exact hx'.standing.trans hx.standing.symm

theorem begun_openNew (w : World) (journal : String) :
    reading.Begun w (w.openNew journal).1 (w.openNew journal).2 :=
  begun_of_append rfl (fun _ hb => List.getElem?_append_left hb) rfl rfl

theorem begun_openExisting (h : w.openExisting db = some (w', id)) : reading.Begun w w' id := by
  obtain ⟨st, hst, heq⟩ := Option.map_eq_some_iff.mp h
  obtain ⟨rfl, rfl⟩ := Prod.mk.inj heq
  unfold Store.addSession at hst
  split at hst
  · obtain rfl := Option.some.inj hst
    exact begun_of_append rfl (fun _ _ => rfl) rfl rfl
  · cases hst

/-- Opening a file begins a session or leaves the stores as they are. -/
theorem openFile_cases {file : Path} {files files' : FileTree} {r : Except Error SessionId}
    (h : openFile file files w = (files', w', r)) :
    (∃ e, r = .error e ∧ w' = w) ∨ ∃ id, r = .ok id ∧ reading.Begun w w' id := by
  have failed : ∀ {e : Error} {f : FileTree}, (f, w, Except.error e) = (files', w', r) →
      (∃ e, r = .error e ∧ w' = w) ∨ ∃ id, r = .ok id ∧ reading.Begun w w' id := by
    intro e f h
    simp only [Prod.mk.injEq] at h
    exact Or.inl ⟨e, h.2.2.symm, h.2.1.symm⟩
  have opened : ∀ {journal : String} {f : FileTree},
      (f, (w.openNew journal).1, Except.ok (w.openNew journal).2) = (files', w', r) →
      (∃ e, r = .error e ∧ w' = w) ∨ ∃ id, r = .ok id ∧ reading.Begun w w' id := by
    intro journal f h
    simp only [Prod.mk.injEq] at h
    obtain ⟨-, rfl, rfl⟩ := h
    exact Or.inr ⟨_, rfl, begun_openNew w journal⟩
  unfold openFile at h
  split at h
  · exact failed h
  · split at h
    · exact opened h
    · split at h
      · exact opened h
      · split at h
        · exact failed h
        · split at h
          · split at h
            · exact failed h
            · exact opened h
          · split at h
            · exact failed h
            · split at h
              · exact opened h
              · exact failed h
              · split at h
                · rename_i hex
                  simp only [Prod.mk.injEq] at h
                  obtain ⟨-, rfl, rfl⟩ := h
                  exact Or.inr ⟨_, rfl, begun_openExisting hex⟩
                · exact failed h
          · exact failed h

theorem dial_cases {network : NetworkOptions} {r : Dialled} (h : dial network w = (w', r)) :
    (w' = w ∧ ∀ id, r ≠ .answered id) ∨ ∃ id, r = .answered id ∧ reading.Begun w w' id := by
  unfold dial at h
  split at h
  · split at h
    · rename_i hex
      obtain ⟨b, -, hb⟩ := Option.bind_eq_some_iff.mp hex
      obtain ⟨rfl, rfl⟩ := Prod.mk.inj h
      exact Or.inr ⟨_, rfl, begun_openExisting hb⟩
    · obtain ⟨rfl, rfl⟩ := Prod.mk.inj h
      exact Or.inl ⟨rfl, nofun⟩
  · obtain ⟨rfl, rfl⟩ := Prod.mk.inj h
    exact Or.inl ⟨rfl, nofun⟩
  · obtain ⟨rfl, rfl⟩ := Prod.mk.inj h
    exact Or.inl ⟨rfl, nofun⟩

theorem outcome_congr {s : Session} {d d' : Database} (h : d'.committed = d.committed) :
    (⟨s, d'⟩ : Site).outcome = (⟨s, d⟩ : Site).outcome := by
  unfold Site.outcome
  simp only [h]

/-- Other sessions notice only what is committed. -/
theorem standing_put_other {st : Store} {j : SessionId} (h : st.Has id db x)
    (hc : y.database.committed = x.database.committed) (hj : j ≠ id) :
    (st.put id y).standing j = st.standing j := by
  cases ha : st.seat? j with
  | none =>
      exact (Store.standing_eq_none.mpr (Store.seat?_put_none ha y)).trans
        (Store.standing_eq_none.mpr ha).symm
  | some a =>
      obtain ⟨d, hz⟩ := Store.exists_has ha
      have hcommitted : (if a.database = db then y.database else d).committed = d.committed := by
        split
        · rename_i heq
          obtain rfl : d = x.database := (heq ▸ hz).same_database h
          exact hc
        · rfl
      rw [(h.put_other hz hj y).standing, hz.standing]
      simp only [Site.sees, Site.lasting, outcome_congr hcommitted, hcommitted]
      rfl

theorem isSome_standing_put {st : Store} (h : st.Has id db x) (y : Site) (j : SessionId) :
    ((st.put id y).standing j).isSome = (st.standing j).isSome := by
  cases ha : st.seat? j with
  | none =>
      rw [Store.standing_eq_none.mpr ha, Store.standing_eq_none.mpr (Store.seat?_put_none ha y)]
  | some a =>
      obtain ⟨d, hz⟩ := Store.exists_has ha
      by_cases hj : j = id
      · rw [hj, (h.put y).standing, h.standing]
        rfl
      · rw [(h.put_other hz hj y).standing, hz.standing]
        rfl

theorem committed_rollback (x : Site) (id : SessionId) :
    (x.rollback id).1.database.committed = x.database.committed := by
  unfold Site.rollback
  split
  · rfl
  · split
    · exact (Site.committed_release _ _).1
    · exact (Site.committed_release _ _).1

theorem standing_configure (h : w.store.Has c.session db x) (busyTimeout : Nat) :
    (w.put c.session (x.setBusyTimeout busyTimeout)).store.standing = w.store.standing := by
  funext j
  by_cases hj : j = c.session
  · rw [hj]
    exact (has_put h _).standing.trans h.standing.symm
  · exact standing_put_other h rfl hj

theorem seat?_close (st : Store) (id : SessionId) : (st.close id).seat? id = none := by
  show (((st.act id _ ()).1.sessions.set id none)[id]?).join = none
  rw [List.getElem?_set]
  split
  · split <;> rfl
  · contradiction

theorem standing_close_other {j : SessionId} (st : Store) (hj : j ≠ id) :
    (st.close id).standing j = st.standing j := by
  -- The place of the session is emptied after its transaction was undone.
  have hset : (st.close id).standing j =
      (st.act id (fun x => ((x.rollback id).1, ())) ()).1.standing j := by
    have hseat : (st.close id).seat? j =
        (st.act id (fun x => ((x.rollback id).1, ())) ()).1.seat? j := by
      show (((st.act id _ ()).1.sessions.set id none)[j]?).join = _
      rw [List.getElem?_set_ne (Ne.symm hj)]
      rfl
    simp only [Store.standing, Store.site?, hseat]
    rfl
  rw [hset]
  cases ha : st.seat? id with
  | none => rw [Store.act_closed ha]
  | some a =>
      obtain ⟨d, hx⟩ := Store.exists_has ha
      rw [hx.act]
      exact standing_put_other hx (committed_rollback _ id) hj

theorem stores_openFile (file : Path) (files : FileTree) (w : World) :
    Stores.openFile file files w = ((openFile file files w).1, (openFile file files w).2.1,
      (openFile file files w).2.2.mapError Error.message) := rfl

/-- **Sessions begin when they are opened, and end when they are closed.** -/
theorem sessions : reading.Sessions where
  openFile_ok {file files files' w w' id} h := by
    rcases ho : openFile file files w with ⟨f, w₁, r⟩
    rw [stores_openFile, ho, Prod.mk.injEq, Prod.mk.injEq] at h
    obtain ⟨-, rfl, hr⟩ := h
    obtain ⟨e, rfl, -⟩ | ⟨id', rfl, hb⟩ := openFile_cases ho
    · cases hr
    · obtain rfl := Except.ok.inj hr
      exact hb
  openFile_error {file files files' w w' e} h := by
    rcases ho : openFile file files w with ⟨f, w₁, r⟩
    rw [stores_openFile, ho, Prod.mk.injEq, Prod.mk.injEq] at h
    obtain ⟨-, rfl, hr⟩ := h
    obtain ⟨e, -, rfl⟩ | ⟨id', rfl, -⟩ := openFile_cases ho
    · rfl
    · cases hr
  setJournal c w := rfl
  configure c busyTimeout w := by
    cases ha : w.store.seat? c.session with
    | none => exact congrArg (reading.standing ·.1) (act_closed ha _ ())
    | some a =>
        obtain ⟨d, hx⟩ := Store.exists_has ha
        refine (congrArg (reading.standing ·.1) (act_eq hx _ ())).trans ?_
        exact standing_configure hx _
  dial_answered h := by
    obtain ⟨-, hne⟩ | ⟨id, hr, hb⟩ := dial_cases h
    · exact absurd rfl (hne _)
    · obtain rfl := Dialled.answered.inj hr
      exact hb
  dial_failed h := by
    obtain ⟨rfl, -⟩ | ⟨id, hr, -⟩ := dial_cases h
    · rfl
    · cases hr
  dial_late h := by
    obtain ⟨rfl, -⟩ | ⟨id, hr, -⟩ := dial_cases h
    · rfl
    · cases hr
  close_self c w := Store.standing_eq_none.mpr (seat?_close w.store c.session)
  close_other {c w id} hj := standing_close_other w.store hj
  acts {c w w'} id h := by
    obtain ⟨-, rfl⟩ | ⟨db, x, y, hx, rfl, -⟩ := acts_cases h
    · rfl
    · exact isSome_standing_put hx y id

end World

end PooledStore.Sql
