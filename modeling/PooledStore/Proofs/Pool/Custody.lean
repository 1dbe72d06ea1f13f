import Mathlib.Data.List.Perm.Basic
import PooledStore.Proofs.Pool.Accounts

/-!
# Where the connections are

Every connection that was ever opened is in one place: idle, in a borrower's hands, carried by a
call that has taken it or brings it back, or destroyed (`Machine.custody`). The invariant says that
these places, one after the other, list every opened connection once (`Machine.Conserved`): the
elementary changes move connections between them, and one change opens a new one.
-/

set_option autoImplicit false

namespace PooledStore.Pool

/-! ## Places -/

/-- The connections that a call has between the ledger and the borrowers, or on the way to their
destruction. -/
def Call.carries : Call → List ConnId
  | .acquire ⟨_, _, .notifying (.connection c)⟩ => [c]
  | .release ⟨c, _, .arriving⟩ => [c]
  | .release ⟨c, true, .notifying⟩ => [c]
  | .release ⟨c, _, .destroying⟩ => [c]
  | .close (.draining rest) => rest
  | _ => []

/-- All places of connections, one after the other. -/
def Machine.custody (m : Machine) : List ConnId :=
  m.ledger.idle ++ m.held.map (·.conn) ++ m.calls.flatMap Call.carries ++ m.destroyed

theorem Call.carries_sleepBlind : Call.SleepBlind Call.carries := ⟨fun _ _ _ _ => rfl, rfl⟩

theorem Machine.count_custody (m : Machine) (c : ConnId) :
    m.custody.count c = m.ledger.idle.count c + (m.held.map (·.conn)).count c +
      (m.calls.flatMap Call.carries).count c + m.destroyed.count c := by
  simp only [custody, List.count_append]

/-- Every opened connection is in one place, and no other connection is in any. -/
def Machine.Conserved (m : Machine) : Prop := m.custody.Perm (List.range m.opened)

namespace Machine.Conserved

variable {m m' : Machine} {pre post : List Call} {x y : Call}

theorem count_eq (hm : m.Conserved) (c : ConnId) :
    m.custody.count c = if c < m.opened then 1 else 0 := by
  rw [List.Perm.count_eq hm c, List.count_range]

theorem lt_opened (hm : m.Conserved) {c : ConnId} (h : c ∈ m.custody) : c < m.opened :=
  List.mem_range.mp ((List.Perm.mem_iff hm).mp h)

theorem initial {capacity n : Nat} : (Machine.initial capacity n).Conserved := by
  simp [Conserved, custody, Machine.initial]

/-- A change of one call keeps every connection in one place if it only moves connections. -/
theorem of_moved (hm : m.Conserved) (ht : m.Turned m' x y) (ho : m'.opened = m.opened)
    (h : (m'.ledger.idle ++ m'.held.map (·.conn) ++ y.carries ++ m'.destroyed).Perm
      (m.ledger.idle ++ m.held.map (·.conn) ++ x.carries ++ m.destroyed)) : m'.Conserved := by
  unfold Conserved
  rw [ho]
  refine List.Perm.trans (List.perm_iff_count.mpr fun c => ?_) hm
  have hc := h.count_eq c
  have hs := ht.count_flatMap Call.carries_sleepBlind c
  simp only [List.count_append] at hc
  rw [count_custody, count_custody]
  omega

/-- A call that begins may take the connection of a guard with it. -/
theorem of_begun (hm : m.Conserved) (hy : m'.calls = m.calls ++ [y]) (ho : m'.opened = m.opened)
    (hl : m'.ledger = m.ledger) (hd : m'.destroyed = m.destroyed)
    (h : (m'.held.map (·.conn) ++ y.carries).Perm (m.held.map (·.conn))) : m'.Conserved := by
  unfold Conserved
  rw [ho]
  refine List.Perm.trans (List.perm_iff_count.mpr fun c => ?_) hm
  have hc := h.count_eq c
  rw [List.count_append] at hc
  have hs := count_flatMap_begun hy Call.carries c
  rw [count_custody, count_custody, hl, hd]
  omega

theorem change {v : Move} (h : Change v m m') (hm : m.Conserved) : m'.Conserved := by
  cases h with
  | acquireBegun timeout | closeBegun =>
      exact hm.of_begun rfl rfl rfl rfl (by simp [Call.carries])
  | @releaseBegun _ g faulty hg =>
      have hmem : g ∈ m.held := List.mem_of_find?_eq_some hg
      refine hm.of_begun rfl rfl rfl rfl ?_
      have hp := (List.perm_cons_erase hmem).map (·.conn)
      exact (List.perm_append_singleton _ _).trans hp.symm
  | marked c =>
      have hc : (m.held.map fun g => if g.conn = c then { g with broken := true } else g).map
          (·.conn) = m.held.map (·.conn) := by
        rw [List.map_map]
        refine List.map_congr_left fun g _ => ?_
        simp only [Function.comp_apply]
        split
        · rfl
        · rfl
      simpa only [Conserved, custody, hc] using hm
  | elapsed d => exact hm
  | arrived hx | refused hx | woken hx | closerWoken hx | closeDone hx =>
      exact hm.of_moved (.same hx rfl) rfl (List.Perm.refl _)
  | turnedAway hx _ | closerSlept hx _ => exact hm.of_moved (.same hx rfl) rfl (List.Perm.refl _)
  | timedOut hx _ _ _ | slept hx _ _ _ => exact hm.of_moved (.same hx rfl) rfl (List.Perm.refl _)
  | claimed hx _ _ _ _ _ => exact hm.of_moved (.same hx rfl) rfl (List.Perm.refl _)
  | rejoined hx | shut hx => exact hm.of_moved (.woken hx rfl) rfl (List.Perm.refl _)
  | served hx _ _ hi _ =>
      refine hm.of_moved (.same hx rfl) rfl (List.perm_iff_count.mpr fun e => ?_)
      simp [hi, Call.carries, List.count_cons]; omega
  | servedLast hx _ _ hi _ =>
      refine hm.of_moved (.same hx rfl) rfl (List.perm_iff_count.mpr fun e => ?_)
      simp [hi, Call.carries, List.count_cons]; omega
  | @answered _ pre post d r ans hx =>
      refine hm.of_moved (.woken hx rfl) rfl ?_
      cases ans <;> simp [Answer.guards, Call.carries]
  | @reopened _ pre post d r t hx =>
      -- The only change that opens a connection; its identity is new.
      unfold Conserved
      rw [List.range_succ]
      refine List.Perm.trans (List.perm_iff_count.mpr fun e => ?_) (List.Perm.append_right _ hm)
      rw [List.count_append, count_custody, count_custody, hx]
      simp [Call.carries]
      omega
  | @takenBack _ pre post c b hx =>
      refine hm.of_moved (.same hx rfl) rfl (List.perm_iff_count.mpr fun e => ?_)
      cases b with
      | true => simp [Ledger.takeBack, Call.carries]
      | false =>
          simp only [Ledger.takeBack, Call.carries, List.count_append, List.count_nil]
          simp only [Bool.false_eq_true, if_false, List.count_append]
          omega
  | @returnTold _ pre post c b hx =>
      exact hm.of_moved (.woken hx rfl) rfl (by cases b <;> exact List.Perm.refl _)
  | discarded hx =>
      refine hm.of_moved (.same hx rfl) rfl (List.perm_iff_count.mpr fun e => ?_)
      simp only [Call.carries, List.count_append, List.count_nil]; omega
  | @drained _ pre post hx hu =>
      refine hm.of_moved (.same hx rfl) rfl (List.perm_iff_count.mpr fun e => ?_)
      simp [Call.carries]; omega
  | drainedOne hx =>
      refine hm.of_moved (.same hx rfl) rfl (List.perm_iff_count.mpr fun e => ?_)
      simp [Call.carries, List.count_cons]; omega

end Machine.Conserved

end PooledStore.Pool
