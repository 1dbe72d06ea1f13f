import Mathlib.Data.List.Basic
import PooledStore.Pool.Machine

/-!
# Elementary changes of the pool

A move of the pool is one elementary change of it, or two: a call that arrives, or comes back from
a failed reopen, first becomes a queued call that is awake and then looks at the ledger, and a
closer first sets the flag and then looks. `Change` lists the changes with all that each one needs
and does, and `apply_changes` says that there are no others. What every change keeps, every move
keeps (`Changes.keep`), and every reachable state has it (`Reachable.keep`).
-/

set_option autoImplicit false

namespace PooledStore.Pool

/-- The guards that an answer puts into the caller's hands. -/
def Answer.guards : Answer → List Guard
  | .connection c => [⟨c, false⟩]
  | .timedOut => []
  | .closed => []

/-- There is nothing in the ledger for the caller with ticket `t`: it is not at the front, or no
connection is idle and no slot may be reopened before its retry time. -/
def Ledger.Unserved (l : Ledger) (now : Time) (t : Ticket) (retryAt : Option Time) : Prop :=
  l.waiters.head? = some t → l.idle = [] ∧ (0 < l.vacant → ∃ r, retryAt = some r ∧ now < r)

/-- The elementary changes, each with the move that it belongs to. A change of one call names the
calls before and after it. -/
inductive Change : Move → Machine → Machine → Prop where
  | acquireBegun {m : Machine} (timeout : Option Time) :
      Change (.beginAcquire timeout) m
        { m with calls := m.calls ++ [.acquire ⟨timeout.map (m.clock + ·), none, .arriving⟩] }
  | releaseBegun {m : Machine} {g : Guard} (faulty : Bool) :
      m.held.find? (·.conn = g.conn) = some g →
      Change (.beginRelease g.conn faulty) m
        { m with
          held := m.held.erase g
          calls := m.calls ++ [.release ⟨g.conn, g.broken || faulty, .arriving⟩] }
  | closeBegun {m : Machine} :
      Change .beginClose m { m with calls := m.calls ++ [.close .arriving] }
  | marked {m : Machine} (c : ConnId) :
      Change (.markBroken c) m
        { m with held := m.held.map fun g => if g.conn = c then { g with broken := true } else g }
  | elapsed {m : Machine} (d : Time) : Change (.advance d) m { m with clock := m.clock + d }
  /-- A call takes its place in the queue. -/
  | arrived {m : Machine} {pre post : List Call} {d r : Option Time} :
      m.calls = pre ++ .acquire ⟨d, r, .arriving⟩ :: post →
      Change (.step pre.length) m
        { m with
          ledger := m.ledger.enqueue
          calls := pre ++ .acquire ⟨d, r, .awake m.ledger.nextTicket⟩ :: post }
  /-- A queued call finds the pool closed. -/
  | turnedAway {m : Machine} {pre post : List Call} {d r : Option Time} {t : Ticket} :
      m.calls = pre ++ .acquire ⟨d, r, .awake t⟩ :: post → m.ledger.closed = true →
      Change (.step pre.length) m
        { m with
          ledger := m.ledger.leave t
          calls := pre ++ .acquire ⟨d, r, .notifying .closed⟩ :: post }
  /-- The front takes an idle connection, and there is more for those behind it. -/
  | served {m : Machine} {pre post : List Call} {d r : Option Time} {t : Ticket} {c : ConnId}
      {rest : List ConnId} :
      m.calls = pre ++ .acquire ⟨d, r, .awake t⟩ :: post → m.ledger.closed = false →
      m.ledger.waiters.head? = some t → m.ledger.idle = c :: rest →
      rest ≠ [] ∨ 0 < m.ledger.vacant →
      Change (.step pre.length) m
        { m with
          ledger := { m.ledger with
            idle := rest, waiters := m.ledger.waiters.tail, inUse := m.ledger.inUse + 1 }
          calls := pre ++ .acquire ⟨d, r, .notifying (.connection c)⟩ :: post }
  /-- The front takes the last idle connection while no slot is vacant, and returns. -/
  | servedLast {m : Machine} {pre post : List Call} {d r : Option Time} {t : Ticket} {c : ConnId} :
      m.calls = pre ++ .acquire ⟨d, r, .awake t⟩ :: post → m.ledger.closed = false →
      m.ledger.waiters.head? = some t → m.ledger.idle = [c] → m.ledger.vacant = 0 →
      Change (.step pre.length) m
        { m with
          ledger := { m.ledger with
            idle := [], waiters := m.ledger.waiters.tail, inUse := m.ledger.inUse + 1 }
          held := m.held ++ [⟨c, false⟩]
          calls := pre ++ .acquire ⟨d, r, .returned (.connection c)⟩ :: post }
  /-- The front claims a vacant slot. -/
  | claimed {m : Machine} {pre post : List Call} {d r : Option Time} {t : Ticket} :
      m.calls = pre ++ .acquire ⟨d, r, .awake t⟩ :: post → m.ledger.closed = false →
      m.ledger.waiters.head? = some t → m.ledger.idle = [] → 0 < m.ledger.vacant →
      (r = none ∨ Ledger.reached m.clock r = true) →
      Change (.step pre.length) m
        { m with
          ledger := { m.ledger with
            vacant := m.ledger.vacant - 1, inUse := m.ledger.inUse + 1
            waiters := m.ledger.waiters.tail }
          attempts := m.attempts + 1
          calls := pre ++ .acquire ⟨d, r, .connecting t⟩ :: post }
  | timedOut {m : Machine} {pre post : List Call} {d r : Option Time} {t : Ticket} :
      m.calls = pre ++ .acquire ⟨d, r, .awake t⟩ :: post → m.ledger.closed = false →
      m.ledger.Unserved m.clock t r → Ledger.reached m.clock d = true →
      Change (.step pre.length) m
        { m with
          ledger := m.ledger.leave t
          calls := pre ++ .acquire ⟨d, r, .notifying .timedOut⟩ :: post }
  | slept {m : Machine} {pre post : List Call} {d r : Option Time} {t : Ticket} :
      m.calls = pre ++ .acquire ⟨d, r, .awake t⟩ :: post → m.ledger.closed = false →
      m.ledger.Unserved m.clock t r → Ledger.reached m.clock d = false →
      Change (.step pre.length) m
        { m with
          calls := pre ++ .acquire ⟨d, r, .asleep t
            (if m.ledger.vacant > 0 then Ledger.earlier d r else d)⟩ :: post }
  /-- A failed reopen gives its slot back and wakes all sleepers. -/
  | rejoined {m : Machine} {pre post : List Call} {d r : Option Time} {t : Ticket} :
      m.calls = pre ++ .acquire ⟨d, r, .refused t⟩ :: post →
      Change (.step pre.length) m
        { m with
          ledger := m.ledger.rejoin t
          calls := pre.map Call.roused ++
            .acquire ⟨d, some (m.clock + reopenInterval), .awake t⟩ :: post.map Call.roused }
  /-- A decided call wakes all sleepers and returns. -/
  | answered {m : Machine} {pre post : List Call} {d r : Option Time} {ans : Answer} :
      m.calls = pre ++ .acquire ⟨d, r, .notifying ans⟩ :: post →
      Change (.step pre.length) m
        { m with
          held := m.held ++ ans.guards
          calls := pre.map Call.roused ++
            .acquire ⟨d, r, .returned ans⟩ :: post.map Call.roused }
  | reopened {m : Machine} {pre post : List Call} {d r : Option Time} {t : Ticket} :
      m.calls = pre ++ .acquire ⟨d, r, .connecting t⟩ :: post →
      Change (.connected pre.length true) m
        { m with
          opened := m.opened + 1
          held := m.held ++ [⟨m.opened, false⟩]
          calls := pre ++ .acquire ⟨d, r, .returned (.connection m.opened)⟩ :: post }
  | refused {m : Machine} {pre post : List Call} {d r : Option Time} {t : Ticket} :
      m.calls = pre ++ .acquire ⟨d, r, .connecting t⟩ :: post →
      Change (.connected pre.length false) m
        { m with calls := pre ++ .acquire ⟨d, r, .refused t⟩ :: post }
  | woken {m : Machine} {pre post : List Call} {d r w : Option Time} {t : Ticket} :
      m.calls = pre ++ .acquire ⟨d, r, .asleep t w⟩ :: post →
      Change (.wake pre.length) m { m with calls := pre ++ .acquire ⟨d, r, .awake t⟩ :: post }
  | takenBack {m : Machine} {pre post : List Call} {c : ConnId} {b : Bool} :
      m.calls = pre ++ .release ⟨c, b, .arriving⟩ :: post →
      Change (.step pre.length) m
        { m with
          ledger := m.ledger.takeBack c b
          calls := pre ++ .release ⟨c, b, .notifying⟩ :: post }
  /-- A return wakes all sleepers; a broken connection is still to be destroyed. -/
  | returnTold {m : Machine} {pre post : List Call} {c : ConnId} {b : Bool} :
      m.calls = pre ++ .release ⟨c, b, .notifying⟩ :: post →
      Change (.step pre.length) m
        { m with
          calls := pre.map Call.roused ++
            .release ⟨c, b, if b then .destroying else .returned⟩ :: post.map Call.roused }
  | discarded {m : Machine} {pre post : List Call} {c : ConnId} {b : Bool} :
      m.calls = pre ++ .release ⟨c, b, .destroying⟩ :: post →
      Change (.step pre.length) m
        { m with
          destroyed := m.destroyed ++ [c]
          calls := pre ++ .release ⟨c, b, .returned⟩ :: post }
  /-- A closer sets the flag and wakes all sleepers. -/
  | shut {m : Machine} {pre post : List Call} :
      m.calls = pre ++ .close .arriving :: post →
      Change (.step pre.length) m
        { m with
          ledger := { m.ledger with closed := true }
          calls := pre.map Call.roused ++ .close .awake :: post.map Call.roused }
  | closerSlept {m : Machine} {pre post : List Call} :
      m.calls = pre ++ .close .awake :: post → 0 < m.ledger.inUse →
      Change (.step pre.length) m { m with calls := pre ++ .close .asleep :: post }
  | closerWoken {m : Machine} {pre post : List Call} :
      m.calls = pre ++ .close .asleep :: post →
      Change (.wake pre.length) m { m with calls := pre ++ .close .awake :: post }
  | drained {m : Machine} {pre post : List Call} :
      m.calls = pre ++ .close .awake :: post → m.ledger.inUse = 0 →
      Change (.step pre.length) m
        { m with
          ledger := { m.ledger with idle := [] }
          calls := pre ++ .close (.draining m.ledger.idle) :: post }
  | drainedOne {m : Machine} {pre post : List Call} {c : ConnId} {rest : List ConnId} :
      m.calls = pre ++ .close (.draining (c :: rest)) :: post →
      Change (.step pre.length) m
        { m with
          destroyed := m.destroyed ++ [c]
          calls := pre ++ .close (.draining rest) :: post }
  | closeDone {m : Machine} {pre post : List Call} :
      m.calls = pre ++ .close (.draining []) :: post →
      Change (.step pre.length) m { m with calls := pre ++ .close .returned :: post }

/-- A move as its elementary changes. -/
def Changes (v : Move) (m m' : Machine) : Prop :=
  Change v m m' ∨ ∃ m₁, Change v m m₁ ∧ Change v m₁ m'

/-! ## Every move is made of elementary changes -/

theorem exists_split_of_getElem? {α : Type} {l : List α} {i : Nat} {x : α} (h : l[i]? = some x) :
    ∃ pre post, l = pre ++ x :: post ∧ i = pre.length := by
  obtain ⟨hi, rfl⟩ := List.getElem?_eq_some_iff.mp h
  refine ⟨l.take i, l.drop (i + 1), ?_, ?_⟩
  · rw [List.getElem_cons_drop, List.take_append_drop]
  · rw [List.length_take]; omega

namespace Ledger

variable {l : Ledger} {now : Time} {t : Ticket} {d r : Option Time}

theorem attend_of_closed (h : l.closed = true) :
    l.attend now t d r = (l.leave t, .answer .closed true) := by
  simp [attend, h]

theorem attend_of_idle {c : ConnId} {rest : List ConnId} (hc : l.closed = false)
    (hf : l.waiters.head? = some t) (hi : l.idle = c :: rest) :
    l.attend now t d r =
      ({ l with idle := rest, waiters := l.waiters.tail, inUse := l.inUse + 1 },
        .answer (.connection c) (!rest.isEmpty || l.vacant > 0)) := by
  simp [attend, hc, hf, hi]

theorem attend_of_vacant (hc : l.closed = false) (hf : l.waiters.head? = some t)
    (hi : l.idle = []) (hv : 0 < l.vacant) (hr : r = none ∨ reached now r = true) :
    l.attend now t d r =
      ({ l with vacant := l.vacant - 1, inUse := l.inUse + 1, waiters := l.waiters.tail },
        .reopen) := by
  simp only [attend, hc, hf, hi]
  rw [if_neg (by decide), if_pos trivial, if_pos ⟨hv, hr⟩]

theorem attend_of_unserved (hc : l.closed = false) (hu : l.Unserved now t r) :
    l.attend now t d r = l.wait now t d r := by
  by_cases hf : l.waiters.head? = some t
  · obtain ⟨hi, hr⟩ := hu hf
    simp only [attend, hc, hf, hi]
    rw [if_neg (by decide), if_pos trivial, if_neg]
    rintro ⟨hv, hd⟩
    obtain ⟨at_, rfl, hlt⟩ := hr hv
    have hle : at_ ≤ now := by simpa [reached] using hd
    exact absurd hle (Nat.not_le.mpr hlt)
  · simp [attend, hc, hf]

/-- A retry time that is set now is still to come. -/
theorem reached_reopen (now : Time) : reached now (some (now + reopenInterval)) = false :=
  decide_eq_false (Nat.not_le.mpr (Nat.lt_add_of_pos_right (by decide)))

/-- What a look at an open ledger can find. -/
theorem look_cases (l : Ledger) (now : Time) (t : Ticket) (r : Option Time) :
    (∃ c rest, l.waiters.head? = some t ∧ l.idle = c :: rest) ∨
      (l.waiters.head? = some t ∧ l.idle = [] ∧ 0 < l.vacant ∧
        (r = none ∨ reached now r = true)) ∨
      l.Unserved now t r := by
  by_cases hf : l.waiters.head? = some t
  · cases hi : l.idle with
    | cons c rest => exact Or.inl ⟨c, rest, hf, rfl⟩
    | nil =>
        by_cases hd : 0 < l.vacant ∧ (r = none ∨ reached now r = true)
        · exact Or.inr (Or.inl ⟨hf, rfl, hd⟩)
        · refine Or.inr (Or.inr fun _ => ⟨hi, fun hv => ?_⟩)
          cases r with
          | none => exact absurd ⟨hv, Or.inl rfl⟩ hd
          | some at_ =>
              refine ⟨at_, rfl, ?_⟩
              by_contra hge
              exact hd ⟨hv, Or.inr (by simpa [reached] using hge)⟩
  · exact Or.inr (Or.inr fun h => absurd h hf)

end Ledger

theorem set_split {α : Type} (pre post : List α) (x y : α) :
    (pre ++ x :: post).set pre.length y = pre ++ y :: post := by
  simp

namespace Machine

variable {m m' : Machine} {pre post : List Call} {x y : Call}

theorem setCall_split (h : m.calls = pre ++ x :: post) :
    m.setCall pre.length y = { m with calls := pre ++ y :: post } := by
  simp [setCall, h]

theorem notifyAll_split (h : m.calls = pre ++ x :: post) :
    m.notifyAll.calls = pre.map Call.roused ++ x.roused :: post.map Call.roused := by
  simp [notifyAll, h]

theorem answer_split {a : Acquire} {ans : Answer} (h : m.calls = pre ++ x :: post) :
    m.answer pre.length a ans = { m with
      held := m.held ++ ans.guards
      calls := pre ++ .acquire { a with phase := .returned ans } :: post } := by
  cases ans <;> simp [answer, setCall, h, Answer.guards]

/-- A look at the ledger is one elementary change of the machine in which the call is awake,
wherever the call stood before. -/
theorem attend_change {d r : Option Time} {t : Ticket} {p : Acquire.Phase}
    (h : m.calls = pre ++ x :: post) :
    Change (.step pre.length) { m with calls := pre ++ .acquire ⟨d, r, .awake t⟩ :: post }
      (m.attend pre.length ⟨d, r, p⟩ t) := by
  unfold Machine.attend
  cases hc : m.ledger.closed with
  | true =>
      rw [Ledger.attend_of_closed hc]
      simp only [setCall, h, set_split]
      exact Change.turnedAway rfl hc
  | false =>
      -- A look finds an idle connection, a vacant slot, or neither; then the deadline decides.
      obtain ⟨c, rest, hf, hi⟩ | ⟨hf, hi, hv, hr⟩ | hu := m.ledger.look_cases m.clock t r
      · rw [Ledger.attend_of_idle hc hf hi]
        by_cases more : rest ≠ [] ∨ 0 < m.ledger.vacant
        · have hn : (!rest.isEmpty || decide (m.ledger.vacant > 0)) = true := by
            simpa using more
          simp only [hn, setCall, h, set_split]
          exact Change.served rfl hc hf hi more
        · have hn : (!rest.isEmpty || decide (m.ledger.vacant > 0)) = false := by
            simpa using more
          simp only [hn, answer, setCall, h, set_split]
          obtain ⟨rfl, hv⟩ : rest = [] ∧ m.ledger.vacant = 0 := by simpa using more
          exact Change.servedLast rfl hc hf hi hv
      · rw [Ledger.attend_of_vacant hc hf hi hv hr]
        simp only [setCall, h, set_split]
        exact Change.claimed rfl hc hf hi hv hr
      · rw [Ledger.attend_of_unserved hc hu]
        unfold Ledger.wait
        cases hd : Ledger.reached m.clock d with
        | true =>
            simp only [if_true, setCall, h, set_split]
            exact Change.timedOut rfl hc hu hd
        | false =>
            simp only [Bool.false_eq_true, if_false, setCall, h, set_split]
            exact Change.slept rfl hc hu hd

/-- The look of a closer, in the same way. -/
theorem awaitReturns_change (h : m.calls = pre ++ x :: post) :
    Change (.step pre.length) { m with calls := pre ++ .close .awake :: post }
      (m.awaitReturns pre.length) := by
  by_cases hu : 0 < m.ledger.inUse
  · have e : m.awaitReturns pre.length = { m with calls := pre ++ .close .asleep :: post } := by
      simp [awaitReturns, hu, setCall, h]
    rw [e]
    exact Change.closerSlept rfl hu
  · have e : m.awaitReturns pre.length = { m with
        ledger := { m.ledger with idle := [] }
        calls := pre ++ .close (.draining m.ledger.idle) :: post } := by
      simp [awaitReturns, hu, setCall, h]
    rw [e]
    exact Change.drained rfl (Nat.eq_zero_of_not_pos hu)

theorem eq_of_moved {m₁ : Machine} {ns₁ ns : List Notice}
    (h : some (m₁, ns₁) = some (m', ns)) : m₁ = m' :=
  (Prod.mk.inj (Option.some.inj h)).1

/-- The machine with the same call in the same place. -/
theorem calls_self (h : m.calls = pre ++ x :: post) :
    { m with calls := pre ++ x :: post } = m := by
  rw [← h]

theorem stepAcquire_changes {a : Acquire} {ns : List Notice}
    (hx : m.calls = pre ++ .acquire a :: post)
    (h : m.stepAcquire pre.length a = some (m', ns)) : Changes (.step pre.length) m m' := by
  obtain ⟨d, r, p⟩ := a
  cases p with
  | arriving =>
      -- Two changes: the call is queued, and then looks at the ledger.
      obtain rfl := eq_of_moved h
      exact Or.inr ⟨_, .arrived hx, attend_change (m := { m with ledger := m.ledger.enqueue }) hx⟩
  | awake t =>
      obtain rfl := eq_of_moved h
      have look := attend_change (d := d) (r := r) (t := t) (p := .awake t) hx
      rw [calls_self hx] at look
      exact Or.inl look
  | refused t =>
      -- The slot is given back first; the look is that of a call that has just been awake.
      obtain rfl := eq_of_moved h
      have look := attend_change (m := { m with ledger := m.ledger.rejoin t }.notifyAll)
        (d := d) (r := some (m.clock + reopenInterval)) (t := t) (p := .refused t)
        (notifyAll_split hx)
      rw [List.length_map] at look
      exact Or.inr ⟨_, .rejoined hx, look⟩
  | notifying ans =>
      obtain rfl := eq_of_moved h
      have told : m.notifyAll.answer (pre.map Call.roused).length ⟨d, r, .notifying ans⟩ ans = _ :=
        answer_split (notifyAll_split hx)
      rw [List.length_map] at told
      refine Or.inl ?_
      rw [show m.notifyAll.answer pre.length _ ans = _ from told]
      exact Change.answered hx
  | asleep t w => simp [stepAcquire] at h
  | connecting t => simp [stepAcquire] at h
  | returned ans => simp [stepAcquire] at h

theorem stepRelease_changes {r : Release} {ns : List Notice}
    (hx : m.calls = pre ++ .release r :: post)
    (h : m.stepRelease pre.length r = some (m', ns)) : Changes (.step pre.length) m m' := by
  obtain ⟨c, b, p⟩ := r
  refine Or.inl ?_
  cases p with
  | arriving =>
      obtain rfl := eq_of_moved h
      rw [setCall_split (m := { m with ledger := m.ledger.takeBack c b }) hx]
      exact Change.takenBack hx
  | notifying =>
      obtain rfl := eq_of_moved h
      have told := setCall_split (y := .release ⟨c, b, if b then .destroying else .returned⟩)
        (notifyAll_split hx)
      rw [List.length_map] at told
      rw [told]
      exact Change.returnTold hx
  | destroying =>
      obtain rfl := eq_of_moved h
      rw [setCall_split (m := { m with destroyed := m.destroyed ++ [c] }) hx]
      exact Change.discarded hx
  | returned => simp [stepRelease] at h

theorem stepClose_changes {c : Close} {ns : List Notice} (hx : m.calls = pre ++ .close c :: post)
    (h : m.stepClose pre.length c = some (m', ns)) : Changes (.step pre.length) m m' := by
  cases c with
  | arriving =>
      obtain rfl := eq_of_moved h
      have look := awaitReturns_change (x := .close .arriving)
        (m := { m with ledger := { m.ledger with closed := true } }.notifyAll) (notifyAll_split hx)
      rw [List.length_map] at look
      -- A closer that arrives shuts the pool and looks at it in one move.
      exact Or.inr ⟨_, .shut hx, look⟩
  | awake =>
      obtain rfl := eq_of_moved h
      have look := awaitReturns_change hx
      rw [calls_self hx] at look
      exact Or.inl look
  | asleep => simp [stepClose] at h
  | draining rest =>
      cases rest with
      | nil =>
          obtain rfl := eq_of_moved h
          rw [setCall_split hx]
          exact Or.inl (.closeDone hx)
      | cons c rest =>
          obtain rfl := eq_of_moved h
          rw [setCall_split (m := { m with destroyed := m.destroyed ++ [c] }) hx]
          exact Or.inl (.drainedOne hx)
  | returned => simp [stepClose] at h

theorem connected_change {i : Nat} {ok : Bool} {ns : List Notice}
    (h : m.apply (.connected i ok) = some (m', ns)) : Change (.connected i ok) m m' := by
  simp only [apply] at h
  split at h
  · rename_i a ha
    obtain ⟨pre, post, hx, rfl⟩ := exists_split_of_getElem? ha
    split at h
    · rename_i t ht
      obtain ⟨d, r, p⟩ := a
      obtain rfl : p = .connecting t := ht
      cases ok with
      | true =>
          obtain rfl := eq_of_moved h
          rw [answer_split (m := { m with opened := m.opened + 1 }) hx]
          exact Change.reopened hx
      | false =>
          obtain rfl := eq_of_moved h
          rw [setCall_split hx]
          exact Change.refused hx
    · simp at h
  · simp at h

theorem wake_change {i : Nat} {ns : List Notice} (h : m.apply (.wake i) = some (m', ns)) :
    Change (.wake i) m m' := by
  simp only [apply] at h
  split at h
  · rename_i a ha
    obtain ⟨pre, post, hx, rfl⟩ := exists_split_of_getElem? ha
    split at h
    · rename_i t w ht
      obtain ⟨d, r, p⟩ := a
      obtain rfl : p = .asleep t w := ht
      obtain rfl := eq_of_moved h
      rw [setCall_split hx]
      exact Change.woken hx
    · simp at h
  · rename_i hc
    obtain ⟨pre, post, hx, rfl⟩ := exists_split_of_getElem? hc
    obtain rfl := eq_of_moved h
    rw [setCall_split hx]
    exact Change.closerWoken hx
  · simp at h

/-- **Every move is one elementary change, or two.** -/
theorem apply_changes {v : Move} {ns : List Notice} (h : m.apply v = some (m', ns)) :
    Changes v m m' := by
  cases v with
  | beginAcquire timeout =>
      obtain rfl := eq_of_moved h
      exact Or.inl (.acquireBegun timeout)
  | beginRelease c faulty =>
      simp only [apply] at h
      split at h
      · rename_i g hg
        obtain rfl := eq_of_moved h
        obtain rfl : g.conn = c := by simpa using List.find?_some hg
        exact Or.inl (.releaseBegun faulty hg)
      · simp at h
  | beginClose =>
      obtain rfl := eq_of_moved h
      exact Or.inl .closeBegun
  | markBroken c =>
      simp only [apply] at h
      split at h
      · obtain rfl := eq_of_moved h
        exact Or.inl (.marked c)
      · simp at h
  | advance d =>
      obtain rfl := eq_of_moved h
      exact Or.inl (.elapsed d)
  | step i =>
      simp only [apply] at h
      split at h
      · rename_i a ha
        obtain ⟨pre, post, hx, rfl⟩ := exists_split_of_getElem? ha
        exact stepAcquire_changes hx h
      · rename_i r hr
        obtain ⟨pre, post, hx, rfl⟩ := exists_split_of_getElem? hr
        exact stepRelease_changes hx h
      · rename_i c hc
        obtain ⟨pre, post, hx, rfl⟩ := exists_split_of_getElem? hc
        exact stepClose_changes hx h
      · simp at h
  | connected i ok => exact Or.inl (connected_change h)
  | wake i => exact Or.inl (wake_change h)

end Machine

/-! ## Counting calls -/

/-- Waking a call changes nothing but its sleep. -/
theorem Call.roused_cases (c : Call) :
    c.roused = c ∨ (∃ d r t w, c = .acquire ⟨d, r, .asleep t w⟩ ∧
      c.roused = .acquire ⟨d, r, .awake t⟩) ∨ (c = .close .asleep ∧ c.roused = .close .awake) := by
  rcases c with ⟨d, r, p⟩ | r | c
  · cases p with
    | asleep t w => exact Or.inr (Or.inl ⟨d, r, t, w, rfl, rfl⟩)
    | _ => exact Or.inl rfl
  · exact Or.inl rfl
  · cases c with
    | asleep => exact Or.inr (Or.inr ⟨rfl, rfl⟩)
    | _ => exact Or.inl rfl

/-- A function of calls that does not tell those that sleep from those that are awake. -/
def Call.SleepBlind {α : Type} (f : Call → α) : Prop :=
  (∀ d r t w, f (.acquire ⟨d, r, .asleep t w⟩) = f (.acquire ⟨d, r, .awake t⟩)) ∧
    f (.close .asleep) = f (.close .awake)

theorem Call.SleepBlind.roused {α : Type} {f : Call → α} (hf : Call.SleepBlind f) (c : Call) :
    f c.roused = f c := by
  obtain h | ⟨d, r, t, w, rfl, h⟩ | ⟨rfl, h⟩ := c.roused_cases
  · rw [h]
  · rw [h, hf.1]
  · rw [h, hf.2]

theorem Call.SleepBlind.countP_roused {p : Call → Bool} (hp : Call.SleepBlind p) (l : List Call) :
    (l.map Call.roused).countP p = l.countP p := by
  rw [List.countP_map]
  exact List.countP_congr fun c _ => by rw [Function.comp_apply, hp.roused]

theorem Call.SleepBlind.flatMap_roused {f : Call → List Nat} (hf : Call.SleepBlind f)
    (l : List Call) : (l.map Call.roused).flatMap f = l.flatMap f := by
  rw [List.flatMap_map]
  exact List.flatMap_congr fun c _ => hf.roused c

theorem countP_split (p : Call → Bool) (pre post : List Call) (x : Call) :
    (pre ++ x :: post).countP p = pre.countP p + post.countP p + (p x).toNat := by
  rw [List.countP_append, List.countP_cons]
  cases p x
  · simp
  · simp; omega

/-- One call has another in its place, and the rest of the calls is as it was or was woken. -/
def Machine.Turned (m m' : Machine) (x y : Call) : Prop :=
  ∃ pre post, m.calls = pre ++ x :: post ∧
    (m'.calls = pre ++ y :: post ∨ m'.calls = pre.map Call.roused ++ y :: post.map Call.roused)

theorem Machine.Turned.countP {m m' : Machine} {x y : Call} (h : m.Turned m' x y)
    {p : Call → Bool} (hp : Call.SleepBlind p) :
    m'.calls.countP p + (p x).toNat = m.calls.countP p + (p y).toNat := by
  obtain ⟨pre, post, hx, hy | hy⟩ := h
  · rw [hx, hy, countP_split, countP_split]; omega
  · rw [hx, hy, countP_split, countP_split, hp.countP_roused, hp.countP_roused]; omega

theorem Machine.Turned.flatMap_eq {m m' : Machine} {x y : Call} (h : m.Turned m' x y)
    {f : Call → List Nat} (hf : Call.SleepBlind f) : ∃ pre post, m.calls = pre ++ x :: post ∧
      m'.calls.flatMap f = pre.flatMap f ++ (f y ++ post.flatMap f) := by
  obtain ⟨pre, post, hx, hy⟩ := h
  refine ⟨pre, post, hx, ?_⟩
  obtain hy | hy := hy
  · rw [hy, List.flatMap_append, List.flatMap_cons]
  · rw [hy, List.flatMap_append, List.flatMap_cons, hf.flatMap_roused, hf.flatMap_roused]

theorem Machine.Turned.count_flatMap {m m' : Machine} {x y : Call} (h : m.Turned m' x y)
    {f : Call → List Nat} (hf : Call.SleepBlind f) (n : Nat) :
    (m'.calls.flatMap f).count n + (f x).count n = (m.calls.flatMap f).count n + (f y).count n := by
  obtain ⟨pre, post, hx, key⟩ := h.flatMap_eq hf
  rw [key, hx]
  simp only [List.flatMap_append, List.flatMap_cons, List.count_append]
  omega

theorem Machine.Turned.mem_flatMap {m m' : Machine} {x y : Call} (h : m.Turned m' x y)
    {f : Call → List Nat} (hf : Call.SleepBlind f) {n : Nat} (hn : n ∈ m.calls.flatMap f)
    (hxy : n ∈ f x → n ∈ f y) : n ∈ m'.calls.flatMap f := by
  have hc := h.count_flatMap hf n
  have hpos := List.count_pos_iff.mpr hn
  rw [← List.count_pos_iff]
  -- The number is in the new call, or its count in the rest has not changed.
  by_cases hx : n ∈ f x
  · obtain ⟨pre, post, -, hy⟩ := h
    have hmem : y ∈ m'.calls := by
      obtain hy | hy := hy
      · rw [hy]; exact List.mem_append_right _ List.mem_cons_self
      · rw [hy]; exact List.mem_append_right _ List.mem_cons_self
    exact List.count_pos_iff.mpr (List.mem_flatMap.mpr ⟨y, hmem, hxy hx⟩)
  · rw [List.count_eq_zero.mpr hx] at hc
    omega

theorem Machine.Turned.same {m m' : Machine} {pre post : List Call} {x y : Call}
    (hx : m.calls = pre ++ x :: post) (hy : m'.calls = pre ++ y :: post) : m.Turned m' x y :=
  ⟨pre, post, hx, Or.inl hy⟩

theorem Machine.Turned.woken {m m' : Machine} {pre post : List Call} {x y : Call}
    (hx : m.calls = pre ++ x :: post)
    (hy : m'.calls = pre.map Call.roused ++ y :: post.map Call.roused) : m.Turned m' x y :=
  ⟨pre, post, hx, Or.inr hy⟩

theorem Machine.countP_begun {m m' : Machine} {y : Call} (hy : m'.calls = m.calls ++ [y])
    (p : Call → Bool) : m'.calls.countP p = m.calls.countP p + (p y).toNat := by
  have h := countP_split p m.calls [] y
  rw [List.countP_nil] at h
  rw [hy, h]; omega

theorem Machine.count_flatMap_begun {m m' : Machine} {y : Call} (hy : m'.calls = m.calls ++ [y])
    (f : Call → List Nat) (n : Nat) :
    (m'.calls.flatMap f).count n = (m.calls.flatMap f).count n + (f y).count n := by
  rw [hy, List.flatMap_append, List.count_append, List.flatMap_singleton]

/-! ## What every change keeps -/

theorem Changes.keep {P : Machine → Prop} {v : Move} {m m' : Machine} (h : Changes v m m')
    (keep : ∀ {a b : Machine}, Change v a b → P a → P b) (hm : P m) : P m' := by
  obtain h | ⟨m₁, h₁, h₂⟩ := h
  · exact keep h hm
  · exact keep h₂ (keep h₁ hm)

/-- What holds at every start and is kept by every elementary change holds in every reachable
state. -/
theorem Machine.Reachable.keep {P : Machine → Prop} {m : Machine} (h : m.Reachable)
    (start : ∀ {capacity n : Nat}, 0 < n → n ≤ capacity → P (Machine.initial capacity n))
    (keep : ∀ {v : Move} {a b : Machine}, Change v a b → P a → P b) : P m := by
  induction h with
  | start hn hc => exact start hn hc
  | move _ hv ih => exact (Machine.apply_changes hv).keep keep ih

/-- `Trace m tr m'`: from `m` the pool gets to `m'`, and `tr` lists the states on the way, each
with the move made in it. -/
inductive Trace (m : Machine) : List (Machine × Move) → Machine → Prop where
  | nil : Trace m [] m
  | move {tr : List (Machine × Move)} {m' m'' : Machine} {v : Move} {ns : List Notice} :
      Trace m tr m' → m'.apply v = some (m'', ns) → Trace m (tr ++ [(m', v)]) m''

theorem Trace.keep {P : Machine → Prop} {m m' : Machine} {tr : List (Machine × Move)}
    (h : Trace m tr m') (keep : ∀ {v : Move} {a b : Machine}, Change v a b → P a → P b)
    (hm : P m) : P m' := by
  induction h with
  | nil => exact hm
  | move _ hv ih => exact (Machine.apply_changes hv).keep keep ih

/-- The state after moves made one after the other, if they are possible. -/
def Machine.follow (m : Machine) : List Move → Option Machine
  | [] => some m
  | v :: vs => (m.apply v).bind fun r => r.1.follow vs

theorem Trace.cons {m m₁ m' : Machine} {v : Move} {ns : List Notice} {tr : List (Machine × Move)}
    (hv : m.apply v = some (m₁, ns)) (h : Trace m₁ tr m') : Trace m ((m, v) :: tr) m' := by
  induction h with
  | nil => exact .move .nil hv
  | @move tr m' m'' w ns _ hw ih => exact .move ih hw

theorem Machine.exists_trace {vs : List Move} {m m' : Machine} (h : m.follow vs = some m') :
    ∃ tr, Trace m tr m' := by
  induction vs generalizing m with
  | nil =>
      obtain rfl : m = m' := Option.some.inj h
      exact ⟨[], .nil⟩
  | cons v vs ih =>
      obtain ⟨⟨m₁, ns⟩, hv, h₁⟩ := Option.bind_eq_some_iff.mp h
      obtain ⟨tr, htr⟩ := ih h₁
      exact ⟨(m, v) :: tr, .cons hv htr⟩

theorem Machine.Reachable.follow {vs : List Move} {m m' : Machine} (hm : m.Reachable)
    (h : m.follow vs = some m') : m'.Reachable := by
  induction vs generalizing m with
  | nil =>
      obtain rfl : m = m' := Option.some.inj h
      exact hm
  | cons v vs ih =>
      obtain ⟨⟨m₁, ns⟩, hv, h₁⟩ := Option.bind_eq_some_iff.mp h
      exact ih (hm.move hv) h₁

theorem Trace.reachable {m m' : Machine} {tr : List (Machine × Move)} (h : Trace m tr m')
    (hm : m.Reachable) : m'.Reachable := by
  induction h with
  | nil => exact hm
  | move _ hv ih => exact ih.move hv

end PooledStore.Pool
