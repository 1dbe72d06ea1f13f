import PooledStore.Proofs.Pool.Queue

/-!
# Fairness

Waiters are to be served in the order of their arrival. A call that comes back from a failed reopen
takes the first place in the queue, and this is its old place unless one that arrived before it is
in the queue again: of two calls that reopen slots at the same time, the one that fails last comes
first (`Machine.Overtakes`). `in_order_iff` says that a run is fair exactly if this never happens:
then the queue is in the order of arrival in every state (`Machine.InOrder`), and whatever is
handed out goes to the earliest call in the queue (`Machine.Grants`).
-/

set_option autoImplicit false

namespace PooledStore.Pool

variable {m m' : Machine} {v : Move} {ns : List Notice} {i : Nat} {t : Ticket} {a : Acquire}

/-! ## The order of arrival -/

/-- The tickets in the queue are in the order of arrival. -/
def Machine.InOrder (m : Machine) : Prop := m.ledger.waiters.Pairwise (· < ·)

instance (m : Machine) : Decidable m.InOrder :=
  inferInstanceAs (Decidable (m.ledger.waiters.Pairwise (· < ·)))

/-- The ticket with which an acquire call looks at the ledger in its next step. -/
def Machine.looksWith? (m : Machine) (a : Acquire) : Option Ticket :=
  match a.phase with
  | .arriving => some m.ledger.nextTicket
  | .awake t => some t
  | .refused t => some t
  | _ => none

/-- The call has been given an idle connection or a vacant slot. -/
def Acquire.granted (a : Acquire) : Bool :=
  match a.phase with
  | .connecting _ => true
  | .notifying (.connection _) => true
  | .returned (.connection _) => true
  | _ => false

/-- In the move, the acquire call with ticket `t` looks at the ledger and is given an idle
connection or a vacant slot. -/
def Machine.Grants (m : Machine) (v : Move) (m' : Machine) (t : Ticket) : Prop :=
  ∃ i a a', v = .step i ∧ m.calls[i]? = some (.acquire a) ∧ m.looksWith? a = some t ∧
    m'.calls[i]? = some (.acquire a') ∧ a'.granted = true

/-- What is handed out in the move goes to a call that arrived before all that are left in the
queue. -/
def Machine.Fair (m : Machine) (v : Move) (m' : Machine) : Prop :=
  ∀ t, m.Grants v m' t → ∀ u ∈ m'.ledger.waiters, t < u

/-- In the move, a call comes back from a failed reopen while one that arrived before it is in the
queue, and it is served or stays: the pool is open, and an idle connection is there or its deadline
has not passed. -/
def Machine.Overtakes (m : Machine) : Move → Prop
  | .step i =>
      ∃ d r t u, m.calls[i]? = some (.acquire ⟨d, r, .refused t⟩) ∧ u ∈ m.ledger.waiters ∧ u < t ∧
        m.ledger.closed = false ∧ (m.ledger.idle = [] → Ledger.reached m.clock d = false)
  | _ => False

/-! ## A look at the ledger -/

/-- The look ended with an idle connection or a vacant slot. -/
def Verdict.grants : Verdict → Bool
  | .answer (.connection _) _ => true
  | .reopen => true
  | _ => false

/-- Where the look leaves the call that made it. -/
def Verdict.phase (t : Ticket) : Verdict → Acquire.Phase
  | .answer ans true => .notifying ans
  | .answer ans false => .returned ans
  | .reopen => .connecting t
  | .sleep wakeAt => .asleep t wakeAt

theorem Verdict.granted_phase (w : Verdict) (t : Ticket) (d r : Option Time) :
    Acquire.granted ⟨d, r, w.phase t⟩ = w.grants := by
  cases w with
  | answer ans notify => cases notify <;> cases ans <;> rfl
  | reopen => rfl
  | sleep wakeAt => rfl

namespace Ledger

variable {l : Ledger} {now : Time} {d r : Option Time}

/-- What is granted is granted to the front; otherwise the caller leaves the queue, or all stay. -/
theorem attend_waiters (l : Ledger) (now : Time) (t : Ticket) (d r : Option Time) :
    ((l.attend now t d r).2.grants = true ∧ l.closed = false ∧
        l.waiters = t :: (l.attend now t d r).1.waiters ∧
        (l.idle = [] → r = none ∨ reached now r = true)) ∨
      (l.attend now t d r).2.grants = false ∧
        ((l.attend now t d r).1.waiters = (l.leave t).waiters ∧
            (l.closed = true ∨ l.Unserved now t r ∧ reached now d = true) ∨
          (l.attend now t d r).1.waiters = l.waiters ∧ l.Unserved now t r ∧ l.closed = false ∧
            reached now d = false) := by
  have front : l.waiters.head? = some t → l.waiters = t :: l.waiters.tail := by
    intro hf
    obtain ⟨rest, hw⟩ := List.head?_eq_some_iff.mp hf
    rw [hw, List.tail_cons]
  cases hc : l.closed with
  | true =>
      rw [attend_of_closed hc]
      exact Or.inr ⟨rfl, Or.inl ⟨rfl, Or.inl rfl⟩⟩
  | false =>
      obtain ⟨c, rest, hf, hi⟩ | ⟨hf, hi, hv, hr⟩ | hu := l.look_cases now t r
      · rw [attend_of_idle hc hf hi]
        exact Or.inl ⟨rfl, rfl, front hf, by rw [hi]; exact nofun⟩
      · rw [attend_of_vacant hc hf hi hv hr]
        exact Or.inl ⟨rfl, rfl, front hf, fun _ => hr⟩
      · rw [attend_of_unserved hc hu, wait]
        cases hd : reached now d with
        | true =>
            rw [if_pos rfl]
            exact Or.inr ⟨rfl, Or.inl ⟨rfl, Or.inr ⟨hu, rfl⟩⟩⟩
        | false =>
            exact Or.inr ⟨rfl, Or.inr ⟨rfl, hu, rfl, rfl⟩⟩

/-- A look keeps the order of those who stay. -/
theorem attend_sublist (l : Ledger) (now : Time) (t : Ticket) (d r : Option Time) :
    (l.attend now t d r).1.waiters.Sublist l.waiters := by
  obtain ⟨-, -, hw, -⟩ | ⟨-, ⟨hw, -⟩ | ⟨hw, -⟩⟩ := l.attend_waiters now t d r
  · rw [hw]
    exact List.sublist_cons_self _ _
  · rw [hw]
    exact List.filter_sublist
  · rw [hw]

/-- The look of a call that comes back from a failed reopen. As long as the pool is open, and a
connection is idle or the deadline has not passed, it is served first or stays in front; otherwise
it leaves without anything. -/
theorem attend_rejoin (l : Ledger) (now : Time) (d : Option Time) (ht : t ∉ l.waiters) :
    (l.closed = false ∧ (l.idle = [] → reached now d = false) ∧
        (((l.rejoin t).attend now t d (some (now + reopenInterval))).2.grants = true ∧
            ((l.rejoin t).attend now t d (some (now + reopenInterval))).1.waiters = l.waiters ∨
          ((l.rejoin t).attend now t d (some (now + reopenInterval))).1.waiters =
            t :: l.waiters)) ∨
      ¬ (l.closed = false ∧ (l.idle = [] → reached now d = false)) ∧
        ((l.rejoin t).attend now t d (some (now + reopenInterval))).2.grants = false ∧
        ((l.rejoin t).attend now t d (some (now + reopenInterval))).1.waiters = l.waiters := by
  have hleft : ((l.rejoin t).leave t).waiters = l.waiters := by
    simp only [leave, rejoin, List.filter_cons]
    rw [if_neg (by simp), List.filter_eq_self]
    intro w hw
    simpa using fun heq : w = t => ht (heq ▸ hw)
  obtain ⟨hg, ho, hw, hi⟩ | ⟨hg, ⟨hw, hout⟩ | ⟨hw, hu, ho, hd⟩⟩ :=
    (l.rejoin t).attend_waiters now t d (some (now + reopenInterval))
  · -- Its retry time is still to come, so what it was given is an idle connection.
    refine Or.inl ⟨ho, fun hempty => ?_, Or.inl ⟨hg, (List.cons.inj hw).2.symm⟩⟩
    obtain hr | hr := hi hempty
    · cases hr
    · rw [reached_reopen] at hr
      cases hr
  · refine Or.inr ⟨?_, hg, hw.trans hleft⟩
    rintro ⟨ho, hd⟩
    obtain hc | ⟨hu, hr⟩ := hout
    · rw [show l.closed = true from hc] at ho
      cases ho
    · rw [hd (hu rfl).1] at hr
      cases hr
  · exact Or.inl ⟨ho, fun _ => hd, Or.inr hw⟩

end Ledger

namespace Machine

/-- The ledger as an acquire call finds it when it looks. -/
def found (m : Machine) (a : Acquire) : Ledger :=
  match a.phase with
  | .arriving => m.ledger.enqueue
  | .refused t => m.ledger.rejoin t
  | _ => m.ledger

/-- The retry time of an acquire call when it looks. -/
def retry (m : Machine) (a : Acquire) : Option Time :=
  match a.phase with
  | .refused _ => some (m.clock + reopenInterval)
  | _ => a.retryAt

theorem attend_ledger (m : Machine) (i : Nat) (a : Acquire) (t : Ticket) :
    (m.attend i a t).ledger = (m.ledger.attend m.clock t a.deadline a.retryAt).1 := by
  unfold attend
  generalize m.ledger.attend m.clock t a.deadline a.retryAt = look
  obtain ⟨l, v⟩ := look
  cases v with
  | answer ans notify =>
      cases notify with
      | true => rfl
      | false => cases ans <;> rfl
  | reopen => rfl
  | sleep w => rfl

theorem attend_calls (m : Machine) (i : Nat) (a : Acquire) (t : Ticket) :
    (m.attend i a t).calls = m.calls.set i (.acquire
      { a with phase := (m.ledger.attend m.clock t a.deadline a.retryAt).2.phase t }) := by
  unfold attend
  generalize m.ledger.attend m.clock t a.deadline a.retryAt = look
  obtain ⟨l, v⟩ := look
  cases v with
  | answer ans notify =>
      cases notify with
      | true => rfl
      | false => cases ans <;> rfl
  | reopen => rfl
  | sleep w => rfl

theorem attend_call (hi : i < m.calls.length) (a : Acquire) (t : Ticket) :
    (m.attend i a t).calls[i]? = some (.acquire
      { a with phase := (m.ledger.attend m.clock t a.deadline a.retryAt).2.phase t }) := by
  rw [attend_calls, List.getElem?_set_self hi]

/-- The step of a call that looks at the ledger: whatever the machine was made of before the look,
the look decides. -/
theorem look_of_step (ha : m.calls[i]? = some (.acquire a)) (ht : m.looksWith? a = some t)
    (h : m.apply (.step i) = some (m', ns)) :
    m'.ledger = ((m.found a).attend m.clock t a.deadline (m.retry a)).1 ∧
      m'.calls[i]? = some (.acquire ⟨a.deadline, m.retry a,
        ((m.found a).attend m.clock t a.deadline (m.retry a)).2.phase t⟩) := by
  have hlt : i < m.calls.length := (List.getElem?_eq_some_iff.mp ha).1
  have key : ∀ {b : Machine} {c : Acquire}, i < b.calls.length → m' = b.attend i c t →
      b.ledger = m.found a → b.clock = m.clock → c.deadline = a.deadline → c.retryAt = m.retry a →
      m'.ledger = ((m.found a).attend m.clock t a.deadline (m.retry a)).1 ∧
        m'.calls[i]? = some (.acquire ⟨a.deadline, m.retry a,
          ((m.found a).attend m.clock t a.deadline (m.retry a)).2.phase t⟩) := by
    intro b c hb hm' hl hclock hd hr
    rw [hm', b.attend_ledger, attend_call hb, hl, hclock, hd, hr]
    exact ⟨rfl, rfl⟩
  obtain ⟨d, r, p⟩ := a
  simp only [apply, ha] at h
  cases p with
  | arriving =>
      obtain rfl : m.ledger.nextTicket = t := Option.some.inj ht
      exact key (b := { m with ledger := m.ledger.enqueue }) hlt (eq_of_moved h).symm rfl rfl rfl
        rfl
  | awake u =>
      obtain rfl : u = t := Option.some.inj ht
      exact key hlt (eq_of_moved h).symm rfl rfl rfl rfl
  | refused u =>
      obtain rfl : u = t := Option.some.inj ht
      exact key (by simpa [notifyAll] using hlt) (eq_of_moved h).symm rfl rfl rfl rfl
  | _ => cases ht

theorem grants_iff_of_step (ha : m.calls[i]? = some (.acquire a)) (ht : m.looksWith? a = some t)
    (h : m.apply (.step i) = some (m', ns)) : m.Grants (.step i) m' t ↔
      ((m.found a).attend m.clock t a.deadline (m.retry a)).2.grants = true := by
  obtain ⟨-, hcall⟩ := look_of_step ha ht h
  constructor
  · rintro ⟨j, e, e', hj, -, -, he', hgr⟩
    obtain rfl : i = j := Move.step.inj hj
    rw [← Call.acquire.inj (Option.some.inj (hcall.symm.trans he')), Verdict.granted_phase] at hgr
    exact hgr
  · intro hgr
    exact ⟨i, a, _, rfl, ha, ht, hcall, (Verdict.granted_phase _ t _ _).trans hgr⟩

theorem waiters_awaitReturns : (m.awaitReturns i).ledger.waiters = m.ledger.waiters := by
  unfold awaitReturns
  split <;> rfl

theorem waiters_of_stepRelease {r : Release} (h : m.stepRelease i r = some (m', ns)) :
    m'.ledger.waiters = m.ledger.waiters := by
  obtain ⟨c, b, p⟩ := r
  cases p with
  | arriving =>
      obtain rfl := eq_of_moved h
      cases b <;> rfl
  | notifying | destroying =>
      obtain rfl := eq_of_moved h
      rfl
  | returned => cases h

theorem waiters_of_stepClose {c : Close} (h : m.stepClose i c = some (m', ns)) :
    m'.ledger.waiters = m.ledger.waiters := by
  cases c with
  | arriving | awake =>
      obtain rfl := eq_of_moved h
      exact waiters_awaitReturns
  | draining rest =>
      cases rest with
      | nil | cons c rest =>
          obtain rfl := eq_of_moved h
          rfl
  | asleep | returned => cases h

/-- All other moves leave the queue as it is. -/
theorem waiters_of_apply (h : m.apply v = some (m', ns))
    (hn : ∀ i a t, v = .step i → m.calls[i]? = some (.acquire a) → m.looksWith? a ≠ some t) :
    m'.ledger.waiters = m.ledger.waiters := by
  cases v with
  | beginAcquire timeout | beginClose | advance d =>
      obtain rfl := eq_of_moved h
      rfl
  | beginRelease c faulty | markBroken c =>
      simp only [apply] at h
      split at h
      · obtain rfl := eq_of_moved h
        rfl
      · cases h
  | connected j ok =>
      cases connected_change h with
      | reopened _ | refused _ => rfl
  | wake j =>
      cases wake_change h with
      | woken _ | closerWoken _ => rfl
  | step j =>
      simp only [apply] at h
      split at h
      · rename_i a ha
        obtain ⟨d, r, p⟩ := a
        cases p with
        | notifying ans =>
            obtain rfl := eq_of_moved h
            cases ans <;> rfl
        | arriving | awake t | refused t => exact absurd rfl (hn j _ _ rfl ha)
        | asleep t w | connecting t | returned ans => cases h
      · exact waiters_of_stepRelease h
      · exact waiters_of_stepClose h
      · cases h

end Machine

/-! ## Fair moves -/

theorem Machine.Grants.ticket {u : Ticket} (h : m.Grants (.step i) m' u)
    (ha : m.calls[i]? = some (.acquire a)) (ht : m.looksWith? a = some t) : t = u := by
  obtain ⟨j, e, e', hj, he, hu, -⟩ := h
  obtain rfl := Move.step.inj hj
  obtain rfl := Call.acquire.inj (Option.some.inj (ha.symm.trans he))
  exact Option.some.inj (ht.symm.trans hu)

/-- A look at a queue in order keeps it in order, and what it grants goes to the earliest. -/
theorem Machine.fair_of_sorted (ha : m.calls[i]? = some (.acquire a))
    (ht : m.looksWith? a = some t) (h : m.apply (.step i) = some (m', ns))
    (hs : (m.found a).waiters.Pairwise (· < ·)) : m'.InOrder ∧ m.Fair (.step i) m' := by
  obtain ⟨hl, -⟩ := look_of_step ha ht h
  have hg := grants_iff_of_step ha ht h
  refine ⟨?_, ?_⟩
  · rw [InOrder, hl]
    exact hs.sublist (Ledger.attend_sublist _ _ _ _ _)
  · intro u hgrant
    obtain rfl : t = u := hgrant.ticket ha ht
    obtain ⟨-, -, hw, -⟩ | ⟨hno, -⟩ :=
      Ledger.attend_waiters (m.found a) m.clock t a.deadline (m.retry a)
    · rw [hw] at hs
      rw [hl]
      exact (List.pairwise_cons.mp hs).1
    · rw [hg, hno] at hgrant
      cases hgrant

/-- What it takes for a call that comes back from a failed reopen to overtake. -/
theorem Machine.overtakes_iff_of_refused {d r : Option Time}
    (ha : m.calls[i]? = some (.acquire ⟨d, r, .refused t⟩)) :
    m.Overtakes (.step i) ↔ (∃ u ∈ m.ledger.waiters, u < t) ∧ m.ledger.closed = false ∧
      (m.ledger.idle = [] → Ledger.reached m.clock d = false) := by
  constructor
  · rintro ⟨d', r', t', u, ha', hu, hlt, hrest⟩
    have heq := Call.acquire.inj (Option.some.inj (ha.symm.trans ha'))
    obtain ⟨rfl, -, hp⟩ := Acquire.mk.inj heq
    obtain rfl := Acquire.Phase.refused.inj hp
    exact ⟨⟨u, hu, hlt⟩, hrest⟩
  · rintro ⟨⟨u, hu, hlt⟩, hrest⟩
    exact ⟨d, r, t, u, ha, hu, hlt, hrest⟩

/-- A call that comes back from a failed reopen, and whether it overtakes. -/
theorem Machine.Queued.fair_iff_of_refused {d r : Option Time} (hm : m.Queued) (ho : m.InOrder)
    (ha : m.calls[i]? = some (.acquire ⟨d, r, .refused t⟩))
    (h : m.apply (.step i) = some (m', ns)) :
    (m'.InOrder ∧ m.Fair (.step i) m') ↔ ¬ m.Overtakes (.step i) := by
  obtain ⟨pre, post, hx, rfl⟩ := exists_split_of_getElem? ha
  have hnot : t ∉ m.ledger.waiters := hm.not_mem_of_away hx (List.mem_singleton_self t) rfl
  rw [overtakes_iff_of_refused ha]
  by_cases hu : ∃ u ∈ m.ledger.waiters, u < t
  · rw [and_iff_right hu]
    obtain ⟨u, hu, hlt⟩ := hu
    have hl : m'.ledger =
        ((m.ledger.rejoin t).attend m.clock t d (some (m.clock + reopenInterval))).1 :=
      (look_of_step ha rfl h).1
    have hg : m.Grants (.step pre.length) m' t ↔
        ((m.ledger.rejoin t).attend m.clock t d
          (some (m.clock + reopenInterval))).2.grants = true :=
      grants_iff_of_step ha rfl h
    obtain ⟨hopen, hdl, hstays⟩ | ⟨hout, hno, hw⟩ := m.ledger.attend_rejoin m.clock d hnot
    · refine iff_of_false ?_ fun hno => hno ⟨hopen, hdl⟩
      rintro ⟨hord, hfair⟩
      rw [← hl] at hstays
      obtain ⟨hgr, hw⟩ | hw := hstays
      · -- It is served, and the earlier call is left in the queue.
        exact absurd (hfair t (hg.mpr hgr) u (hw ▸ hu)) (Nat.lt_asymm hlt)
      · -- It stays in front of the earlier call.
        rw [InOrder, hw] at hord
        exact absurd ((List.pairwise_cons.mp hord).1 u hu) (Nat.lt_asymm hlt)
    · rw [← hl] at hw
      refine iff_of_true ⟨?_, ?_⟩ hout
      · rw [InOrder, hw]
        exact ho
      · intro w hgrant
        obtain rfl : t = w := hgrant.ticket ha rfl
        rw [hg, hno] at hgrant
        cases hgrant
  · -- Its old place is the first one, so the queue stays in order.
    refine iff_of_true (fair_of_sorted ha rfl h ?_) fun hov => hu hov.1
    refine List.pairwise_cons.mpr ⟨fun w hw => ?_, ho⟩
    have hle : t ≤ w := Nat.not_lt.mp fun hlt => hu ⟨w, hw, hlt⟩
    exact Nat.lt_of_le_of_ne hle fun heq => hnot (heq ▸ hw)

/-- Of the moves of a fair state, the one that overtakes is the only one that is not fair, or leads
to a state that is not. -/
theorem Machine.Queued.fair_iff (hm : m.Queued) (ho : m.InOrder)
    (h : m.apply v = some (m', ns)) : (m'.InOrder ∧ m.Fair v m') ↔ ¬ m.Overtakes v := by
  by_cases hlook : ∃ i a t, v = .step i ∧ m.calls[i]? = some (.acquire a) ∧ m.looksWith? a = some t
  · obtain ⟨i, a, t, rfl, ha, ht⟩ := hlook
    obtain ⟨d, r, p⟩ := a
    -- A call that does not come back from a failed reopen overtakes nobody.
    have onlyRefused : (∀ u, p ≠ .refused u) → ¬ m.Overtakes (.step i) := by
      rintro hp ⟨d', r', u, w, ha', -⟩
      have heq := Call.acquire.inj (Option.some.inj (ha.symm.trans ha'))
      exact hp u (Acquire.mk.inj heq).2.2
    cases p with
    | arriving =>
        refine iff_of_true (fair_of_sorted ha ht h ?_) (onlyRefused nofun)
        refine List.pairwise_append.mpr ⟨ho, List.pairwise_singleton _ _, fun u hu w hw => ?_⟩
        rw [List.mem_singleton.mp hw]
        exact hm.numbered.1 u hu
    | awake u => exact iff_of_true (fair_of_sorted ha ht h ho) (onlyRefused nofun)
    | refused u =>
        obtain rfl : u = t := Option.some.inj ht
        exact hm.fair_iff_of_refused ho ha h
    | asleep u w | connecting u | notifying ans | returned ans => cases ht
  · have hw := waiters_of_apply h fun i a t hv ha ht => hlook ⟨i, a, t, hv, ha, ht⟩
    refine iff_of_true ⟨?_, ?_⟩ fun hover => ?_
    · rw [InOrder, hw]
      exact ho
    · rintro t ⟨i, a, -, hv, ha, ht, -⟩
      exact absurd ⟨i, a, t, hv, ha, ht⟩ hlook
    · cases v with
      | step i =>
          obtain ⟨d, r, t, u, ha, -⟩ := hover
          exact hlook ⟨i, _, t, rfl, ha, rfl⟩
      | _ => exact hover

/-! ## Fair runs -/

/-- **A run is fair exactly if no move of it overtakes**: then, and only then, the queue is in the
order of arrival in every state of the run, and every idle connection and every vacant slot that
is handed out goes to the earliest call in the queue. -/
theorem Trace.in_order_iff {capacity n : Nat} {tr : List (Machine × Move)}
    (h : Trace (Machine.initial capacity n) tr m) :
    (m.InOrder ∧ ∀ p ∈ tr, p.1.InOrder ∧
        ∀ m' ns, p.1.apply p.2 = some (m', ns) → p.1.Fair p.2 m') ↔
      ∀ p ∈ tr, ¬ p.1.Overtakes p.2 := by
  -- By induction over the run: `fair_iff` covers its last move.
  induction h with
  | nil => exact ⟨fun _ => nofun, fun _ => ⟨List.Pairwise.nil, nofun⟩⟩
  | @move tr m' m'' v ns ht hv ih =>
      have hq : m'.Queued := ht.keep (fun hc hm => hm.change hc) .initial
      simp only [List.forall_mem_append, List.forall_mem_singleton]
      rw [← ih]
      constructor
      · rintro ⟨ho'', hall, ho', hfair⟩
        exact ⟨⟨ho', hall⟩, (hq.fair_iff ho' hv).mp ⟨ho'', hfair m'' ns hv⟩⟩
      · rintro ⟨⟨ho', hall⟩, hno⟩
        obtain ⟨ho'', hfair⟩ := (hq.fair_iff ho' hv).mpr hno
        refine ⟨ho'', hall, ho', fun b bs hb => ?_⟩
        rw [hv] at hb
        obtain rfl := Machine.eq_of_moved hb
        exact hfair

/-- A pool of three slots, two of them vacant: the second and the third caller tried to reopen them
at the same time, and the third failed last. -/
def Machine.overtaken : Machine where
  capacity := 3
  ledger := ⟨[], 1, 2, false, [2, 1], 3⟩
  calls := [.acquire ⟨none, none, .returned (.connection 0)⟩,
    .acquire ⟨none, some 500, .awake 1⟩, .acquire ⟨none, some 500, .asleep 2 (some 500)⟩]
  held := [⟨0, false⟩]
  clock := 0
  opened := 1
  attempts := 5
  destroyed := []

theorem Machine.overtaken_follow :
    (Machine.initial 3 1).follow [.beginAcquire none, .step 0, .step 0, .beginAcquire none,
      .step 1, .beginAcquire none, .step 2, .connected 1 false, .step 1, .connected 2 false,
      .step 2] = some overtaken := by decide

theorem in_order_iff_overtaken :
    ∃ tr, Trace (Machine.initial 3 1) tr Machine.overtaken ∧ ∃ p ∈ tr, p.1.Overtakes p.2 := by
  obtain ⟨tr, htr⟩ := Machine.exists_trace Machine.overtaken_follow
  refine ⟨tr, htr, ?_⟩
  by_contra hno
  have hnone : ∀ p ∈ tr, ¬ p.1.Overtakes p.2 := fun p hp ho => hno ⟨p, hp, ho⟩
  have : Machine.overtaken.InOrder := (htr.in_order_iff.mpr hnone).1
  exact absurd this (by decide)

theorem not_forall_reachable_inOrder : ¬ ∀ m : Machine, m.Reachable → m.InOrder := by
  intro h
  have start : (Machine.initial 3 1).Reachable := .start (by decide) (by decide)
  exact absurd (h Machine.overtaken (start.follow Machine.overtaken_follow)) (by decide)

end PooledStore.Pool
