import PooledStore.Proofs.Pool.Deadline
import PooledStore.Proofs.Pool.Fairness

/-!
# How acquire calls end

An acquire call is in progress from its first stretch under the lock on: it waits in the queue, or
it has a claim. The queue holds the tickets of those who wait, each once
(`Machine.Queued.waiters_perm`). A call is decided by one look at the ledger, or by an attempt to
connect that succeeds, and `Machine.Ends` says what each of its answers then takes. Its ticket
leaves the queue for good, and the others stay in their order.
-/

set_option autoImplicit false

namespace PooledStore.Pool

variable {m m' : Machine} {v : Move} {ns : List Notice} {i : Nat} {t : Ticket} {a : Acquire}
  {ans : Answer}

/-! ## Waiting and claiming -/

/-- The acquire call is in progress: it has been under the lock, and is neither over nor about to
end without a connection. -/
def Call.inProgress : Call → Bool
  | .acquire ⟨_, _, .arriving⟩ => false
  | .acquire ⟨_, _, .notifying .timedOut⟩ => false
  | .acquire ⟨_, _, .notifying .closed⟩ => false
  | .acquire ⟨_, _, .returned _⟩ => false
  | .acquire _ => true
  | _ => false

/-- The call is in progress and holds no claim. -/
def Call.waits (c : Call) : Bool := c.inProgress && !c.claims

theorem Call.queued_eq (c : Call) : c.queued = if c.waits then c.tickets else [] := by
  rcases c with ⟨d, r, p⟩ | r | c
  · cases p with
    | notifying ans => cases ans <;> rfl
    | _ => rfl
  · rfl
  · rfl

theorem flatMap_queued (l : List Call) :
    l.flatMap Call.queued = (l.filter Call.waits).flatMap Call.tickets := by
  induction l with
  | nil => rfl
  | cons c l ih =>
      rw [List.flatMap_cons, List.filter_cons, ih, c.queued_eq]
      split
      · rw [List.flatMap_cons]
      · rw [List.nil_append]

theorem Call.length_queued (c : Call) : c.queued.length + c.claims.toNat = c.inProgress.toNat := by
  rcases c with ⟨d, r, p⟩ | r | c
  · cases p with
    | notifying ans => cases ans <;> rfl
    | _ => rfl
  · rfl
  · rfl

theorem length_flatMap_queued (l : List Call) :
    (l.flatMap Call.queued).length + l.countP Call.claims = l.countP Call.inProgress := by
  induction l with
  | nil => rfl
  | cons c l ih =>
      have hc := c.length_queued
      have hclaims := countP_split Call.claims [] l c
      have hprogress := countP_split Call.inProgress [] l c
      rw [List.nil_append, List.countP_nil] at hclaims hprogress
      rw [List.flatMap_cons, List.length_append]
      omega

namespace Machine.Queued

theorem waiters_perm (hm : m.Queued) :
    m.ledger.waiters.Perm ((m.calls.filter Call.waits).flatMap Call.tickets) := by
  rw [← flatMap_queued]
  exact List.perm_iff_count.mpr hm.count

theorem waiters_nodup (hm : m.Queued) : m.ledger.waiters.Nodup := by
  refine List.nodup_iff_count.mpr fun t => ?_
  calc m.ledger.waiters.count t
      = (m.calls.flatMap Call.queued).count t := hm.count t
    _ ≤ (m.calls.flatMap Call.tickets).count t := count_queued_le m.calls t
    _ ≤ 1 := hm.once t

theorem waiters_length (hm : m.Queued) :
    m.ledger.waiters.length + m.calls.countP Call.claims = m.calls.countP Call.inProgress := by
  rw [(List.perm_iff_count.mpr hm.count).length_eq]
  exact length_flatMap_queued m.calls

end Machine.Queued

/-! ## Tickets that are gone -/

/-- The ticket was given out, and no call has it any more. -/
structure Machine.Gone (m : Machine) (t : Ticket) : Prop where
  old : t < m.ledger.nextTicket
  nobody : (m.calls.flatMap Call.tickets).count t = 0

namespace Machine.Gone

theorem not_mem (hg : m.Gone t) (hq : m.Queued) : t ∉ m.ledger.waiters := by
  have hle := count_queued_le m.calls t
  have hcount := hq.count t
  have hnone := hg.nobody
  rw [← List.count_eq_zero]
  omega

/-- Nobody is given a ticket again. -/
theorem change (h : Change v m m') (hg : m.Gone t) : m'.Gone t := by
  have hold := hg.old
  have hnone := hg.nobody
  have turned : ∀ {x y : Call}, m.Turned m' x y → y.tickets.count t ≤ x.tickets.count t →
      m.ledger.nextTicket ≤ m'.ledger.nextTicket → m'.Gone t := by
    intro x y ht hle hnext
    have hcount := ht.count_flatMap Call.tickets_sleepBlind t
    exact ⟨Nat.lt_of_lt_of_le hold hnext, by omega⟩
  have begun : ∀ {y : Call}, m'.calls = m.calls ++ [y] → y.tickets = [] →
      m'.ledger.nextTicket = m.ledger.nextTicket → m'.Gone t := by
    intro y hy hno hnext
    exact ⟨hnext ▸ hold, by rw [count_flatMap_begun hy, hnone, hno, List.count_nil]⟩
  cases h with
  | acquireBegun timeout | closeBegun | releaseBegun faulty _ => exact begun rfl rfl rfl
  | marked d | elapsed d => exact ⟨hold, hnone⟩
  | @arrived _ pre post d r hx =>
      have hne : t ∉ [m.ledger.nextTicket] := by simpa using Nat.ne_of_lt hold
      exact turned (.same hx rfl) (Nat.le_of_eq (List.count_eq_zero.mpr hne)) (Nat.le_succ _)
  | refused hx | woken hx => exact turned (.same hx rfl) (Nat.le_refl _) (Nat.le_refl _)
  | slept hx _ _ _ => exact turned (.same hx rfl) (Nat.le_refl _) (Nat.le_refl _)
  | claimed hx _ _ _ _ _ => exact turned (.same hx rfl) (Nat.le_refl _) (Nat.le_refl _)
  | rejoined hx => exact turned (.woken hx rfl) (Nat.le_refl _) (Nat.le_refl _)
  | reopened hx | discarded hx | closerWoken hx | drainedOne hx | closeDone hx =>
      exact turned (.same hx rfl) (Nat.zero_le _) (Nat.le_refl _)
  | turnedAway hx _ | closerSlept hx _ | drained hx _ =>
      exact turned (.same hx rfl) (Nat.zero_le _) (Nat.le_refl _)
  | timedOut hx _ _ _ => exact turned (.same hx rfl) (Nat.zero_le _) (Nat.le_refl _)
  | served hx _ _ _ _ | servedLast hx _ _ _ _ =>
      exact turned (.same hx rfl) (Nat.zero_le _) (Nat.le_refl _)
  | answered hx | returnTold hx | shut hx =>
      exact turned (.woken hx rfl) (Nat.zero_le _) (Nat.le_refl _)
  | @takenBack _ pre post c b hx =>
      exact turned (.same hx rfl) (Nat.zero_le _) (by cases b <;> exact Nat.le_refl _)

end Machine.Gone

/-! ## The step of a call -/

/-- The step of a return leaves a return where it was. -/
theorem Machine.release_of_stepRelease {r : Release} (hr : m.calls[i]? = some (.release r))
    (h : m.stepRelease i r = some (m', ns)) : ∃ r', m'.calls[i]? = some (.release r') := by
  obtain ⟨c, b, p⟩ := r
  cases p with
  | arriving | destroying =>
      obtain rfl := eq_of_moved h
      exact ⟨_, getElem?_setCall hr⟩
  | notifying =>
      obtain rfl := eq_of_moved h
      exact ⟨_, getElem?_setCall_notifyAll hr⟩
  | returned => cases h

theorem Machine.close_of_awaitReturns {x : Call} (hx : m.calls[i]? = some x) :
    ∃ c, (m.awaitReturns i).calls[i]? = some (.close c) := by
  unfold awaitReturns
  split
  · exact ⟨_, getElem?_setCall hx⟩
  · exact ⟨_, getElem?_setCall hx⟩

/-- The step of a closer leaves a closer where it was. -/
theorem Machine.close_of_stepClose {c : Close} (hc : m.calls[i]? = some (.close c))
    (h : m.stepClose i c = some (m', ns)) : ∃ c', m'.calls[i]? = some (.close c') := by
  cases c with
  | arriving =>
      obtain rfl := eq_of_moved h
      exact close_of_awaitReturns
        (getElem?_notifyAll (m := { m with ledger := { m.ledger with closed := true } }) hc)
  | awake =>
      obtain rfl := eq_of_moved h
      exact close_of_awaitReturns hc
  | draining rest =>
      cases rest with
      | nil | cons d rest =>
          obtain rfl := eq_of_moved h
          exact ⟨_, getElem?_setCall hc⟩
  | asleep | returned => cases h

/-- A step is that of a call that looks at the ledger, or of one that is decided and returns, or of
another kind of call. -/
theorem Machine.step_cases (h : m.apply (.step i) = some (m', ns)) :
    (∃ a t, m.calls[i]? = some (.acquire a) ∧ m.looksWith? a = some t) ∨
      (∃ d r ans, m.calls[i]? = some (.acquire ⟨d, r, .notifying ans⟩) ∧
        m'.calls[i]? = some (.acquire ⟨d, r, .returned ans⟩)) ∨
      ∃ c, m'.calls[i]? = some c ∧ ∀ a, c ≠ .acquire a := by
  simp only [apply] at h
  split at h
  · rename_i a ha
    obtain ⟨d, r, p⟩ := a
    cases p with
    | arriving | awake t | refused t => exact Or.inl ⟨_, _, ha, rfl⟩
    | notifying ans =>
        obtain rfl := eq_of_moved h
        refine Or.inr (Or.inl ⟨d, r, ans, ha, ?_⟩)
        cases ans with
        | connection c | timedOut | closed => exact getElem?_setCall_notifyAll ha
    | asleep t w | connecting t | returned ans => cases h
  · rename_i r hr
    obtain ⟨r', hr'⟩ := release_of_stepRelease hr h
    exact Or.inr (Or.inr ⟨_, hr', fun _ he => by cases he⟩)
  · rename_i c hc
    obtain ⟨c', hc'⟩ := close_of_stepClose hc h
    exact Or.inr (Or.inr ⟨_, hc', fun _ he => by cases he⟩)
  · cases h

/-! ## What an answer takes -/

/-- The ticket of an acquire call in progress; one that is arriving takes it in its next step. -/
def Machine.ticketOf? (m : Machine) (a : Acquire) : Option Ticket :=
  match a.phase with
  | .arriving => some m.ledger.nextTicket
  | .awake t => some t
  | .asleep t _ => some t
  | .connecting t => some t
  | .refused t => some t
  | _ => none

/-- What the acquire call `i` with ticket `t` needs to be decided by a move from `m` to `m'`, and
what it takes. -/
inductive Machine.Ends (m m' : Machine) (i : Nat) (a : Acquire) (t : Ticket) : Move → Answer → Prop
    where
  | turnedAway : m.ledger.closed = true → Ends m m' i a t (.step i) .closed
  /-- It has a deadline, which has passed, and was not at the front next to an idle connection. -/
  | timedOut {d : Time} :
      a.deadline = some d → d ≤ m.clock →
      ((m.found a).waiters.head? = some t → m.ledger.idle = []) →
      Ends m m' i a t (.step i) .timedOut
  /-- It was at the front and took the longest idle connection. -/
  | served {c : ConnId} :
      (m.found a).waiters.head? = some t → m.ledger.idle = c :: m'.ledger.idle →
      Ends m m' i a t (.step i) (.connection c)
  /-- It had a slot and opened a new connection for it. -/
  | reopened :
      a.phase = .connecting t → m'.opened = m.opened + 1 →
      Ends m m' i a t (.connected i true) (.connection m.opened)

namespace Ledger

variable {l : Ledger} {now : Time} {d r : Option Time} {notify : Bool}

/-- How a look decides the call that makes it. -/
theorem attend_answer_cases (h : (l.attend now t d r).2 = .answer ans notify) :
    (l.closed = true ∧ ans = .closed ∧ (l.attend now t d r).1.waiters = (l.leave t).waiters) ∨
      (∃ at_, ans = .timedOut ∧ d = some at_ ∧ at_ ≤ now ∧
        (l.waiters.head? = some t → l.idle = []) ∧
        (l.attend now t d r).1.waiters = (l.leave t).waiters) ∨
      ∃ c, ans = .connection c ∧ l.waiters.head? = some t ∧
        l.idle = c :: (l.attend now t d r).1.idle ∧
        (l.attend now t d r).1.waiters = l.waiters.tail := by
  cases hc : l.closed with
  | true =>
      rw [attend_of_closed hc] at h ⊢
      cases h
      exact Or.inl ⟨rfl, rfl, rfl⟩
  | false =>
      obtain ⟨c, rest, hf, hi⟩ | ⟨hf, hi, hv, hr⟩ | hu := l.look_cases now t r
      · rw [attend_of_idle hc hf hi] at h ⊢
        cases h
        exact Or.inr (Or.inr ⟨c, rfl, hf, hi, rfl⟩)
      · rw [attend_of_vacant hc hf hi hv hr] at h
        cases h
      · rw [attend_of_unserved hc hu, wait] at h ⊢
        cases d with
        | none => cases h
        | some at_ =>
            by_cases hd : at_ ≤ now
            · have hreached : reached now (some at_) = true := decide_eq_true hd
              rw [if_pos hreached] at h ⊢
              cases h
              exact Or.inr (Or.inl ⟨at_, rfl, rfl, hd, fun hf => (hu hf).1, rfl⟩)
            · have hlate : ¬ reached now (some at_) = true := by simpa [reached] using hd
              rw [if_neg hlate] at h
              cases h

end Ledger

namespace Machine

theorem found_closed (m : Machine) (a : Acquire) : (m.found a).closed = m.ledger.closed := by
  obtain ⟨d, r, p⟩ := a
  cases p with
  | _ => rfl

theorem found_idle (m : Machine) (a : Acquire) : (m.found a).idle = m.ledger.idle := by
  obtain ⟨d, r, p⟩ := a
  cases p with
  | _ => rfl

/-- Without its own ticket, the queue that a call finds when it looks is the queue before. -/
theorem found_leave (ht : m.looksWith? a = some t) :
    ((m.found a).leave t).waiters = (m.ledger.leave t).waiters := by
  obtain ⟨d, r, p⟩ := a
  cases p with
  | arriving =>
      obtain rfl : m.ledger.nextTicket = t := Option.some.inj ht
      simp [found, Ledger.leave, Ledger.enqueue]
  | awake u => rfl
  | refused u =>
      obtain rfl : u = t := Option.some.inj ht
      simp [found, Ledger.leave, Ledger.rejoin]
  | _ => cases ht

/-- The queue that a call finds has its ticket once. -/
theorem Queued.found_nodup (hm : m.Queued) (ha : m.calls[i]? = some (.acquire a)) :
    (m.found a).waiters.Nodup := by
  obtain ⟨pre, post, hx, -⟩ := exists_split_of_getElem? ha
  have hnodup := hm.waiters_nodup
  obtain ⟨d, r, p⟩ := a
  cases p with
  | arriving =>
      have hfresh : m.ledger.nextTicket ∉ m.ledger.waiters :=
        fun h => absurd (hm.numbered.1 _ h) (Nat.lt_irrefl _)
      refine List.nodup_append.mpr ⟨hnodup, List.pairwise_singleton _ _, fun u hu w hw => ?_⟩
      rw [List.mem_singleton.mp hw]
      exact fun heq => hfresh (heq ▸ hu)
  | refused u =>
      exact List.nodup_cons.mpr ⟨hm.not_mem_of_away hx (List.mem_singleton_self u) rfl, hnodup⟩
  | _ => exact hnodup

/-- The look of a call is a change of this call. -/
theorem turned_of_step (ha : m.calls[i]? = some (.acquire a)) (ht : m.looksWith? a = some t)
    (h : m.apply (.step i) = some (m', ns)) : m.Turned m' (.acquire a)
      (.acquire ⟨a.deadline, m.retry a,
        ((m.found a).attend m.clock t a.deadline (m.retry a)).2.phase t⟩) := by
  obtain ⟨pre, post, hx, rfl⟩ := exists_split_of_getElem? ha
  obtain ⟨d, r, p⟩ := a
  simp only [apply, ha] at h
  cases p with
  | arriving =>
      obtain rfl : m.ledger.nextTicket = t := Option.some.inj ht
      obtain rfl := eq_of_moved h
      refine .same hx ?_
      rw [attend_calls, hx, set_split]
      rfl
  | awake u =>
      obtain rfl : u = t := Option.some.inj ht
      obtain rfl := eq_of_moved h
      refine .same hx ?_
      rw [attend_calls, hx, set_split]
      rfl
  | refused u =>
      obtain rfl : u = t := Option.some.inj ht
      obtain rfl := eq_of_moved h
      refine .woken hx ?_
      have hcalls := notifyAll_split (m := { m with ledger := m.ledger.rejoin u }) hx
      have hlen : (pre.map Call.roused).length = pre.length := List.length_map _
      rw [attend_calls, hcalls, ← hlen, set_split]
      rfl
  | _ => cases ht

theorem found_nextTicket (hm : m.Numbered) (ha : m.calls[i]? = some (.acquire a))
    (ht : m.looksWith? a = some t) : t < (m.found a).nextTicket := by
  have given : t ∈ (Call.acquire a).tickets → t < m.ledger.nextTicket := fun h =>
    hm.2 t (List.mem_flatMap.mpr ⟨_, List.mem_of_getElem? ha, h⟩)
  obtain ⟨d, r, p⟩ := a
  cases p with
  | arriving =>
      obtain rfl : m.ledger.nextTicket = t := Option.some.inj ht
      exact Nat.lt_succ_self _
  | awake u | refused u =>
      obtain rfl : u = t := Option.some.inj ht
      exact given (List.mem_singleton_self u)
  | _ => cases ht

theorem looksWith?_ticketOf? (ht : m.looksWith? a = some t) : m.ticketOf? a = some t := by
  obtain ⟨d, r, p⟩ := a
  cases p with
  | arriving | awake u | refused u => exact ht
  | _ => cases ht

theorem looksWith?_tickets (ht : m.looksWith? a = some t) :
    (Call.acquire a).tickets = [t] ∨ (Call.acquire a).tickets = [] ∧ t = m.ledger.nextTicket := by
  obtain ⟨d, r, p⟩ := a
  cases p with
  | arriving => exact Or.inr ⟨rfl, (Option.some.inj ht).symm⟩
  | awake u | refused u => exact Or.inl (congrArg (fun u => [u]) (Option.some.inj ht))
  | _ => cases ht

end Machine

/-! ## Moves that decide a call -/

theorem Ledger.attend_nextTicket (l : Ledger) (now : Time) (t : Ticket) (d r : Option Time) :
    (l.attend now t d r).1.nextTicket = l.nextTicket := by
  cases hc : l.closed with
  | true => rw [attend_of_closed hc, leave]
  | false =>
      obtain ⟨c, rest, hf, hi⟩ | ⟨hf, hi, hv, hr⟩ | hu := l.look_cases now t r
      · rw [attend_of_idle hc hf hi]
      · rw [attend_of_vacant hc hf hi hv hr]
      · rw [attend_of_unserved hc hu, wait]
        split
        · rw [leave]
        · rfl

/-- A call that is decided leaves its ticket behind. -/
theorem Machine.Queued.gone_of_turned {x y : Call} (hq : m.Queued) (ht : m.Turned m' x y)
    (hx : x.tickets = [t] ∨ x.tickets = [] ∧ t = m.ledger.nextTicket) (hy : y.tickets = [])
    (hold : t < m'.ledger.nextTicket) : m'.Gone t := by
  have hcount := ht.count_flatMap Call.tickets_sleepBlind t
  rw [hy, List.count_nil] at hcount
  refine ⟨hold, ?_⟩
  obtain hx | ⟨hx, rfl⟩ := hx
  · have hone := hq.once t
    rw [hx, List.count_singleton_self] at hcount
    omega
  · have hfresh : m.ledger.nextTicket ∉ m.calls.flatMap Call.tickets :=
      fun h => absurd (hq.numbered.2 _ h) (Nat.lt_irrefl _)
    rw [List.count_eq_zero.mpr hfresh] at hcount
    omega

/-- A move of another call decides nothing about this one. -/
theorem Change.decision?_of_mover_ne (h : Change v m m') (hv : v.mover? ≠ some i) :
    m'.decision? i = m.decision? i := by
  obtain hy | ⟨y, hy, hcalls⟩ | ⟨pre, post, x, y, hp, hx, hy, -⟩ := h.decides
  · rw [Machine.decision?, hy, Machine.decision?]
  · exact Machine.decision?_begun hy hcalls i
  · exact Machine.decision?_of_ne hx hy fun hi => hv (hi ▸ hp)

theorem Verdict.decision?_phase {w : Verdict} {d r : Option Time}
    (h : (Call.acquire ⟨d, r, w.phase t⟩).decision? = some ans) :
    ∃ notify, w = .answer ans notify := by
  cases w with
  | answer ans' notify => cases notify <;> exact ⟨_, by rw [Option.some.inj h]⟩
  | reopen | sleep w => cases h

namespace Machine

theorem tail_eq_filter {l : List Ticket} (hn : l.Nodup) (hf : l.head? = some t) :
    l.tail = l.filter (· != t) := by
  obtain ⟨rest, rfl⟩ := List.head?_eq_some_iff.mp hf
  have hne := (List.nodup_cons.mp hn).1
  have hrest : rest.filter (· != t) = rest :=
    List.filter_eq_self.mpr fun u hu => by simpa using fun heq : u = t => hne (heq ▸ hu)
  rw [List.tail_cons, List.filter_cons, if_neg (by simp), hrest]

/-- The result of a call that is decided says so. -/
theorem decision?_of_getElem? {c : Call} (hd : m.decision? i = some ans)
    (hc : m.calls[i]? = some c) : c.decision? = some ans := by
  rw [decision?, hc] at hd
  exact hd

/-- A look that decides the call takes what the answer needs, and the call's ticket out of the
queue. -/
theorem Queued.ends_of_look {notify : Bool} (hq : m.Queued) (ha : m.calls[i]? = some (.acquire a))
    (ht : m.looksWith? a = some t) (h : m.apply (.step i) = some (m', ns))
    (hw : ((m.found a).attend m.clock t a.deadline (m.retry a)).2 = .answer ans notify) :
    m.Ends m' i a t (.step i) ans ∧
      m'.ledger.waiters = m.ledger.waiters.filter (· != t) ∧ m'.Gone t := by
  obtain ⟨hl, -⟩ := look_of_step ha ht h
  have hgone : m'.Gone t := by
    have hold := found_nextTicket hq.numbered ha ht
    rw [← Ledger.attend_nextTicket, ← hl] at hold
    refine hq.gone_of_turned (turned_of_step ha ht h) ?_ ?_ hold
    · exact looksWith?_tickets ht
    · rw [hw]
      cases notify <;> rfl
  rw [← and_assoc]
  refine ⟨?_, hgone⟩
  obtain ⟨hc, rfl, hleft⟩ | ⟨at_, rfl, hat, hle, hf, hleft⟩ | ⟨c, rfl, hf, hi, hleft⟩ :=
    Ledger.attend_answer_cases hw
  · rw [← hl, found_leave ht] at hleft
    exact ⟨.turnedAway ((m.found_closed a).symm.trans hc), hleft⟩
  · rw [← hl, found_leave ht] at hleft
    exact ⟨.timedOut hat hle fun h => (m.found_idle a).symm.trans (hf h), hleft⟩
  · rw [← hl] at hi hleft
    refine ⟨.served hf ((m.found_idle a).symm.trans hi), ?_⟩
    calc m'.ledger.waiters
        = (m.found a).waiters.tail := hleft
      _ = ((m.found a).leave t).waiters := tail_eq_filter (hq.found_nodup ha) hf
      _ = m.ledger.waiters.filter (· != t) := found_leave ht

/-- A claimant that has its connection left the queue when it claimed its slot. -/
theorem Queued.left_of_reopened {pre post : List Call} {d r : Option Time} (hq : m.Queued)
    (hx : m.calls = pre ++ .acquire ⟨d, r, .connecting t⟩ :: post)
    (ht : m.Turned m' (.acquire ⟨d, r, .connecting t⟩) (.acquire ⟨d, r, .returned ans⟩))
    (hnext : m'.ledger.nextTicket = m.ledger.nextTicket) :
    m.ledger.waiters = m.ledger.waiters.filter (· != t) ∧ m'.Gone t := by
  have haway : t ∉ m.ledger.waiters := hq.not_mem_of_away hx (List.mem_singleton_self t) rfl
  have hmem : .acquire ⟨d, r, .connecting t⟩ ∈ m.calls :=
    hx ▸ List.mem_append_right _ List.mem_cons_self
  have hold : t < m.ledger.nextTicket :=
    hq.numbered.2 t (List.mem_flatMap.mpr ⟨_, hmem, List.mem_singleton_self t⟩)
  refine ⟨?_, hq.gone_of_turned ht (Or.inl rfl) rfl (hnext ▸ hold)⟩
  exact (List.filter_eq_self.mpr fun u hu => by
    simpa using fun heq : u = t => haway (heq ▸ hu)).symm

/-- A move that decides an acquire call takes what the answer needs, and the call's ticket out of
the queue. -/
theorem Queued.ends_of_apply (hq : m.Queued) (h : m.apply v = some (m', ns))
    (hn : m.decision? i = none) (hd : m'.decision? i = some ans) :
    ∃ a t, m.calls[i]? = some (.acquire a) ∧ m.ticketOf? a = some t ∧ m.Ends m' i a t v ans ∧
      m'.ledger.waiters = m.ledger.waiters.filter (· != t) ∧ m'.Gone t := by
  -- Only the call's own moves decide it, so these are the moves to look at.
  have hmover : v.mover? = some i := by
    by_contra hne
    have hsame := (apply_changes h).keep (P := fun b => b.decision? i = m.decision? i)
      (fun hc hb => (hc.decision?_of_mover_ne hne).trans hb) rfl
    rw [hsame, hn] at hd
    cases hd
  have mine : ∀ {pre post : List Call} {x : Call}, (pre ++ x :: post)[pre.length]? = some x := by
    simp
  cases v with
  | step j =>
      obtain rfl : j = i := Option.some.inj hmover
      obtain ⟨a, t, ha, ht⟩ | ⟨d, r, ans', ha, -⟩ | ⟨c, hc, hother⟩ := step_cases h
      · obtain ⟨-, hcall⟩ := look_of_step ha ht h
        obtain ⟨notify, hw⟩ := Verdict.decision?_phase (decision?_of_getElem? hd hcall)
        exact ⟨a, t, ha, looksWith?_ticketOf? ht, hq.ends_of_look ha ht h hw⟩
      · rw [decision?, ha] at hn
        cases hn
      · have hdecided := decision?_of_getElem? hd hc
        cases c with
        | acquire a => exact absurd rfl (hother a)
        | release r | close c => cases hdecided
  | connected j ok =>
      obtain rfl : j = i := Option.some.inj hmover
      cases connected_change h with
      | @reopened _ pre post d r t hx =>
          obtain rfl : Answer.connection m.opened = ans :=
            Option.some.inj (decision?_of_getElem? hd mine)
          exact ⟨_, t, hx ▸ mine, rfl, .reopened rfl rfl, hq.left_of_reopened hx (.same hx rfl) rfl⟩
      | refused hx => cases decision?_of_getElem? hd mine
  | wake j =>
      obtain rfl : j = i := Option.some.inj hmover
      cases wake_change h with
      | woken hx | closerWoken hx => cases decision?_of_getElem? hd mine
  | _ => cases hmover

end Machine

/-! ## Calls without a deadline -/

/-- The call has timed out although it has no deadline. -/
def Call.timedOutUnbounded : Call → Bool
  | .acquire ⟨d, _, .notifying .timedOut⟩ => d.isNone
  | .acquire ⟨d, _, .returned .timedOut⟩ => d.isNone
  | _ => false

theorem Call.timedOutUnbounded_sleepBlind : Call.SleepBlind Call.timedOutUnbounded :=
  ⟨fun _ _ _ _ => rfl, rfl⟩

/-- Only calls with a deadline time out. -/
def Machine.Patient (m : Machine) : Prop := m.calls.countP Call.timedOutUnbounded = 0

theorem Machine.Patient.change (h : Change v m m') (hm : m.Patient) : m'.Patient := by
  have turned : ∀ {x y : Call}, m.Turned m' x y →
      y.timedOutUnbounded.toNat ≤ x.timedOutUnbounded.toNat → m'.Patient := by
    intro x y ht hy
    have hcount := ht.countP Call.timedOutUnbounded_sleepBlind
    unfold Patient at hm ⊢
    omega
  have begun : ∀ {y : Call}, m'.calls = m.calls ++ [y] → y.timedOutUnbounded = false →
      m'.Patient := by
    intro y hy hnone
    rw [Patient, Machine.countP_begun hy, hm, hnone, Bool.toNat_false]
  cases h with
  | acquireBegun timeout | closeBegun | releaseBegun faulty _ => exact begun rfl rfl
  | marked d | elapsed d => exact hm
  | arrived hx | refused hx | woken hx | reopened hx => exact turned (.same hx rfl) (Nat.zero_le _)
  | turnedAway hx _ => exact turned (.same hx rfl) (Nat.zero_le _)
  | slept hx _ _ _ => exact turned (.same hx rfl) (Nat.zero_le _)
  | @timedOut _ pre post d r t hx _ _ hd =>
      cases d with
      | none => cases hd
      | some d => exact turned (.same hx rfl) (Nat.zero_le _)
  | served hx _ _ _ _ | servedLast hx _ _ _ _ => exact turned (.same hx rfl) (Nat.zero_le _)
  | claimed hx _ _ _ _ _ => exact turned (.same hx rfl) (Nat.zero_le _)
  | takenBack hx | discarded hx | closerWoken hx | drainedOne hx | closeDone hx =>
      exact turned (.same hx rfl) (Nat.zero_le _)
  | closerSlept hx _ | drained hx _ => exact turned (.same hx rfl) (Nat.zero_le _)
  | rejoined hx | returnTold hx | shut hx => exact turned (.woken hx rfl) (Nat.zero_le _)
  | @answered _ pre post d r ans hx =>
      refine turned (.woken hx rfl) ?_
      cases ans with
      | _ => exact Nat.le_refl _

theorem Machine.Reachable.patient (hm : m.Reachable) : m.Patient :=
  hm.keep (P := Machine.Patient) (fun _ _ => rfl) fun hv ha => ha.change hv

/-- A call keeps the deadline that it began with. -/
theorem Change.deadline (h : Change v m m') {d : Option Time}
    (ha : ∃ a, m.calls[i]? = some (.acquire a) ∧ a.deadline = d) :
    ∃ a, m'.calls[i]? = some (.acquire a) ∧ a.deadline = d := by
  obtain ⟨a, ha, hd⟩ := ha
  obtain ⟨y, hy, rfl | rfl | hw⟩ := h.watches ha
  · exact ⟨a, hy, hd⟩
  · obtain ⟨d', r, p⟩ := a
    cases p with
    | _ => exact ⟨_, hy, hd⟩
  · obtain ⟨b, rfl, hb, -⟩ := hw a rfl
    exact ⟨b, hy, hb.trans hd⟩

/-- A call that begins without a deadline never times out. -/
theorem Machine.Reachable.never_timedOut {m₁ : Machine} {tr : List (Machine × Move)}
    (hm : m.Reachable) (hb : m.apply (.beginAcquire none) = some (m₁, ns)) (ht : Trace m₁ tr m') :
    (∃ a, m'.calls[m.calls.length]? = some (.acquire a)) ∧
      m'.decision? m.calls.length ≠ some .timedOut := by
  have hpatient := (ht.reachable (hm.move hb)).patient
  obtain rfl := eq_of_moved hb
  obtain ⟨⟨d, r, p⟩, ha, rfl⟩ := ht.keep
    (P := fun b => ∃ a, b.calls[m.calls.length]? = some (.acquire a) ∧ a.deadline = none)
    (fun hc hb => hc.deadline hb) ⟨_, List.getElem?_concat_length, rfl⟩
  refine ⟨⟨_, ha⟩, fun hd => ?_⟩
  have hfree := List.countP_eq_zero.mp hpatient _ (List.mem_of_getElem? ha)
  rw [decision?, ha] at hd
  cases p with
  | notifying ans | returned ans =>
      obtain rfl : ans = .timedOut := Option.some.inj hd
      exact hfree rfl
  | _ => cases hd

/-! ## Calls that return -/

theorem Machine.decision?_of_answer? (h : m.answer? i = some ans) : m.decision? i = some ans := by
  unfold answer? at h
  split at h
  · next a ha =>
      obtain ⟨d, r, p⟩ := a
      cases p with
      | returned b =>
          rw [decision?, ha]
          exact h
      | _ => cases h
  · cases h

theorem Machine.notifying_of_decision? (hd : m.decision? i = some ans) (hn : m.answer? i = none) :
    ∃ d r, m.calls[i]? = some (.acquire ⟨d, r, .notifying ans⟩) := by
  obtain ⟨c, hc, hdec⟩ := Option.bind_eq_some_iff.mp hd
  rcases c with ⟨d, r, p⟩ | r | c
  · cases p with
    | notifying b =>
        obtain rfl : b = ans := Option.some.inj hdec
        exact ⟨d, r, hc⟩
    | returned b =>
        rw [answer?, hc] at hn
        cases hn
    | _ => cases hdec
  · cases hdec
  · cases hdec

/-- A decided call returns with its answer, and leaves the queue as it is. -/
theorem Machine.waiters_of_answer? {b' : Answer} (h : m.apply v = some (m', ns))
    (hn : m.answer? i = none) (ha : m'.answer? i = some ans) (hd : m.decision? i = some b') :
    b' = ans ∧ m'.ledger.waiters = m.ledger.waiters := by
  have hb := decision?_of_apply h hd
  refine ⟨Option.some.inj (hb.symm.trans (decision?_of_answer? ha)), ?_⟩
  obtain ⟨d, r, hi⟩ := notifying_of_decision? hd hn
  refine waiters_of_apply h fun j a t hv hj ht => ?_
  by_cases hji : j = i
  · subst hji
    obtain rfl := Call.acquire.inj (Option.some.inj (hi.symm.trans hj))
    cases ht
  · have hmover : v.mover? ≠ some i := by
      rw [hv]
      exact fun heq => hji (Option.some.inj heq)
    have hsame := (apply_changes h).keep
      (P := fun b => b.calls[i]? = some (.acquire ⟨d, r, .notifying b'⟩))
      (fun hc hb => hc.getElem?_of_mover_ne hmover hb rfl) hi
    rw [answer?, hsame] at ha
    cases ha

/-- **The queue, and how acquire calls end.** In every reachable state the queue holds the tickets
of the calls that wait, each once. A call is decided by a move that takes what its answer needs, its
ticket leaves the queue for good, and the others stay in their order; it then returns with this
answer and changes the queue no more. An attempt to connect that fails decides nothing, no call with
a deadline sleeps past it, and no call without one times out. -/
theorem Machine.Reachable.acquire_outcomes (hm : m.Reachable) :
    (m.ledger.waiters.Nodup ∧
      m.ledger.waiters.Perm ((m.calls.filter Call.waits).flatMap Call.tickets) ∧
      m.ledger.waiters.length + m.calls.countP Call.claims = m.calls.countP Call.inProgress) ∧
    (∀ v m' ns i ans, m.apply v = some (m', ns) → m.decision? i = none →
      m'.decision? i = some ans → ∃ a t, m.calls[i]? = some (.acquire a) ∧
        m.ticketOf? a = some t ∧ m.Ends m' i a t v ans ∧
        m'.ledger.waiters = m.ledger.waiters.filter (· != t) ∧
        ∀ tr m'', Trace m' tr m'' → t ∉ m''.ledger.waiters) ∧
    (∀ v m' ns i ans, m.apply v = some (m', ns) → m.answer? i = none → m'.answer? i = some ans →
      m'.decision? i = some ans ∧
        ∀ ans', m.decision? i = some ans' → ans' = ans ∧ m'.ledger.waiters = m.ledger.waiters) ∧
    (∀ i m' ns, m.apply (.connected i false) = some (m', ns) → m'.decision? i = none) ∧
    (∀ d r t w, .acquire ⟨some d, r, .asleep t w⟩ ∈ m.calls → ∃ u, w = some u ∧ u ≤ d) ∧
    ∀ m₁ ns tr m', m.apply (.beginAcquire none) = some (m₁, ns) → Trace m₁ tr m' →
      (∃ a, m'.calls[m.calls.length]? = some (.acquire a)) ∧
        m'.decision? m.calls.length ≠ some .timedOut := by
  have hq := hm.queued
  refine ⟨⟨hq.waiters_nodup, hq.waiters_perm, hq.waiters_length⟩, ?_, ?_, ?_, ?_, ?_⟩
  · intro v m' ns i ans h hn hd
    obtain ⟨a, t, ha, ht, hends, hw, hgone⟩ := hq.ends_of_apply h hn hd
    refine ⟨a, t, ha, ht, hends, hw, fun tr m'' htr => ?_⟩
    have hgone'' : m''.Gone t := htr.keep (P := fun b => b.Gone t) (fun hc hb => hb.change hc) hgone
    exact hgone''.not_mem (htr.reachable (hm.move h)).queued
  · intro v m' ns i ans h hn ha
    exact ⟨decision?_of_answer? ha, fun ans' hd => waiters_of_answer? h hn ha hd⟩
  · intro i m' ns h
    cases connected_change h with
    | refused hx => simp [decision?, Call.decision?]
  · refine hm.keep (P := Machine.Timed) (fun {capacity n} hn hc d r t w hw => ?_)
      fun hc hb => hb.change hc
    cases hw
  · intro m₁ ns tr m' hb htr
    exact hm.never_timedOut hb htr

/-- A pool of two slots, one of which could not be opened. The connection is out, one call is
opening another for the vacant slot, and the deadline of a third has come. -/
def Machine.overdue : Machine where
  capacity := 2
  ledger := ⟨[], 2, 0, false, [2], 3⟩
  calls := [.acquire ⟨none, none, .returned (.connection 0)⟩,
    .acquire ⟨none, none, .connecting 1⟩, .acquire ⟨some 40, none, .awake 2⟩]
  held := [⟨0, false⟩]
  clock := 40
  opened := 1
  attempts := 3
  destroyed := []

theorem Machine.overdue_reachable : overdue.Reachable := by
  have start : (Machine.initial 2 1).Reachable := .start (by decide) (by decide)
  have moves : (Machine.initial 2 1).follow [.beginAcquire none, .step 0, .step 0,
      .beginAcquire none, .step 1, .beginAcquire (some 40), .step 2, .advance 40, .wake 2] =
      some overdue := by decide
  exact start.follow moves

theorem acquire_outcomes_overdue :
    Machine.overdue.Reachable ∧ 1 + 1 = Machine.overdue.calls.countP Call.inProgress ∧
      ∃ m' a t, Machine.overdue.apply (.step 2) = some (m', []) ∧
        Machine.overdue.Ends m' 2 a t (.step 2) .timedOut ∧ m'.ledger.waiters = [] := by
  have h := Machine.overdue_reachable
  obtain ⟨⟨-, -, hcount⟩, hends, -⟩ := h.acquire_outcomes
  obtain ⟨a, t, -, ht, he, hw, -⟩ := hends (.step 2) _ [] 2 .timedOut rfl rfl rfl
  exact ⟨h, hcount, _, a, t, rfl, he, rfl⟩

end PooledStore.Pool
