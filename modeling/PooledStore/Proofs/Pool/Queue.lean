import PooledStore.Proofs.Pool.Stranded

/-!
# The queue

In every reachable state the queue holds the tickets of the acquire calls that wait without a
claim, and no ticket belongs to two calls (`Machine.Queued`). So a call that comes back from a
failed reopen is not in the queue, and one that leaves the queue leaves it altogether.
-/

set_option autoImplicit false

namespace PooledStore.Pool

variable {m m' : Machine} {v : Move} {t : Ticket}

/-! ## Tickets in the queue -/

/-- The ticket of a call that is in the queue. -/
def Call.queued : Call → List Ticket
  | .acquire ⟨_, _, .awake t⟩ => [t]
  | .acquire ⟨_, _, .asleep t _⟩ => [t]
  | _ => []

theorem Call.queued_sleepBlind : Call.SleepBlind Call.queued := ⟨fun _ _ _ _ => rfl, rfl⟩

theorem Call.count_queued_le (c : Call) (t : Ticket) : c.queued.count t ≤ c.tickets.count t := by
  unfold queued
  split
  · exact Nat.le_refl _
  · exact Nat.le_refl _
  · exact Nat.zero_le _

theorem count_queued_le (l : List Call) (t : Ticket) :
    (l.flatMap Call.queued).count t ≤ (l.flatMap Call.tickets).count t := by
  induction l with
  | nil => exact Nat.le_refl _
  | cons c l ih =>
      have hc := c.count_queued_le t
      simp only [List.flatMap_cons, List.count_append]
      omega

/-- Taking a ticket out of a queue takes out all of it, and nothing else. -/
theorem Ledger.count_leave (l : Ledger) (t u : Ticket) :
    (l.leave t).waiters.count u = if u = t then 0 else l.waiters.count u := by
  unfold leave
  split
  · rename_i h
    subst h
    refine List.count_eq_zero.mpr fun hu => ?_
    simpa using (List.mem_filter.mp hu).2
  · rename_i h
    exact List.count_filter (by simpa using h)

theorem count_of_head? {l : List Ticket} (h : l.head? = some t) (u : Ticket) :
    l.count u = l.tail.count u + [t].count u := by
  obtain ⟨rest, rfl⟩ := List.head?_eq_some_iff.mp h
  rw [List.tail_cons, ← List.singleton_append, List.count_append]
  omega

/-! ## The invariant -/

/-- The queue holds the tickets of those who wait in it, and no ticket belongs to two calls. -/
structure Machine.Queued (m : Machine) : Prop where
  count : ∀ t, m.ledger.waiters.count t = (m.calls.flatMap Call.queued).count t
  once : ∀ t, (m.calls.flatMap Call.tickets).count t ≤ 1
  numbered : m.Numbered

namespace Machine.Queued

variable {pre post : List Call} {x y : Call}

theorem initial {capacity n : Nat} : (Machine.initial capacity n).Queued :=
  ⟨fun _ => rfl, fun _ => Nat.zero_le _, .initial⟩

theorem count_tickets (hx : m.calls = pre ++ x :: post) (hm : m.Queued) (t : Ticket) :
    x.tickets.count t + (pre.flatMap Call.tickets).count t +
      (post.flatMap Call.tickets).count t ≤ 1 := by
  have h := hm.once t
  rw [hx] at h
  simp only [List.flatMap_append, List.flatMap_cons, List.count_append] at h
  omega

theorem count_waiters (hx : m.calls = pre ++ x :: post) (hm : m.Queued) (t : Ticket) :
    m.ledger.waiters.count t = x.queued.count t + (pre.flatMap Call.queued).count t +
      (post.flatMap Call.queued).count t := by
  rw [hm.count t, hx]
  simp only [List.flatMap_append, List.flatMap_cons, List.count_append]
  omega

/-- A waiting call is in the queue once. -/
theorem count_of_queued (hm : m.Queued) (hx : m.calls = pre ++ x :: post) (hq : x.queued = [t]) :
    m.ledger.waiters.count t = 1 := by
  have hle := count_queued_le m.calls t
  have hone := hm.once t
  have hw := hm.count_waiters hx t
  rw [hq, List.count_singleton_self] at hw
  have hc := hm.count t
  omega

/-- A call that is not in the queue has no ticket there. -/
theorem not_mem_of_away (hm : m.Queued) (hx : m.calls = pre ++ x :: post) (ht : t ∈ x.tickets)
    (hq : x.queued = []) : t ∉ m.ledger.waiters := by
  have hpos := List.count_pos_iff.mpr ht
  have hone := hm.count_tickets hx t
  have hpre := count_queued_le pre t
  have hpost := count_queued_le post t
  have hw := hm.count_waiters hx t
  rw [hq, List.count_nil] at hw
  rw [← List.count_eq_zero]
  omega

/-- A change of one call keeps the invariant if the queue changes with it, and no ticket is new. -/
theorem of_turned (hm : m.Queued) (hn : m'.Numbered) (ht : m.Turned m' x y)
    (hw : ∀ u, m'.ledger.waiters.count u + x.queued.count u =
      m.ledger.waiters.count u + y.queued.count u)
    (htk : ∀ u, y.tickets.count u ≤ x.tickets.count u) : m'.Queued := by
  refine ⟨fun u => ?_, fun u => ?_, hn⟩
  · have hc := ht.count_flatMap Call.queued_sleepBlind u
    have hq := hm.count u
    have hu := hw u
    omega
  · have hc := ht.count_flatMap Call.tickets_sleepBlind u
    have hq := hm.once u
    have hu := htk u
    omega

theorem of_begun (hm : m.Queued) (hn : m'.Numbered) (hy : m'.calls = m.calls ++ [y])
    (hw : m'.ledger.waiters = m.ledger.waiters) (hq : y.queued = []) (ht : y.tickets = []) :
    m'.Queued := by
  refine ⟨fun u => ?_, fun u => ?_, hn⟩
  · rw [count_flatMap_begun hy, hw, hq, List.count_nil, Nat.add_zero]
    exact hm.count u
  · rw [count_flatMap_begun hy, ht, List.count_nil, Nat.add_zero]
    exact hm.once u

/-- A new ticket is larger than all others, so it is nobody else's. -/
theorem of_arrived (hm : m.Queued) (hn : m'.Numbered) (ht : m.Turned m' x y)
    (hw : m'.ledger.waiters = m.ledger.waiters ++ [m.ledger.nextTicket]) (hqx : x.queued = [])
    (htx : x.tickets = []) (hqy : y.queued = [m.ledger.nextTicket])
    (hty : y.tickets = [m.ledger.nextTicket]) : m'.Queued := by
  refine ⟨fun u => ?_, fun u => ?_, hn⟩
  · have hc := ht.count_flatMap Call.queued_sleepBlind u
    have hq := hm.count u
    rw [hqx, hqy, List.count_nil] at hc
    rw [hw, List.count_append]
    omega
  · have hc := ht.count_flatMap Call.tickets_sleepBlind u
    rw [htx, hty, List.count_nil] at hc
    by_cases hu : u = m.ledger.nextTicket
    · have hfresh : u ∉ m.calls.flatMap Call.tickets := fun h =>
        absurd (hm.numbered.2 u h) (hu ▸ Nat.lt_irrefl _)
      rw [List.count_eq_zero.mpr hfresh, hu, List.count_singleton_self] at hc
      rw [hu]
      omega
    · have hnone : u ∉ [m.ledger.nextTicket] := by simpa using hu
      rw [List.count_eq_zero.mpr hnone] at hc
      have hone := hm.once u
      omega

/-- The queue and the tickets are as they were. -/
theorem of_same (hm : m.Queued) (hn : m'.Numbered) (ht : m.Turned m' x y)
    (hw : m'.ledger.waiters = m.ledger.waiters) (hq : x.queued = y.queued)
    (hsub : y.tickets ⊆ x.tickets) (hlen : y.tickets.length ≤ 1) : m'.Queued := by
  refine hm.of_turned hn ht (fun u => by rw [hw, hq]) fun u => ?_
  by_cases hu : u ∈ y.tickets
  · have hpos := List.count_pos_iff.mpr (hsub hu)
    have hle := List.count_le_length (a := u) (l := y.tickets)
    omega
  · rw [List.count_eq_zero.mpr hu]
    exact Nat.zero_le _

/-- The call has left the queue, where its ticket was once. -/
theorem of_left (hm : m.Queued) (hn : m'.Numbered) (hx : m.calls = pre ++ x :: post)
    (hy : m'.calls = pre ++ y :: post) (hqx : x.queued = [t]) (hqy : y.queued = [])
    (hty : y.tickets = []) (hw : m'.ledger.waiters = (m.ledger.leave t).waiters) : m'.Queued := by
  refine hm.of_turned hn (.same hx hy) (fun u => ?_) fun u => by rw [hty]; exact Nat.zero_le _
  rw [hw, m.ledger.count_leave, hqx, hqy, List.count_nil]
  split
  · rename_i hu
    subst hu
    rw [List.count_singleton_self, hm.count_of_queued hx hqx]
  · rename_i hu
    have hnone : u ∉ [t] := by simpa using hu
    rw [List.count_eq_zero.mpr hnone]

/-- The call was at the front and has been taken off it. -/
theorem of_taken (hm : m.Queued) (hn : m'.Numbered) (ht : m.Turned m' x y)
    (hf : m.ledger.waiters.head? = some t) (hw : m'.ledger.waiters = m.ledger.waiters.tail)
    (hqx : x.queued = [t]) (hqy : y.queued = [])
    (htk : ∀ u, y.tickets.count u ≤ x.tickets.count u) : m'.Queued := by
  refine hm.of_turned hn ht (fun u => ?_) htk
  rw [hw, hqx, hqy, List.count_nil, count_of_head? hf u]
  omega

theorem change (h : Change v m m') (hm : m.Queued) : m'.Queued := by
  have hn : m'.Numbered := hm.numbered.change h
  cases h with
  | acquireBegun timeout | closeBegun | releaseBegun faulty _ =>
      exact hm.of_begun hn rfl rfl rfl rfl
  | marked d | elapsed d => exact ⟨hm.count, hm.once, hn⟩
  | arrived hx => exact hm.of_arrived hn (.same hx rfl) rfl rfl rfl rfl rfl
  | turnedAway hx _ => exact hm.of_left hn hx rfl rfl rfl rfl rfl
  | timedOut hx _ _ _ => exact hm.of_left hn hx rfl rfl rfl rfl rfl
  | served hx _ hf _ _ => exact hm.of_taken hn (.same hx rfl) hf rfl rfl rfl fun _ => Nat.zero_le _
  | servedLast hx _ hf _ _ =>
      exact hm.of_taken hn (.same hx rfl) hf rfl rfl rfl fun _ => Nat.zero_le _
  | claimed hx _ hf _ _ _ =>
      exact hm.of_taken hn (.same hx rfl) hf rfl rfl rfl fun _ => Nat.le_refl _
  | slept hx _ _ _ =>
      exact hm.of_same hn (.same hx rfl) rfl rfl (List.Subset.refl _) (Nat.le_refl _)
  | refused hx | woken hx =>
      exact hm.of_same hn (.same hx rfl) rfl rfl (List.Subset.refl _) (Nat.le_refl _)
  | reopened hx | discarded hx | closerWoken hx | drainedOne hx | closeDone hx =>
      exact hm.of_same hn (.same hx rfl) rfl rfl nofun (Nat.zero_le _)
  | closerSlept hx _ | drained hx _ =>
      exact hm.of_same hn (.same hx rfl) rfl rfl nofun (Nat.zero_le _)
  | answered hx | returnTold hx | shut hx =>
      exact hm.of_same hn (.woken hx rfl) rfl rfl nofun (Nat.zero_le _)
  | @takenBack _ pre post c b hx =>
      exact hm.of_same hn (.same hx rfl) (by cases b <;> rfl) rfl nofun (Nat.zero_le _)
  | @rejoined _ pre post d r t hx =>
      refine hm.of_turned hn (.woken hx rfl) (fun u => ?_) fun _ => Nat.le_refl _
      simp only [Ledger.rejoin, Call.queued, List.count_nil]
      rw [← List.singleton_append, List.count_append]
      omega

end Machine.Queued

theorem Machine.Reachable.queued (h : m.Reachable) : m.Queued :=
  h.keep (P := Machine.Queued) (fun _ _ => .initial) fun hv hm => hm.change hv

end PooledStore.Pool
