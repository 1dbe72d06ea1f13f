import PooledStore.Proofs.Pool.Stranded

/-!
# No missed wake-up

One way of waking serves the waiters in the queue and the closers: all sleepers are woken, and each
looks again. A sleeper that has something to do is therefore never alone with it: either it sleeps
for a reason that still holds, or somebody is about to wake all sleepers (`Machine.Attentive`). A
vacant slot is the exception, and is not spoken of here.
-/

set_option autoImplicit false

namespace PooledStore.Pool

variable {m m' : Machine} {v : Move}

/-- The call is asleep, in the queue or as a closer. -/
def Call.sleeps : Call → Bool
  | .acquire ⟨_, _, .asleep _ _⟩ => true
  | .close .asleep => true
  | _ => false

/-- No waiter sleeps in a closed pool. While nobody is about to wake the sleepers, the front of the
queue sleeps only if no connection is idle, and a closer only if connections are in use. -/
structure Machine.Attentive (m : Machine) : Prop where
  front : m.Quiet → ∀ d r t w, .acquire ⟨d, r, .asleep t w⟩ ∈ m.calls →
    m.ledger.waiters.head? = some t → m.ledger.idle = []
  closed : m.ledger.closed = true → ∀ d r t w, .acquire ⟨d, r, .asleep t w⟩ ∉ m.calls
  closer : m.Quiet → .close .asleep ∈ m.calls → 0 < m.ledger.inUse

theorem Call.sleeps_roused (c : Call) : c.roused.sleeps = false := by
  obtain h | ⟨d, r, t, w, rfl, h⟩ | ⟨rfl, h⟩ := c.roused_cases
  · rw [h]
    rcases c with ⟨d, r, p⟩ | r | c
    · cases p with
      | asleep t w => cases h
      | _ => rfl
    · rfl
    · cases c with
      | asleep => cases h
      | _ => rfl
  · rw [h]; rfl
  · rw [h]; rfl

namespace Machine.Attentive

variable {pre post : List Call} {x y : Call}

theorem initial {capacity n : Nat} : (Machine.initial capacity n).Attentive :=
  ⟨fun _ _ _ _ _ => nofun, fun _ _ _ _ _ => nofun, fun _ => nofun⟩

/-- Where nobody sleeps, nobody sleeps without a reason. -/
theorem of_nobody (h : ∀ c ∈ m.calls, c.sleeps = false) : m.Attentive :=
  ⟨fun _ _ _ _ _ hc => absurd (h _ hc) nofun, fun _ _ _ _ _ hc => absurd (h _ hc) nofun,
    fun _ hc => absurd (h _ hc) nofun⟩

theorem of_woken (hy : m.calls = pre.map Call.roused ++ y :: post.map Call.roused)
    (hs : y.sleeps = false) : m.Attentive := by
  refine of_nobody fun c hc => ?_
  rw [hy, List.mem_append, List.mem_cons, List.mem_map, List.mem_map] at hc
  obtain ⟨b, -, rfl⟩ | rfl | ⟨b, -, rfl⟩ := hc
  · exact b.sleeps_roused
  · exact hs
  · exact b.sleeps_roused

/-- For those who sleep already things are as they were, and whoever falls asleep has a reason. -/
theorem of_moved (hm : m.Attentive) (hx : m.calls = pre ++ x :: post)
    (hy : m'.calls = pre ++ y :: post) (hn : x.notifies = false)
    (hc : m'.ledger.closed = m.ledger.closed)
    (hf : ∀ t ∈ m.calls.flatMap Call.tickets, m'.ledger.waiters.head? = some t →
      m.ledger.waiters.head? = some t)
    (hi : m.ledger.idle = [] → m'.ledger.idle = [])
    (hu : 0 < m.ledger.inUse → 0 < m'.ledger.inUse)
    (hwaiter : ∀ d r t w, y = .acquire ⟨d, r, .asleep t w⟩ → m'.ledger.closed = false ∧
      (m'.ledger.waiters.head? = some t → m'.ledger.idle = []))
    (hcloser : y = .close .asleep → 0 < m'.ledger.inUse) : m'.Attentive := by
  have old : ∀ {c : Call}, c ∈ m'.calls → c = y ∨ c ∈ m.calls := by
    intro c hmem
    rw [hy, List.mem_append, List.mem_cons] at hmem
    rw [hx, List.mem_append, List.mem_cons]
    tauto
  refine ⟨fun hq d r t w hmem hfront => ?_, fun hclosed d r t w hmem => ?_, fun hq hmem => ?_⟩
  · obtain hyt | hmem := old hmem
    · exact (hwaiter d r t w hyt.symm).2 hfront
    · have ht : t ∈ m.calls.flatMap Call.tickets :=
        List.mem_flatMap.mpr ⟨_, hmem, List.mem_singleton_self t⟩
      exact hi (hm.front (Machine.Quiet.before hx hy hn hq) d r t w hmem (hf t ht hfront))
  · obtain hyt | hmem := old hmem
    · rw [(hwaiter d r t w hyt.symm).1] at hclosed
      cases hclosed
    · exact hm.closed (hc ▸ hclosed) d r t w hmem
  · obtain hyt | hmem := old hmem
    · exact hcloser hyt.symm
    · exact hu (hm.closer (Machine.Quiet.before hx hy hn hq) hmem)

/-- A call begins awake. -/
theorem of_begun (hm : m.Attentive) (hy : m'.calls = m.calls ++ [y]) (hs : y.sleeps = false)
    (hl : m'.ledger = m.ledger) : m'.Attentive := by
  have old : ∀ {c : Call}, c ∈ m'.calls → c.sleeps = true → c ∈ m.calls := by
    intro c hmem hsl
    rw [hy, List.mem_append, List.mem_singleton] at hmem
    obtain hmem | rfl := hmem
    · exact hmem
    · rw [hs] at hsl
      cases hsl
  have quiet : m'.Quiet → m.Quiet := fun hq c hc => hq c (hy ▸ List.mem_append_left _ hc)
  refine ⟨fun hq d r t w hmem => ?_, fun hc d r t w hmem => ?_, fun hq hmem => ?_⟩
  · rw [hl]
    exact hm.front (quiet hq) d r t w (old hmem rfl)
  · exact hm.closed (hl ▸ hc) d r t w (old hmem rfl)
  · rw [hl]
    exact hm.closer (quiet hq) (old hmem rfl)

/-- Somebody is about to wake all sleepers. -/
theorem of_notifies (hm : m.Attentive) (hx : m.calls = pre ++ x :: post)
    (hy : m'.calls = pre ++ y :: post) (hn : y.notifies = true) (hs : y.sleeps = false)
    (hc : m'.ledger.closed = m.ledger.closed) : m'.Attentive := by
  have loud : ¬ m'.Quiet := fun hq => by
    have hquiet := hq y (by rw [hy]; exact List.mem_append_right _ List.mem_cons_self)
    rw [hn] at hquiet
    cases hquiet
  refine ⟨fun hq => absurd hq loud, fun hclosed d r t w hmem => ?_, fun hq => absurd hq loud⟩
  rw [hy, List.mem_append, List.mem_cons] at hmem
  refine hm.closed (hc ▸ hclosed) d r t w ?_
  rw [hx, List.mem_append, List.mem_cons]
  obtain hmem | rfl | hmem := hmem
  · exact Or.inl hmem
  · cases hs
  · exact Or.inr (Or.inr hmem)

theorem change (h : Change v m m') (hn : m.Numbered) (hm : m.Attentive) : m'.Attentive := by
  -- One call moves on, without falling asleep and without a notification.
  have quiet : ∀ {pre post : List Call} {x y : Call}, m.calls = pre ++ x :: post →
      m'.calls = pre ++ y :: post → x.notifies = false → y.sleeps = false →
      m'.ledger = m.ledger → m'.Attentive := by
    intro pre post x y hx hy hnx hs hl
    refine hm.of_moved hx hy hnx (by rw [hl]) (fun _ _ hf => hl ▸ hf) (fun hi => hl ▸ hi)
      (fun hu => hl ▸ hu) ?_ ?_
    · rintro d r t w rfl
      cases hs
    · rintro rfl
      cases hs
  have opened : ∀ {P : Prop}, m.ledger.closed = false → m.ledger.closed = true → P :=
    fun ho hc => absurd (ho.symm.trans hc) Bool.false_ne_true
  cases h with
  | acquireBegun timeout | closeBegun | releaseBegun faulty _ => exact hm.of_begun rfl rfl rfl
  | marked d | elapsed d => exact ⟨hm.front, hm.closed, hm.closer⟩
  | @arrived _ pre post d r hx =>
      refine hm.of_moved hx rfl rfl rfl (fun t ht hf => ?_) id id (fun _ _ _ _ hy => by cases hy)
        fun hy => by cases hy
      -- Those who sleep have other tickets than the new one, so the front is the same.
      cases hw : m.ledger.waiters with
      | nil =>
          have hnew : m.ledger.nextTicket = t := by simpa [Ledger.enqueue, hw] using hf
          exact absurd (hn.2 t ht) (hnew ▸ Nat.lt_irrefl _)
      | cons u rest => simpa [Ledger.enqueue, hw] using hf
  | turnedAway hx _ => exact hm.of_notifies hx rfl rfl rfl rfl
  | timedOut hx _ _ _ => exact hm.of_notifies hx rfl rfl rfl rfl
  | served hx _ _ _ _ => exact hm.of_notifies hx rfl rfl rfl rfl
  | @takenBack _ pre post c b hx => exact hm.of_notifies hx rfl rfl rfl (by cases b <;> rfl)
  | servedLast _ ho _ _ _ =>
      exact ⟨fun _ _ _ _ _ _ _ => rfl, fun hc => opened ho hc, fun _ _ => Nat.succ_pos _⟩
  | claimed _ ho _ hi _ _ =>
      exact ⟨fun _ _ _ _ _ _ _ => hi, fun hc => opened ho hc, fun _ _ => Nat.succ_pos _⟩
  | @slept _ pre post d r t hx ho hu hd =>
      refine hm.of_moved hx rfl rfl rfl (fun _ _ hf => hf) id id ?_ fun hy => by cases hy
      -- At the front next to an idle connection it would have been served.
      rintro d' r' u w heq
      obtain ⟨-, -, hp⟩ := Acquire.mk.inj (Call.acquire.inj heq)
      obtain ⟨rfl, -⟩ := Acquire.Phase.asleep.inj hp
      exact ⟨ho, fun hf => (hu hf).1⟩
  | reopened hx | refused hx | woken hx | discarded hx | closerWoken hx | drainedOne hx
  | closeDone hx => exact quiet hx rfl rfl rfl rfl
  | closerSlept hx hu =>
      exact hm.of_moved hx rfl rfl rfl (fun _ _ hf => hf) id id (fun _ _ _ _ hy => by cases hy)
        fun _ => hu
  | drained hx _ =>
      exact hm.of_moved hx rfl rfl rfl (fun _ _ hf => hf) (fun _ => rfl) id
        (fun _ _ _ _ hy => by cases hy) fun hy => by cases hy
  | rejoined hx | answered hx | shut hx => exact of_woken rfl rfl
  | @returnTold _ pre post c b hx => exact of_woken rfl rfl

end Machine.Attentive

theorem Machine.Reachable.attentive (h : m.Reachable) : m.Attentive := by
  have key : m.Numbered ∧ m.Attentive :=
    h.keep (P := fun m => m.Numbered ∧ m.Attentive) (fun _ _ => ⟨.initial, .initial⟩)
      fun hv hm => ⟨hm.1.change hv, hm.2.change hv hm.1⟩
  exact key.2

/-- **No wake-up is missed.** In every reachable state in which nobody is about to wake the
sleepers, the front of the queue sleeps only if no connection is idle, nobody sleeps in the queue
of a closed pool, and a closer sleeps only while connections are in use. -/
theorem Machine.Reachable.no_missed_wakeup (h : m.Reachable) (hq : m.Quiet) :
    (∀ d r t w, .acquire ⟨d, r, .asleep t w⟩ ∈ m.calls → m.ledger.waiters.head? = some t →
      m.ledger.idle = []) ∧
    (m.ledger.closed = true → ∀ d r t w, .acquire ⟨d, r, .asleep t w⟩ ∉ m.calls) ∧
    (.close .asleep ∈ m.calls → 0 < m.ledger.inUse) :=
  ⟨h.attentive.front hq, h.attentive.closed, h.attentive.closer hq⟩

/-- A pool of one slot whose connection is out, with a caller asleep in the queue. -/
def Machine.waiting : Machine where
  capacity := 1
  ledger := ⟨[], 1, 0, false, [1], 2⟩
  calls := [.acquire ⟨none, none, .returned (.connection 0)⟩, .acquire ⟨none, none, .asleep 1 none⟩]
  held := [⟨0, false⟩]
  clock := 0
  opened := 1
  attempts := 1
  destroyed := []

/-- The same pool, closed: the caller was turned away, and the closer waits for the connection. -/
def Machine.closing : Machine where
  capacity := 1
  ledger := ⟨[], 1, 0, true, [], 2⟩
  calls := [.acquire ⟨none, none, .returned (.connection 0)⟩,
    .acquire ⟨none, none, .returned .closed⟩, .close .asleep]
  held := [⟨0, false⟩]
  clock := 0
  opened := 1
  attempts := 1
  destroyed := []

theorem Machine.waiting_reachable : waiting.Reachable := by
  have start : (Machine.initial 1 1).Reachable := .start (by decide) (by decide)
  have moves : (Machine.initial 1 1).follow
      [.beginAcquire none, .step 0, .beginAcquire none, .step 1] = some waiting := by decide
  exact start.follow moves

theorem Machine.closing_reachable : closing.Reachable := by
  have moves : waiting.follow [.beginClose, .step 2, .step 1, .step 1, .step 2] = some closing := by
    decide
  exact waiting_reachable.follow moves

theorem no_missed_wakeup_closing :
    Machine.waiting.Reachable ∧ Machine.waiting.Quiet ∧ Machine.waiting.ledger.idle = [] ∧
      Machine.closing.Reachable ∧ Machine.closing.Quiet ∧ Machine.closing.ledger.closed = true ∧
      (∀ d r t w, .acquire ⟨d, r, .asleep t w⟩ ∉ Machine.closing.calls) ∧
      0 < Machine.closing.ledger.inUse := by
  have hw : Machine.waiting.Quiet := by decide
  have hc : Machine.closing.Quiet := by decide
  obtain ⟨hfront, -, -⟩ := Machine.waiting_reachable.no_missed_wakeup hw
  obtain ⟨-, hclosed, hcloser⟩ := Machine.closing_reachable.no_missed_wakeup hc
  have front : Machine.waiting.ledger.idle = [] := hfront none none 1 none (by decide) rfl
  exact ⟨Machine.waiting_reachable, hw, front, Machine.closing_reachable, hc, rfl, hclosed rfl,
    hcloser (by decide)⟩

end PooledStore.Pool
