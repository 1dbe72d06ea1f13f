import PooledStore.Proofs.Pool.Closing

/-!
# Deadlines

An acquire call with a deadline is not to be blocked once the deadline has been reached. Two things
block a call: its sleep in the queue, and its attempt to connect. The sleep ends at the deadline
(`Machine.Timed`), and a call whose deadline has been reached does not fall asleep any more
(`Trace.stays_awake`). An attempt to connect takes as long as it takes, and a call looks for a
vacant slot before it looks at its deadline. `Trace.punctual_iff` says in which runs no call is
blocked past its deadline.
-/

set_option autoImplicit false

namespace PooledStore.Pool

variable {m m' : Machine} {v : Move} {ns : List Notice} {i : Nat} {a : Acquire}

/-- The deadline of the call has been reached. -/
def Acquire.overdue (a : Acquire) (now : Time) : Bool := Ledger.reached now a.deadline

/-- The call is blocked: it sleeps and the end of its sleep is still to come, or it is opening a
connection. -/
def Acquire.blocked (a : Acquire) (now : Time) : Bool :=
  match a.phase with
  | .asleep _ wakeAt => !Ledger.reached now wakeAt
  | .connecting _ => true
  | _ => false

/-- The call is asleep in the queue, however long. -/
def Acquire.isAsleep (a : Acquire) : Bool :=
  match a.phase with
  | .asleep .. => true
  | _ => false

/-- The call is opening a connection. -/
def Acquire.isConnecting (a : Acquire) : Bool :=
  match a.phase with
  | .connecting _ => true
  | _ => false

/-- No call is blocked past its deadline. -/
def Machine.Punctual (m : Machine) : Prop :=
  ∀ a, .acquire a ∈ m.calls → a.overdue m.clock = true → a.blocked m.clock = false

/-! ## How a call comes to be blocked -/

/-- The caller with ticket `t` finds a vacant slot that it may reopen, and nothing else. -/
structure Ledger.Claimable (l : Ledger) (now : Time) (t : Ticket) (retryAt : Option Time) :
    Prop where
  isOpen : l.closed = false
  front : l.waiters.head? = some t
  idle : l.idle = []
  vacant : 0 < l.vacant
  retry : retryAt = none ∨ reached now retryAt = true

/-- The move leaves the call that makes it asleep or connecting. -/
inductive Machine.Halts (m : Machine) : Move → Acquire → Prop where
  | claims {i : Nat} {d r : Option Time} {t : Ticket} :
      m.calls[i]? = some (.acquire ⟨d, r, .awake t⟩) → m.ledger.Claimable m.clock t r →
      Halts m (.step i) ⟨d, r, .connecting t⟩
  | sleeps {i : Nat} {d r : Option Time} {t : Ticket} :
      m.calls[i]? = some (.acquire ⟨d, r, .awake t⟩) → Ledger.reached m.clock d = false →
      Halts m (.step i)
        ⟨d, r, .asleep t (if m.ledger.vacant > 0 then Ledger.earlier d r else d)⟩

/-- Waking the sleepers leaves those that connect as they are, and nobody asleep. -/
theorem Call.eq_of_roused {c : Call} (h : c.roused = .acquire a)
    (ha : a.isAsleep = true ∨ a.isConnecting = true) : c = .acquire a := by
  obtain hc | ⟨d, r, t, w, rfl, hc⟩ | ⟨rfl, hc⟩ := c.roused_cases
  · exact hc.symm.trans h
  · obtain rfl := Call.acquire.inj (hc.symm.trans h)
    obtain ha | ha := ha
    · cases ha
    · cases ha
  · cases hc.symm.trans h

/-- A call that is asleep or connecting was so before, unless it is the one that has moved. -/
theorem Machine.Turned.mem_of_halted {x y : Call} (h : m.Turned m' x y)
    (hmem : .acquire a ∈ m'.calls) (ha : a.isAsleep = true ∨ a.isConnecting = true)
    (hne : y ≠ .acquire a) : .acquire a ∈ m.calls := by
  obtain ⟨pre, post, hx, hy | hy⟩ := h
  · rw [hy, List.mem_append, List.mem_cons] at hmem
    rw [hx, List.mem_append, List.mem_cons]
    obtain hpre | hnew | hpost := hmem
    · exact Or.inl hpre
    · exact absurd hnew.symm hne
    · exact Or.inr (Or.inr hpost)
  · rw [hy, List.mem_append, List.mem_cons, List.mem_map, List.mem_map] at hmem
    rw [hx, List.mem_append, List.mem_cons]
    obtain ⟨c, hc, hca⟩ | hnew | ⟨c, hc, hca⟩ := hmem
    · exact Or.inl (Call.eq_of_roused hca ha ▸ hc)
    · exact absurd hnew.symm hne
    · exact Or.inr (Or.inr (Call.eq_of_roused hca ha ▸ hc))

/-- A call that is asleep or connecting after a change was so before, or the change has made it
so. -/
theorem Change.halted_cases (h : Change v m m') (hmem : .acquire a ∈ m'.calls)
    (ha : a.isAsleep = true ∨ a.isConnecting = true) : .acquire a ∈ m.calls ∨ m.Halts v a := by
  have moved : ∀ {x y : Call}, m.Turned m' x y → y ≠ .acquire a → .acquire a ∈ m.calls :=
    fun ht hne => ht.mem_of_halted hmem ha hne
  have begun : ∀ {y : Call}, m'.calls = m.calls ++ [y] → y ≠ .acquire a →
      .acquire a ∈ m.calls := by
    intro y hy hne
    rw [hy, List.mem_append, List.mem_singleton] at hmem
    obtain hold | hnew := hmem
    · exact hold
    · exact absurd hnew.symm hne
  -- The call that has moved is another one, since it neither sleeps nor connects.
  have other : ∀ {b : Acquire}, b.isAsleep = false → b.isConnecting = false →
      Call.acquire b ≠ .acquire a := by
    rintro b hs hc heq
    obtain rfl := Call.acquire.inj heq
    obtain ha | ha := ha
    · rw [hs] at ha
      cases ha
    · rw [hc] at ha
      cases ha
  cases h with
  | acquireBegun timeout => exact Or.inl (begun rfl (other rfl rfl))
  | closeBegun | releaseBegun faulty _ => exact Or.inl (begun rfl nofun)
  | marked d | elapsed d => exact Or.inl hmem
  | arrived hx | refused hx | woken hx | reopened hx =>
      exact Or.inl (moved (.same hx rfl) (other rfl rfl))
  | turnedAway hx _ => exact Or.inl (moved (.same hx rfl) (other rfl rfl))
  | timedOut hx _ _ _ => exact Or.inl (moved (.same hx rfl) (other rfl rfl))
  | served hx _ _ _ _ | servedLast hx _ _ _ _ => exact Or.inl (moved (.same hx rfl) (other rfl rfl))
  | rejoined hx | answered hx => exact Or.inl (moved (.woken hx rfl) (other rfl rfl))
  | takenBack hx | discarded hx | closerWoken hx | drainedOne hx | closeDone hx =>
      exact Or.inl (moved (.same hx rfl) nofun)
  | closerSlept hx _ | drained hx _ => exact Or.inl (moved (.same hx rfl) nofun)
  | returnTold hx | shut hx => exact Or.inl (moved (.woken hx rfl) nofun)
  | @claimed _ pre post d r t hx ho hf hi hv hr =>
      by_cases hne : Call.acquire ⟨d, r, .connecting t⟩ = .acquire a
      · obtain rfl := Call.acquire.inj hne
        exact Or.inr (.claims (by simp [hx]) ⟨ho, hf, hi, hv, hr⟩)
      · exact Or.inl (moved (.same hx rfl) hne)
  | @slept _ pre post d r t hx ho hu hd =>
      by_cases hne : Call.acquire ⟨d, r, .asleep t
          (if m.ledger.vacant > 0 then Ledger.earlier d r else d)⟩ = .acquire a
      · obtain rfl := Call.acquire.inj hne
        exact Or.inr (.sleeps (by simp [hx]) hd)
      · exact Or.inl (moved (.same hx rfl) hne)

/-! ## Sleep ends at the deadline -/

/-- Who sleeps with a deadline wakes by it. -/
def Machine.Timed (m : Machine) : Prop :=
  ∀ d r t w, .acquire ⟨some d, r, .asleep t w⟩ ∈ m.calls → ∃ u, w = some u ∧ u ≤ d

theorem Ledger.earlier_le (d : Time) (r : Option Time) :
    ∃ u, earlier (some d) r = some u ∧ u ≤ d := by
  cases r with
  | none => exact ⟨d, rfl, Nat.le_refl d⟩
  | some r => exact ⟨min d r, rfl, Nat.min_le_left d r⟩

theorem Machine.Timed.change (h : Change v m m') (hm : m.Timed) : m'.Timed := by
  intro d r t w hmem
  obtain hold | hnew := h.halted_cases hmem (Or.inl rfl)
  · exact hm d r t w hold
  · cases hnew with
    | sleeps _ _ =>
        split
        · exact Ledger.earlier_le d r
        · exact ⟨d, rfl, Nat.le_refl d⟩

/-- Past its deadline a call is blocked only by its own attempt to connect. -/
theorem Machine.Timed.punctual_iff_connecting (hm : m.Timed) :
    m.Punctual ↔ ∀ a, .acquire a ∈ m.calls → a.isConnecting = true → a.overdue m.clock = false := by
  constructor
  · rintro hp ⟨d, r, p⟩ hmem hc
    cases p with
    | connecting t =>
        by_contra hd
        have hfree := hp _ hmem (by simpa using hd)
        cases hfree
    | _ => cases hc
  · rintro hc ⟨d, r, p⟩ hmem hd
    cases p with
    | asleep t w =>
        cases d with
        | none => cases hd
        | some d =>
            -- Its sleep ends by its deadline, so it is not asleep after it.
            obtain ⟨u, rfl, hu⟩ := hm d r t w hmem
            have hnow : d ≤ m.clock := of_decide_eq_true hd
            show (!decide (u ≤ m.clock)) = false
            rw [decide_eq_true (Nat.le_trans hu hnow)]
            rfl
    | connecting t => exact absurd hd (by rw [hc _ hmem rfl]; exact nofun)
    | _ => rfl

/-! ## Attempts to connect -/

/-- The call, looking at the ledger now, claims a vacant slot. -/
def Machine.Claims (m : Machine) (a : Acquire) : Prop :=
  match a.phase with
  | .arriving => m.ledger.enqueue.Claimable m.clock m.ledger.nextTicket a.retryAt
  | .awake t => m.ledger.Claimable m.clock t a.retryAt
  | _ => False

/-- The move lets no call connect past its deadline: none claims a slot when its deadline has been
reached, and the clock does not reach the deadline of one that is connecting. -/
def Machine.Timely (m : Machine) : Move → Prop
  | .step i => ∀ a, m.calls[i]? = some (.acquire a) → m.Claims a → a.overdue m.clock = false
  | .advance d =>
    ∀ a, .acquire a ∈ m.calls → a.isConnecting = true → a.overdue (m.clock + d) = false
  | _ => True

/-- A call that is awake after its own change has just arrived, or comes back from a failed reopen
and is not to try again yet. -/
theorem Change.awake_cases {d r : Option Time} {t : Ticket} (h : Change (.step i) m m')
    (hy : m'.calls[i]? = some (.acquire ⟨d, r, .awake t⟩)) :
    m'.clock = m.clock ∧
      (m.calls[i]? = some (.acquire ⟨d, r, .arriving⟩) ∧ t = m.ledger.nextTicket ∧
          m'.ledger = m.ledger.enqueue ∨
        r = some (m.clock + reopenInterval)) := by
  -- Two steps leave their call awake: that of its arrival, and that back from a failed reopen.
  generalize hv : Move.step i = w at h
  have at_ : ∀ {pre post : List Call} {y : Call}, Move.step i = .step pre.length →
      m'.calls = pre ++ y :: post → y = .acquire ⟨d, r, .awake t⟩ := by
    intro pre post y hi hcalls
    obtain rfl := Move.step.inj hi
    rw [hcalls] at hy
    simpa using hy
  have woken : ∀ {pre post : List Call} {y : Call}, Move.step i = .step pre.length →
      m'.calls = pre.map Call.roused ++ y :: post.map Call.roused →
      y = .acquire ⟨d, r, .awake t⟩ := by
    intro pre post y hi hcalls
    obtain rfl := Move.step.inj hi
    rw [hcalls] at hy
    simpa using hy
  cases h with
  | @arrived _ pre post d' r' hx =>
      obtain ⟨rfl, rfl, ht⟩ := Acquire.mk.inj (Call.acquire.inj (at_ hv rfl))
      obtain rfl := Move.step.inj hv
      refine ⟨rfl, Or.inl ⟨?_, (Acquire.Phase.awake.inj ht).symm, rfl⟩⟩
      simp [hx]
  | rejoined hx =>
      obtain ⟨rfl, rfl, -⟩ := Acquire.mk.inj (Call.acquire.inj (woken hv rfl))
      exact ⟨rfl, Or.inr rfl⟩
  | turnedAway hx _ => cases at_ hv rfl
  | timedOut hx _ _ _ | slept hx _ _ _ => cases at_ hv rfl
  | served hx _ _ _ _ | servedLast hx _ _ _ _ => cases at_ hv rfl
  | claimed hx _ _ _ _ _ => cases at_ hv rfl
  | answered hx | returnTold hx | shut hx => cases woken hv rfl
  | takenBack hx | discarded hx | drainedOne hx | closeDone hx => cases at_ hv rfl
  | closerSlept hx _ | drained hx _ => cases at_ hv rfl
  | _ => cases hv

/-- A call that connects after a move did so before, or has claimed a slot by the move. -/
theorem Machine.connecting_cases (h : m.apply v = some (m', ns)) (hmem : .acquire a ∈ m'.calls)
    (ha : a.isConnecting = true) :
    .acquire a ∈ m.calls ∨ ∃ i b, v = .step i ∧ m.calls[i]? = some (.acquire b) ∧ m.Claims b ∧
      b.deadline = a.deadline := by
  have halts : ∀ {m₁ : Machine}, m₁.Halts v a → ∃ i t, v = .step i ∧
      m₁.calls[i]? = some (.acquire ⟨a.deadline, a.retryAt, .awake t⟩) ∧
        m₁.ledger.Claimable m₁.clock t a.retryAt := by
    intro m₁ hh
    cases hh with
    | claims hi hc => exact ⟨_, _, rfl, hi, hc⟩
    | sleeps _ _ => cases ha
  have claims : m.Halts v a → ∃ i b, v = .step i ∧ m.calls[i]? = some (.acquire b) ∧ m.Claims b ∧
      b.deadline = a.deadline := by
    intro hh
    obtain ⟨i, t, rfl, hi, hc⟩ := halts hh
    exact ⟨i, _, rfl, hi, hc, rfl⟩
  obtain h | ⟨m₁, h₁, h₂⟩ := apply_changes h
  · exact (h.halted_cases hmem (Or.inr ha)).imp_right claims
  · obtain hmem₁ | hh := h₂.halted_cases hmem (Or.inr ha)
    · exact (h₁.halted_cases hmem₁ (Or.inr ha)).imp_right claims
    · -- The slot was claimed by the second look of the move, so the call had just arrived.
      obtain ⟨i, t, rfl, hi, hc⟩ := halts hh
      obtain ⟨hclock, ⟨hx, rfl, hl⟩ | hr⟩ := h₁.awake_cases hi
      · refine Or.inr ⟨i, _, rfl, hx, ?_, rfl⟩
        rw [hl, hclock] at hc
        exact hc
      · obtain hnone | hreached := hc.retry
        · rw [hr] at hnone
          cases hnone
        · rw [hr, hclock, Ledger.reached_reopen] at hreached
          cases hreached

/-- A call that looks at a ledger on which it may claim a slot does so, and then connects. -/
theorem Machine.connecting_of_claims (h : m.apply (.step i) = some (m', ns))
    (hi : m.calls[i]? = some (.acquire a)) (hc : m.Claims a) :
    m'.clock = m.clock ∧ ∃ b, .acquire b ∈ m'.calls ∧ b.isConnecting = true ∧
      b.deadline = a.deadline := by
  have look : ∀ {l : Ledger} {t : Ticket}, l.Claimable m.clock t a.retryAt →
      m' = { m with ledger := l }.attend i a t → m'.clock = m.clock ∧ ∃ b, .acquire b ∈ m'.calls ∧
        b.isConnecting = true ∧ b.deadline = a.deadline := by
    rintro l t hl rfl
    have hverdict := Ledger.attend_of_vacant (d := a.deadline) hl.isOpen hl.front hl.idle hl.vacant
      hl.retry
    simp only [attend, hverdict]
    exact ⟨rfl, _, List.mem_of_getElem? (getElem?_setCall hi), rfl, rfl⟩
  simp only [apply, hi, stepAcquire] at h
  unfold Claims at hc
  split at hc
  · next hp =>
      rw [hp] at h
      exact look hc (eq_of_moved h).symm
  · next t hp =>
      rw [hp] at h
      exact look hc (eq_of_moved h).symm
  · exact hc.elim

/-- Only the passing of time moves the clock. -/
theorem Change.clock_eq (h : Change v m m') (hv : ∀ d, v ≠ .advance d) : m'.clock = m.clock := by
  cases h with
  | elapsed d => exact absurd rfl (hv d)
  | _ => rfl

/-- Through a move that is timely no call comes to connect past its deadline, and through any other
one does. -/
theorem Machine.Timed.timely_iff (hm : m.Timed) (hp : m.Punctual)
    (h : m.apply v = some (m', ns)) : m'.Punctual ↔ m.Timely v := by
  have hm' : m'.Timed := (apply_changes h).keep (P := Machine.Timed) (fun hv ha => ha.change hv) hm
  rw [hm'.punctual_iff_connecting]
  rw [hm.punctual_iff_connecting] at hp
  -- Without time passing, what connected before is as it was.
  have still : (∀ d, v ≠ .advance d) → m'.clock = m.clock := fun hv =>
    (apply_changes h).keep (P := fun b => b.clock = m.clock)
      (fun hc hb => (hc.clock_eq hv).trans hb) rfl
  have quiet : (∀ d, v ≠ .advance d) → (∀ i, v ≠ .step i) → ∀ a, .acquire a ∈ m'.calls →
      a.isConnecting = true → a.overdue m'.clock = false := by
    intro hd hi a hmem ha
    obtain hold | ⟨i, b, hv, -⟩ := connecting_cases h hmem ha
    · rw [still hd]
      exact hp a hold ha
    · exact absurd hv (hi i)
  cases v with
  | step i =>
      constructor
      · intro hall a hi hc
        obtain ⟨hclock, b, hb, hconn, hd⟩ := connecting_of_claims h hi hc
        have hlate := hall b hb hconn
        rwa [Acquire.overdue, hd, hclock] at hlate
      · intro ht a hmem ha
        have hclock := still fun _ => nofun
        rw [hclock]
        obtain hold | ⟨j, b, hv, hj, hc, hd⟩ := connecting_cases h hmem ha
        · exact hp a hold ha
        · obtain rfl := Move.step.inj hv
          have hlate := ht b hj hc
          rwa [Acquire.overdue, hd] at hlate
  | advance d =>
      obtain rfl := eq_of_moved h
      exact Iff.rfl
  | _ => exact ⟨fun _ => trivial, fun _ => quiet (fun _ => nofun) fun _ => nofun⟩

/-! ## A call that is past its deadline stays awake -/

/-- The call `y` in the place of `x` has the same deadline, and if that has been reached it is not
asleep. -/
def Machine.Watches (m : Machine) (x y : Call) : Prop :=
  ∀ a, x = .acquire a → ∃ b, y = .acquire b ∧ b.deadline = a.deadline ∧
    (a.overdue m.clock = true → b.isAsleep = false)

/-- What a change does to the call in a place. -/
theorem Change.watches (h : Change v m m') {x : Call} (hx : m.calls[i]? = some x) :
    ∃ y, m'.calls[i]? = some y ∧ (y = x ∨ y = x.roused ∨ m.Watches x y) := by
  have begun : ∀ {y : Call}, m'.calls = m.calls ++ [y] → m'.calls[i]? = some x := by
    intro y hy
    rw [hy, List.getElem?_append_left (List.getElem?_eq_some_iff.mp hx).1, hx]
  have moved : ∀ {pre post : List Call} {z y : Call}, m.calls = pre ++ z :: post →
      (m'.calls = pre ++ y :: post ∨
        m'.calls = pre.map Call.roused ++ y :: post.map Call.roused) → m.Watches z y →
      ∃ y, m'.calls[i]? = some y ∧ (y = x ∨ y = x.roused ∨ m.Watches x y) := by
    intro pre post z y hz hy hw
    by_cases hi : pre.length = i
    · have hzx : z = x := by simpa [hz, ← hi] using hx
      exact ⟨y, hi ▸ Machine.getElem?_changed hy, Or.inr (Or.inr (hzx ▸ hw))⟩
    · obtain hcall | hcall := Machine.getElem?_of_ne hz hy hi
      · exact ⟨x, hcall.trans hx, Or.inl rfl⟩
      · exact ⟨x.roused, by rw [hcall, hx, Option.map_some], Or.inr (Or.inl rfl)⟩
  have awake : ∀ {b c : Acquire}, c.deadline = b.deadline → c.isAsleep = false →
      m.Watches (.acquire b) (.acquire c) := by
    intro b c hd hs a hba
    obtain rfl := Call.acquire.inj hba
    exact ⟨c, rfl, hd, fun _ => hs⟩
  have none : ∀ {z y : Call}, (∀ a, z ≠ .acquire a) → m.Watches z y :=
    fun hz a ha => absurd ha (hz a)
  cases h with
  | acquireBegun timeout | closeBegun | releaseBegun faulty _ => exact ⟨x, begun rfl, Or.inl rfl⟩
  | marked d | elapsed d => exact ⟨x, hx, Or.inl rfl⟩
  | arrived hz | refused hz | woken hz | reopened hz =>
      exact moved hz (Or.inl rfl) (awake rfl rfl)
  | turnedAway hz _ => exact moved hz (Or.inl rfl) (awake rfl rfl)
  | timedOut hz _ _ _ => exact moved hz (Or.inl rfl) (awake rfl rfl)
  | served hz _ _ _ _ | servedLast hz _ _ _ _ => exact moved hz (Or.inl rfl) (awake rfl rfl)
  | claimed hz _ _ _ _ _ => exact moved hz (Or.inl rfl) (awake rfl rfl)
  | rejoined hz | answered hz => exact moved hz (Or.inr rfl) (awake rfl rfl)
  | takenBack hz | discarded hz | closerWoken hz | drainedOne hz | closeDone hz =>
      exact moved hz (Or.inl rfl) (none fun _ => nofun)
  | closerSlept hz _ | drained hz _ => exact moved hz (Or.inl rfl) (none fun _ => nofun)
  | returnTold hz | shut hz => exact moved hz (Or.inr rfl) (none fun _ => nofun)
  | @slept _ pre post d r t hz _ _ hd =>
      refine moved hz (Or.inl rfl) fun a ha => ⟨_, rfl, ?_, fun hlate => ?_⟩
      · rw [← Call.acquire.inj ha]
      · -- It looked at its deadline before it fell asleep.
        rw [← Call.acquire.inj ha] at hlate
        exact absurd (hd.symm.trans hlate) nofun

theorem Change.clock_le (h : Change v m m') : m.clock ≤ m'.clock := by
  cases h with
  | elapsed d => exact Nat.le_add_right m.clock d
  | _ => exact Nat.le_refl _

theorem Acquire.overdue_of_le {now now' : Time} (h : a.overdue now = true) (hle : now ≤ now') :
    a.overdue now' = true := by
  obtain ⟨d, r, p⟩ := a
  cases d with
  | none => cases h
  | some d =>
      have hd : d ≤ now := of_decide_eq_true h
      exact decide_eq_true (Nat.le_trans hd hle)

theorem Acquire.overdue_congr {b : Acquire} {now : Time} (h : b.deadline = a.deadline) :
    b.overdue now = a.overdue now := by
  rw [overdue, overdue, h]

/-- Call `i` is an acquire call that is past its deadline and not asleep. -/
def Machine.Late (m : Machine) (i : Nat) : Prop :=
  ∃ a, m.calls[i]? = some (.acquire a) ∧ a.overdue m.clock = true ∧ a.isAsleep = false

theorem Machine.Late.change (h : Change v m m') (hl : m.Late i) : m'.Late i := by
  obtain ⟨a, hi, hd, hs⟩ := hl
  have hd' : a.overdue m'.clock = true := Acquire.overdue_of_le hd h.clock_le
  have hr : (Call.acquire a).roused = .acquire a := by
    obtain hr | ⟨d, r, t, w, heq, -⟩ | ⟨heq, -⟩ := (Call.acquire a).roused_cases
    · exact hr
    · obtain rfl := Call.acquire.inj heq
      cases hs
    · cases heq
  obtain ⟨y, hy, rfl | rfl | hw⟩ := h.watches hi
  · exact ⟨a, hy, hd', hs⟩
  · rw [hr] at hy
    exact ⟨a, hy, hd', hs⟩
  · obtain ⟨b, rfl, hb, hawake⟩ := hw a rfl
    exact ⟨b, hy, (Acquire.overdue_congr hb).trans hd', hawake hd⟩

/-- A call whose deadline is reached while it is not asleep never sleeps any more. -/
theorem Trace.stays_awake {tr : List (Machine × Move)} (h : Trace m tr m') (hl : m.Late i) :
    m'.Late i :=
  h.keep (P := fun b => b.Late i) (fun hv hb => hb.change hv) hl

/-- A call that has no time is past its deadline when it begins. -/
theorem Machine.late_of_begin (h : m.apply (.beginAcquire (some 0)) = some (m', ns)) :
    m'.Late m.calls.length := by
  obtain rfl := eq_of_moved h
  exact ⟨_, List.getElem?_concat_length, decide_eq_true (Nat.le_refl m.clock), rfl⟩

/-- **In which runs no call is blocked past its deadline**: in those in which no call claims a
vacant slot when its deadline has been reached, and the clock never reaches the deadline of a call
that is connecting. Sleep ends at the deadline in every run, and a call without time never
sleeps. -/
theorem Trace.punctual_iff {capacity n : Nat} {tr : List (Machine × Move)}
    (h : Trace (Machine.initial capacity n) tr m) :
    ((∀ p ∈ tr, p.1.Punctual) ∧ m.Punctual ↔ ∀ p ∈ tr, p.1.Timely p.2) ∧ m.Timed ∧
      ∀ m₁ ns tr' m₂, m.apply (.beginAcquire (some 0)) = some (m₁, ns) → Trace m₁ tr' m₂ →
        ∃ a, m₂.calls[m.calls.length]? = some (.acquire a) ∧ a.isAsleep = false := by
  have timed : ∀ {tr m}, Trace (Machine.initial capacity n) tr m → m.Timed := fun h =>
    h.keep (P := Machine.Timed) (fun hv ha => ha.change hv) fun _ _ _ _ => nofun
  refine ⟨?_, timed h, fun m₁ ns tr' m₂ hb ht => ?_⟩
  · -- By induction over the run: the last move is timely exactly if the state after it is punctual.
    induction h with
    | nil => exact ⟨fun _ => nofun, fun _ => ⟨nofun, nofun⟩⟩
    | @move tr m' m'' v ns ht hv ih =>
        simp only [List.forall_mem_append, List.forall_mem_singleton]
        rw [and_assoc, ← ih]
        constructor
        · rintro ⟨hall, hp, hp'⟩
          exact ⟨⟨hall, hp⟩, ((timed ht).timely_iff hp hv).mp hp'⟩
        · rintro ⟨⟨hall, hp⟩, hlast⟩
          exact ⟨hall, hp, ((timed ht).timely_iff hp hv).mpr hlast⟩
  · obtain ⟨a, hi, -, hs⟩ := ht.stays_awake (Machine.late_of_begin hb)
    exact ⟨a, hi, hs⟩

/-- A pool of two slots, one of which could not be opened. The connection is out, and a call that
has no time is opening another for the vacant slot. -/
def Machine.unhurried : Machine where
  capacity := 2
  ledger := ⟨[], 2, 0, false, [], 2⟩
  calls := [.acquire ⟨none, none, .returned (.connection 0)⟩,
    .acquire ⟨some 0, none, .connecting 1⟩]
  held := [⟨0, false⟩]
  clock := 0
  opened := 1
  attempts := 3
  destroyed := []

theorem Machine.unhurried_follow :
    (Machine.initial 2 1).follow [.beginAcquire none, .step 0, .step 0, .beginAcquire (some 0),
      .step 1] = some unhurried := by decide

theorem punctual_iff_unhurried :
    ∃ tr, Trace (Machine.initial 2 1) tr Machine.unhurried ∧ ∃ p ∈ tr, ¬ p.1.Timely p.2 := by
  obtain ⟨tr, htr⟩ := Machine.exists_trace Machine.unhurried_follow
  refine ⟨tr, htr, ?_⟩
  by_contra hno
  have htimely : ∀ p ∈ tr, p.1.Timely p.2 := by
    intro p hp
    by_contra hlate
    exact hno ⟨p, hp, hlate⟩
  have hpunctual := (htr.punctual_iff.1.mpr htimely).2
  have hfree := hpunctual ⟨some 0, none, .connecting 1⟩ (by decide) rfl
  cases hfree

theorem not_forall_reachable_punctual : ¬ ∀ m : Machine, m.Reachable → m.Punctual := by
  intro h
  have start : (Machine.initial 2 1).Reachable := .start (by decide) (by decide)
  have hfree := h Machine.unhurried (start.follow Machine.unhurried_follow)
    ⟨some 0, none, .connecting 1⟩ (by decide) rfl
  cases hfree

end PooledStore.Pool
