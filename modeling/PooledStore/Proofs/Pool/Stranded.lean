import PooledStore.Proofs.Pool.Change

/-!
# Stranded waiters

A waiter is stranded when it sleeps at the front of the queue next to a vacant slot, nobody is
about to wake it, and its sleep is not bounded by a retry time (`Machine.Stranded`). One move can
bring this about: the front claims one of several vacant slots, and tells nobody, while the next
in the queue sleeps without a retry time (`Machine.Strands`). `never_stranded_iff` says that no
other move does.
-/

set_option autoImplicit false

namespace PooledStore.Pool

variable {m m' : Machine} {v : Move}

/-! ## Tickets are given out once -/

/-- The ticket of a call that is in the queue or may come back to it. -/
def Call.tickets : Call → List Ticket
  | .acquire ⟨_, _, .awake t⟩ => [t]
  | .acquire ⟨_, _, .asleep t _⟩ => [t]
  | .acquire ⟨_, _, .connecting t⟩ => [t]
  | .acquire ⟨_, _, .refused t⟩ => [t]
  | _ => []

theorem Call.tickets_sleepBlind : Call.SleepBlind Call.tickets := ⟨fun _ _ _ _ => rfl, rfl⟩

/-- The next ticket is larger than all that were given out. -/
def Machine.Numbered (m : Machine) : Prop :=
  (∀ t ∈ m.ledger.waiters, t < m.ledger.nextTicket) ∧
    ∀ t ∈ m.calls.flatMap Call.tickets, t < m.ledger.nextTicket

theorem Machine.Turned.tickets_lt {x y : Call} {n : Nat} (h : m.Turned m' x y)
    (hx : ∀ t ∈ m.calls.flatMap Call.tickets, t < n) (hy : ∀ t ∈ y.tickets, t < n) :
    ∀ t ∈ m'.calls.flatMap Call.tickets, t < n := by
  intro t ht
  have hc := h.count_flatMap Call.tickets_sleepBlind t
  have hpos := List.count_pos_iff.mpr ht
  by_cases hty : t ∈ y.tickets
  · exact hy t hty
  · rw [List.count_eq_zero.mpr hty] at hc
    exact hx t (List.count_pos_iff.mp (by omega))

theorem Machine.Turned.mem_left {x y : Call} (h : m.Turned m' x y) : x ∈ m.calls := by
  obtain ⟨pre, post, hx, -⟩ := h
  rw [hx]
  exact List.mem_append_right _ List.mem_cons_self

theorem Machine.Numbered.change (h : Change v m m') (hm : m.Numbered) : m'.Numbered := by
  obtain ⟨hw, hc⟩ := hm
  have begun : ∀ {y : Call}, y.tickets = [] → ∀ t ∈ (m.calls ++ [y]).flatMap Call.tickets,
      t < m.ledger.nextTicket := by
    intro y hy
    rw [List.flatMap_append, List.flatMap_singleton, hy, List.append_nil]
    exact hc
  -- A call without a new ticket, and a queue without a new one.
  have turned : ∀ {x y : Call}, m.Turned m' x y → y.tickets ⊆ x.tickets →
      m'.ledger.nextTicket = m.ledger.nextTicket → m'.ledger.waiters ⊆ m.ledger.waiters →
      m'.Numbered := by
    intro x y ht hxy hn hsub
    refine ⟨fun t h => hn ▸ hw t (hsub h), hn ▸ ht.tickets_lt hc fun t h => ?_⟩
    exact hc t (List.mem_flatMap.mpr ⟨x, ht.mem_left, hxy h⟩)
  cases h with
  | acquireBegun timeout | closeBegun | releaseBegun faulty _ => exact ⟨hw, begun rfl⟩
  | marked d | elapsed d => exact ⟨hw, hc⟩
  | @arrived _ pre post d r hx =>
      refine ⟨fun t ht => ?_, ?_⟩
      · obtain ht | ht := List.mem_append.mp ht
        · exact Nat.lt_succ_of_lt (hw t ht)
        · obtain rfl := List.mem_singleton.mp ht
          exact Nat.lt_succ_self _
      · refine Machine.Turned.tickets_lt (.same hx rfl) (fun t ht => Nat.lt_succ_of_lt (hc t ht)) ?_
        intro t ht
        obtain rfl := List.mem_singleton.mp ht
        exact Nat.lt_succ_self _
  | turnedAway hx _ => exact turned (.same hx rfl) nofun rfl List.filter_sublist.subset
  | timedOut hx _ _ _ => exact turned (.same hx rfl) nofun rfl List.filter_sublist.subset
  | served hx _ _ _ _ | servedLast hx _ _ _ _ =>
      exact turned (.same hx rfl) nofun rfl (List.tail_sublist _).subset
  | claimed hx _ _ _ _ _ =>
      exact turned (.same hx rfl) (List.Subset.refl _) rfl (List.tail_sublist _).subset
  | slept hx _ _ _ => exact turned (.same hx rfl) (List.Subset.refl _) rfl (List.Subset.refl _)
  | refused hx | woken hx =>
      exact turned (.same hx rfl) (List.Subset.refl _) rfl (List.Subset.refl _)
  | reopened hx | discarded hx | closerWoken hx | drainedOne hx | closeDone hx =>
      exact turned (.same hx rfl) nofun rfl (List.Subset.refl _)
  | closerSlept hx _ | drained hx _ => exact turned (.same hx rfl) nofun rfl (List.Subset.refl _)
  | answered hx | returnTold hx | shut hx =>
      exact turned (.woken hx rfl) nofun rfl (List.Subset.refl _)
  | @takenBack _ pre post d b hx =>
      exact turned (.same hx rfl) nofun (by cases b <;> rfl) (by cases b <;> exact fun _ h => h)
  | @rejoined _ pre post d r t hx =>
      have hmem : Call.acquire ⟨d, r, .refused t⟩ ∈ m.calls := by
        rw [hx]; exact List.mem_append_right _ List.mem_cons_self
      have ht : t < m.ledger.nextTicket :=
        hc t (List.mem_flatMap.mpr ⟨_, hmem, List.mem_singleton_self t⟩)
      refine ⟨fun u hu => ?_, ?_⟩
      · obtain rfl | hu := List.mem_cons.mp hu
        · exact ht
        · exact hw u hu
      · refine Machine.Turned.tickets_lt (.woken hx rfl) hc fun u hu => ?_
        exact List.mem_singleton.mp hu ▸ ht

/-! ## Stranded waiters -/

/-- The call is about to wake all sleepers. -/
def Call.notifies : Call → Bool
  | .acquire ⟨_, _, .notifying _⟩ => true
  | .release ⟨_, _, .notifying⟩ => true
  | _ => false

/-- No call is about to wake the sleepers. -/
def Machine.Quiet (m : Machine) : Prop := ∀ c ∈ m.calls, c.notifies = false

instance (m : Machine) : Decidable m.Quiet :=
  inferInstanceAs (Decidable (∀ c ∈ m.calls, c.notifies = false))

/-- The sleep ends at the retry time or before it. -/
def wakesToRetry : Option Time → Option Time → Bool
  | some wakeAt, some retryAt => wakeAt ≤ retryAt
  | _, _ => false

theorem wakesToRetry_earlier (deadline : Option Time) (retryAt : Time) :
    wakesToRetry (Ledger.earlier deadline (some retryAt)) (some retryAt) = true := by
  cases deadline with
  | none => exact decide_eq_true (Nat.le_refl retryAt)
  | some d => exact decide_eq_true (Nat.min_le_right d retryAt)

/-- The ticket of a call that sleeps without its retry time as a bound. -/
def Call.dozes : Call → Option Ticket
  | .acquire ⟨_, r, .asleep t w⟩ => if wakesToRetry w r then none else some t
  | _ => none

/-- The front of the queue sleeps next to a vacant slot of an open pool, nobody is about to wake
it, and its retry time does not bound its sleep. -/
def Machine.Stranded (m : Machine) : Prop :=
  m.ledger.closed = false ∧ m.Quiet ∧ 0 < m.ledger.vacant ∧
    ∃ t ∈ m.calls.filterMap Call.dozes, m.ledger.waiters.head? = some t

instance (m : Machine) : Decidable m.Stranded :=
  inferInstanceAs (Decidable (_ ∧ _ ∧ _ ∧ _))

/-- The move lets the front of the queue claim one of several vacant slots while the next in the
queue sleeps without its retry time as a bound and nobody is about to wake it. -/
def Machine.Strands (m : Machine) : Move → Prop
  | .step i =>
      ∃ d r t u rest, m.calls[i]? = some (.acquire ⟨d, r, .awake t⟩) ∧ m.ledger.closed = false ∧
        m.Quiet ∧ m.ledger.waiters = t :: u :: rest ∧ m.ledger.idle = [] ∧
        2 ≤ m.ledger.vacant ∧ (r = none ∨ Ledger.reached m.clock r = true) ∧
        u ∈ m.calls.filterMap Call.dozes
  | _ => False

/-! ## Which change strands a waiter -/

theorem Call.dozes_roused (c : Call) : c.roused.dozes = none := by
  obtain h | ⟨d, r, t, w, rfl, h⟩ | ⟨rfl, h⟩ := c.roused_cases
  · rw [h]
    rcases c with ⟨d, r, p⟩ | r | c
    · cases p with
      | asleep t w => cases h
      | _ => rfl
    · rfl
    · rfl
  · rw [h]; rfl
  · rw [h]; rfl

theorem Call.dozes_ticket {c : Call} {t : Ticket} (h : c.dozes = some t) : t ∈ c.tickets := by
  unfold dozes at h
  split at h
  · split at h
    · cases h
    · obtain rfl := Option.some.inj h
      exact List.mem_singleton_self _
  · cases h

theorem Machine.Numbered.dozing_lt (hm : m.Numbered) {t : Ticket}
    (h : t ∈ m.calls.filterMap Call.dozes) : t < m.ledger.nextTicket := by
  obtain ⟨c, hc, ht⟩ := List.mem_filterMap.mp h
  exact hm.2 t (List.mem_flatMap.mpr ⟨c, hc, Call.dozes_ticket ht⟩)

/-- Nobody is stranded where somebody is about to wake the sleepers. -/
theorem Machine.not_stranded_of_notifies {y : Call} (hy : y ∈ m.calls)
    (hn : y.notifies = true) : ¬ m.Stranded := by
  rintro ⟨-, hq, -⟩
  exact absurd (hq y hy) (by simp [hn])

/-- Nobody sleeps where all were woken. -/
theorem dozing_woken {pre post : List Call} {y : Call} (hd : y.dozes = none) :
    (pre.map Call.roused ++ y :: post.map Call.roused).filterMap Call.dozes = [] := by
  refine List.filterMap_eq_nil_iff.mpr fun c hc => ?_
  rw [List.mem_append, List.mem_cons, List.mem_map, List.mem_map] at hc
  obtain ⟨b, -, rfl⟩ | rfl | ⟨b, -, rfl⟩ := hc
  · exact b.dozes_roused
  · exact hd
  · exact b.dozes_roused

/-- A waiter that a quiet change leaves stranded was stranded before. -/
theorem Machine.Stranded.before (h : m'.Stranded)
    (hc : m'.ledger.closed = false → m.ledger.closed = false) (hq : m'.Quiet → m.Quiet)
    (hv : 0 < m'.ledger.vacant → 0 < m.ledger.vacant)
    (hd : ∀ t ∈ m'.calls.filterMap Call.dozes, m'.ledger.waiters.head? = some t →
      t ∈ m.calls.filterMap Call.dozes ∧ m.ledger.waiters.head? = some t) : m.Stranded := by
  obtain ⟨ho, hquiet, hvac, t, ht, hf⟩ := h
  obtain ⟨ht', hf'⟩ := hd t ht hf
  exact ⟨hc ho, hq hquiet, hv hvac, t, ht', hf'⟩

theorem Machine.Quiet.before {pre post : List Call} {x y : Call}
    (hx : m.calls = pre ++ x :: post) (hy : m'.calls = pre ++ y :: post)
    (hn : x.notifies = false) (h : m'.Quiet) : m.Quiet := by
  intro c hc
  rw [hx, List.mem_append, List.mem_cons] at hc
  obtain hc | rfl | hc := hc
  · exact h c (by rw [hy]; exact List.mem_append_left _ hc)
  · exact hn
  · exact h c (by rw [hy]; exact List.mem_append_right _ (List.mem_cons_of_mem _ hc))

theorem dozing_before {pre post : List Call} {x y : Call} {t : Ticket}
    (h : t ∈ (pre ++ y :: post).filterMap Call.dozes) (hy : y.dozes ≠ some t) :
    t ∈ (pre ++ x :: post).filterMap Call.dozes := by
  obtain ⟨c, hc, hct⟩ := List.mem_filterMap.mp h
  rw [List.mem_append, List.mem_cons] at hc
  refine List.mem_filterMap.mpr ⟨c, ?_, hct⟩
  obtain hc | rfl | hc := hc
  · exact List.mem_append_left _ hc
  · exact absurd hct hy
  · exact List.mem_append_right _ (List.mem_cons_of_mem _ hc)

theorem Machine.Stranded.before_begun {y : Call} (hs : m'.Stranded)
    (hy : m'.calls = m.calls ++ [y]) (hd : y.dozes = none) (hl : m'.ledger = m.ledger) :
    m.Stranded := by
  refine hs.before (hl ▸ id) (fun hq c hc => hq c (hy ▸ List.mem_append_left _ hc)) (hl ▸ id) ?_
  intro t ht hf
  rw [hy, List.filterMap_append, List.mem_append] at ht
  obtain ht | ht := ht
  · exact ⟨ht, hl ▸ hf⟩
  · simp [hd] at ht

/-- One call moves on without a notification, and the slots and the front are as they were. -/
theorem Machine.Stranded.before_turned {pre post : List Call} {x y : Call} (hs : m'.Stranded)
    (hx : m.calls = pre ++ x :: post) (hy : m'.calls = pre ++ y :: post) (hn : x.notifies = false)
    (hd : ∀ t, m'.ledger.waiters.head? = some t → y.dozes ≠ some t)
    (hc : m'.ledger.closed = m.ledger.closed) (hv : m'.ledger.vacant = m.ledger.vacant)
    (hf : ∀ t ∈ m.calls.filterMap Call.dozes, m'.ledger.waiters.head? = some t →
      m.ledger.waiters.head? = some t) : m.Stranded := by
  refine hs.before (hc ▸ id) (Machine.Quiet.before hx hy hn) (hv ▸ id) fun t ht hft => ?_
  have ht' : t ∈ m.calls.filterMap Call.dozes := by
    rw [hx]
    rw [hy] at ht
    exact dozing_before ht (hd t hft)
  exact ⟨ht', hf t ht' hft⟩

/-- Nobody is stranded where all were woken. -/
theorem Machine.not_stranded_of_woken {pre post : List Call} {y : Call}
    (hy : m.calls = pre.map Call.roused ++ y :: post.map Call.roused) (hd : y.dozes = none) :
    ¬ m.Stranded := by
  rintro ⟨-, -, -, t, ht, -⟩
  rw [hy, dozing_woken hd] at ht
  cases ht

/-- A stranded waiter was stranded before, or the change is the claim of one of several slots. -/
theorem Change.stranded (h : Change v m m') (hm : m.Numbered) (hs : m'.Stranded) :
    m.Stranded ∨ m.Strands v := by
  have loud : ∀ {pre post : List Call} {y : Call}, m'.calls = pre ++ y :: post →
      y.notifies = true → m.Stranded ∨ m.Strands v := by
    intro pre post y hy hn
    exact absurd hs (m'.not_stranded_of_notifies
      (by rw [hy]; exact List.mem_append_right _ List.mem_cons_self) hn)
  cases h with
  | acquireBegun timeout | closeBegun | releaseBegun faulty _ =>
      exact Or.inl (hs.before_begun rfl rfl rfl)
  | marked d | elapsed d => exact Or.inl hs
  | arrived hx =>
      refine Or.inl (hs.before_turned hx rfl rfl nofun rfl rfl fun t ht hf => ?_)
      -- A new front would have a ticket that nobody sleeps with.
      cases hw : m.ledger.waiters with
      | nil =>
          have hn : m.ledger.nextTicket = t := by simpa [Ledger.enqueue, hw] using hf
          exact absurd (hm.dozing_lt ht) (hn ▸ Nat.lt_irrefl _)
      | cons u rest => simpa [Ledger.enqueue, hw] using hf
  | turnedAway hx _ | timedOut hx _ _ _ | served hx _ _ _ _ | takenBack hx => exact loud rfl rfl
  | servedLast hx _ _ _ hv => exact absurd hs.2.2.1 (hv ▸ Nat.lt_irrefl 0)
  | @claimed _ pre post d r t hx hc hf hi hv hr =>
      -- The one that is stranded was second in the queue, and a slot was left for it.
      refine Or.inr ?_
      obtain ⟨-, hq, hvac, u, hu, hfu⟩ := hs
      obtain ⟨rest, hw⟩ := List.head?_eq_some_iff.mp hf
      rw [hw] at hfu
      obtain ⟨rest', rfl⟩ := List.head?_eq_some_iff.mp hfu
      refine ⟨d, r, t, u, rest', by simp [hx], hc, ?_, hw, hi, ?_, hr, ?_⟩
      · exact Machine.Quiet.before hx rfl rfl hq
      · change 0 < m.ledger.vacant - 1 at hvac
        omega
      · rw [hx]
        exact dozing_before hu nofun
  | @slept _ pre post d r t hx hc hu hd =>
      -- At the front next to a vacant slot, a call sleeps only until its retry time.
      refine Or.inl (hs.before_turned hx rfl rfl (fun u hf hy => ?_) rfl rfl fun _ _ h => h)
      have hv : 0 < m.ledger.vacant := hs.2.2.1
      obtain rfl : u = t := List.mem_singleton.mp (Call.dozes_ticket hy)
      obtain ⟨-, hr⟩ := hu hf
      obtain ⟨retryAt, rfl, -⟩ := hr hv
      rw [if_pos hv, Call.dozes, if_pos (wakesToRetry_earlier d retryAt)] at hy
      cases hy
  | refused hx | reopened hx | woken hx | discarded hx | closerWoken hx | drainedOne hx
  | closeDone hx => exact Or.inl (hs.before_turned hx rfl rfl nofun rfl rfl fun _ _ h => h)
  | closerSlept hx _ | drained hx _ =>
      exact Or.inl (hs.before_turned hx rfl rfl nofun rfl rfl fun _ _ h => h)
  | rejoined hx | answered hx | returnTold hx | shut hx =>
      exact absurd hs (Machine.not_stranded_of_woken rfl rfl)

/-- A claim that strands a waiter is a whole move: a call that has just arrived is behind the
others, and one that comes back from a failed reopen has woken them. -/
theorem Change.not_strands {i : Nat} (h : Change (.step i) m m') (hm : m.Numbered) :
    ¬ m'.Strands (.step i) := by
  rintro ⟨d, r, t, u, rest, hi, -, -, hw, -, -, -, hu⟩
  have asleep : ∀ {pre post : List Call} {y : Call},
      m'.calls = pre.map Call.roused ++ y :: post.map Call.roused → y.dozes = none → False := by
    intro pre post y hy hd
    rw [hy, dozing_woken hd] at hu
    cases hu
  cases h with
  | @arrived pre post d' r' hx =>
      have ht : m.ledger.nextTicket = t := by
        have := hi
        simp at this
        exact this.2.2
      -- Another call is behind it, so its ticket cannot be the newest.
      cases hq : m.ledger.waiters with
      | nil => simp [Ledger.enqueue, hq] at hw
      | cons w ws =>
          have hwt : w = t := by
            have := hw
            simp [Ledger.enqueue, hq] at this
            exact this.1
          have hlt := hm.1 w (hq ▸ List.mem_cons_self)
          exact absurd hlt (hwt ▸ ht ▸ Nat.lt_irrefl _)
  | rejoined hx | answered hx | returnTold hx | shut hx => exact asleep rfl rfl
  | turnedAway _ _ | closerSlept _ _ | drained _ _ => simp at hi
  | served _ _ _ _ _ | servedLast _ _ _ _ _ => simp at hi
  | claimed _ _ _ _ _ _ => simp at hi
  | timedOut _ _ _ _ | slept _ _ _ _ => simp at hi
  | takenBack _ | discarded _ | drainedOne _ | closeDone _ => simp at hi

theorem Machine.Strands.stranded {ns : List Notice} (h : m.Strands v)
    (ha : m.apply v = some (m', ns)) : m'.Stranded := by
  cases v with
  | step i =>
      obtain ⟨d, r, t, u, rest, hi, hc, hq, hw, hidle, hv, hr, hu⟩ := h
      obtain ⟨pre, post, hx, rfl⟩ := exists_split_of_getElem? hi
      have hf : m.ledger.waiters.head? = some t := by rw [hw]; rfl
      simp only [apply, hi] at ha
      obtain rfl := eq_of_moved ha
      unfold attend
      rw [Ledger.attend_of_vacant hc hf hidle (by omega) hr]
      simp only [setCall, hx, set_split]
      refine ⟨hc, ?_, ?_, u, ?_, by rw [hw]; rfl⟩
      · exact Machine.Quiet.before rfl hx rfl hq
      · change 0 < m.ledger.vacant - 1
        omega
      · rw [hx] at hu
        exact dozing_before hu (by simp [Call.dozes])
  | _ => exact h.elim

/-- A move strands a waiter when it lets the front claim one of several slots, and only then. -/
theorem Machine.Numbered.stranded_iff {ns : List Notice} (hm : m.Numbered)
    (hs : ¬ m.Stranded) (ha : m.apply v = some (m', ns)) : m'.Stranded ↔ m.Strands v := by
  refine ⟨fun h => ?_, fun h => h.stranded ha⟩
  -- Of two changes, only the second can strand a waiter, and then it is not a move by itself.
  obtain hc | ⟨m₁, h₁, h₂⟩ := Machine.apply_changes ha
  · exact (hc.stranded hm h).resolve_left hs
  · obtain h | h := h₂.stranded (hm.change h₁) h
    · exact (h₁.stranded hm h).resolve_left hs
    · cases v with
      | step i => exact absurd h (h₁.not_strands hm)
      | _ => exact h.elim

theorem Machine.Numbered.initial {capacity n : Nat} : (Machine.initial capacity n).Numbered :=
  ⟨nofun, nofun⟩

/-- **No waiter is stranded in a run exactly when no move of the run strands one**: when the front
claims one of several vacant slots, the next in the queue is awake, or will wake to retry, or
somebody is about to wake it. -/
theorem Trace.never_stranded_iff {capacity n : Nat} {tr : List (Machine × Move)}
    (h : Trace (Machine.initial capacity n) tr m) :
    ((∀ p ∈ tr, ¬ p.1.Stranded) ∧ ¬ m.Stranded) ↔ ∀ p ∈ tr, ¬ p.1.Strands p.2 := by
  -- By induction over the run: the state that the last move leaves is covered by `stranded_iff`.
  induction h with
  | nil =>
      refine ⟨fun _ => nofun, fun _ => ⟨nofun, ?_⟩⟩
      rintro ⟨-, -, -, t, ht, -⟩
      cases ht
  | @move tr m' m'' v ns ht hv ih =>
      have hm : m'.Numbered := ht.keep (fun hc hm => hm.change hc) .initial
      simp only [List.forall_mem_append, List.forall_mem_singleton]
      rw [ih]
      refine and_congr_right fun hs => not_congr ?_
      exact hm.stranded_iff (ih.mpr hs).2 hv

/-- A pool of two slots after its only connection came back broken: the second caller has waited
for its retry time and reopens one slot, and the third sleeps on next to the other one. -/
def Machine.degraded : Machine where
  capacity := 2
  ledger := ⟨[], 1, 1, false, [2], 3⟩
  calls := [.acquire ⟨none, none, .returned (.connection 0)⟩,
    .acquire ⟨none, some 500, .returned (.connection 1)⟩, .acquire ⟨none, none, .asleep 2 none⟩,
    .release ⟨0, true, .returned⟩]
  held := [⟨1, false⟩]
  clock := 500
  opened := 2
  attempts := 4
  destroyed := [0]

theorem Machine.degraded_follow :
    (Machine.initial 2 1).follow [.beginAcquire none, .step 0, .step 0, .beginAcquire none,
      .step 1, .connected 1 false, .step 1, .beginAcquire none, .step 2, .markBroken 0,
      .beginRelease 0 false, .step 3, .step 3, .step 3, .step 1, .step 2, .advance 500, .wake 1,
      .step 1, .connected 1 true] = some degraded := by decide

theorem never_stranded_iff_degraded :
    ∃ tr, Trace (Machine.initial 2 1) tr Machine.degraded ∧ ∃ p ∈ tr, p.1.Strands p.2 := by
  obtain ⟨tr, htr⟩ := Machine.exists_trace Machine.degraded_follow
  refine ⟨tr, htr, ?_⟩
  by_contra hno
  have hnone : ∀ p ∈ tr, ¬ p.1.Strands p.2 := fun p hp hs => hno ⟨p, hp, hs⟩
  have : ¬ Machine.degraded.Stranded := (htr.never_stranded_iff.mpr hnone).2
  exact this (by decide)

theorem not_forall_reachable_not_stranded : ¬ ∀ m : Machine, m.Reachable → ¬ m.Stranded := by
  intro h
  have start : (Machine.initial 2 1).Reachable := .start (by decide) (by decide)
  exact h Machine.degraded (start.follow Machine.degraded_follow) (by decide)

end PooledStore.Pool
