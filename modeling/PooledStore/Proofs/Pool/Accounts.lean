import PooledStore.Proofs.Pool.Change

/-!
# The pool's accounts

The ledger counts the connections that are out and the vacant slots. `slot_accounting` says what
the counters stand for in every reachable state: `inUse` counts the guards, the returns that have
not had the lock yet and the acquire calls with a claim, and idle, used and vacant slots make up
the capacity until a closer drains the idle queue.
-/

set_option autoImplicit false

namespace PooledStore.Pool

/-! ## What a call counts for -/

/-- The call has taken an idle connection or a vacant slot, and has neither returned nor given it
back. -/
def Call.claims : Call → Bool
  | .acquire ⟨_, _, .connecting _⟩ => true
  | .acquire ⟨_, _, .refused _⟩ => true
  | .acquire ⟨_, _, .notifying (.connection _)⟩ => true
  | _ => false

/-- The call brings a connection back and has not had the lock yet. -/
def Call.returns : Call → Bool
  | .release ⟨_, _, .arriving⟩ => true
  | _ => false

/-- The next step of the call takes one off the connections in use. -/
def Call.givesBack : Call → Bool
  | .release ⟨_, _, .arriving⟩ => true
  | .acquire ⟨_, _, .refused _⟩ => true
  | _ => false

/-- The call is a closer that has drained the idle queue. -/
def Call.hasDrained : Call → Bool
  | .close (.draining _) => true
  | .close .returned => true
  | _ => false

/-- The slots that the ledger knows of. -/
def Ledger.slots (l : Ledger) : Nat := l.idle.length + l.inUse + l.vacant

/-! ## The invariant -/

/-- What the counters of the ledger stand for. -/
structure Machine.Accounts (m : Machine) : Prop where
  inUse : m.ledger.inUse =
    m.held.length + m.calls.countP Call.returns + m.calls.countP Call.claims
  slots : m.calls.countP Call.hasDrained = 0 → m.ledger.slots = m.capacity
  bound : m.ledger.slots ≤ m.capacity

namespace Machine.Accounts

variable {m m' : Machine} {pre post : List Call} {x y : Call}

theorem initial {capacity n : Nat} (hc : n ≤ capacity) :
    (Machine.initial capacity n).Accounts := by
  have h : (Machine.initial capacity n).ledger.slots = capacity := by
    simp only [Machine.initial, Ledger.slots, List.length_range]
    omega
  exact ⟨rfl, fun _ => h, Nat.le_of_eq h⟩

/-- A call that has a claim, or brings a connection back, is counted as in use. -/
theorem inUse_pos (ha : m.Accounts) (hx : m.calls = pre ++ x :: post)
    (h : x.returns = true ∨ x.claims = true) : 0 < m.ledger.inUse := by
  have hu := ha.inUse
  rw [hx, countP_split, countP_split] at hu
  obtain h | h := h
  · rw [h, Bool.toNat_true] at hu; omega
  · rw [h, Bool.toNat_true] at hu; omega

/-- A change of one call keeps the accounts if what leaves one place of them comes to another. -/
theorem of_balance (ha : m.Accounts) (ht : m.Turned m' x y)
    (hcap : m'.capacity = m.capacity)
    (hu : m'.ledger.inUse + (m.held.length + x.returns.toNat + x.claims.toNat) =
      m.ledger.inUse + (m'.held.length + y.returns.toNat + y.claims.toNat))
    (hs : m'.ledger.slots = m.ledger.slots) (hd : x.hasDrained = y.hasDrained) :
    m'.Accounts := by
  have hr := ht.countP (p := Call.returns) ⟨fun _ _ _ _ => rfl, rfl⟩
  have hcl := ht.countP (p := Call.claims) ⟨fun _ _ _ _ => rfl, rfl⟩
  have hdr := ht.countP (p := Call.hasDrained) ⟨fun _ _ _ _ => rfl, rfl⟩
  have hin := ha.inUse
  refine ⟨by omega, fun h => ?_, ?_⟩
  · rw [hs, hcap]
    exact ha.slots (by rw [hd] at hdr; omega)
  · rw [hs, hcap]; exact ha.bound

/-- A call that begins is counted only for the guard that it takes. -/
theorem of_begun (ha : m.Accounts) (hy : m'.calls = m.calls ++ [y])
    (hcap : m'.capacity = m.capacity) (hl : m'.ledger = m.ledger)
    (hu : m.held.length = m'.held.length + y.returns.toNat) (hc : y.claims = false)
    (hd : y.hasDrained = false) : m'.Accounts := by
  have hr := countP_begun hy Call.returns
  have hcl := countP_begun hy Call.claims
  have hdr := countP_begun hy Call.hasDrained
  have hin := ha.inUse
  rw [hc, Bool.toNat_false] at hcl
  rw [hd, Bool.toNat_false] at hdr
  refine ⟨by rw [hl]; omega, fun h => ?_, ?_⟩
  · rw [hl, hcap]; exact ha.slots (by omega)
  · rw [hl, hcap]; exact ha.bound

theorem change {v : Move} (h : Change v m m') (ha : m.Accounts) : m'.Accounts := by
  cases h with
  | acquireBegun timeout | closeBegun => exact ha.of_begun rfl rfl rfl rfl rfl rfl
  | @releaseBegun _ g faulty hg =>
      -- The guard is counted as a return from now on.
      have hmem : g ∈ m.held := List.mem_of_find?_eq_some hg
      have hpos : 0 < m.held.length := List.length_pos_of_mem hmem
      refine ha.of_begun rfl rfl rfl ?_ rfl rfl
      simp only [List.length_erase_of_mem hmem, Call.returns, Bool.toNat_true]
      omega
  | marked c => exact ⟨by simpa using ha.inUse, ha.slots, ha.bound⟩
  | elapsed d => exact ⟨ha.inUse, ha.slots, ha.bound⟩
  | arrived hx | refused hx | woken hx | discarded hx | closerWoken hx | drainedOne hx
  | closeDone hx => exact ha.of_balance (.same hx rfl) rfl rfl rfl rfl
  | turnedAway hx _ | closerSlept hx _ => exact ha.of_balance (.same hx rfl) rfl rfl rfl rfl
  | timedOut hx _ _ _ | slept hx _ _ _ => exact ha.of_balance (.same hx rfl) rfl rfl rfl rfl
  | shut hx => exact ha.of_balance (.woken hx rfl) rfl rfl rfl rfl
  | served hx _ _ hi _ =>
      refine ha.of_balance (.same hx rfl) rfl ?_ ?_ rfl
      · simp [Call.returns, Call.claims]; omega
      · simp [Ledger.slots, hi]; omega
  | servedLast hx _ _ hi _ =>
      refine ha.of_balance (.same hx rfl) rfl ?_ ?_ rfl
      · simp [Call.returns, Call.claims]; omega
      · simp [Ledger.slots, hi]; omega
  | claimed hx _ _ hi hv _ =>
      refine ha.of_balance (.same hx rfl) rfl ?_ ?_ rfl
      · simp [Call.returns, Call.claims]; omega
      · simp [Ledger.slots, hi]; omega
  | rejoined hx =>
      -- The claim was counted, so the slot can be given back.
      have hpos := ha.inUse_pos hx (Or.inr rfl)
      refine ha.of_balance (.woken hx rfl) rfl ?_ ?_ rfl
      · simp [Ledger.rejoin, Call.returns, Call.claims]; omega
      · simp [Ledger.rejoin, Ledger.slots]; omega
  | @answered _ pre post d r ans hx =>
      refine ha.of_balance (.woken hx rfl) rfl ?_ rfl rfl
      cases ans <;> simp [Answer.guards, Call.returns, Call.claims]
  | reopened hx =>
      refine ha.of_balance (.same hx rfl) rfl ?_ rfl rfl
      simp [Call.returns, Call.claims]
  | @takenBack _ pre post c b hx =>
      -- One connection less is in use, and there is one idle connection or one vacant slot more.
      have hpos := ha.inUse_pos hx (Or.inl rfl)
      refine ha.of_balance (.same hx rfl) rfl ?_ ?_ rfl
      · cases b <;> simp [Ledger.takeBack, Call.returns, Call.claims] <;> omega
      · cases b <;> simp [Ledger.takeBack, Ledger.slots] <;> omega
  | @returnTold _ pre post c b hx =>
      exact ha.of_balance (.woken hx rfl) rfl (by cases b <;> rfl) rfl rfl
  | @drained _ pre post hx hu =>
      -- The only change after which slots are missing; from now on a closer has drained.
      have hin := ha.inUse
      have hb := ha.bound
      rw [hx, countP_split, countP_split] at hin
      refine ⟨?_, fun h => ?_, ?_⟩
      · simpa [countP_split, Call.returns, Call.claims] using hin
      · simp [Call.hasDrained] at h
      · simp only [Ledger.slots, List.length_nil] at hb ⊢; omega

end Machine.Accounts

theorem Machine.Reachable.accounts {m : Machine} (h : m.Reachable) : m.Accounts :=
  h.keep (fun _ hc => .initial hc) fun hv ha => ha.change hv

theorem Ledger.vacant_pos_of_reopen {l l' : Ledger} {now : Time} {t : Ticket} {d r : Option Time}
    (h : l.attend now t d r = (l', .reopen)) : 0 < l.vacant := by
  cases hc : l.closed with
  | true => simp [attend_of_closed hc] at h
  | false =>
      obtain ⟨c, rest, hf, hi⟩ | ⟨_, _, hv, _⟩ | hu := l.look_cases now t r
      · simp [attend_of_idle hc hf hi] at h
      · exact hv
      · rw [attend_of_unserved hc hu, wait] at h
        split at h
        · simp at h
        · simp at h

/-- **What the counters stand for.** In every reachable state the connections in use are the
guards, the returns that have not had the lock yet and the acquire calls with a claim. All slots
are accounted for until a closer drains the idle queue, and never more than there are. So a step
that takes one off a counter finds it positive, and no view of the pool shows more connections
than its capacity. -/
theorem Machine.Reachable.slot_accounting {m : Machine} (h : m.Reachable) :
    m.ledger.inUse = m.held.length + m.calls.countP Call.returns + m.calls.countP Call.claims ∧
    ((∀ c ∈ m.calls, c.hasDrained = false) →
      m.ledger.idle.length + m.ledger.inUse + m.ledger.vacant = m.capacity) ∧
    m.ledger.idle.length + m.ledger.inUse + m.ledger.vacant ≤ m.capacity ∧
    (∀ c ∈ m.calls, c.givesBack = true → 0 < m.ledger.inUse) ∧
    (∀ (l l' : Ledger) (now : Time) (t : Ticket) (d r : Option Time),
      l.attend now t d r = (l', .reopen) → 0 < l.vacant) ∧
    m.snapshot.idle + m.snapshot.inUse ≤ m.snapshot.capacity := by
  have ha := h.accounts
  have hb := ha.bound
  refine ⟨ha.inUse, fun hd => ha.slots ?_, hb, fun c hc hg => ?_,
    fun l l' now t d r hl => Ledger.vacant_pos_of_reopen hl, ?_⟩
  · rw [List.countP_eq_zero]
    intro c hc
    simp [hd c hc]
  · obtain ⟨pre, post, hx⟩ := List.append_of_mem hc
    refine ha.inUse_pos hx ?_
    match c, hg with
    | .release ⟨_, _, .arriving⟩, _ => exact Or.inl rfl
    | .acquire ⟨_, _, .refused _⟩, _ => exact Or.inr rfl
  · simp only [snapshot, Ledger.slots] at hb ⊢
    omega

/-- A pool of three with a vacant slot, after ten moves: one connection is out, one is on its way
back, and one call has just failed to reopen the slot. -/
def Machine.contended : Machine where
  capacity := 3
  ledger := ⟨[], 3, 0, false, [], 3⟩
  calls := [.acquire ⟨none, none, .returned (.connection 0)⟩,
    .acquire ⟨none, none, .returned (.connection 1)⟩, .acquire ⟨some 40, none, .refused 2⟩,
    .release ⟨0, true, .arriving⟩]
  held := [⟨1, false⟩]
  clock := 0
  opened := 2
  attempts := 4
  destroyed := []

theorem Machine.contended_reachable : contended.Reachable := by
  have start : (Machine.initial 3 2).Reachable := .start (by decide) (by decide)
  have moves : (Machine.initial 3 2).follow [.beginAcquire none, .step 0, .step 0,
      .beginAcquire none, .step 1, .step 1, .beginAcquire (some 40), .step 2,
      .connected 2 false, .beginRelease 0 true] = some contended := by decide
  exact start.follow moves

theorem slot_accounting_contended :
    Machine.contended.Reachable ∧ Machine.contended.ledger.inUse = 1 + 1 + 1 ∧
      0 + 3 + 0 = Machine.contended.capacity ∧ 0 < Machine.contended.ledger.inUse := by
  have h := Machine.contended_reachable
  obtain ⟨hu, hs, -, hg, -, -⟩ := h.slot_accounting
  exact ⟨h, hu, hs (by decide), hg (.release ⟨0, true, .arriving⟩) (by decide) rfl⟩

end PooledStore.Pool
