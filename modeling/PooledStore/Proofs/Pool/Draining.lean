import PooledStore.Proofs.Pool.Lending

/-!
# The end of a pool

A closer waits until no connection is in use, and then drains the idle queue. From the flag on, the
number of connections in use can only fall (`Change.inUse_le`), since everything that raises it
happens in an open pool. Once a closer has drained the queue, the pool is closed, nothing is idle
and nothing in use (`Machine.Emptied`), and this is how it stays (`close_final`): whatever would
change it is a call that counts as in use, and there is none.
-/

set_option autoImplicit false

namespace PooledStore.Pool

variable {m m' : Machine} {v : Move}

/-! ## A closed pool -/

/-- In a closed pool no change raises the number of connections in use. -/
theorem Change.inUse_le (h : Change v m m') (hc : m.ledger.closed = true) :
    m'.ledger.inUse ≤ m.ledger.inUse := by
  cases h with
  | served _ ho _ _ _ | servedLast _ ho _ _ _ => rw [hc] at ho; cases ho
  | claimed _ ho _ _ _ _ => rw [hc] at ho; cases ho
  | rejoined _ => exact Nat.sub_le _ _
  | @takenBack _ pre post c b _ =>
      show (m.ledger.takeBack c b).inUse ≤ m.ledger.inUse
      unfold Ledger.takeBack
      split
      · exact Nat.sub_le _ _
      · exact Nat.sub_le _ _
  | _ => exact Nat.le_refl _

/-- Through a run of a closed pool the flag stays set, and no more connections come to be in use. -/
theorem Trace.inUse_le {tr : List (Machine × Move)} (h : Trace m tr m')
    (hc : m.ledger.closed = true) :
    m'.ledger.closed = true ∧ m'.ledger.inUse ≤ m.ledger.inUse := by
  refine h.keep (P := fun a => a.ledger.closed = true ∧ a.ledger.inUse ≤ m.ledger.inUse) ?_
    ⟨hc, Nat.le_refl _⟩
  intro w a b hv ha
  rcases ha with ⟨ha, hle⟩
  exact ⟨hv.closed ha, Nat.le_trans (hv.inUse_le ha) hle⟩

/-! ## An emptied pool -/

/-- The pool is closed, and no slot of it holds a connection. -/
structure Machine.Emptied (m : Machine) : Prop where
  closed : m.ledger.closed = true
  idle : m.ledger.idle = []
  inUse : m.ledger.inUse = 0

namespace Machine.Emptied

variable {pre post : List Call} {x : Call}

/-- No guard is live in an emptied pool, and no call is counted as in use. -/
theorem nothing_out (he : m.Emptied) (ha : m.Accounts) :
    m.held = [] ∧ ∀ x ∈ m.calls, x.returns = false ∧ x.claims = false := by
  have hu := ha.inUse
  rw [he.inUse] at hu
  have hr : m.calls.countP Call.returns = 0 := by omega
  have hcl : m.calls.countP Call.claims = 0 := by omega
  refine ⟨List.eq_nil_of_length_eq_zero (by omega), fun x hx => ⟨?_, ?_⟩⟩
  · simpa using List.countP_eq_zero.mp hr x hx
  · simpa using List.countP_eq_zero.mp hcl x hx

theorem not_counted (he : m.Emptied) (ha : m.Accounts) (hx : m.calls = pre ++ x :: post) :
    x.returns = false ∧ x.claims = false :=
  (he.nothing_out ha).2 x (by rw [hx]; exact List.mem_append_right _ List.mem_cons_self)

/-- An emptied pool stays so: a call that would take a connection finds the pool closed, and no
call has one to bring back. -/
theorem change (h : Change v m m') (ha : m.Accounts) (he : m.Emptied) : m'.Emptied := by
  cases h with
  | served _ ho _ _ _ | servedLast _ ho _ _ _ => rw [he.closed] at ho; cases ho
  | claimed _ ho _ _ _ _ => rw [he.closed] at ho; cases ho
  | rejoined hx => cases (he.not_counted ha hx).2
  | takenBack hx => cases (he.not_counted ha hx).1
  | drained _ hu => exact ⟨he.closed, rfl, hu⟩
  | shut _ => exact ⟨rfl, he.idle, he.inUse⟩
  | _ => exact ⟨he.closed, he.idle, he.inUse⟩

/-- A change in an emptied pool lends no connection, and opens none. -/
theorem lends_nothing (h : Change v m m') (ha : m.Accounts) (he : m.Emptied) :
    m'.opened = m.opened ∧ ∀ c, m'.timesLent c = m.timesLent c := by
  have hopened : m'.opened = m.opened := by
    cases h with
    | reopened hx => cases (he.not_counted ha hx).2
    | _ => rfl
  refine ⟨hopened, fun c => ?_⟩
  rcases h.lends c with hs | ⟨-, hh⟩ | ⟨-, -, ho⟩
  · exact hs
  · rw [he.idle] at hh
    cases hh
  · omega

end Machine.Emptied

/-- Draining empties the pool: the closer that does it has set the flag, and nothing is in use. -/
theorem Change.drained_cases (h : Change v m m') (hs : m.ShutKnown) :
    m'.calls.countP Call.hasDrained = m.calls.countP Call.hasDrained ∨ m'.Emptied := by
  have same : ∀ {x y : Call}, m.Turned m' x y → x.hasDrained = y.hasDrained →
      m'.calls.countP Call.hasDrained = m.calls.countP Call.hasDrained := by
    intro x y ht hxy
    have hcount := ht.countP (p := Call.hasDrained) ⟨fun _ _ _ _ => rfl, rfl⟩
    rw [hxy] at hcount
    omega
  have begun : ∀ {y : Call}, m'.calls = m.calls ++ [y] → y.hasDrained = false →
      m'.calls.countP Call.hasDrained = m.calls.countP Call.hasDrained := by
    intro y hy hd
    rw [Machine.countP_begun hy, hd]
    rfl
  cases h with
  | acquireBegun timeout | closeBegun | releaseBegun faulty _ => exact Or.inl (begun rfl rfl)
  | marked d | elapsed d => exact Or.inl rfl
  | arrived hx | refused hx | woken hx | reopened hx | takenBack hx | discarded hx
  | closerWoken hx | drainedOne hx | closeDone hx => exact Or.inl (same (.same hx rfl) rfl)
  | turnedAway hx _ | closerSlept hx _ => exact Or.inl (same (.same hx rfl) rfl)
  | timedOut hx _ _ _ | slept hx _ _ _ => exact Or.inl (same (.same hx rfl) rfl)
  | served hx _ _ _ _ | servedLast hx _ _ _ _ => exact Or.inl (same (.same hx rfl) rfl)
  | claimed hx _ _ _ _ _ => exact Or.inl (same (.same hx rfl) rfl)
  | rejoined hx | answered hx | shut hx => exact Or.inl (same (.woken hx rfl) rfl)
  | @returnTold _ pre post c b hx => exact Or.inl (same (.woken hx rfl) rfl)
  | drained hx hu =>
      refine Or.inr ⟨?_, rfl, hu⟩
      -- A closer drains only after it has set the flag.
      show m.ledger.closed = true
      by_contra ho
      have h0 := hs (by simpa using ho)
      rw [hx, countP_split] at h0
      exact absurd h0 (by simp [Call.hasShut])

theorem Machine.Reachable.emptied (h : m.Reachable) (hd : ∃ x ∈ m.calls, x.hasDrained = true) :
    m.Emptied := by
  have key : m.ShutKnown ∧ m.Accounts ∧
      (m.calls.countP Call.hasDrained ≠ 0 → m.Emptied) := by
    refine h.keep (P := fun a => a.ShutKnown ∧ a.Accounts ∧
      (a.calls.countP Call.hasDrained ≠ 0 → a.Emptied)) ?_ ?_
    · intro capacity n _ hc
      exact ⟨fun _ => rfl, .initial hc, fun hne => absurd rfl hne⟩
    · intro w a b hv hall
      rcases hall with ⟨hs, ha, he⟩
      refine ⟨hs.change hv, ha.change hv, fun hne => ?_⟩
      rcases hv.drained_cases hs with heq | hemptied
      · exact (he (heq ▸ hne)).change hv ha
      · exact hemptied
  rcases hd with ⟨x, hx, hdrained⟩
  exact key.2.2 (Nat.ne_of_gt (List.countP_pos_iff.mpr ⟨x, hx, hdrained⟩))

/-- **Closing is final.** From the flag on, the number of connections in use never rises. Once a
closer has drained the idle queue, then and at every later time the pool is closed, nothing is idle
and nothing in use, and no guard is live; no connection is lent any more, and none is opened. -/
theorem Machine.Reachable.close_final (h : m.Reachable) :
    (m.ledger.closed = true → ∀ tr m', Trace m tr m' →
      m'.ledger.closed = true ∧ m'.ledger.inUse ≤ m.ledger.inUse) ∧
    ((∃ x ∈ m.calls, x.hasDrained = true) → ∀ tr m', Trace m tr m' →
      m'.ledger.inUse = 0 ∧ m'.ledger.idle = [] ∧ m'.ledger.closed = true ∧
        (m'.held = [] ∧ ∀ x ∈ m'.calls, x.returns = false ∧ x.claims = false) ∧
        m'.opened = m.opened ∧ ∀ c, m'.timesLent c = m.timesLent c) := by
  refine ⟨fun hc tr m' ht => ht.inUse_le hc, fun hd tr m' ht => ?_⟩
  have key : m'.Accounts ∧ m'.Emptied ∧ m'.opened = m.opened ∧
      ∀ c, m'.timesLent c = m.timesLent c := by
    refine ht.keep (P := fun a => a.Accounts ∧ a.Emptied ∧ a.opened = m.opened ∧
      ∀ c, a.timesLent c = m.timesLent c) ?_ ⟨h.accounts, h.emptied hd, rfl, fun _ => rfl⟩
    intro w a b hv hall
    rcases hall with ⟨ha, he, ho, hl⟩
    have hnone := he.lends_nothing hv ha
    exact ⟨ha.change hv, he.change hv ha, hnone.1.trans ho, fun c => (hnone.2 c).trans (hl c)⟩
  rcases key with ⟨ha, he, ho, hl⟩
  exact ⟨he.inUse, he.idle, he.closed, he.nothing_out ha, ho, hl⟩

/-- A pool of one slot whose borrower has given the connection back while two closers wait for it;
the first of them has drained the idle queue. -/
def Machine.drainedOnce : Machine where
  capacity := 1
  ledger := ⟨[], 0, 0, true, [], 1⟩
  calls := [.acquire ⟨none, none, .returned (.connection 0)⟩, .close (.draining [0]),
    .close .awake, .release ⟨0, false, .returned⟩]
  held := []
  clock := 0
  opened := 1
  attempts := 1
  destroyed := []

theorem Machine.drainedOnce_reachable : drainedOnce.Reachable := by
  have start : (Machine.initial 1 1).Reachable := .start (by decide) (by decide)
  have moves : (Machine.initial 1 1).follow [.beginAcquire none, .step 0, .beginClose, .step 1,
      .beginClose, .step 2, .beginRelease 0 false, .step 3, .step 3, .step 1] =
        some drainedOnce := by
    decide
  exact start.follow moves

/-- The other closer drains the queue too, and a call that comes later is turned away. -/
def Machine.drainedTwice : Machine where
  capacity := 1
  ledger := ⟨[], 0, 0, true, [], 2⟩
  calls := [.acquire ⟨none, none, .returned (.connection 0)⟩, .close .returned,
    .close (.draining []), .release ⟨0, false, .returned⟩,
    .acquire ⟨none, none, .returned .closed⟩]
  held := []
  clock := 0
  opened := 1
  attempts := 1
  destroyed := [0]

theorem close_final_drainedOnce :
    Machine.drainedOnce.Reachable ∧ (∃ x ∈ Machine.drainedOnce.calls, x.hasDrained = true) ∧
      ∃ tr, Trace Machine.drainedOnce tr Machine.drainedTwice ∧
        Machine.drainedTwice.ledger.inUse = 0 ∧ Machine.drainedTwice.ledger.idle = [] ∧
        Machine.drainedTwice.held = [] ∧
        ∀ c, Machine.drainedTwice.timesLent c = Machine.drainedOnce.timesLent c := by
  have hd : ∃ x ∈ Machine.drainedOnce.calls, x.hasDrained = true :=
    ⟨.close (.draining [0]), by decide, rfl⟩
  have moves : Machine.drainedOnce.follow [.beginAcquire none, .step 4, .step 1, .step 2, .step 1,
      .step 4] = some Machine.drainedTwice := by
    decide
  rcases Machine.exists_trace moves with ⟨tr, ht⟩
  have h := Machine.drainedOnce_reachable
  rcases h.close_final.2 hd tr _ ht with ⟨hu, hi, -, ⟨hh, -⟩, -, hl⟩
  exact ⟨h, hd, tr, ht, hu, hi, hh, hl⟩

end PooledStore.Pool
