import PooledStore.Pool.Schedule
import PooledStore.Proofs.Pool.Spent

/-!
# Settling

While time stands still the calls of a pool advance until each of them sleeps or has returned. The
moves that are left are bounded by a measure (`Machine.effort`): each step of a call takes more off
its own share of it than it adds to the shares of the sleepers that it wakes. So `Run.settle`, which
stops after `Run.stepBound` steps, stops because no call can advance (`Run.settle_rests`).
-/

set_option autoImplicit false

namespace PooledStore.Pool

variable {m m' : Machine} {v : Move} {k : Nat} {now : Time}

/-! ## What a pool does by itself -/

/-- The pool makes the move by itself: no call begins, and no borrower does anything. -/
def Move.own : Move → Bool
  | .advance _ => true
  | .step _ => true
  | .connected _ _ => true
  | .wake _ => true
  | _ => false

namespace Machine

/-- From the one state the pool gets to the other by itself. -/
def RunsTo (m m' : Machine) : Prop := ∃ tr, Trace m tr m' ∧ ∀ p ∈ tr, p.2.own = true

namespace RunsTo

variable {m₁ : Machine}

theorem refl (m : Machine) : m.RunsTo m := ⟨[], .nil, nofun⟩

theorem of_apply {ns : List Notice} (h : m.apply v = some (m', ns)) (hv : v.own = true) :
    m.RunsTo m' := by
  refine ⟨_, .move .nil h, fun p hp => ?_⟩
  rw [List.mem_singleton.mp hp]
  exact hv

theorem trans (h : m.RunsTo m₁) (h' : m₁.RunsTo m') : m.RunsTo m' := by
  obtain ⟨tr, ht, hown⟩ := h
  obtain ⟨tr', ht', hown'⟩ := h'
  induction ht' with
  | nil => exact ⟨tr, ht, hown⟩
  | @move tr' m₂ m' v ns _ hv ih =>
      rw [List.forall_mem_append] at hown'
      obtain ⟨tr₁, ht₁, hown₁⟩ := ih hown'.1
      exact ⟨_, .move ht₁ hv, List.forall_mem_append.mpr ⟨hown₁, hown'.2⟩⟩

theorem leads (h : m.RunsTo m') : m.Leads m' := by
  obtain ⟨tr, ht, -⟩ := h
  exact ⟨tr, ht⟩

end RunsTo

end Machine

namespace Run

variable {σ ε : Type} {mgr : Manager σ ε} {r : Run σ} {connectsHeld : Bool} {cause : String}

theorem machine_foldl_heed (ns : List Notice) :
    (ns.foldl (heed mgr cause) r).machine = r.machine := by
  induction ns generalizing r with
  | nil => rfl
  | cons n ns ih =>
      rw [List.foldl_cons, ih]
      cases n <;> rfl

theorem perform_machine {ns : List Notice} (h : r.machine.apply v = some (m', ns)) :
    (perform mgr r v cause).machine = m' := by
  unfold perform
  rw [h]
  exact machine_foldl_heed ns

theorem leads_perform : r.machine.Leads (perform mgr r v cause).machine := by
  unfold perform
  split
  · exact .refl _
  · next hv =>
      rw [machine_foldl_heed]
      exact .of_apply hv

theorem runsTo_perform (hv : v.own = true) :
    r.machine.RunsTo (perform mgr r v cause).machine := by
  unfold perform
  split
  · exact .refl _
  · next h =>
      rw [machine_foldl_heed]
      exact .of_apply h hv

theorem runsTo_advanceCall {i : Nat} : r.machine.RunsTo (advanceCall mgr r i).machine := by
  unfold advanceCall
  split
  · split
    · next w _ => exact runsTo_perform (r := { r with world := w }) rfl
    · next w _ _ => exact runsTo_perform (r := { r with world := w }) rfl
  · exact runsTo_perform rfl

theorem runsTo_settleFor (fuel : Nat) :
    r.machine.RunsTo (settleFor mgr connectsHeld fuel r).machine := by
  induction fuel generalizing r with
  | zero => exact .refl _
  | succ fuel ih =>
      unfold settleFor
      split
      · exact .refl _
      · exact runsTo_advanceCall.trans ih

theorem runsTo_settle (mgr : Manager σ ε) (r : Run σ) (connectsHeld : Bool) :
    r.machine.RunsTo (settle mgr r connectsHeld).machine := runsTo_settleFor _

theorem runsTo_wakeDue : r.machine.RunsTo (wakeDue mgr r connectsHeld).machine := by
  have woken : ∀ (due : List Nat) (r : Run σ),
      r.machine.RunsTo (due.foldl (fun r i => perform mgr r (.wake i) "") r).machine := by
    intro due
    induction due with
    | nil => exact fun r => .refl _
    | cons i due ih => exact fun r => (runsTo_perform rfl).trans (ih _)
  unfold wakeDue
  exact (woken _ r).trans (runsTo_settle _ _ _)

theorem runsTo_wakeDueFor (fuel : Nat) :
    r.machine.RunsTo (wakeDueFor mgr connectsHeld fuel r).machine := by
  induction fuel generalizing r with
  | zero => exact .refl _
  | succ fuel ih =>
      unfold wakeDueFor
      dsimp only
      split
      · exact runsTo_wakeDue
      · exact runsTo_wakeDue.trans ih

theorem runsTo_calm : r.machine.RunsTo (calm mgr r connectsHeld).machine :=
  (runsTo_settle mgr r connectsHeld).trans (runsTo_wakeDueFor _)

theorem runsTo_awaitCall {i : Nat} (fuel : Nat) :
    r.machine.RunsTo (awaitCall mgr connectsHeld i fuel r).machine := by
  induction fuel generalizing r with
  | zero => exact .refl _
  | succ fuel ih =>
      unfold awaitCall
      split
      · exact .refl _
      · split
        · exact .refl _
        · next r' he =>
            obtain ⟨t, -, rfl⟩ := Option.map_eq_some_iff.mp he
            exact ((runsTo_perform rfl).trans runsTo_calm).trans ih

end Run

/-! ## The measure -/

/-- What an attempt to connect adds, for a call that may make one now. -/
def Acquire.retryEffort (k : Nat) (now : Time) (a : Acquire) : Nat :=
  if a.retryAt = none ∨ Ledger.reached now a.retryAt = true then k + 2 else 0

/-- A bound on the steps to come of an acquire call while time stands still, where waking all
sleepers counts for `k` steps. -/
def Acquire.effort (k : Nat) (now : Time) (a : Acquire) : Nat :=
  match a.phase with
  | .arriving => 2 * k + 4
  | .awake _ => k + 1 + a.retryEffort k now
  | .asleep .. => k + a.retryEffort k now
  | .connecting _ => 2 * k + 2
  | .refused _ => 2 * k + 1
  | .notifying _ => k
  | .returned _ => 0

def Release.effort (k : Nat) (r : Release) : Nat :=
  match r.phase with
  | .arriving => k + 3
  | .notifying => k + 1
  | .destroying => 1
  | .returned => 0

def Close.effort (k : Nat) : Close → Nat
  | .arriving => k + 2
  | .awake => 2
  | .asleep => 1
  | .draining rest => rest.length + 1
  | .returned => 0

def Call.effort (k : Nat) (now : Time) : Call → Nat
  | .acquire a => a.effort k now
  | .release r => r.effort k
  | .close c => c.effort k

/-- The shares of several calls together. -/
def efforts (k : Nat) (now : Time) : List Call → Nat
  | [] => 0
  | c :: cs => c.effort k now + efforts k now cs

theorem efforts_append (k : Nat) (now : Time) (l l' : List Call) :
    efforts k now (l ++ l') = efforts k now l + efforts k now l' := by
  induction l with
  | nil => exact (Nat.zero_add _).symm
  | cons c l ih =>
      calc c.effort k now + efforts k now (l ++ l')
          = c.effort k now + (efforts k now l + efforts k now l') := by rw [ih]
        _ = c.effort k now + efforts k now l + efforts k now l' := by omega

/-- A bound on the steps to come of all calls while time stands still. An idle connection counts,
since a closer may have to destroy it. -/
def Machine.effort (k : Nat) (m : Machine) : Nat :=
  efforts k m.clock m.calls + m.ledger.idle.length

/-- The move is a step of a call, or the end of its attempt to connect. -/
def Move.proceeds : Move → Bool
  | .step _ => true
  | .connected _ _ => true
  | _ => false

theorem Call.effort_roused_le (k : Nat) (now : Time) (c : Call) :
    c.roused.effort k now ≤ c.effort k now + 1 := by
  obtain h | ⟨d, r, t, w, rfl, h⟩ | ⟨rfl, h⟩ := c.roused_cases
  · rw [h]
    exact Nat.le_succ _
  · rw [h]
    simp only [effort, Acquire.effort, Acquire.retryEffort]
    omega
  · rw [h]
    exact Nat.le_refl _

theorem efforts_roused_le (k : Nat) (now : Time) (l : List Call) :
    efforts k now (l.map Call.roused) ≤ efforts k now l + l.length := by
  induction l with
  | nil => exact Nat.le_refl _
  | cons c l ih =>
      have hc := c.effort_roused_le k now
      simp only [List.map_cons, efforts, List.length_cons]
      omega

theorem Acquire.retryEffort_le (k : Nat) (now : Time) (a : Acquire) :
    a.retryEffort k now ≤ k + 2 := by
  unfold retryEffort
  split
  · exact Nat.le_refl _
  · exact Nat.zero_le _

/-! ## Each step lowers the measure -/

/-- One call moves on while the others stay as they are. -/
theorem Machine.effort_lt_of_turned {pre post : List Call} {x y : Call}
    (hx : m.calls = pre ++ x :: post) (hy : m'.calls = pre ++ y :: post)
    (hclock : m'.clock = m.clock)
    (hlt : y.effort k m.clock + m'.ledger.idle.length <
      x.effort k m.clock + m.ledger.idle.length) : m'.effort k < m.effort k := by
  simp only [effort, hx, hy, hclock, efforts_append, efforts]
  omega

/-- One call moves on and wakes the others. Each sleeper it wakes gains one step, and there are
fewer than `k` of them. -/
theorem Machine.effort_lt_of_roused {pre post : List Call} {x y : Call}
    (hx : m.calls = pre ++ x :: post)
    (hy : m'.calls = pre.map Call.roused ++ y :: post.map Call.roused) (hclock : m'.clock = m.clock)
    (hk : m.calls.length < k)
    (hle : y.effort k m.clock + m'.ledger.idle.length + k ≤
      x.effort k m.clock + m.ledger.idle.length) : m'.effort k < m.effort k := by
  have hpre := efforts_roused_le k m.clock pre
  have hpost := efforts_roused_le k m.clock post
  have hlen : m.calls.length = pre.length + (post.length + 1) := by
    rw [hx, List.length_append, List.length_cons]
  simp only [effort, hx, hy, hclock, efforts_append, efforts]
  omega

/-- Every change that a step of a call is made of lowers the measure. -/
theorem Change.effort_lt (h : Change v m m') (hv : v.proceeds = true) (hk : m.calls.length < k) :
    m'.effort k < m.effort k := by
  -- One case for each change: what the call has left to do before and after it, and whether it
  -- wakes the sleepers.
  cases h with
  | acquireBegun timeout | closeBegun | releaseBegun faulty _ => cases hv
  | marked d | elapsed d => cases hv
  | woken hx | closerWoken hx => cases hv
  | @arrived _ pre post d r hx =>
      have hle := Acquire.retryEffort_le k m.clock ⟨d, r, .awake m.ledger.nextTicket⟩
      refine Machine.effort_lt_of_turned hx rfl rfl ?_
      simp only [Call.effort, Acquire.effort, Ledger.enqueue]
      omega
  | turnedAway hx _ =>
      refine Machine.effort_lt_of_turned hx rfl rfl ?_
      simp only [Call.effort, Acquire.effort, Ledger.leave]
      omega
  | timedOut hx _ _ _ =>
      refine Machine.effort_lt_of_turned hx rfl rfl ?_
      simp only [Call.effort, Acquire.effort, Ledger.leave]
      omega
  | served hx _ _ hi _ =>
      refine Machine.effort_lt_of_turned hx rfl rfl ?_
      simp only [Call.effort, Acquire.effort, hi, List.length_cons]
      omega
  | servedLast hx _ _ hi _ =>
      refine Machine.effort_lt_of_turned hx rfl rfl ?_
      simp only [Call.effort, Acquire.effort, hi, List.length_cons, List.length_nil]
      omega
  | @claimed _ pre post d r t hx _ _ _ _ hr =>
      have hmay : Acquire.retryEffort k m.clock ⟨d, r, .awake t⟩ = k + 2 := if_pos hr
      refine Machine.effort_lt_of_turned hx rfl rfl ?_
      simp only [Call.effort, Acquire.effort, hmay]
      omega
  | slept hx _ _ _ =>
      refine Machine.effort_lt_of_turned hx rfl rfl ?_
      simp only [Call.effort, Acquire.effort, Acquire.retryEffort]
      omega
  | @rejoined _ pre post d r t hx =>
      -- Its retry time is still to come, so it makes no attempt any more.
      have hlater : Acquire.retryEffort k m.clock
          ⟨d, some (m.clock + reopenInterval), .awake t⟩ = 0 := by
        refine if_neg ?_
        rw [Ledger.reached_reopen]
        exact nofun
      refine Machine.effort_lt_of_roused hx rfl rfl hk ?_
      simp only [Call.effort, Acquire.effort, hlater, Ledger.rejoin]
      omega
  | answered hx =>
      refine Machine.effort_lt_of_roused hx rfl rfl hk ?_
      simp only [Call.effort, Acquire.effort]
      omega
  | reopened hx | refused hx =>
      refine Machine.effort_lt_of_turned hx rfl rfl ?_
      simp only [Call.effort, Acquire.effort]
      omega
  | @takenBack _ pre post c b hx =>
      have hidle : (m.ledger.takeBack c b).idle.length ≤ m.ledger.idle.length + 1 := by
        cases b with
        | true => exact Nat.le_succ _
        | false => exact Nat.le_of_eq List.length_append
      refine Machine.effort_lt_of_turned hx rfl rfl ?_
      simp only [Call.effort, Release.effort]
      omega
  | @returnTold _ pre post c b hx =>
      have hleft : Release.effort k ⟨c, b, if b then .destroying else .returned⟩ ≤ 1 := by
        cases b with
        | true => exact Nat.le_refl 1
        | false => exact Nat.zero_le 1
      refine Machine.effort_lt_of_roused hx rfl rfl hk ?_
      simp only [Call.effort]
      have htold : Release.effort k ⟨c, b, .notifying⟩ = k + 1 := rfl
      omega
  | discarded hx =>
      refine Machine.effort_lt_of_turned hx rfl rfl ?_
      simp only [Call.effort, Release.effort]
      omega
  | shut hx =>
      refine Machine.effort_lt_of_roused hx rfl rfl hk ?_
      simp only [Call.effort, Close.effort]
      omega
  | closerSlept hx _ =>
      refine Machine.effort_lt_of_turned hx rfl rfl ?_
      simp only [Call.effort, Close.effort]
      omega
  | drained hx _ =>
      refine Machine.effort_lt_of_turned hx rfl rfl ?_
      simp only [Call.effort, Close.effort, List.length_nil]
      omega
  | drainedOne hx =>
      refine Machine.effort_lt_of_turned hx rfl rfl ?_
      simp only [Call.effort, Close.effort, List.length_cons]
      omega
  | closeDone hx =>
      refine Machine.effort_lt_of_turned hx rfl rfl ?_
      simp only [Call.effort, Close.effort, List.length_nil]
      omega

theorem Change.length_calls (h : Change v m m') (hv : v.proceeds = true) :
    m'.calls.length = m.calls.length := by
  cases h with
  | acquireBegun timeout | closeBegun | releaseBegun faulty _ => cases hv
  | marked d | elapsed d => rfl
  | arrived hx | refused hx | woken hx | reopened hx | rejoined hx | answered hx => simp [hx]
  | turnedAway hx _ => simp [hx]
  | timedOut hx _ _ _ | slept hx _ _ _ => simp [hx]
  | served hx _ _ _ _ | servedLast hx _ _ _ _ => simp [hx]
  | claimed hx _ _ _ _ _ => simp [hx]
  | takenBack hx | returnTold hx | discarded hx | shut hx | closerWoken hx | drainedOne hx
  | closeDone hx => simp [hx]
  | closerSlept hx _ | drained hx _ => simp [hx]

/-- A move by which a call proceeds lowers the measure. -/
theorem Machine.effort_lt_of_apply {ns : List Notice} (h : m.apply v = some (m', ns))
    (hv : v.proceeds = true) (hk : m.calls.length < k) :
    m'.effort k < m.effort k ∧ m'.calls.length = m.calls.length := by
  obtain h | ⟨m₁, h₁, h₂⟩ := apply_changes h
  · exact ⟨h.effort_lt hv hk, h.length_calls hv⟩
  · have hlen := h₁.length_calls hv
    exact ⟨Nat.lt_trans (h₂.effort_lt hv (hlen ▸ hk)) (h₁.effort_lt hv hk),
      (h₂.length_calls hv).trans hlen⟩

/-! ## Running until nothing moves -/

/-- No call can advance: each sleeps or has returned. -/
def Machine.AtRest (m : Machine) : Prop := ∀ c ∈ m.calls, Run.canAdvance false c = false

namespace Run

variable {σ ε : Type} {mgr : Manager σ ε} {r : Run σ} {i : Nat} {c : Call}

/-- A call that can advance does. -/
theorem advanceCall_proceeds (mgr : Manager σ ε) (hc : r.machine.calls[i]? = some c)
    (ha : canAdvance false c = true) : ∃ v m' ns, v.proceeds = true ∧
      r.machine.apply v = some (m', ns) ∧ (advanceCall mgr r i).machine = m' := by
  have stepped : (r.machine.apply (.step i)).isSome = true →
      advanceCall mgr r i = perform mgr r (.step i) "" → ∃ v m' ns, v.proceeds = true ∧
        r.machine.apply v = some (m', ns) ∧ (advanceCall mgr r i).machine = m' := by
    intro h hadv
    obtain ⟨⟨m', ns⟩, h⟩ := Option.isSome_iff_exists.mp h
    exact ⟨.step i, m', ns, rfl, h, by rw [hadv, perform_machine h]⟩
  -- Every phase that is no sleep and not the end has a step; an attempt to connect asks the
  -- manager.
  rcases c with ⟨d, r', p⟩ | ⟨c, b, p⟩ | c
  · cases p with
    | connecting t =>
        have connected : ∀ ok : Bool, ∃ m' ns,
            r.machine.apply (.connected i ok) = some (m', ns) := by
          intro ok
          simp only [Machine.apply, hc]
          cases ok with
          | true => exact ⟨_, _, rfl⟩
          | false => exact ⟨_, _, rfl⟩
        simp only [advanceCall, hc]
        rcases mgr.connect r.machine.opened r.world with ⟨w, e | ⟨⟩⟩
        · obtain ⟨m', ns, h⟩ := connected false
          exact ⟨_, m', ns, rfl, h, perform_machine (r := { r with world := w }) h⟩
        · obtain ⟨m', ns, h⟩ := connected true
          exact ⟨_, m', ns, rfl, h, perform_machine (r := { r with world := w }) h⟩
    | arriving | awake t | refused t | notifying ans =>
        refine stepped ?_ (by simp only [advanceCall, hc])
        simp only [Machine.apply, hc]
        rfl
    | asleep t w | returned ans => cases ha
  · cases p with
    | arriving | notifying | destroying =>
        refine stepped ?_ (by simp only [advanceCall, hc])
        simp only [Machine.apply, hc]
        rfl
    | returned => cases ha
  · cases c with
    | arriving | awake =>
        refine stepped ?_ (by simp only [advanceCall, hc])
        simp only [Machine.apply, hc]
        rfl
    | draining rest =>
        refine stepped ?_ (by simp only [advanceCall, hc])
        simp only [Machine.apply, hc]
        cases rest with
        | nil | cons c rest => rfl
    | asleep | returned => cases ha

theorem effort_advanceCall (mgr : Manager σ ε) (hc : r.machine.calls[i]? = some c)
    (ha : canAdvance false c = true) (hk : r.machine.calls.length < k) :
    (advanceCall mgr r i).machine.effort k < r.machine.effort k ∧
      (advanceCall mgr r i).machine.calls.length = r.machine.calls.length := by
  obtain ⟨v, m', ns, hv, h, rfl⟩ := advanceCall_proceeds mgr hc ha
  exact Machine.effort_lt_of_apply h hv hk

/-- With enough steps for the measure, a pool settles at rest. -/
theorem settleFor_rests (fuel : Nat) (hk : r.machine.calls.length < k)
    (he : r.machine.effort k ≤ fuel) : (settleFor mgr false fuel r).machine.AtRest := by
  induction fuel generalizing r with
  | zero =>
      show r.machine.AtRest
      intro c hc
      by_contra ha
      obtain ⟨i, hi⟩ := List.getElem?_of_mem hc
      have hlt := (effort_advanceCall mgr hi (by simpa using ha) hk).1
      omega
  | succ fuel ih =>
      unfold settleFor
      split
      · next hnone => exact List.findIdx?_eq_none_iff.mp hnone
      · next i hsome =>
          obtain ⟨hi, ha, -⟩ := List.findIdx?_eq_some_iff_getElem.mp hsome
          obtain ⟨hlt, hlen⟩ :=
            effort_advanceCall mgr (List.getElem?_eq_getElem hi) ha hk
          exact ih (hlen ▸ hk) (by omega)

end Run

/-! ## Enough steps -/

/-- The connections that a closer still has to destroy. -/
def Call.drains : Call → List ConnId
  | .close (.draining rest) => rest
  | _ => []

theorem Call.drains_sleepBlind : Call.SleepBlind Call.drains := ⟨fun _ _ _ _ => rfl, rfl⟩

/-- The connections that closers still have to destroy, all together. -/
def Machine.drains (m : Machine) : Nat := (m.calls.flatMap Call.drains).length

theorem Machine.Turned.drains {x y : Call} (h : m.Turned m' x y) :
    m'.drains + x.drains.length = m.drains + y.drains.length := by
  obtain ⟨pre, post, hx, key⟩ := h.flatMap_eq Call.drains_sleepBlind
  simp only [Machine.drains, key, hx, List.flatMap_append, List.flatMap_cons, List.length_append]
  omega

/-- No more connections are in the ledger and with closers than there are slots. -/
def Machine.Fits (m : Machine) : Prop := m.ledger.slots + m.drains ≤ m.capacity

theorem Machine.Fits.change (h : Change v m m') (ha : m.Accounts) (hm : m.Fits) : m'.Fits := by
  -- What a call drains is counted together with the slots that the ledger has left.
  have turned : ∀ {x y : Call}, m.Turned m' x y → m'.capacity = m.capacity →
      m'.ledger.slots + y.drains.length ≤ m.ledger.slots + x.drains.length → m'.Fits := by
    intro x y ht hcap hle
    have hcount := ht.drains
    unfold Fits at hm ⊢
    omega
  have begun : ∀ {y : Call}, m'.calls = m.calls ++ [y] → y.drains = [] →
      m'.capacity = m.capacity → m'.ledger = m.ledger → m'.Fits := by
    intro y hy hnone hcap hl
    unfold Fits Machine.drains at hm ⊢
    rw [hy, List.flatMap_append, List.flatMap_singleton, hnone, List.append_nil, hcap, hl]
    exact hm
  cases h with
  | acquireBegun timeout | closeBegun | releaseBegun faulty _ => exact begun rfl rfl rfl rfl
  | marked d | elapsed d => exact hm
  | arrived hx | refused hx | woken hx | reopened hx | discarded hx | closerWoken hx
  | closeDone hx => exact turned (.same hx rfl) rfl (Nat.le_refl _)
  | turnedAway hx _ | closerSlept hx _ => exact turned (.same hx rfl) rfl (Nat.le_refl _)
  | timedOut hx _ _ _ | slept hx _ _ _ => exact turned (.same hx rfl) rfl (Nat.le_refl _)
  | answered hx | returnTold hx | shut hx => exact turned (.woken hx rfl) rfl (Nat.le_refl _)
  | served hx _ _ hi _ | servedLast hx _ _ hi _ =>
      refine turned (.same hx rfl) rfl ?_
      simp only [Ledger.slots, hi, Call.drains, List.length_cons, List.length_nil]
      omega
  | claimed hx _ _ hi hv _ =>
      refine turned (.same hx rfl) rfl ?_
      simp only [Ledger.slots, hi, Call.drains, List.length_nil]
      omega
  | rejoined hx =>
      have hpos := ha.inUse_pos hx (Or.inr rfl)
      refine turned (.woken hx rfl) rfl ?_
      simp only [Ledger.rejoin, Ledger.slots, Call.drains, List.length_nil]
      omega
  | @takenBack _ pre post c b hx =>
      have hpos := ha.inUse_pos hx (Or.inl rfl)
      refine turned (.same hx rfl) rfl ?_
      cases b with
      | true | false =>
          simp only [Ledger.takeBack, Ledger.slots, Call.drains, List.length_nil,
            List.length_append, List.length_singleton, if_true, if_false, Bool.false_eq_true]
          omega
  | drained hx _ =>
      refine turned (.same hx rfl) rfl ?_
      simp only [Ledger.slots, Call.drains, List.length_nil]
      omega
  | drainedOne hx =>
      refine turned (.same hx rfl) rfl ?_
      simp [Call.drains]

theorem Machine.Reachable.fits (hm : m.Reachable) : m.Fits := by
  have key : m.Accounts ∧ m.Fits := by
    refine hm.keep (P := fun a => a.Accounts ∧ a.Fits) (fun hn hc => ?_)
      fun hv ha => ⟨ha.1.change hv, ha.2.change hv ha.1⟩
    have hinit := Accounts.initial hc
    exact ⟨hinit, hinit.bound⟩
  exact key.2

theorem Call.effort_le (k : Nat) (now : Time) (c : Call) :
    c.effort k now ≤ 2 * k + 4 + c.drains.length := by
  rcases c with ⟨d, r, p⟩ | ⟨c, b, p⟩ | c
  · have hle := Acquire.retryEffort_le k now ⟨d, r, p⟩
    cases p with
    | _ =>
        simp only [effort, Acquire.effort]
        omega
  · cases p with
    | _ =>
        simp only [effort, Release.effort]
        omega
  · cases c with
    | _ =>
        simp only [effort, Close.effort, drains]
        omega

theorem efforts_le (k : Nat) (now : Time) (l : List Call) :
    efforts k now l ≤ l.length * (2 * k + 4) + (l.flatMap Call.drains).length := by
  induction l with
  | nil => exact Nat.zero_le _
  | cons c l ih =>
      have hc := c.effort_le k now
      have hmul : (l.length + 1) * (2 * k + 4) = l.length * (2 * k + 4) + (2 * k + 4) :=
        Nat.succ_mul _ _
      simp only [efforts, List.length_cons, List.flatMap_cons, List.length_append]
      omega

/-- The bound on the steps of `Run.settle` is large enough for every state that a pool gets into. -/
theorem Machine.Reachable.effort_le_stepBound (hm : m.Reachable) :
    m.effort (m.calls.length + 1) ≤ Run.stepBound m := by
  have hsum := efforts_le (m.calls.length + 1) m.clock m.calls
  have hmul : m.calls.length * (2 * (m.calls.length + 1) + 4) ≤
      16 * ((m.calls.length + 2) * (m.calls.length + 2)) := by
    calc m.calls.length * (2 * (m.calls.length + 1) + 4)
        ≤ (m.calls.length + 2) * (16 * (m.calls.length + 2)) :=
          Nat.mul_le_mul (by omega) (by omega)
      _ = 16 * ((m.calls.length + 2) * (m.calls.length + 2)) := Nat.mul_left_comm _ _ _
  have hfits : m.ledger.idle.length + m.ledger.inUse + m.ledger.vacant +
      (m.calls.flatMap Call.drains).length ≤ m.capacity := hm.fits
  unfold effort Run.stepBound
  omega

/-- **A pool settles at rest**: in every state that it gets into, letting its calls advance ends
with each of them asleep or returned. -/
theorem Run.settle_rests {σ ε : Type} (mgr : Manager σ ε) {r : Run σ}
    (hr : r.machine.Reachable) : (settle mgr r false).machine.AtRest :=
  settleFor_rests _ (Nat.lt_succ_self _) hr.effort_le_stepBound

end PooledStore.Pool
