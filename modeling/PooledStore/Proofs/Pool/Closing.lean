import PooledStore.Proofs.Pool.Lending
import PooledStore.Proofs.Pool.Waking

/-!
# Acquiring from a closed pool

An acquire call that is not decided when the pool is closed, or begins afterwards, is to end with
the answer that the pool is closed. It does so unless it is opening a connection and succeeds:
`closed_answers_iff` says that in a run of a closed pool all such calls end with this answer exactly
if no attempt to connect succeeds in it. None of them is blocked but by its own attempt to connect,
and each has at most three moves to make (`Acquire.toGo`).
-/

set_option autoImplicit false

namespace PooledStore.Pool

variable {m m' : Machine} {v : Move} {ns : List Notice} {i : Nat} {ans : Answer} {a : Acquire}

/-! ## Decisions -/

/-- How an acquire call ends, once it is decided. -/
def Call.decision? : Call → Option Answer
  | .acquire ⟨_, _, .notifying ans⟩ => some ans
  | .acquire ⟨_, _, .returned ans⟩ => some ans
  | _ => none

theorem Call.decision?_sleepBlind : Call.SleepBlind Call.decision? := ⟨fun _ _ _ _ => rfl, rfl⟩

/-- How call `i` ends, once it is decided. -/
def Machine.decision? (m : Machine) (i : Nat) : Option Answer := (m.calls[i]?).bind Call.decision?

/-- The call that makes the move. -/
def Move.mover? : Move → Option Nat
  | .step i => some i
  | .connected i _ => some i
  | .wake i => some i
  | _ => none

/-- The mover's call `x` has become `y`: if it is decided now and was not before, a closed pool
has turned it away, or it has connected. -/
def Machine.Decides (m : Machine) (v : Move) (x y : Call) : Prop :=
  y.decision? = x.decision? ∨
    x.decision? = none ∧ (m.ledger.closed = true → y.decision? = some .closed ∨
      ∃ i c, v = .connected i true ∧ y.decision? = some (.connection c))

/-- A change is that of one call, the mover's, or a call begins, or the calls are as they were. -/
theorem Change.decides (h : Change v m m') :
    m'.calls = m.calls ∨ (∃ y, y.decision? = none ∧ m'.calls = m.calls ++ [y]) ∨
      ∃ pre post x y, v.mover? = some pre.length ∧ m.calls = pre ++ x :: post ∧
        (m'.calls = pre ++ y :: post ∨
          m'.calls = pre.map Call.roused ++ y :: post.map Call.roused) ∧ m.Decides v x y := by
  -- One call moves: alone, or waking the others. Nobody but this call is decided.
  have same : ∀ {pre post : List Call} {x y : Call}, v.mover? = some pre.length →
      m.calls = pre ++ x :: post → m'.calls = pre ++ y :: post → m.Decides v x y →
      m'.calls = m.calls ∨ (∃ y, y.decision? = none ∧ m'.calls = m.calls ++ [y]) ∨
        ∃ pre post x y, v.mover? = some pre.length ∧ m.calls = pre ++ x :: post ∧
          (m'.calls = pre ++ y :: post ∨
            m'.calls = pre.map Call.roused ++ y :: post.map Call.roused) ∧ m.Decides v x y :=
    fun hv hx hy hd => Or.inr (Or.inr ⟨_, _, _, _, hv, hx, Or.inl hy, hd⟩)
  have woken : ∀ {pre post : List Call} {x y : Call}, v.mover? = some pre.length →
      m.calls = pre ++ x :: post →
      m'.calls = pre.map Call.roused ++ y :: post.map Call.roused → m.Decides v x y →
      m'.calls = m.calls ∨ (∃ y, y.decision? = none ∧ m'.calls = m.calls ++ [y]) ∨
        ∃ pre post x y, v.mover? = some pre.length ∧ m.calls = pre ++ x :: post ∧
          (m'.calls = pre ++ y :: post ∨
            m'.calls = pre.map Call.roused ++ y :: post.map Call.roused) ∧ m.Decides v x y :=
    fun hv hx hy hd => Or.inr (Or.inr ⟨_, _, _, _, hv, hx, Or.inr hy, hd⟩)
  have opened : ∀ {P : Prop}, m.ledger.closed = false → m.ledger.closed = true → P :=
    fun ho hc => absurd (ho.symm.trans hc) nofun
  cases h with
  | acquireBegun timeout | closeBegun | releaseBegun faulty _ => exact Or.inr (Or.inl ⟨_, rfl, rfl⟩)
  | marked d | elapsed d => exact Or.inl rfl
  | arrived hx | refused hx | woken hx | takenBack hx | discarded hx | closerWoken hx
  | drainedOne hx | closeDone hx => exact same rfl hx rfl (Or.inl rfl)
  | closerSlept hx _ | drained hx _ => exact same rfl hx rfl (Or.inl rfl)
  | slept hx _ _ _ => exact same rfl hx rfl (Or.inl rfl)
  | claimed hx _ _ _ _ _ => exact same rfl hx rfl (Or.inl rfl)
  | rejoined hx | answered hx | returnTold hx | shut hx => exact woken rfl hx rfl (Or.inl rfl)
  | turnedAway hx _ => exact same rfl hx rfl (Or.inr ⟨rfl, fun _ => Or.inl rfl⟩)
  | served hx ho _ _ _ => exact same rfl hx rfl (Or.inr ⟨rfl, fun hc => opened ho hc⟩)
  | servedLast hx ho _ _ _ => exact same rfl hx rfl (Or.inr ⟨rfl, fun hc => opened ho hc⟩)
  | timedOut hx ho _ _ => exact same rfl hx rfl (Or.inr ⟨rfl, fun hc => opened ho hc⟩)
  | reopened hx => exact same rfl hx rfl (Or.inr ⟨rfl, fun _ => Or.inr ⟨_, _, rfl, rfl⟩⟩)

/-- A change of one call puts the new call in its place. -/
theorem Machine.getElem?_changed {pre post : List Call} {y : Call}
    (hy : m'.calls = pre ++ y :: post ∨
      m'.calls = pre.map Call.roused ++ y :: post.map Call.roused) :
    m'.calls[pre.length]? = some y := by
  obtain hy | hy := hy
  · simp [hy]
  · simp [hy]

/-- A change of one call leaves the others as they are, or wakes them. -/
theorem Machine.getElem?_of_ne {pre post : List Call} {x y : Call}
    (hx : m.calls = pre ++ x :: post)
    (hy : m'.calls = pre ++ y :: post ∨
      m'.calls = pre.map Call.roused ++ y :: post.map Call.roused) (hi : pre.length ≠ i) :
    m'.calls[i]? = m.calls[i]? ∨ m'.calls[i]? = m.calls[i]?.map Call.roused := by
  obtain hy | hy := hy
  · refine Or.inl ?_
    rw [hy, hx, ← set_split pre post x y, List.getElem?_set_ne hi]
  · refine Or.inr ?_
    have hset := set_split (pre.map Call.roused) (post.map Call.roused) x.roused y
    rw [hy, hx, ← hset, List.length_map, List.getElem?_set_ne hi, ← List.getElem?_map,
      List.map_append, List.map_cons]

/-- A call that begins, and has nothing to tell, leaves what the others tell. -/
theorem Machine.bind_begun {α : Type} {f : Call → Option α} {y : Call} (hy : f y = none)
    (hcalls : m'.calls = m.calls ++ [y]) (i : Nat) :
    (m'.calls[i]?).bind f = (m.calls[i]?).bind f := by
  rw [hcalls]
  obtain hlt | rfl | hgt := Nat.lt_trichotomy i m.calls.length
  · rw [List.getElem?_append_left hlt]
  · simp [hy]
  · rw [List.getElem?_eq_none (Nat.le_of_lt hgt),
      List.getElem?_eq_none (by simpa using Nat.succ_le_of_lt hgt)]

/-- A change of one call wakes the others at most, which leaves what they tell if that is the same
asleep and awake. -/
theorem Machine.bind_of_ne {α : Type} {f : Call → Option α} (hf : Call.SleepBlind f)
    {pre post : List Call} {x y : Call} (hx : m.calls = pre ++ x :: post)
    (hy : m'.calls = pre ++ y :: post ∨
      m'.calls = pre.map Call.roused ++ y :: post.map Call.roused) (hi : pre.length ≠ i) :
    (m'.calls[i]?).bind f = (m.calls[i]?).bind f := by
  obtain hcall | hcall := getElem?_of_ne hx hy hi
  · rw [hcall]
  · rw [hcall]
    cases m.calls[i]? with
    | none => rfl
    | some c => exact hf.roused c

/-- A call that begins is not decided. -/
theorem Machine.decision?_begun {y : Call} (hy : y.decision? = none)
    (hcalls : m'.calls = m.calls ++ [y]) (i : Nat) : m'.decision? i = m.decision? i :=
  bind_begun hy hcalls i

/-- A change of one call decides no other. -/
theorem Machine.decision?_of_ne {pre post : List Call} {x y : Call}
    (hx : m.calls = pre ++ x :: post)
    (hy : m'.calls = pre ++ y :: post ∨
      m'.calls = pre.map Call.roused ++ y :: post.map Call.roused) (hi : pre.length ≠ i) :
    m'.decision? i = m.decision? i :=
  bind_of_ne Call.decision?_sleepBlind hx hy hi

/-- A decision is final. In a closed pool an undecided call stays so, or it is turned away, or it
has connected. -/
theorem Change.decision?_cases (h : Change v m m') (i : Nat) :
    m'.decision? i = m.decision? i ∨
      m.decision? i = none ∧ (m.ledger.closed = true → m'.decision? i = some .closed ∨
        v = .connected i true ∧ ∃ c, m'.decision? i = some (.connection c)) := by
  obtain hy | ⟨y, hy, hcalls⟩ | ⟨pre, post, x, y, hv, hx, hy, hd⟩ := h.decides
  · exact Or.inl (by rw [Machine.decision?, hy, Machine.decision?])
  · exact Or.inl (Machine.decision?_begun hy hcalls i)
  · by_cases hi : pre.length = i
    · -- The mover's own call: what `Decides` says of it.
      have hbefore : m.decision? i = x.decision? := by simp [Machine.decision?, hx, ← hi]
      have hafter : m'.decision? i = y.decision? := by
        rw [Machine.decision?, ← hi, Machine.getElem?_changed hy, Option.bind_some]
      rw [hbefore, hafter]
      refine hd.imp_right fun ⟨hnone, hclosed⟩ => ⟨hnone, fun hc => (hclosed hc).imp_right ?_⟩
      rintro ⟨j, c, rfl, hyc⟩
      obtain rfl : j = i := (Option.some.inj hv).trans hi
      exact ⟨rfl, c, hyc⟩
    · exact Or.inl (Machine.decision?_of_ne hx hy hi)

theorem Change.decision?_of_some (h : Change v m m') (hd : m.decision? i = some ans) :
    m'.decision? i = some ans := by
  obtain heq | ⟨hnone, -⟩ := h.decision?_cases i
  · rw [heq, hd]
  · rw [hnone] at hd
    cases hd

theorem Machine.decision?_of_apply (h : m.apply v = some (m', ns)) (hd : m.decision? i = some ans) :
    m'.decision? i = some ans :=
  (apply_changes h).keep (P := fun a => a.decision? i = some ans)
    (fun hv ha => hv.decision?_of_some ha) hd

/-- A call that a move in a closed pool decides is turned away or has connected. -/
theorem Machine.decided_of_apply (hc : m.ledger.closed = true) (h : m.apply v = some (m', ns))
    (hn : m.decision? i = none) (hd : m'.decision? i = some ans) :
    ans = .closed ∨ v = .connected i true := by
  -- Once turned away or connected within the move, it stays so.
  have key : m'.ledger.closed = true ∧ (m'.decision? i = none ∨ m'.decision? i = some .closed ∨
      v = .connected i true) := by
    obtain hv | ⟨m₁, h₁, h₂⟩ := apply_changes h
    · refine ⟨hv.closed hc, ?_⟩
      obtain heq | ⟨-, hclosed⟩ := hv.decision?_cases i
      · exact Or.inl (heq.trans hn)
      · exact Or.inr ((hclosed hc).imp_right And.left)
    · have hc₁ := h₁.closed hc
      refine ⟨h₂.closed hc₁, ?_⟩
      obtain heq₂ | ⟨-, hclosed₂⟩ := h₂.decision?_cases i
      · rw [heq₂]
        obtain heq | ⟨-, hclosed⟩ := h₁.decision?_cases i
        · exact Or.inl (heq.trans hn)
        · exact Or.inr ((hclosed hc).imp_right And.left)
      · exact Or.inr ((hclosed₂ hc₁).imp_right And.left)
  obtain ⟨-, hnone | hclosed | hv⟩ := key
  · rw [hnone] at hd
    cases hd
  · exact Or.inl (Option.some.inj (hd.symm.trans hclosed))
  · exact Or.inr hv

/-- An attempt to connect that succeeds decides a call that was not decided before. -/
theorem Machine.decision?_of_connected (h : m.apply (.connected i true) = some (m', ns)) :
    m.decision? i = none ∧ ∃ c, m'.decision? i = some (.connection c) := by
  have hv := connected_change h
  generalize hw : Move.connected i true = w at hv
  cases hv with
  | @reopened _ pre post d r t hx =>
      obtain ⟨rfl, -⟩ := Move.connected.inj hw
      refine ⟨?_, m.opened, ?_⟩
      · simp [decision?, hx, Call.decision?]
      · simp [decision?, Call.decision?]
  | _ => cases hw

/-- Every call that is not decided at `m`, and is at `m'`, was told that the pool is closed. -/
def Machine.TurnedAway (m m' : Machine) : Prop :=
  ∀ i ans, m.decision? i = none → m'.decision? i = some ans → ans = .closed

/-- In a run of a closed pool all calls are turned away exactly if no attempt to connect
succeeds. -/
theorem Trace.turnedAway_iff {tr : List (Machine × Move)} (hc : m.ledger.closed = true)
    (h : Trace m tr m') : m.TurnedAway m' ↔ ∀ p ∈ tr, ∀ i, p.2 ≠ .connected i true := by
  -- By induction over the run: its last move decides at most the call that makes it.
  induction h with
  | nil =>
      refine ⟨fun _ => nofun, fun _ i ans hn hd => ?_⟩
      rw [hn] at hd
      cases hd
  | @move tr m' m'' v ns ht hv ih =>
      have hc' : m'.ledger.closed = true :=
        ht.keep (P := fun a => a.ledger.closed = true) (fun hv ha => hv.closed ha) hc
      have persists : ∀ {i ans}, m.decision? i = some ans → m'.decision? i = some ans :=
        fun hd => ht.keep (P := fun a => a.decision? _ = some _)
          (fun hv ha => hv.decision?_of_some ha) hd
      simp only [List.forall_mem_append, List.forall_mem_singleton]
      rw [← ih]
      constructor
      · intro haway
        refine ⟨fun i ans hn hd => haway i ans hn (Machine.decision?_of_apply hv hd), ?_⟩
        rintro i rfl
        obtain ⟨hn', c, hd⟩ := Machine.decision?_of_connected hv
        have hn : m.decision? i = none := by
          cases hd₀ : m.decision? i with
          | none => rfl
          | some ans => rw [persists hd₀] at hn'; cases hn'
        cases haway i _ hn hd
      · rintro ⟨haway, hno⟩ i ans hn hd
        cases hd' : m'.decision? i with
        | none => exact (Machine.decided_of_apply hc' hv hd' hd).resolve_right (hno i)
        | some b =>
            have hb := Machine.decision?_of_apply hv hd'
            obtain rfl : b = ans := Option.some.inj (hb.symm.trans hd)
            exact haway i b hn hd'

/-! ## Progress -/

/-- The greatest number of moves that the call has still to make in a closed pool. -/
def Acquire.toGo (a : Acquire) : Nat :=
  match a.phase with
  | .connecting _ => 3
  | .arriving => 2
  | .awake _ => 2
  | .asleep .. => 2
  | .refused _ => 2
  | .notifying _ => 1
  | .returned _ => 0

theorem Change.getElem?_of_mover_ne {x : Call} (h : Change v m m') (hv : v.mover? ≠ some i)
    (hx : m.calls[i]? = some x) (hr : x.roused = x) : m'.calls[i]? = some x := by
  obtain hy | ⟨y, -, hy⟩ | ⟨pre, post, y, z, hp, hy, hz, -⟩ := h.decides
  · rw [hy, hx]
  · obtain ⟨hi, -⟩ := List.getElem?_eq_some_iff.mp hx
    rw [hy, List.getElem?_append_left hi, hx]
  · have hi : pre.length ≠ i := fun hi => hv (hi ▸ hp)
    obtain hcall | hcall := Machine.getElem?_of_ne hy hz hi
    · rw [hcall, hx]
    · rw [hcall, hx, Option.map_some, hr]

theorem Machine.attend_of_closed (t : Ticket) (hc : m.ledger.closed = true) :
    m.attend i a t = { m with ledger := m.ledger.leave t }.setCall i
      (.acquire { a with phase := .notifying .closed }) := by
  rw [attend, Ledger.attend_of_closed hc]

theorem Machine.getElem?_setCall {c x : Call} (hx : m.calls[i]? = some x) :
    (m.setCall i c).calls[i]? = some c := by
  obtain ⟨hi, -⟩ := List.getElem?_eq_some_iff.mp hx
  rw [setCall, List.getElem?_set_self hi]

theorem Machine.getElem?_notifyAll {x : Call} (hx : m.calls[i]? = some x) :
    m.notifyAll.calls[i]? = some x.roused := by
  rw [notifyAll, List.getElem?_map, hx, Option.map_some]

/-- Where the step of a call also wakes the sleepers. -/
theorem Machine.getElem?_setCall_notifyAll {c x : Call} (hx : m.calls[i]? = some x) :
    (m.notifyAll.setCall i c).calls[i]? = some c :=
  getElem?_setCall (getElem?_notifyAll hx)

/-- In a closed pool every move of a call that does not sleep brings it nearer to its end. -/
theorem Machine.toGo_of_apply (hc : m.ledger.closed = true) (ha : m.calls[i]? = some (.acquire a))
    (hs : ∀ t w, a.phase ≠ .asleep t w) (hv : v.mover? = some i)
    (h : m.apply v = some (m', ns)) :
    ∃ b, m'.calls[i]? = some (.acquire b) ∧ b.toGo < a.toGo := by
  cases v with
  | step j =>
      -- It leaves the queue at its next look, and returns in the step after that.
      obtain rfl : j = i := Option.some.inj hv
      simp only [apply, ha, stepAcquire] at h
      split at h
      · rename_i hp
        obtain rfl := eq_of_moved h
        rw [attend_of_closed (m := { m with ledger := m.ledger.enqueue }) _ hc]
        exact ⟨_, getElem?_setCall ha, by simp [Acquire.toGo, hp]⟩
      · rename_i t hp
        obtain rfl := eq_of_moved h
        rw [attend_of_closed t hc]
        exact ⟨_, getElem?_setCall ha, by simp [Acquire.toGo, hp]⟩
      · rename_i t hp
        obtain rfl := eq_of_moved h
        have hc' : { m with ledger := m.ledger.rejoin t }.notifyAll.ledger.closed = true := hc
        rw [attend_of_closed t hc']
        exact ⟨_, getElem?_setCall_notifyAll (m := { m with ledger := m.ledger.rejoin t }) ha,
          by simp [Acquire.toGo, hp]⟩
      · rename_i ans hp
        obtain rfl := eq_of_moved h
        refine ⟨{ a with phase := .returned ans }, ?_, by simp [Acquire.toGo, hp]⟩
        cases ans with
        | _ => exact getElem?_setCall_notifyAll ha
      · cases h
      · cases h
      · cases h
  | connected j ok =>
      obtain rfl : j = i := Option.some.inj hv
      simp only [apply, ha] at h
      split at h
      · rename_i t hp
        cases ok with
        | true =>
            obtain rfl := eq_of_moved h
            exact ⟨_, getElem?_setCall ha, by simp [Acquire.toGo, hp]⟩
        | false =>
            obtain rfl := eq_of_moved h
            exact ⟨_, getElem?_setCall ha, by simp [Acquire.toGo, hp]⟩
      · cases h
  | wake j =>
      obtain rfl : j = i := Option.some.inj hv
      simp only [apply, ha] at h
      cases h
  | _ => cases hv

/-- A call that has not returned has a move to make, unless it is asleep. -/
theorem Machine.exists_apply (ha : m.calls[i]? = some (.acquire a))
    (hs : ∀ t w, a.phase ≠ .asleep t w) (hg : a.toGo ≠ 0) :
    ∃ v r, v.mover? = some i ∧ m.apply v = some r := by
  obtain ⟨d, r, p⟩ := a
  cases p with
  | connecting t => exact ⟨.connected i false, _, rfl, by simp only [apply, ha]; rfl⟩
  | asleep t w => exact absurd rfl (hs t w)
  | returned ans => exact absurd rfl hg
  | _ => exact ⟨.step i, _, rfl, by simp only [apply, ha]; rfl⟩

/-- **Closing a pool ends the hand-outs unless a connection is being opened.** In a run of a closed
pool, every acquire call that was not decided at its start, or begins in it, and is decided at its
end, was told that the pool is closed, exactly if no attempt to connect succeeds in the run.
Whenever such a call has not returned it can move, each of its moves brings it nearer to its end,
and no other move takes it back. -/
theorem Machine.Reachable.closed_answers_iff {tr : List (Machine × Move)} (hm : m.Reachable)
    (hc : m.ledger.closed = true) (h : Trace m tr m') :
    (m.TurnedAway m' ↔ ∀ p ∈ tr, ∀ i, p.2 ≠ .connected i true) ∧
      ∀ i a, m'.calls[i]? = some (.acquire a) →
        (a.toGo ≠ 0 → ∃ v r, v.mover? = some i ∧ m'.apply v = some r) ∧
        ∀ v m'' ns, m'.apply v = some (m'', ns) →
          ∃ b, m''.calls[i]? = some (.acquire b) ∧
            if v.mover? = some i then b.toGo < a.toGo else b = a := by
  refine ⟨h.turnedAway_iff hc, fun i a ha => ?_⟩
  have hc' : m'.ledger.closed = true :=
    h.keep (P := fun a => a.ledger.closed = true) (fun hv ha => hv.closed ha) hc
  -- In a closed pool nobody sleeps in the queue, so every call has a move of its own.
  have hs : ∀ t w, a.phase ≠ .asleep t w := by
    rintro t w hp
    obtain ⟨d, r, p⟩ := a
    obtain rfl : p = .asleep t w := hp
    exact (h.reachable hm).attentive.closed hc' d r t w (List.mem_of_getElem? ha)
  have hr : (Call.acquire a).roused = .acquire a := by
    obtain hr | ⟨d, r, t, w, heq, -⟩ | ⟨heq, -⟩ := (Call.acquire a).roused_cases
    · exact hr
    · obtain rfl := Call.acquire.inj heq
      exact absurd rfl (hs t w)
    · cases heq
  refine ⟨exists_apply ha hs, fun v m'' ns hv => ?_⟩
  by_cases hmover : v.mover? = some i
  · simp only [if_pos hmover]
    exact toGo_of_apply hc' ha hs hmover hv
  · simp only [if_neg hmover]
    refine ⟨a, ?_, rfl⟩
    exact (apply_changes hv).keep (P := fun b => b.calls[i]? = some (.acquire a))
      (fun hv hb => hv.getElem?_of_mover_ne hmover hb hr) ha

/-- A pool of two slots that is closed while one connection is out and the other is being
opened. -/
def Machine.reopening : Machine where
  capacity := 2
  ledger := ⟨[], 2, 0, true, [], 2⟩
  calls := [.acquire ⟨none, none, .returned (.connection 0)⟩,
    .acquire ⟨none, none, .connecting 1⟩, .close .asleep]
  held := [⟨0, false⟩]
  clock := 0
  opened := 1
  attempts := 3
  destroyed := []

theorem Machine.reopening_reachable : reopening.Reachable := by
  have start : (Machine.initial 2 1).Reachable := .start (by decide) (by decide)
  have moves : (Machine.initial 2 1).follow
      [.beginAcquire none, .step 0, .step 0, .beginAcquire none, .step 1, .beginClose,
        .step 2] = some reopening := by decide
  exact start.follow moves

/-- The attempt to connect succeeds, and the call that began it has a connection of the closed
pool. -/
theorem Machine.reopening_trace :
    ∃ m', Trace reopening [(reopening, .connected 1 true)] m' ∧
      reopening.decision? 1 = none ∧ m'.decision? 1 = some (.connection 1) :=
  ⟨_, .move .nil rfl, rfl, rfl⟩

theorem closed_answers_iff_reopening :
    Machine.reopening.Reachable ∧ Machine.reopening.ledger.closed = true ∧
      ∃ m', Trace Machine.reopening [(Machine.reopening, .connected 1 true)] m' ∧
        ¬ Machine.reopening.TurnedAway m' := by
  obtain ⟨m', htr, -, -⟩ := Machine.reopening_trace
  refine ⟨Machine.reopening_reachable, rfl, m', htr, fun haway => ?_⟩
  have hno := (Machine.reopening_reachable.closed_answers_iff rfl htr).1.mp haway
  exact hno _ (List.mem_singleton_self _) 1 rfl

theorem not_forall_closed_turnedAway :
    ¬ ∀ m m' tr, m.Reachable → m.ledger.closed = true → Trace m tr m' → m.TurnedAway m' := by
  intro h
  obtain ⟨m', htr, hn, hd⟩ := Machine.reopening_trace
  cases h _ _ _ Machine.reopening_reachable rfl htr 1 _ hn hd

end PooledStore.Pool
