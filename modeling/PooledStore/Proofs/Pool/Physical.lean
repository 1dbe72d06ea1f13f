import PooledStore.Proofs.Pool.Draining

/-!
# Physical connections

A connection that the pool gives up, because it is broken or because the pool is closed, is
destroyed in a step of its own, when the ledger no longer knows of it and the sleepers are awake. In
between it is physically open and has no slot (`Machine.leaving`), and its slot may have another
connection already: the open connections and the empty slots make up the capacity and what is
leaving (`Machine.Reachable.live_add_emptySlots`).

* `Trace.live_bounded_iff`: in which runs no more connections are open than the pool has slots.
* `Machine.Reachable.closed_destroyed_iff`: when nothing is open once a close call has returned.
-/

set_option autoImplicit false

namespace PooledStore.Pool

variable {m m' : Machine} {v : Move} {ns : List Notice}

/-! ## What is open -/

/-- The connections that the call has taken from the pool for good and is still to destroy. -/
def Call.disposes : Call → List ConnId
  | .release ⟨c, true, .notifying⟩ => [c]
  | .release ⟨c, _, .destroying⟩ => [c]
  | .close (.draining rest) => rest
  | _ => []

/-- The call has claimed a vacant slot, and no connection is open for it. -/
def Call.reopens : Call → Bool
  | .acquire ⟨_, _, .connecting _⟩ => true
  | .acquire ⟨_, _, .refused _⟩ => true
  | _ => false

/-- How many connections are physically open. -/
def Machine.live (m : Machine) : Nat := m.opened - m.destroyed.length

/-- The connections that the pool has given up and that are still to be destroyed. -/
def Machine.leaving (m : Machine) : List ConnId := m.calls.flatMap Call.disposes

/-- How many slots have no connection, whether vacant, claimed for a reopening or lost in a
draining. -/
def Machine.emptySlots (m : Machine) : Nat :=
  m.capacity + m.calls.countP Call.reopens - (m.ledger.idle.length + m.ledger.inUse)

/-- A call carries a connection that it brings back, one that it has claimed, or one that it is to
destroy. -/
theorem Call.length_carries (x : Call) :
    x.carries.length + x.reopens.toNat =
      x.returns.toNat + x.claims.toNat + x.disposes.length := by
  rcases x with ⟨d, r, p⟩ | ⟨c, b, p⟩ | c
  · cases p with
    | notifying ans => cases ans <;> rfl
    | _ => rfl
  · cases b <;> cases p <;> rfl
  · cases c with
    | draining rest =>
        show rest.length + 0 = 0 + 0 + rest.length
        omega
    | _ => rfl

theorem length_flatMap_carries (l : List Call) :
    (l.flatMap Call.carries).length + l.countP Call.reopens =
      l.countP Call.returns + l.countP Call.claims + (l.flatMap Call.disposes).length := by
  induction l with
  | nil => rfl
  | cons x l ih =>
      have hx := x.length_carries
      have hr := countP_split Call.reopens [] l x
      have hb := countP_split Call.returns [] l x
      have hc := countP_split Call.claims [] l x
      simp only [List.nil_append, List.countP_nil] at hr hb hc
      rw [List.flatMap_cons, List.flatMap_cons, List.length_append, List.length_append]
      omega

namespace Machine

theorem Conserved.length_custody (hm : m.Conserved) :
    m.ledger.idle.length + m.held.length + (m.calls.flatMap Call.carries).length +
      m.destroyed.length = m.opened := by
  have h := List.Perm.length_eq hm
  simpa only [custody, List.length_append, List.length_map, List.length_range] using h

/-- **The open connections and the empty slots make up the capacity and what is leaving.** -/
theorem Reachable.live_add_emptySlots (h : m.Reachable) :
    m.live + m.emptySlots = m.capacity + m.leaving.length := by
  have hcustody := h.conserved.length_custody
  have hcalls := length_flatMap_carries m.calls
  have huse := h.accounts.inUse
  have hbound := h.accounts.bound
  unfold Ledger.slots at hbound
  unfold live emptySlots leaving
  omega

end Machine

/-! ## The bound on open connections -/

/-- Only an attempt to connect that succeeds adds to the open connections. -/
theorem Change.live_le (h : Change v m m') (hv : ∀ i, v ≠ .connected i true) :
    m'.live ≤ m.live := by
  have fewer : ∀ c : ConnId, m.opened - (m.destroyed ++ [c]).length ≤ m.live := by
    intro c
    rw [Machine.live, List.length_append]
    omega
  cases h with
  | reopened _ => exact absurd rfl (hv _)
  | @discarded _ pre post c b _ => exact fewer c
  | @drainedOne _ pre post c rest _ => exact fewer c
  | _ => exact Nat.le_refl _

theorem Change.capacity (h : Change v m m') : m'.capacity = m.capacity := by
  cases h <;> rfl

theorem Machine.live_le_of_apply (h : m.apply v = some (m', ns))
    (hv : ∀ i, v ≠ .connected i true) : m'.live ≤ m.live := by
  rcases apply_changes h with h | ⟨m₁, h₁, h₂⟩
  · exact h.live_le hv
  · exact Nat.le_trans (h₂.live_le hv) (h₁.live_le hv)

theorem Machine.Conserved.live_of_connected {i : Nat} (hm : m.Conserved)
    (h : m.apply (.connected i true) = some (m', ns)) : m'.live = m.live + 1 := by
  have hlen := hm.length_custody
  cases connected_change h with
  | reopened _ =>
      show m.opened + 1 - m.destroyed.length = m.opened - m.destroyed.length + 1
      omega

/-- **In which runs no more connections are open than the pool has slots**: in those in which an
attempt to connect succeeds only while fewer connections are leaving than slots are empty, the
claimed one among them. -/
theorem Trace.live_bounded_iff {capacity n : Nat} (hn : 0 < n) (hc : n ≤ capacity)
    {tr : List (Machine × Move)} (h : Trace (Machine.initial capacity n) tr m) :
    ((∀ p ∈ tr, p.1.live ≤ capacity) ∧ m.live ≤ capacity) ↔
      ∀ p ∈ tr, ∀ i, p.2 = .connected i true → p.1.leaving.length < p.1.emptySlots := by
  -- By induction over the run: the last move is an attempt that succeeds, or adds nothing.
  induction h with
  | nil =>
      constructor
      · intro _
        exact nofun
      · intro _
        exact ⟨nofun, hc⟩
  | @move tr m' m'' v ns ht hv ih =>
      have hr : m'.Reachable := ht.reachable (.start hn hc)
      have hcap : m'.capacity = capacity :=
        ht.keep (P := fun a => a.capacity = capacity) (fun hv ha => hv.capacity.trans ha) rfl
      have hsum := hr.live_add_emptySlots
      have last : m'.live ≤ capacity →
          (m''.live ≤ capacity ↔
            ∀ i, v = .connected i true → m'.leaving.length < m'.emptySlots) := by
        intro hle
        by_cases hconn : ∃ i, v = .connected i true
        · obtain ⟨i, rfl⟩ := hconn
          have hone := hr.conserved.live_of_connected hv
          constructor
          · intro hle' _ _
            omega
          · intro hlt
            have := hlt i rfl
            omega
        · have hle' := Machine.live_le_of_apply hv fun i hi => hconn ⟨i, hi⟩
          constructor
          · intro _ i hi
            exact absurd ⟨i, hi⟩ hconn
          · intro _
            omega
      simp only [List.forall_mem_append, List.forall_mem_singleton]
      rw [and_assoc, ← ih]
      constructor
      · rintro ⟨hall, hle, hle'⟩
        exact ⟨⟨hall, hle⟩, (last hle).mp hle'⟩
      · rintro ⟨⟨hall, hle⟩, hlt⟩
        exact ⟨hall, hle, (last hle).mpr hlt⟩

/-- A pool of one slot. Its connection came back broken, and the next caller has reopened the slot
before the connection is destroyed. -/
def Machine.crowded : Machine where
  capacity := 1
  ledger := ⟨[], 1, 0, false, [], 2⟩
  calls := [.acquire ⟨none, none, .returned (.connection 0)⟩,
    .acquire ⟨none, none, .returned (.connection 1)⟩, .release ⟨0, true, .destroying⟩]
  held := [⟨1, false⟩]
  clock := 0
  opened := 2
  attempts := 2
  destroyed := []

theorem Machine.crowded_follow :
    (Machine.initial 1 1).follow [.beginAcquire none, .step 0, .beginAcquire none, .step 1,
      .markBroken 0, .beginRelease 0 false, .step 2, .step 2, .step 1, .connected 1 true] =
        some crowded := by decide

theorem live_bounded_iff_crowded :
    0 < 1 ∧ 1 ≤ 1 ∧ ∃ tr, Trace (Machine.initial 1 1) tr Machine.crowded ∧
      ∃ p ∈ tr, ∃ i, p.2 = .connected i true ∧ p.1.emptySlots ≤ p.1.leaving.length := by
  obtain ⟨tr, htr⟩ := Machine.exists_trace Machine.crowded_follow
  refine ⟨by decide, by decide, tr, htr, ?_⟩
  by_contra hno
  have hroom : ∀ p ∈ tr, ∀ i, p.2 = .connected i true →
      p.1.leaving.length < p.1.emptySlots := by
    intro p hp i hi
    by_contra hge
    exact hno ⟨p, hp, i, hi, Nat.not_lt.mp hge⟩
  have hle := ((htr.live_bounded_iff (by decide) (by decide)).mpr hroom).2
  exact absurd hle (by decide)

theorem not_forall_reachable_live_le : ¬ ∀ m : Machine, m.Reachable → m.live ≤ m.capacity := by
  intro h
  have start : (Machine.initial 1 1).Reachable := .start (by decide) (by decide)
  exact absurd (h Machine.crowded (start.follow Machine.crowded_follow)) (by decide)

/-! ## After a close call has returned -/

theorem Call.carries_of_not_counted {x : Call} (hr : x.returns = false) (hc : x.claims = false) :
    x.carries = x.disposes := by
  rcases x with ⟨d, r, p⟩ | ⟨c, b, p⟩ | c
  · cases p with
    | notifying ans =>
        cases ans with
        | connection c => cases hc
        | _ => rfl
    | _ => rfl
  · cases p with
    | arriving => cases hr
    | _ => cases b <;> rfl
  · cases c <;> rfl

/-- In an emptied pool every opened connection is destroyed, or one call is to destroy it. -/
theorem Machine.Emptied.leaving_perm (he : m.Emptied) (ha : m.Accounts) (hm : m.Conserved) :
    (m.leaving ++ m.destroyed).Perm (List.range m.opened) := by
  obtain ⟨hheld, hcalls⟩ := he.nothing_out ha
  have hleaving : m.calls.flatMap Call.carries = m.leaving :=
    List.flatMap_congr fun x hx => Call.carries_of_not_counted (hcalls x hx).1 (hcalls x hx).2
  have hcustody : m.custody = m.leaving ++ m.destroyed := by
    rw [custody, he.idle, hheld, hleaving]
    rfl
  rw [← hcustody]
  exact hm

theorem Machine.leaving_eq_nil_iff : m.leaving = [] ↔ ∀ x ∈ m.calls, x.disposes = [] :=
  List.flatMap_eq_nil_iff

/-- **When nothing is open once a close call has returned.** From then on every opened connection is
destroyed, or one call is to destroy it: the return of a broken one, which has given up the slot
before, or another close call, which has drained the idle queue before. So all are destroyed exactly
if there is no such call. -/
theorem Machine.Reachable.closed_destroyed_iff (h : m.Reachable)
    (hr : .close .returned ∈ m.calls) :
    (m.leaving ++ m.destroyed).Perm (List.range m.opened) ∧
      ((∀ c, c < m.opened → c ∈ m.destroyed) ↔ ∀ x ∈ m.calls, x.disposes = []) := by
  have hperm := (h.emptied ⟨_, hr, rfl⟩).leaving_perm h.accounts h.conserved
  refine ⟨hperm, ?_⟩
  rw [← leaving_eq_nil_iff]
  constructor
  · intro hall
    refine List.eq_nil_iff_forall_not_mem.mpr fun c hc => ?_
    -- What is leaving was opened, and would be in two places if it were destroyed.
    have hopened : c < m.opened :=
      List.mem_range.mp (hperm.mem_iff.mp (List.mem_append_left _ hc))
    have hone : (m.leaving ++ m.destroyed).Nodup := hperm.nodup_iff.mpr List.nodup_range
    exact (List.nodup_append.mp hone).2.2 c hc c (hall c hopened) rfl
  · intro hnone c hc
    have hmem : c ∈ m.leaving ++ m.destroyed := hperm.mem_iff.mpr (List.mem_range.mpr hc)
    rwa [hnone, List.nil_append] at hmem

/-- Two closers of a pool of one slot: the first has drained the idle connection and is about to
destroy it, the second found nothing and has returned. -/
def Machine.closedTwice : Machine where
  capacity := 1
  ledger := ⟨[], 0, 0, true, [], 0⟩
  calls := [.close (.draining [0]), .close .returned]
  held := []
  clock := 0
  opened := 1
  attempts := 1
  destroyed := []

theorem closed_destroyed_iff_closedTwice :
    Machine.closedTwice.Reachable ∧ .close .returned ∈ Machine.closedTwice.calls ∧
      ¬ ∀ c, c < Machine.closedTwice.opened → c ∈ Machine.closedTwice.destroyed := by
  have start : (Machine.initial 1 1).Reachable := .start (by decide) (by decide)
  have moves : (Machine.initial 1 1).follow [.beginClose, .beginClose, .step 0, .step 1,
      .step 1] = some Machine.closedTwice := by decide
  have h := start.follow moves
  have hr : .close .returned ∈ Machine.closedTwice.calls := by decide
  refine ⟨h, hr, fun hall => ?_⟩
  have hnone := (h.closed_destroyed_iff hr).2.mp hall (.close (.draining [0])) (by decide)
  cases hnone

/-- A pool of one slot whose close call has waited for a broken connection, and has returned before
that connection is destroyed. -/
def Machine.closedEarly : Machine where
  capacity := 1
  ledger := ⟨[], 0, 1, true, [], 1⟩
  calls := [.acquire ⟨none, none, .returned (.connection 0)⟩, .close .returned,
    .release ⟨0, true, .destroying⟩]
  held := []
  clock := 0
  opened := 1
  attempts := 1
  destroyed := []

theorem not_forall_closed_destroyed :
    ¬ ∀ m : Machine, m.Reachable → .close .returned ∈ m.calls →
      ∀ c, c < m.opened → c ∈ m.destroyed := by
  intro h
  have start : (Machine.initial 1 1).Reachable := .start (by decide) (by decide)
  have moves : (Machine.initial 1 1).follow [.beginAcquire none, .step 0, .markBroken 0,
      .beginClose, .step 1, .beginRelease 0 false, .step 2, .step 2, .step 1, .step 1] =
        some Machine.closedEarly := by decide
  have hmem := h Machine.closedEarly (start.follow moves) (by decide) 0 (by decide)
  cases hmem

end PooledStore.Pool
