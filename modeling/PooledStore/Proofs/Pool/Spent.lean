import PooledStore.Proofs.Pool.Draining

/-!
# Pools that lend nothing more

From the flag on, a connection gets into somebody's hands only if a call had it already or was
opening one (`Call.offers`). So nobody has a connection of a closed pool, now or later, exactly if
nobody has one now and no call offers one (`Machine.spent_iff`), and that is how an emptied pool is
(`Machine.Emptied.spent`).
-/

set_option autoImplicit false

namespace PooledStore.Pool

variable {m m₁ m' : Machine} {v : Move} {ns : List Notice} {i : Nat} {x : Call}

namespace Machine

/-! ## What a pool can get to -/

/-- From the one state the pool can get to the other. -/
def Leads (m m' : Machine) : Prop := ∃ tr, Trace m tr m'

theorem Leads.refl (m : Machine) : m.Leads m := ⟨[], .nil⟩

theorem Leads.of_apply (h : m.apply v = some (m', ns)) : m.Leads m' := ⟨_, .move .nil h⟩

theorem Leads.trans (h : m.Leads m₁) (h' : m₁.Leads m') : m.Leads m' := by
  obtain ⟨tr, ht⟩ := h
  obtain ⟨tr', ht'⟩ := h'
  induction ht' with
  | nil => exact ⟨tr, ht⟩
  | move _ hv ih =>
      obtain ⟨tr₁, ht₁⟩ := ih
      exact ⟨_, .move ht₁ hv⟩

theorem Leads.reachable (h : m.Leads m') (hm : m.Reachable) : m'.Reachable := by
  obtain ⟨tr, ht⟩ := h
  exact ht.reachable hm

theorem Leads.keep {P : Machine → Prop} (h : m.Leads m')
    (keep : ∀ {v : Move} {a b : Machine}, Change v a b → P a → P b) (hm : P m) : P m' := by
  obtain ⟨tr, ht⟩ := h
  exact ht.keep keep hm

end Machine

/-! ## Spent pools -/

/-- The call has a connection that it is about to hand out, or is opening one. -/
def Call.offers : Call → Bool
  | .acquire ⟨_, _, .connecting _⟩ => true
  | .acquire ⟨_, _, .notifying (.connection _)⟩ => true
  | _ => false

theorem Call.offers_sleepBlind : Call.SleepBlind Call.offers := ⟨fun _ _ _ _ => rfl, rfl⟩

theorem Call.claims_of_offers (h : x.offers = true) : x.claims = true := by
  match x, h with
  | .acquire ⟨_, _, .connecting _⟩, _ => rfl
  | .acquire ⟨_, _, .notifying (.connection _)⟩, _ => rfl

/-- The pool is closed, nobody has a connection of it, and no call is about to hand one out. -/
structure Machine.Spent (m : Machine) : Prop where
  closed : m.ledger.closed = true
  held : m.held = []
  offers : m.calls.countP Call.offers = 0

namespace Machine.Spent

theorem not_offers (hs : m.Spent) {pre post : List Call} (hx : m.calls = pre ++ x :: post) :
    x.offers = false := by
  have h := hs.offers
  rw [hx, countP_split] at h
  cases hox : x.offers with
  | false => rfl
  | true => rw [hox, Bool.toNat_true] at h; omega

/-- A spent pool stays so: no acquire call is served in a closed pool, and none offers a
connection. -/
theorem change (h : Change v m m') (hs : m.Spent) : m'.Spent := by
  have turned : ∀ {x y : Call}, m.Turned m' x y → y.offers = false →
      m'.calls.countP Call.offers = 0 := by
    intro x y ht hy
    have hcount := ht.countP Call.offers_sleepBlind
    have hnone := hs.offers
    rw [hy, Bool.toNat_false] at hcount
    omega
  have begun : ∀ {y : Call}, m'.calls = m.calls ++ [y] → y.offers = false →
      m'.calls.countP Call.offers = 0 := by
    intro y hy ho
    rw [Machine.countP_begun hy, hs.offers, ho, Bool.toNat_false]
  -- A closed pool lends nothing, so no call begins to offer a connection.
  cases h with
  | acquireBegun timeout | closeBegun => exact ⟨hs.closed, hs.held, begun rfl rfl⟩
  | releaseBegun faulty hg => simp [hs.held] at hg
  | marked c => exact ⟨hs.closed, by simp [hs.held], hs.offers⟩
  | elapsed d => exact ⟨hs.closed, hs.held, hs.offers⟩
  | served _ ho _ _ _ | servedLast _ ho _ _ _ => rw [hs.closed] at ho; cases ho
  | claimed _ ho _ _ _ _ => rw [hs.closed] at ho; cases ho
  | reopened hx => cases hs.not_offers hx
  | arrived hx | refused hx | woken hx | discarded hx | closerWoken hx | drainedOne hx
  | closeDone hx => exact ⟨hs.closed, hs.held, turned (.same hx rfl) rfl⟩
  | turnedAway hx _ | closerSlept hx _ | drained hx _ =>
      exact ⟨hs.closed, hs.held, turned (.same hx rfl) rfl⟩
  | timedOut hx _ _ _ | slept hx _ _ _ => exact ⟨hs.closed, hs.held, turned (.same hx rfl) rfl⟩
  | shut hx => exact ⟨rfl, hs.held, turned (.woken hx rfl) rfl⟩
  | rejoined hx => exact ⟨hs.closed, hs.held, turned (.woken hx rfl) rfl⟩
  | @answered _ _ _ _ _ ans hx =>
      have hoff := hs.not_offers hx
      cases ans with
      | connection c => cases hoff
      | timedOut | closed =>
          exact ⟨hs.closed, by simp [hs.held, Answer.guards], turned (.woken hx rfl) rfl⟩
  | @takenBack _ pre post c b hx =>
      refine ⟨?_, hs.held, turned (.same hx rfl) rfl⟩
      cases b with
      | true | false => exact hs.closed
  | @returnTold _ pre post c b hx =>
      exact ⟨hs.closed, hs.held, turned (.woken hx rfl) rfl⟩

end Machine.Spent

theorem Machine.Emptied.spent (he : m.Emptied) (ha : m.Accounts) : m.Spent := by
  obtain ⟨hheld, hcalls⟩ := he.nothing_out ha
  refine ⟨he.closed, hheld, List.countP_eq_zero.mpr fun x hx hox => ?_⟩
  have hclaims := (hcalls x hx).2
  rw [Call.claims_of_offers hox] at hclaims
  cases hclaims

/-- What a call offers it can hand out, by its next move. -/
theorem Machine.exists_held_of_offers (hx : m.calls[i]? = some x) (ho : x.offers = true) :
    ∃ m', m.Leads m' ∧ m'.held ≠ [] := by
  have moved : ∀ {v : Move} {c : ConnId}, (∃ m' ns, m.apply v = some (m', ns) ∧
      m'.held = m.held ++ [⟨c, false⟩]) → ∃ m', m.Leads m' ∧ m'.held ≠ [] := by
    rintro v c ⟨m', ns, hv, hheld⟩
    exact ⟨m', .of_apply hv, by simp [hheld]⟩
  match x, ho with
  | .acquire ⟨d, r, .connecting t⟩, _ =>
      refine moved (v := .connected i true) (c := m.opened) ?_
      simp only [apply, hx]
      exact ⟨_, _, rfl, rfl⟩
  | .acquire ⟨d, r, .notifying (.connection c)⟩, _ =>
      refine moved (v := .step i) (c := c) ?_
      simp only [apply, hx]
      exact ⟨_, _, rfl, rfl⟩

/-- **Who can still get a connection of a closed pool.** Nobody has one, now or later, exactly if
nobody has one now and no call offers one. -/
theorem Machine.spent_iff (hc : m.ledger.closed = true) :
    m.Spent ↔ ∀ m', m.Leads m' → m'.held = [] := by
  constructor
  · intro hs m' hl
    exact (hl.keep Machine.Spent.change hs).held
  · intro h
    refine ⟨hc, h m (.refl m), List.countP_eq_zero.mpr fun x hx ho => ?_⟩
    obtain ⟨i, hi, rfl⟩ := List.mem_iff_getElem.mp hx
    obtain ⟨m', hl, hheld⟩ := exists_held_of_offers (List.getElem?_eq_getElem hi) ho
    exact hheld (h m' hl)

end PooledStore.Pool
