import PooledStore.Proofs.Pool.Polling

/-!
# Throttled retries

An acquire call whose attempt to connect has failed has a retry time, and does not try again before
it (`Machine.Rested`). Until then it sleeps no longer than to this time, whatever else goes on. A
look sets the retry time as the end of a sleep only next to a vacant slot; but there is one as long
as the call waits. Calls with a retry time stand in front of all others in the queue, and they are
no more than the vacant slots: each of them brought its own slot back (`Machine.Covered`).
`reopens_throttled` says both for whole runs.
-/

set_option autoImplicit false

namespace PooledStore.Pool

variable {m m₁ m' : Machine} {v : Move} {ns : List Notice} {i : Nat} {a : Acquire} {t : Ticket}

/-- In the move, call `i` begins an attempt to connect. -/
def Machine.Tries (m : Machine) (v : Move) (m' : Machine) (i : Nat) : Prop :=
  v = .step i ∧ m.attempts < m'.attempts

/-- In the move, the failure of an attempt of call `i` is recorded under the lock. -/
def Machine.Records (m : Machine) (v : Move) (i : Nat) : Prop :=
  v = .step i ∧ ∃ d r t, m.calls[i]? = some (.acquire ⟨d, r, .refused t⟩)

/-! ## A slot for every retry -/

/-- Calls with a retry time stand in front of all others in the queue, and are no more than the
vacant slots. -/
def Machine.Covered (m : Machine) : Prop :=
  ∃ front back, m.ledger.waiters = front ++ back ∧ front.length ≤ m.ledger.vacant ∧
    ∀ t ∈ m.calls.flatMap Call.retrying, t ∈ front

namespace Machine.Covered

theorem vacant_pos (hm : m.Covered) (ht : t ∈ m.calls.flatMap Call.retrying) :
    0 < m.ledger.vacant := by
  obtain ⟨front, back, -, hle, hmem⟩ := hm
  exact Nat.lt_of_lt_of_le (List.length_pos_of_mem (hmem t ht)) hle

/-- A call of no retry begins. -/
theorem begun {y : Call} (hm : m.Covered) (hy : m'.calls = m.calls ++ [y]) (hnone : y.retrying = [])
    (hl : m'.ledger = m.ledger) : m'.Covered := by
  obtain ⟨front, back, hw, hle, hmem⟩ := hm
  refine ⟨front, back, by rw [hl, hw], by rw [hl]; exact hle, fun u hu => ?_⟩
  rw [hy, List.flatMap_append, List.flatMap_singleton, hnone, List.append_nil] at hu
  exact hmem u hu

variable {x y : Call}

/-- The queue is as it was, and no slot was claimed. -/
theorem kept (hm : m.Covered) (hq : m.Queued) (ht : m.Turned m' x y) (hy : y.retrying ⊆ x.retrying)
    (hsame : m'.ledger.waiters = m.ledger.waiters) (hv : m.ledger.vacant ≤ m'.ledger.vacant) :
    m'.Covered := by
  obtain ⟨front, back, hw, hle, hmem⟩ := hm
  refine ⟨front, back, hsame.trans hw, Nat.le_trans hle hv, fun u hu => ?_⟩
  obtain hnew | ⟨hold, -⟩ := hq.mem_retrying ht hu
  · exact hmem u (List.mem_flatMap.mpr ⟨x, ht.mem_left, hy hnew⟩)
  · exact hmem u hold

/-- The call has left the queue, from wherever it stood. -/
theorem left (hm : m.Covered) (hq : m.Queued) (ht : m.Turned m' x y) (hy : y.retrying = [])
    (hx : x.tickets = [t]) (hl : m'.ledger = m.ledger.leave t) : m'.Covered := by
  obtain ⟨front, back, hw, hle, hmem⟩ := hm
  refine ⟨front.filter (· != t), back.filter (· != t), ?_, ?_, fun u hu => ?_⟩
  · rw [hl, Ledger.leave, hw, List.filter_append]
  · rw [hl]
    exact Nat.le_trans (List.length_filter_le _ _) hle
  · obtain hnew | ⟨hold, hne⟩ := hq.mem_retrying ht hu
    · rw [hy] at hnew
      cases hnew
    · rw [hx, List.mem_singleton] at hne
      exact List.mem_filter.mpr ⟨hmem u hold, bne_iff_ne.mpr hne⟩

/-- The call was the first in the queue, and has claimed one slot at most. -/
theorem taken (hm : m.Covered) (hq : m.Queued) (ht : m.Turned m' x y) (hy : y.retrying = [])
    (hx : x.tickets = [t]) (hf : m.ledger.waiters.head? = some t)
    (htail : m'.ledger.waiters = m.ledger.waiters.tail)
    (hv : m.ledger.vacant - 1 ≤ m'.ledger.vacant) : m'.Covered := by
  obtain ⟨front, back, hw, hle, hmem⟩ := hm
  cases front with
  | nil =>
      refine ⟨[], m'.ledger.waiters, rfl, Nat.zero_le _, fun u hu => ?_⟩
      obtain hnew | ⟨hold, -⟩ := hq.mem_retrying ht hu
      · rw [hy] at hnew
        cases hnew
      · exact hmem u hold
  | cons w front =>
      -- The call was the first of those in front, so there is one less of them too.
      rw [hw, List.cons_append, List.head?_cons] at hf
      obtain rfl := Option.some.inj hf
      rw [List.length_cons] at hle
      refine ⟨front, back, by rw [htail, hw, List.cons_append, List.tail_cons],
        Nat.le_trans (Nat.le_sub_one_of_lt hle) hv, fun u hu => ?_⟩
      obtain hnew | ⟨hold, hne⟩ := hq.mem_retrying ht hu
      · rw [hy] at hnew
        cases hnew
      · rw [hx] at hne
        exact (List.mem_cons.mp (hmem u hold)).resolve_left fun heq =>
          hne (List.mem_singleton.mpr heq)

theorem change (h : Change v m m') (hq : m.Queued) (hu : m.Untried) (hm : m.Covered) :
    m'.Covered := by
  cases h with
  | acquireBegun timeout | closeBegun | releaseBegun faulty _ => exact hm.begun rfl rfl rfl
  | marked d | elapsed d => exact hm
  | @arrived _ pre post d r hx =>
      -- Whoever joins the queue behind the others has not tried yet.
      obtain ⟨front, back, hw, hle, hmem⟩ := hm
      obtain rfl : r = none := hu.retryAt (hx ▸ List.mem_append_right _ List.mem_cons_self)
      refine ⟨front, back ++ [m.ledger.nextTicket], ?_, hle, fun u hu => ?_⟩
      · show m.ledger.waiters ++ [m.ledger.nextTicket] = _
        rw [hw, List.append_assoc]
      · obtain hnew | ⟨hold, -⟩ := hq.mem_retrying (.same hx rfl) hu
        · cases hnew
        · exact hmem u hold
  | turnedAway hx _ => exact hm.left hq (.same hx rfl) rfl rfl rfl
  | timedOut hx _ _ _ => exact hm.left hq (.same hx rfl) rfl rfl rfl
  | served hx _ hf _ _ => exact hm.taken hq (.same hx rfl) rfl rfl hf rfl (Nat.sub_le _ _)
  | servedLast hx _ hf _ _ => exact hm.taken hq (.same hx rfl) rfl rfl hf rfl (Nat.sub_le _ _)
  | claimed hx _ hf _ _ _ => exact hm.taken hq (.same hx rfl) rfl rfl hf rfl (Nat.le_refl _)
  | slept hx _ _ _ => exact hm.kept hq (.same hx rfl) (List.Subset.refl _) rfl (Nat.le_refl _)
  | woken hx => exact hm.kept hq (.same hx rfl) (List.Subset.refl _) rfl (Nat.le_refl _)
  | @rejoined _ pre post d r t hx =>
      -- It comes back to the first place, and brings its slot.
      obtain ⟨front, back, hw, hle, hmem⟩ := hm
      refine ⟨t :: front, back, ?_, Nat.succ_le_succ hle, fun u hu => ?_⟩
      · show t :: m.ledger.waiters = _
        rw [hw, List.cons_append]
      · obtain hnew | ⟨hold, -⟩ := hq.mem_retrying (.woken hx rfl) hu
        · exact List.mem_cons.mpr (Or.inl (List.mem_singleton.mp hnew))
        · exact List.mem_cons_of_mem _ (hmem u hold)
  | answered hx | returnTold hx | shut hx =>
      exact hm.kept hq (.woken hx rfl) (List.nil_subset _) rfl (Nat.le_refl _)
  | reopened hx | refused hx | discarded hx | closerWoken hx | drainedOne hx | closeDone hx =>
      exact hm.kept hq (.same hx rfl) (List.nil_subset _) rfl (Nat.le_refl _)
  | closerSlept hx _ | drained hx _ =>
      exact hm.kept hq (.same hx rfl) (List.nil_subset _) rfl (Nat.le_refl _)
  | @takenBack _ pre post c b hx =>
      cases b with
      | true => exact hm.kept hq (.same hx rfl) (List.nil_subset _) rfl (Nat.le_succ _)
      | false => exact hm.kept hq (.same hx rfl) (List.nil_subset _) rfl (Nat.le_refl _)

end Machine.Covered

/-! ## Sleep ends at the retry time -/

/-- Who sleeps with a retry time wakes by it. -/
def Machine.Prompt (m : Machine) : Prop :=
  ∀ d r t w, .acquire ⟨d, some r, .asleep t w⟩ ∈ m.calls → ∃ u, w = some u ∧ u ≤ r

theorem Ledger.earlier_le_of_some (d : Option Time) (r : Time) :
    ∃ u, earlier d (some r) = some u ∧ u ≤ r := by
  cases d with
  | none => exact ⟨r, rfl, Nat.le_refl r⟩
  | some d => exact ⟨min d r, rfl, Nat.min_le_right d r⟩

theorem Machine.Prompt.change (h : Change v m m') (hc : m.Covered) (hm : m.Prompt) :
    m'.Prompt := by
  intro d r t w hmem
  obtain hold | hnew := h.halted_cases hmem (Or.inl rfl)
  · exact hm d r t w hold
  · cases hnew with
    | sleeps hi _ =>
        have hretrying : t ∈ m.calls.flatMap Call.retrying :=
          List.mem_flatMap.mpr ⟨_, List.mem_of_getElem? hi, List.mem_singleton_self t⟩
        rw [if_pos (hc.vacant_pos hretrying)]
        exact Ledger.earlier_le_of_some d r

/-- The calls that wait for their retry, in every reachable state. -/
theorem Machine.Reachable.covered_prompt (h : m.Reachable) : m.Covered ∧ m.Prompt := by
  have key : m.Queued ∧ m.Untried ∧ m.Covered ∧ m.Prompt :=
    h.keep (P := fun m => m.Queued ∧ m.Untried ∧ m.Covered ∧ m.Prompt)
      (fun _ _ => ⟨.initial, rfl, ⟨[], [], rfl, Nat.zero_le _, nofun⟩, fun _ _ _ _ => nofun⟩)
      fun hv ⟨hq, hu, hc, hp⟩ =>
        ⟨hq.change hv, hu.change hv, hc.change hv hq hu, hp.change hv hc⟩
  exact key.2.2

/-! ## How a call gets from one attempt to the next -/

/-- The call is in an attempt to connect, or in one whose failure is not recorded yet. -/
def Acquire.trying (a : Acquire) : Bool :=
  match a.phase with
  | .connecting _ => true
  | .refused _ => true
  | _ => false

/-- The call has left the queue, and looks at the ledger again only after a failed attempt. -/
def Acquire.away (a : Acquire) : Bool :=
  match a.phase with
  | .connecting _ => true
  | .refused _ => true
  | .notifying _ => true
  | .returned _ => true
  | _ => false

/-- What becomes of the acquire call `i` in a change: `a` before it, `b` after it. -/
inductive Machine.Follows (m : Machine) (v : Move) (m' : Machine) (i : Nat) (a b : Acquire) :
    Prop where
  | goesOn :
      b.retryAt = a.retryAt → (b.trying = true → a.trying = true) →
      (a.away = true → b.away = true) → Follows m v m' i a b
  /-- It claims a vacant slot. -/
  | claims :
      v = .step i → m.attempts < m'.attempts → b.retryAt = a.retryAt → a.trying = false →
      a.away = false → Follows m v m' i a b
  | comesBack :
      m.Records v i → b.retryAt = some (m.clock + reopenInterval) → b.trying = false →
      Follows m v m' i a b

/-- What a change does to the call in a place. -/
theorem Change.follows (h : Change v m m') (hi : m.calls[i]? = some (.acquire a)) :
    ∃ b, m'.calls[i]? = some (.acquire b) ∧ b.deadline = a.deadline ∧ m.Follows v m' i a b := by
  have same : m'.calls[i]? = some (.acquire a) →
      ∃ b, m'.calls[i]? = some (.acquire b) ∧ b.deadline = a.deadline ∧ m.Follows v m' i a b :=
    fun h => ⟨a, h, rfl, .goesOn rfl id id⟩
  have begun : ∀ {y : Call}, m'.calls = m.calls ++ [y] → m'.calls[i]? = some (.acquire a) := by
    intro y hy
    rw [hy, List.getElem?_append_left (List.getElem?_eq_some_iff.mp hi).1, hi]
  -- The call in this place is the one that has moved, or another one, which was woken at most.
  have moved : ∀ {pre post : List Call} {x y : Call}, m.calls = pre ++ x :: post →
      (m'.calls = pre ++ y :: post ∨
        m'.calls = pre.map Call.roused ++ y :: post.map Call.roused) →
      (∀ c, i = pre.length → x = .acquire c →
        ∃ b, y = .acquire b ∧ b.deadline = c.deadline ∧ m.Follows v m' i c b) →
      ∃ b, m'.calls[i]? = some (.acquire b) ∧ b.deadline = a.deadline ∧ m.Follows v m' i a b := by
    intro pre post x y hx hy hmine
    by_cases hlen : pre.length = i
    · have hxa : x = .acquire a := by simpa [hx, ← hlen] using hi
      obtain ⟨b, rfl, hd, hf⟩ := hmine a hlen.symm hxa
      exact ⟨b, hlen ▸ Machine.getElem?_changed hy, hd, hf⟩
    · obtain hcall | hcall := Machine.getElem?_of_ne hx hy hlen
      · exact same (hcall.trans hi)
      · rw [hi, Option.map_some] at hcall
        obtain ⟨d, r, p⟩ := a
        cases p with
        | asleep t w => exact ⟨_, hcall, rfl, .goesOn rfl nofun nofun⟩
        | _ => exact same hcall
  have mine : ∀ {c c' b : Acquire}, Call.acquire c = .acquire c' → b.deadline = c.deadline →
      m.Follows v m' i c b →
      ∃ b', Call.acquire b = .acquire b' ∧ b'.deadline = c'.deadline ∧ m.Follows v m' i c' b' := by
    intro c c' b hc hd hf
    obtain rfl := Call.acquire.inj hc
    exact ⟨b, rfl, hd, hf⟩
  cases h with
  | acquireBegun timeout | closeBegun | releaseBegun faulty _ => exact same (begun rfl)
  | marked d | elapsed d => exact same hi
  | arrived hx | woken hx =>
      exact moved hx (Or.inl rfl) fun c _ hc => mine hc rfl (.goesOn rfl nofun nofun)
  | reopened hx | refused hx =>
      exact moved hx (Or.inl rfl) fun c _ hc =>
        mine hc rfl (.goesOn rfl (fun _ => rfl) fun _ => rfl)
  | turnedAway hx _ =>
      exact moved hx (Or.inl rfl) fun c _ hc => mine hc rfl (.goesOn rfl nofun nofun)
  | timedOut hx _ _ _ | slept hx _ _ _ =>
      exact moved hx (Or.inl rfl) fun c _ hc => mine hc rfl (.goesOn rfl nofun nofun)
  | served hx _ _ _ _ | servedLast hx _ _ _ _ =>
      exact moved hx (Or.inl rfl) fun c _ hc => mine hc rfl (.goesOn rfl nofun nofun)
  | claimed hx _ _ _ _ _ =>
      exact moved hx (Or.inl rfl) fun c hlen hc =>
        mine hc rfl (.claims (hlen ▸ rfl) (Nat.lt_succ_self _) rfl rfl rfl)
  | @rejoined _ pre post d r t hx =>
      refine moved hx (Or.inr rfl) fun c hlen hc =>
        mine hc rfl (.comesBack ⟨hlen ▸ rfl, ?_⟩ rfl rfl)
      exact ⟨d, r, t, by simp [hlen, hx]⟩
  | answered hx =>
      exact moved hx (Or.inr rfl) fun c _ hc => mine hc rfl (.goesOn rfl nofun fun _ => rfl)
  | takenBack hx | discarded hx | closerWoken hx | drainedOne hx | closeDone hx =>
      exact moved hx (Or.inl rfl) fun _ _ => nofun
  | closerSlept hx _ | drained hx _ => exact moved hx (Or.inl rfl) fun _ _ => nofun
  | returnTold hx | shut hx => exact moved hx (Or.inr rfl) fun _ _ => nofun

/-! ## Attempts -/

theorem Change.attempts_le (h : Change v m m') : m.attempts ≤ m'.attempts := by
  cases h with
  | claimed _ _ _ _ _ _ => exact Nat.le_succ _
  | _ => exact Nat.le_refl _

/-- Only a call that claims a vacant slot begins an attempt. -/
theorem Change.claimable_of_attempts (h : Change (.step i) m m') (hlt : m.attempts < m'.attempts) :
    ∃ d r t, m.calls[i]? = some (.acquire ⟨d, r, .awake t⟩) ∧ m.ledger.Claimable m.clock t r := by
  generalize hv : Move.step i = w at h
  cases h with
  | @claimed _ pre post d r t hx ho hf hi hvacant hr =>
      obtain rfl := Move.step.inj hv
      exact ⟨d, r, t, by simp [hx], ho, hf, hi, hvacant, hr⟩
  | _ => exact absurd hlt (Nat.lt_irrefl _)

namespace Machine

/-- A call that begins an attempt was about to look at the ledger, and could claim a slot. -/
theorem claims_of_tries (h : m.apply v = some (m', ns)) (ht : m.Tries v m' i) :
    ∃ a, m.calls[i]? = some (.acquire a) ∧ m.Claims a := by
  obtain ⟨rfl, hlt⟩ := ht
  have direct : ∀ {b : Machine}, Change (.step i) m b → m.attempts < b.attempts →
      ∃ a, m.calls[i]? = some (.acquire a) ∧ m.Claims a := by
    intro b hb hgrown
    obtain ⟨d, r, t, hi, hc⟩ := hb.claimable_of_attempts hgrown
    exact ⟨_, hi, hc⟩
  obtain h | ⟨m₁, h₁, h₂⟩ := apply_changes h
  · exact direct h hlt
  · by_cases hfirst : m.attempts < m₁.attempts
    · exact direct h₁ hfirst
    · have hsame := Nat.le_antisymm (Nat.not_lt.mp hfirst) h₁.attempts_le
      obtain ⟨d, r, t, hi, hc⟩ := h₂.claimable_of_attempts (hsame ▸ hlt)
      -- The slot was claimed by the second look of the move, so the call had just arrived.
      obtain ⟨hclock, ⟨hx, rfl, hl⟩ | rfl⟩ := h₁.awake_cases hi
      · refine ⟨_, hx, ?_⟩
        rw [hl, hclock] at hc
        exact hc
      · obtain hnone | hreached := hc.retry
        · cases hnone
        · rw [hclock, Ledger.reached_reopen] at hreached
          cases hreached

/-- A call that claims a slot looks at a ledger on which it can. -/
theorem Claims.looks (hc : m.Claims a) : ∃ t, m.looksWith? a = some t ∧
    (m.found a).Claimable m.clock t a.retryAt ∧ m.retry a = a.retryAt ∧ a.away = false := by
  obtain ⟨d, r, p⟩ := a
  cases p with
  | arriving => exact ⟨_, rfl, hc, rfl, rfl⟩
  | awake t => exact ⟨t, rfl, hc, rfl, rfl⟩
  | _ => exact hc.elim

/-- A call that has a retry time does not try before it. -/
theorem retryAt_le_of_tries {r : Time} (h : m.apply v = some (m', ns)) (ht : m.Tries v m' i)
    (hi : m.calls[i]? = some (.acquire a)) (hr : a.retryAt = some r) : r ≤ m.clock := by
  obtain ⟨b, hb, hc⟩ := claims_of_tries h ht
  obtain rfl := Call.acquire.inj (Option.some.inj (hi.symm.trans hb))
  obtain ⟨t, -, hclaim, -⟩ := hc.looks
  obtain hnone | hreached := hclaim.retry
  · rw [hr] at hnone
    cases hnone
  · rw [hr] at hreached
    exact of_decide_eq_true hreached

/-- A call that has begun an attempt is in it. -/
theorem away_of_tries (h : m.apply v = some (m', ns)) (ht : m.Tries v m' i) :
    ∃ b, m'.calls[i]? = some (.acquire b) ∧ b.away = true := by
  obtain ⟨a, hi, hc⟩ := claims_of_tries h ht
  obtain ⟨rfl, -⟩ := ht
  obtain ⟨t, hlook, hclaim, hretry, -⟩ := hc.looks
  obtain ⟨-, hcall⟩ := look_of_step hi hlook h
  rw [hretry, Ledger.attend_of_vacant hclaim.isOpen hclaim.front hclaim.idle hclaim.vacant
    hclaim.retry] at hcall
  exact ⟨_, hcall, rfl⟩

/-- A call that is away stays so, until a failed attempt is recorded. -/
theorem away_of_apply (h : m.apply v = some (m', ns)) (hr : ¬ m.Records v i)
    (ha : ∃ a, m.calls[i]? = some (.acquire a) ∧ a.away = true) :
    ∃ b, m'.calls[i]? = some (.acquire b) ∧ b.away = true := by
  have keep : ∀ {m m' : Machine}, Change v m m' → ¬ m.Records v i →
      (∃ a, m.calls[i]? = some (.acquire a) ∧ a.away = true) →
      ∃ b, m'.calls[i]? = some (.acquire b) ∧ b.away = true := by
    rintro m m' hv hr ⟨a, hi, haway⟩
    obtain ⟨b, hb, -, hf⟩ := hv.follows hi
    cases hf with
    | goesOn _ _ hstays => exact ⟨b, hb, hstays haway⟩
    | claims _ _ _ _ hnot =>
        rw [haway] at hnot
        cases hnot
    | comesBack hrec _ _ => exact absurd hrec hr
  obtain h | ⟨m₁, h₁, h₂⟩ := apply_changes h
  · exact keep h hr ha
  · refine keep h₂ ?_ (keep h₁ hr ha)
    rintro ⟨rfl, d, r, t, hi⟩
    exact h₁.not_refused hi

end Machine

/-! ## Rest and sleep between attempts -/

/-- Call `i` is not to try again before an interval has passed since `from_`. -/
def Machine.Rested (m : Machine) (i : Nat) (from_ : Time) : Prop :=
  from_ ≤ m.clock ∧ ∃ a r, m.calls[i]? = some (.acquire a) ∧ a.retryAt = some r ∧
    from_ + reopenInterval ≤ r

/-- A later failure only moves the retry time on. -/
theorem Machine.Rested.change {from_ : Time} (h : Change v m m') (hm : m.Rested i from_) :
    m'.Rested i from_ := by
  obtain ⟨hle, a, r, hi, hr, hrest⟩ := hm
  obtain ⟨b, hb, -, hf⟩ := h.follows hi
  refine ⟨Nat.le_trans hle h.clock_le, b, ?_⟩
  cases hf with
  | goesOn hsame _ _ => exact ⟨r, hb, hsame.trans hr, hrest⟩
  | claims _ _ hsame _ _ => exact ⟨r, hb, hsame.trans hr, hrest⟩
  | comesBack _ hnew _ => exact ⟨_, hb, hnew, Nat.add_le_add_right hle _⟩

/-- Call `i` has the deadline `d` and waits for its retry time. -/
def Machine.Pauses (m : Machine) (i : Nat) (d : Option Time) (until_ : Time) : Prop :=
  ∃ a, m.calls[i]? = some (.acquire a) ∧ a.deadline = d ∧ a.retryAt = some until_ ∧
    a.trying = false

theorem Machine.Pauses.apply {d : Option Time} {until_ : Time} (hm : m.Pauses i d until_)
    (h : m.apply v = some (m', ns)) (hno : ¬ m.Tries v m' i) : m'.Pauses i d until_ := by
  have keep : ∀ {m m' : Machine}, Change v m m' → (v = .step i → ¬ m.attempts < m'.attempts) →
      m.Pauses i d until_ → m'.Pauses i d until_ := by
    rintro m m' hv hno ⟨a, hi, hd, hr, ht⟩
    obtain ⟨b, hb, hd', hf⟩ := hv.follows hi
    refine ⟨b, hb, hd'.trans hd, ?_⟩
    cases hf with
    | goesOn hsame hstays _ =>
        exact ⟨hsame.trans hr, Bool.eq_false_iff.mpr fun h => by rw [hstays h] at ht; cases ht⟩
    | claims hstep hlt _ _ _ => exact absurd hlt (hno hstep)
    | comesBack hrec _ _ =>
        -- Only a call that was in an attempt comes back from it.
        obtain ⟨-, d', r, t, hi'⟩ := hrec
        obtain rfl := Call.acquire.inj (Option.some.inj (hi.symm.trans hi'))
        cases ht
  obtain h | ⟨m₁, h₁, h₂⟩ := apply_changes h
  · exact keep h (fun hv hlt => hno ⟨hv, hlt⟩) hm
  · refine keep h₂ (fun hv hlt => hno ⟨hv, Nat.lt_of_le_of_lt h₁.attempts_le hlt⟩) ?_
    exact keep h₁ (fun hv hlt => hno ⟨hv, Nat.lt_of_lt_of_le hlt h₂.attempts_le⟩) hm

/-- A call waits for its retry time until it begins the next attempt. -/
theorem Trace.pauses {tr : List (Machine × Move)} {d : Option Time} {until_ : Time}
    (h : Trace m tr m') (hm : m.Pauses i d until_)
    (hno : ∀ p ∈ tr, ∀ b bs, p.1.apply p.2 = some (b, bs) → ¬ p.1.Tries p.2 b i) :
    m'.Pauses i d until_ := by
  induction h with
  | nil => exact hm
  | move _ hv ih =>
      simp only [List.forall_mem_append, List.forall_mem_singleton] at hno
      exact (ih hno.1).apply hv (hno.2 _ _ hv)

/-- Only a look at a ledger on which a slot can be claimed ends with one. -/
theorem Ledger.claimable_of_reopen {l : Ledger} {now : Time} {d r : Option Time}
    (h : (l.attend now t d r).2 = .reopen) : l.Claimable now t r := by
  cases hc : l.closed with
  | true =>
      rw [attend_of_closed hc] at h
      cases h
  | false =>
      obtain ⟨c, rest, hf, hi⟩ | ⟨hf, hi, hv, hr⟩ | hu := l.look_cases now t r
      · rw [attend_of_idle hc hf hi] at h
        cases h
      · exact ⟨hc, hf, hi, hv, hr⟩
      · rw [attend_of_unserved hc hu, wait] at h
        split at h
        · cases h
        · cases h

/-- A call is in an attempt after a look if that ended with a slot. -/
theorem Verdict.eq_reopen_of_trying {w : Verdict} {d r : Option Time}
    (h : Acquire.trying ⟨d, r, w.phase t⟩ = true) : w = .reopen := by
  cases w with
  | reopen => rfl
  | answer ans notify => cases notify <;> cases h
  | sleep u => cases h

/-- The call whose failure is recorded has a retry time from then on. -/
theorem Machine.pauses_of_records (h : m.apply v = some (m', ns)) (hr : m.Records v i) :
    m'.clock = m.clock ∧ ∃ d, m'.Pauses i d (m.clock + reopenInterval) := by
  obtain ⟨rfl, d, r, t, hi⟩ := hr
  have hclock : m'.clock = m.clock :=
    (apply_changes h).keep (P := fun b => b.clock = m.clock)
      (fun hc hb => (hc.clock_eq fun _ => nofun).trans hb) rfl
  obtain ⟨-, hcall⟩ := look_of_step hi rfl h
  refine ⟨hclock, d, _, hcall, rfl, rfl, Bool.eq_false_iff.mpr fun htrying => ?_⟩
  -- The look that follows claims no slot, since the retry time is still to come.
  obtain hnone | hreached :=
    (Ledger.claimable_of_reopen (Verdict.eq_reopen_of_trying htrying)).retry
  · cases hnone
  · rw [show m.retry ⟨d, r, .refused t⟩ = some (m.clock + reopenInterval) from rfl,
      Ledger.reached_reopen] at hreached
    cases hreached

theorem Machine.rested_of_records (h : m.apply v = some (m', ns)) (hr : m.Records v i) :
    m'.Rested i m.clock := by
  obtain ⟨hclock, d, a, ha, -, hretry, -⟩ := pauses_of_records h hr
  exact ⟨Nat.le_of_eq hclock.symm, a, _, ha, hretry, Nat.le_refl _⟩

/-- After a call has begun an attempt, it is away until the failure is recorded, and rests from then
on. -/
theorem Trace.rested_or_away {tr : List (Machine × Move)} (h : Trace m tr m')
    (ha : ∃ a, m.calls[i]? = some (.acquire a) ∧ a.away = true) :
    (∃ p ∈ tr, p.1.Records p.2 i ∧ m'.Rested i p.1.clock) ∨
      ∃ b, m'.calls[i]? = some (.acquire b) ∧ b.away = true := by
  induction h with
  | nil => exact Or.inr ha
  | @move tr m' m'' v ns ht hv ih =>
      obtain ⟨p, hp, hrec, hrested⟩ | haway := ih
      · exact Or.inl ⟨p, List.mem_append_left _ hp, hrec,
          (Machine.apply_changes hv).keep (P := fun b => b.Rested i p.1.clock)
            (fun hc hb => hb.change hc) hrested⟩
      · by_cases hrec : m'.Records v i
        · exact Or.inl ⟨_, List.mem_append_right _ (List.mem_singleton_self _), hrec,
            Machine.rested_of_records hv hrec⟩
        · exact Or.inr (Machine.away_of_apply hv hrec haway)

/-- A call that rests does not try before the interval has passed. -/
theorem Machine.Rested.le_of_tries {from_ : Time} (hm : m.Rested i from_)
    (h : m.apply v = some (m', ns)) (ht : m.Tries v m' i) :
    from_ + reopenInterval ≤ m.clock := by
  obtain ⟨-, a, r, ha, hr, hle⟩ := hm
  exact Nat.le_trans hle (retryAt_le_of_tries h ht ha hr)

/-- **Retries are throttled.** Between two attempts of an acquire call a failure is recorded under
the lock, and the second attempt does not begin before the interval has passed since. After such a
record no attempt of the call begins before the interval has passed; and until the next one begins,
whenever the call sleeps, a slot is vacant, and its sleep ends by that time and by its deadline. -/
theorem Machine.Reachable.reopens_throttled (hm : m.Reachable) :
    (∀ v m₁ ns i tr m' v' m'' ns', m.apply v = some (m₁, ns) → m.Tries v m₁ i →
      Trace m₁ tr m' → m'.apply v' = some (m'', ns') → m'.Tries v' m'' i →
      ∃ p ∈ tr, p.1.Records p.2 i ∧ p.1.clock + reopenInterval ≤ m'.clock) ∧
    ∀ v m₁ ns i tr m', m.apply v = some (m₁, ns) → m.Records v i → Trace m₁ tr m' →
      (∀ v' m'' ns', m'.apply v' = some (m'', ns') → m'.Tries v' m'' i →
        m.clock + reopenInterval ≤ m'.clock) ∧
      ((∀ p ∈ tr, ∀ b bs, p.1.apply p.2 = some (b, bs) → ¬ p.1.Tries p.2 b i) →
        ∀ d r t w, m'.calls[i]? = some (.acquire ⟨d, r, .asleep t w⟩) →
          0 < m'.ledger.vacant ∧ ∃ u, w = some u ∧ u ≤ m.clock + reopenInterval ∧
            ∀ at_, d = some at_ → u ≤ at_) := by
  refine ⟨fun v m₁ ns i tr m' v' m'' ns' h ht htr h' ht' => ?_,
    fun v m₁ ns i tr m' h hrec htr => ?_⟩
  · -- After an attempt the call is away until its failure is recorded.
    obtain ⟨p, hp, hrec, hrested⟩ | ⟨b, hb, haway⟩ := htr.rested_or_away (away_of_tries h ht)
    · exact ⟨p, hp, hrec, hrested.le_of_tries h' ht'⟩
    · obtain ⟨a, ha, hc⟩ := claims_of_tries h' ht'
      obtain rfl := Call.acquire.inj (Option.some.inj (ha.symm.trans hb))
      obtain ⟨-, -, -, -, hnot⟩ := hc.looks
      rw [haway] at hnot
      cases hnot
  · obtain ⟨-, d₀, hpauses⟩ := pauses_of_records h hrec
    refine ⟨fun v' m'' ns' h' ht' => ?_, fun hno d r t w hi => ?_⟩
    · have hrested : m'.Rested i m.clock :=
        htr.keep (P := fun b => b.Rested i m.clock) (fun hv hb => hb.change hv)
          (rested_of_records h hrec)
      exact hrested.le_of_tries h' ht'
    · have hreach : m'.Reachable := htr.reachable (hm.move h)
      -- A sleeping call is covered by a vacant slot, and its sleep is bounded by its retry time.
      obtain ⟨hcovered, hprompt⟩ := hreach.covered_prompt
      have htimed : m'.Timed := hreach.keep (P := Machine.Timed) (fun _ _ _ _ _ _ => nofun)
        fun hv hb => hb.change hv
      obtain ⟨a, ha, -, hr, -⟩ := htr.pauses hpauses hno
      obtain rfl := Call.acquire.inj (Option.some.inj (ha.symm.trans hi))
      obtain rfl : r = some (m.clock + reopenInterval) := hr
      have hmem := List.mem_of_getElem? hi
      obtain ⟨u, rfl, hle⟩ := hprompt d _ t w hmem
      refine ⟨hcovered.vacant_pos (List.mem_flatMap.mpr ⟨_, hmem, List.mem_singleton_self t⟩),
        u, rfl, hle, ?_⟩
      rintro at_ rfl
      obtain ⟨u', hu, hle'⟩ := htimed at_ _ t _ hmem
      obtain rfl := Option.some.inj hu
      exact hle'

/-- A pool of two slots, of which one was opened and is out. The second caller is where `a` says,
with ticket 1. -/
def Machine.second (l : Ledger) (clock : Time) (attempts : Nat) (a : Acquire) : Machine where
  capacity := 2
  ledger := l
  calls := [.acquire ⟨none, none, .returned (.connection 0)⟩, .acquire a]
  held := [⟨0, false⟩]
  clock := clock
  opened := 1
  attempts := attempts
  destroyed := []

/-- The second caller is about to look at the ledger. -/
def Machine.expectant : Machine :=
  .second ⟨[], 1, 1, false, [], 1⟩ 0 2 ⟨some 2000, none, .arriving⟩

/-- Its attempt to connect has failed. -/
def Machine.rebuffed : Machine :=
  .second ⟨[], 2, 0, false, [], 2⟩ 100 3 ⟨some 2000, none, .refused 1⟩

/-- The failure is recorded, and it sleeps. -/
def Machine.resting : Machine :=
  .second ⟨[], 1, 1, false, [1], 2⟩ 100 3 ⟨some 2000, some 600, .asleep 1 (some 600)⟩

theorem Machine.expectant_reachable : expectant.Reachable :=
  (Reachable.start (by decide) (by decide) : (initial 2 1).Reachable).follow
    (show (initial 2 1).follow [.beginAcquire none, .step 0, .step 0, .beginAcquire (some 2000)] =
      some expectant by decide)

theorem reopens_throttled_rebuffed :
    (∃ m₁ tr m' m'', Machine.expectant.apply (.step 1) = some (m₁, []) ∧
      Machine.expectant.Tries (.step 1) m₁ 1 ∧ Trace m₁ tr m' ∧
      m'.apply (.step 1) = some (m'', []) ∧ m'.Tries (.step 1) m'' 1 ∧
      ∃ p ∈ tr, p.1.Records p.2 1 ∧ p.1.clock + reopenInterval ≤ m'.clock) ∧
    Machine.rebuffed.Records (.step 1) 1 ∧
    Machine.rebuffed.apply (.step 1) = some (Machine.resting, []) ∧
    0 < Machine.resting.ledger.vacant ∧
    ∃ tr m' m'', Trace Machine.resting tr m' ∧ m'.apply (.step 1) = some (m'', []) ∧
      m'.Tries (.step 1) m'' 1 ∧ Machine.rebuffed.clock + reopenInterval ≤ m'.clock := by
  have hreach := Machine.expectant_reachable
  have hrebuffed : Machine.rebuffed.Reachable := hreach.follow
    (show Machine.expectant.follow [.step 1, .advance 100, .connected 1 false] =
      some Machine.rebuffed by decide)
  have hrecords : Machine.rebuffed.Records (.step 1) 1 := ⟨rfl, _, _, _, rfl⟩
  have hrests : Machine.rebuffed.apply (.step 1) = some (Machine.resting, []) := by
    decide +kernel
  have hsleeps := (hrebuffed.reopens_throttled.2 _ _ _ _ _ _ hrests hrecords .nil).2
    (fun _ => nofun) _ _ _ _ rfl
  obtain ⟨tr, htr⟩ := Machine.exists_trace
    (show Machine.resting.follow [.advance 500, .wake 1] =
      some (.second ⟨[], 1, 1, false, [1], 2⟩ 600 3 ⟨some 2000, some 600, .awake 1⟩) by decide)
  have hwaits := (hrebuffed.reopens_throttled.2 _ _ _ _ _ _ hrests hrecords htr).1 (.step 1) _ _ rfl
    ⟨rfl, by decide⟩
  obtain ⟨tr', htr'⟩ := Machine.exists_trace
    (show (Machine.second ⟨[], 2, 0, false, [], 2⟩ 0 3 ⟨some 2000, none, .connecting 1⟩).follow
      [.advance 100, .connected 1 false, .step 1, .advance 500, .wake 1] =
      some (.second ⟨[], 1, 1, false, [1], 2⟩ 600 3 ⟨some 2000, some 600, .awake 1⟩) by decide)
  have hbetween := hreach.reopens_throttled.1 (.step 1) _ [] 1 tr' _ (.step 1) _ _ rfl
    ⟨rfl, by decide⟩ htr' rfl ⟨rfl, by decide⟩
  exact ⟨⟨_, tr', _, _, rfl, ⟨rfl, by decide⟩, htr', rfl, ⟨rfl, by decide⟩, hbetween⟩, hrecords,
    hrests, hsleeps.1, tr, _, _, htr, rfl, ⟨rfl, by decide⟩, hwaits⟩

end PooledStore.Pool
