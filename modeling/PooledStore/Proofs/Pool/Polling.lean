import PooledStore.Proofs.Pool.Outcomes

/-!
# Polling

A caller that waits is to sleep until something happens, or until a time that is still to come. The
end of its sleep is the earlier of its deadline and, next to a vacant slot, its retry time; and it
sleeps only before its deadline. Its retry time may have been reached all the same: only the front
of the queue may retry, and a call can be behind another when its time comes. It then sleeps until
a time that is past, wakes at once, and looks again (`Machine.Polls`).

`Machine.Untried.polls_iff` says which looks end so. A call gets behind another only when that one
comes back from a failed reopen while the first waits for its own retry (`Machine.Displaces`):
otherwise only the front of the queue has a retry time (`Machine.FrontRetries`).
`Trace.never_polls_iff` puts the two together for whole runs.
-/

set_option autoImplicit false

namespace PooledStore.Pool

variable {m m' : Machine} {v : Move} {ns : List Notice} {i : Nat} {t : Ticket}

/-- The move puts its call to sleep until a time that has been reached. -/
def Machine.Polls (m : Machine) (v : Move) (m' : Machine) : Prop :=
  ∃ i d r t w, v = .step i ∧ m'.calls[i]? = some (.acquire ⟨d, r, .asleep t (some w)⟩) ∧
    w ≤ m.clock

/-- A queued call looks at the ledger of an open pool, next to a vacant slot and before its
deadline, when its retry time has been reached and it is not at the front. -/
def Machine.Impatient (m : Machine) : Move → Prop
  | .step i =>
      ∃ d r t, m.calls[i]? = some (.acquire ⟨d, some r, .awake t⟩) ∧ r ≤ m.clock ∧
        Ledger.reached m.clock d = false ∧ m.ledger.closed = false ∧ 0 < m.ledger.vacant ∧
        m.ledger.waiters.head? ≠ some t
  | _ => False

/-- The ticket of a call that is in the queue and has a retry time. -/
def Call.retrying : Call → List Ticket
  | .acquire ⟨_, r, .awake t⟩ => if r.isSome then [t] else []
  | .acquire ⟨_, r, .asleep t _⟩ => if r.isSome then [t] else []
  | _ => []

/-- A call comes back from a failed reopen, to the front of a queue in which another has a retry
time. -/
def Machine.Displaces (m : Machine) : Move → Prop
  | .step i =>
      (∃ d r t, m.calls[i]? = some (.acquire ⟨d, r, .refused t⟩)) ∧
        m.calls.flatMap Call.retrying ≠ []
  | _ => False

/-! ## Looks that end in sleep -/

namespace Ledger

variable {l : Ledger} {now : Time} {d r w : Option Time}

/-- A caller sleeps when there is nothing for it in an open pool, and its deadline is to come. -/
theorem attend_sleep_iff : (l.attend now t d r).2 = .sleep w ↔
    l.closed = false ∧ l.Unserved now t r ∧ reached now d = false ∧
      w = if l.vacant > 0 then earlier d r else d := by
  constructor
  · intro h
    cases hc : l.closed with
    | true =>
        rw [attend_of_closed hc] at h
        cases h
    | false =>
        obtain ⟨c, rest, hf, hi⟩ | ⟨hf, hi, hv, hr⟩ | hu := l.look_cases now t r
        · rw [attend_of_idle hc hf hi] at h
          cases h
        · rw [attend_of_vacant hc hf hi hv hr] at h
          cases h
        · rw [attend_of_unserved hc hu, wait] at h
          split at h
          · cases h
          · next hd => exact ⟨rfl, hu, Bool.not_eq_true _ ▸ hd, (Verdict.sleep.inj h).symm⟩
  · rintro ⟨hc, hu, hd, rfl⟩
    rw [attend_of_unserved hc hu, wait, hd]
    rfl

/-- A time that is the earlier of two, and has been reached although the first has not, is the
second. -/
theorem earlier_reached {u : Time} (h : earlier d r = some u) (hu : u ≤ now)
    (hd : reached now d = false) : ∃ at_, r = some at_ ∧ at_ ≤ now := by
  cases d with
  | none =>
      cases r with
      | none => cases h
      | some at_ =>
          obtain rfl : at_ = u := Option.some.inj h
          exact ⟨at_, rfl, hu⟩
  | some deadline =>
      have hlate : ¬ deadline ≤ now := by simpa [reached] using hd
      cases r with
      | none =>
          obtain rfl : deadline = u := Option.some.inj h
          exact absurd hu hlate
      | some at_ =>
          have hmin : min deadline at_ = u := Option.some.inj h
          refine ⟨at_, rfl, Nat.not_lt.mp fun hlt => ?_⟩
          exact absurd hu (Nat.not_le.mpr (hmin ▸ Nat.lt_min.mpr ⟨Nat.not_le.mp hlate, hlt⟩))

theorem earlier_le_right {u at_ : Time} (h : earlier d (some at_) = some u) : u ≤ at_ := by
  cases d with
  | none =>
      obtain rfl : at_ = u := Option.some.inj h
      exact Nat.le_refl at_
  | some deadline =>
      have hmin : min deadline at_ = u := Option.some.inj h
      exact hmin ▸ Nat.min_le_right deadline at_

/-- The sleep of a caller that falls asleep ends at a time that is past exactly if a slot is
vacant and its retry time has been reached; it is then behind another. -/
theorem sleep_past_iff {u : Time} (h : (l.attend now t d r).2 = .sleep (some u)) :
    u ≤ now ↔ ∃ at_, r = some at_ ∧ at_ ≤ now ∧ 0 < l.vacant ∧ l.waiters.head? ≠ some t := by
  obtain ⟨-, hu, hd, hw⟩ := attend_sleep_iff.mp h
  by_cases hv : 0 < l.vacant
  · rw [if_pos hv] at hw
    constructor
    · intro hpast
      obtain ⟨at_, rfl, hle⟩ := earlier_reached hw.symm hpast hd
      refine ⟨at_, rfl, hle, hv, fun hf => ?_⟩
      -- At the front it would have retried.
      obtain ⟨retryAt, hr, hlt⟩ := (hu hf).2 hv
      obtain rfl : at_ = retryAt := Option.some.inj hr
      exact absurd hle (Nat.not_le.mpr hlt)
    · rintro ⟨at_, rfl, hle, -, -⟩
      exact Nat.le_trans (earlier_le_right hw.symm) hle
  · rw [if_neg hv] at hw
    subst hw
    have hlate : ¬ u ≤ now := by simpa [reached] using hd
    refine iff_of_false hlate ?_
    rintro ⟨at_, -, -, hpos, -⟩
    exact hv hpos

end Ledger

/-! ## Calls that have not tried yet -/

/-- The call has not arrived and has a retry time already. -/
def Call.premature : Call → Bool
  | .acquire ⟨_, r, .arriving⟩ => r.isSome
  | _ => false

theorem Call.premature_sleepBlind : Call.SleepBlind Call.premature := ⟨fun _ _ _ _ => rfl, rfl⟩

/-- A call has a retry time only after a failed reopen. -/
def Machine.Untried (m : Machine) : Prop := m.calls.countP Call.premature = 0

theorem Machine.Untried.change (h : Change v m m') (hm : m.Untried) : m'.Untried := by
  have turned : ∀ {x y : Call}, m.Turned m' x y → y.premature = false → m'.Untried := by
    intro x y ht hy
    have hcount := ht.countP Call.premature_sleepBlind
    rw [hy, Bool.toNat_false] at hcount
    unfold Untried at hm ⊢
    omega
  have begun : ∀ {y : Call}, m'.calls = m.calls ++ [y] → y.premature = false → m'.Untried := by
    intro y hy hnone
    rw [Untried, Machine.countP_begun hy, hm, hnone, Bool.toNat_false]
  cases h with
  | acquireBegun timeout | closeBegun | releaseBegun faulty _ => exact begun rfl rfl
  | marked d | elapsed d => exact hm
  | arrived hx | refused hx | woken hx | reopened hx => exact turned (.same hx rfl) rfl
  | turnedAway hx _ => exact turned (.same hx rfl) rfl
  | timedOut hx _ _ _ | slept hx _ _ _ => exact turned (.same hx rfl) rfl
  | served hx _ _ _ _ | servedLast hx _ _ _ _ => exact turned (.same hx rfl) rfl
  | claimed hx _ _ _ _ _ => exact turned (.same hx rfl) rfl
  | takenBack hx | discarded hx | closerWoken hx | drainedOne hx | closeDone hx =>
      exact turned (.same hx rfl) rfl
  | closerSlept hx _ | drained hx _ => exact turned (.same hx rfl) rfl
  | rejoined hx | answered hx | returnTold hx | shut hx => exact turned (.woken hx rfl) rfl

theorem Machine.Untried.retryAt {d r : Option Time} (hm : m.Untried)
    (h : .acquire ⟨d, r, .arriving⟩ ∈ m.calls) : r = none := by
  cases r with
  | none => rfl
  | some at_ => exact absurd rfl (List.countP_eq_zero.mp hm _ h)

/-! ## Which moves poll -/

theorem Verdict.eq_sleep_of_phase {x : Verdict} {u : Ticket} {w : Option Time}
    (h : x.phase t = .asleep u w) : x = .sleep w ∧ u = t := by
  cases x with
  | answer ans notify => cases notify <;> cases h
  | reopen => cases h
  | sleep w =>
      cases h
      exact ⟨rfl, rfl⟩

/-- **A move polls exactly if the call that makes it is impatient**: a call that has just arrived,
or comes back from a failed reopen, sleeps until a time that is still to come. -/
theorem Machine.Untried.polls_iff (hm : m.Untried) (h : m.apply v = some (m', ns)) :
    m.Polls v m' ↔ m.Impatient v := by
  constructor
  · rintro ⟨i, d, r, t, w, rfl, hi, hw⟩
    obtain ⟨a, u, ha, hu⟩ | ⟨d', r', ans, -, hret⟩ | ⟨c, hc, hother⟩ := step_cases h
    · obtain ⟨-, hcall⟩ := look_of_step ha hu h
      obtain ⟨rfl, hr, hphase⟩ := Acquire.mk.inj (Call.acquire.inj
        (Option.some.inj (hcall.symm.trans hi)))
      obtain ⟨hsleep, rfl⟩ := Verdict.eq_sleep_of_phase hphase
      obtain ⟨ho, -, hd, -⟩ := Ledger.attend_sleep_iff.mp hsleep
      obtain ⟨at_, hat, hle, hv, hf⟩ := (Ledger.sleep_past_iff hsleep).mp hw
      obtain ⟨d, r', p⟩ := a
      cases p with
      | arriving =>
          -- It has not tried to reopen a slot yet, so it has no retry time.
          obtain rfl : r' = none := hm.retryAt (List.mem_of_getElem? ha)
          cases hat
      | awake t' =>
          obtain rfl : t' = t := Option.some.inj hu
          obtain rfl : r' = some at_ := hat
          exact ⟨d, at_, t', ha, hle, hd, ho, hv, hf⟩
      | refused t' =>
          -- Its retry time has just been set, and lies in the future.
          obtain rfl : m.clock + reopenInterval = at_ := Option.some.inj hat
          exact absurd hle (of_decide_eq_false (Ledger.reached_reopen m.clock))
      | _ => cases hu
    · cases hi.symm.trans hret
    · exact absurd (Option.some.inj (hc.symm.trans hi)) (hother _)
  · intro himp
    cases v with
    | step i =>
        obtain ⟨d, r, t, ha, hr, hd, ho, hv, hf⟩ := himp
        obtain ⟨-, hcall⟩ := look_of_step ha rfl h
        have hu : m.ledger.Unserved m.clock t (some r) := fun hfront => absurd hfront hf
        have hsleep : (m.ledger.attend m.clock t d (some r)).2 =
            .sleep (Ledger.earlier d (some r)) :=
          Ledger.attend_sleep_iff.mpr ⟨ho, hu, hd, (if_pos hv).symm⟩
        obtain ⟨w, hw⟩ : ∃ w, Ledger.earlier d (some r) = some w := by
          cases d with
          | none => exact ⟨r, rfl⟩
          | some d => exact ⟨min d r, rfl⟩
        refine ⟨i, d, some r, t, w, rfl, ?_, Nat.le_trans (Ledger.earlier_le_right hw) hr⟩
        rw [hw] at hsleep
        calc m'.calls[i]?
            = some (.acquire ⟨d, some r, (m.ledger.attend m.clock t d (some r)).2.phase t⟩) := hcall
          _ = some (.acquire ⟨d, some r, .asleep t (some w)⟩) := by rw [hsleep]; rfl
    | _ => exact himp.elim

/-! ## Who has a retry time is at the front -/

theorem Call.retrying_sleepBlind : Call.SleepBlind Call.retrying := ⟨fun _ _ _ _ => rfl, rfl⟩

theorem Call.retrying_subset (c : Call) : c.retrying ⊆ c.tickets := by
  unfold retrying
  split
  · split
    · exact List.Subset.refl _
    · exact List.nil_subset _
  · split
    · exact List.Subset.refl _
    · exact List.nil_subset _
  · exact List.nil_subset _

/-- Only the front of the queue has a retry time. -/
def Machine.FrontRetries (m : Machine) : Prop :=
  ∀ t ∈ m.calls.flatMap Call.retrying, m.ledger.waiters.head? = some t

theorem Machine.FrontRetries.not_impatient (hf : m.FrontRetries) : ¬ m.Impatient v := by
  cases v with
  | step i =>
      rintro ⟨d, r, t, ha, -, -, -, -, hne⟩
      exact hne (hf t (List.mem_flatMap.mpr
        ⟨_, List.mem_of_getElem? ha, List.mem_singleton_self t⟩))
  | _ => exact id

/-- After a change of one call, a retrying call is that one, or it was retrying before and has
another ticket. -/
theorem Machine.Queued.mem_retrying (hq : m.Queued) {x y : Call} (ht : m.Turned m' x y)
    (hmem : t ∈ m'.calls.flatMap Call.retrying) :
    t ∈ y.retrying ∨ t ∈ m.calls.flatMap Call.retrying ∧ t ∉ x.tickets := by
  obtain ⟨pre, post, hx, hcalls⟩ := ht.flatMap_eq Call.retrying_sleepBlind
  -- The ticket of another call is not the ticket of this one.
  have other : ∀ {l : List Call}, t ∈ l.flatMap Call.retrying →
      0 < (l.flatMap Call.tickets).count t := by
    intro l hl
    obtain ⟨c, hc, htc⟩ := List.mem_flatMap.mp hl
    exact List.count_pos_iff.mpr (List.mem_flatMap.mpr ⟨c, hc, c.retrying_subset htc⟩)
  have hone := hq.count_tickets hx t
  rw [hcalls, List.mem_append, List.mem_append] at hmem
  rw [hx, List.flatMap_append, List.flatMap_cons, List.mem_append, List.mem_append]
  obtain hpre | hnew | hpost := hmem
  · have hpos := other hpre
    exact Or.inr ⟨Or.inl hpre, fun h => absurd (List.count_pos_iff.mpr h) (by omega)⟩
  · exact Or.inl hnew
  · have hpos := other hpost
    exact Or.inr ⟨Or.inr (Or.inr hpost), fun h => absurd (List.count_pos_iff.mpr h) (by omega)⟩

namespace Machine.FrontRetries

variable {x y : Call}

theorem begun (hf : m.FrontRetries) (hy : m'.calls = m.calls ++ [y]) (hnone : y.retrying = [])
    (hw : m'.ledger.waiters = m.ledger.waiters) : m'.FrontRetries := by
  intro u hu
  rw [hy, List.flatMap_append, List.flatMap_singleton, hnone, List.append_nil] at hu
  rw [hw, hf u hu]

/-- The call has no retry time after the change, and the front of the queue stays for the others. -/
theorem left (hf : m.FrontRetries) (hq : m.Queued) (ht : m.Turned m' x y) (hy : y.retrying = [])
    (hhead : ∀ u, m.ledger.waiters.head? = some u → u ∉ x.tickets →
      m'.ledger.waiters.head? = some u) : m'.FrontRetries := by
  intro u hu
  obtain hnew | ⟨hold, hne⟩ := hq.mem_retrying ht hu
  · rw [hy] at hnew
    cases hnew
  · exact hhead u (hf u hold) hne

/-- The call keeps its retry time and its place. -/
theorem kept (hf : m.FrontRetries) (hq : m.Queued) (ht : m.Turned m' x y)
    (hy : y.retrying = x.retrying) (hw : m'.ledger.waiters = m.ledger.waiters) :
    m'.FrontRetries := by
  intro u hu
  rw [hw]
  obtain hnew | ⟨hold, -⟩ := hq.mem_retrying ht hu
  · rw [hy] at hnew
    exact hf u (List.mem_flatMap.mpr ⟨x, ht.mem_left, hnew⟩)
  · exact hf u hold

end Machine.FrontRetries

/-- A call behind the front leaves the front as it is. -/
theorem Ledger.head?_leave {l : Ledger} {u : Ticket} (hu : l.waiters.head? = some u)
    (hne : u ∉ [t]) : (l.leave t).waiters.head? = some u := by
  obtain ⟨rest, hw⟩ := List.head?_eq_some_iff.mp hu
  have hut : (u != t) = true := by simpa using hne
  simp only [Ledger.leave, hw, List.filter_cons, hut, if_true, List.head?_cons]

/-- As long as no call displaces another, whoever has a retry time stays at the front: the others
leave the queue behind it, or join it there. -/
theorem Machine.FrontRetries.change (h : Change v m m') (hq : m.Queued) (hm : m.Untried)
    (hno : ¬ m.Displaces v) (hf : m.FrontRetries) : m'.FrontRetries := by
  have quiet : ∀ {x y : Call}, m.Turned m' x y → y.retrying = [] →
      m'.ledger.waiters = m.ledger.waiters → m'.FrontRetries :=
    fun ht hy hw => hf.left hq ht hy fun u hu _ => by rw [hw, hu]
  have taken : ∀ {t u : Ticket} {ts : List Ticket}, m.ledger.waiters.head? = some t →
      m.ledger.waiters.head? = some u → u ∉ [t] → ts.head? = some u := by
    intro t u ts ht hu hne
    obtain rfl : t = u := Option.some.inj (ht.symm.trans hu)
    exact absurd (List.mem_singleton_self t) hne
  cases h with
  | acquireBegun timeout | closeBegun | releaseBegun faulty _ => exact hf.begun rfl rfl rfl
  | marked d | elapsed d => exact hf
  | @arrived _ pre post d r hx =>
      obtain rfl : r = none := hm.retryAt (hx ▸ List.mem_append_right _ List.mem_cons_self)
      refine hf.left hq (.same hx rfl) rfl fun u hu _ => ?_
      obtain ⟨rest, hw⟩ := List.head?_eq_some_iff.mp hu
      simp only [Ledger.enqueue, hw, List.cons_append, List.head?_cons]
  | turnedAway hx _ => exact hf.left hq (.same hx rfl) rfl fun u hu hne => Ledger.head?_leave hu hne
  | timedOut hx _ _ _ =>
      exact hf.left hq (.same hx rfl) rfl fun u hu hne => Ledger.head?_leave hu hne
  | served hx _ ht _ _ => exact hf.left hq (.same hx rfl) rfl fun u hu hne => taken ht hu hne
  | servedLast hx _ ht _ _ => exact hf.left hq (.same hx rfl) rfl fun u hu hne => taken ht hu hne
  | claimed hx _ ht _ _ _ => exact hf.left hq (.same hx rfl) rfl fun u hu hne => taken ht hu hne
  | slept hx _ _ _ => exact hf.kept hq (.same hx rfl) rfl rfl
  | woken hx => exact hf.kept hq (.same hx rfl) rfl rfl
  | @rejoined _ pre post d r t hx =>
      intro u hu
      obtain hnew | ⟨hold, -⟩ := hq.mem_retrying (.woken hx rfl) hu
      · rw [List.mem_singleton.mp hnew]
        rfl
      · refine absurd ⟨⟨d, r, t, ?_⟩, List.ne_nil_of_mem hold⟩ hno
        rw [hx, List.getElem?_append_right (Nat.le_refl _), Nat.sub_self, List.getElem?_cons_zero]
  | answered hx | returnTold hx | shut hx => exact quiet (.woken hx rfl) rfl rfl
  | reopened hx | refused hx | discarded hx | closerWoken hx | drainedOne hx | closeDone hx =>
      exact quiet (.same hx rfl) rfl rfl
  | closerSlept hx _ | drained hx _ => exact quiet (.same hx rfl) rfl rfl
  | @takenBack _ pre post c b hx => exact quiet (.same hx rfl) rfl (by cases b <;> rfl)

/-- A step leaves its call in a phase that no attempt to connect has just failed in. -/
theorem Change.not_refused {d r : Option Time} (h : Change (.step i) m m') :
    m'.calls[i]? ≠ some (.acquire ⟨d, r, .refused t⟩) := by
  generalize hv : Move.step i = w at h
  have same : ∀ {pre post : List Call} {y : Call}, Move.step i = .step pre.length →
      (m'.calls = pre ++ y :: post ∨
        m'.calls = pre.map Call.roused ++ y :: post.map Call.roused) →
      y ≠ .acquire ⟨d, r, .refused t⟩ → m'.calls[i]? ≠ some (.acquire ⟨d, r, .refused t⟩) := by
    intro pre post y hi hy hne
    rw [Move.step.inj hi, Machine.getElem?_changed hy]
    exact fun heq => hne (Option.some.inj heq)
  cases h with
  | arrived hx | takenBack hx | discarded hx | drainedOne hx | closeDone hx =>
      exact same hv (Or.inl rfl) nofun
  | turnedAway hx _ | closerSlept hx _ | drained hx _ => exact same hv (Or.inl rfl) nofun
  | timedOut hx _ _ _ | slept hx _ _ _ => exact same hv (Or.inl rfl) nofun
  | served hx _ _ _ _ | servedLast hx _ _ _ _ => exact same hv (Or.inl rfl) nofun
  | claimed hx _ _ _ _ _ => exact same hv (Or.inl rfl) nofun
  | rejoined hx | answered hx | returnTold hx | shut hx => exact same hv (Or.inr rfl) nofun
  | _ => cases hv

theorem Machine.FrontRetries.apply (hf : m.FrontRetries) (hq : m.Queued) (hm : m.Untried)
    (hno : ¬ m.Displaces v) (h : m.apply v = some (m', ns)) : m'.FrontRetries := by
  obtain h₁ | ⟨m₁, h₁, h₂⟩ := apply_changes h
  · exact hf.change h₁ hq hm hno
  · refine (hf.change h₁ hq hm hno).change h₂ (hq.change h₁) (hm.change h₁) ?_
    cases v with
    | step i =>
        rintro ⟨⟨d, r, t, ha⟩, -⟩
        exact h₁.not_refused ha
    | _ => exact id

/-! ## Runs that never poll -/

/-- **Which runs never poll**: those in which no impatient call looks at the ledger. None does as
long as no call comes back from a failed reopen to the front of a queue in which another has a
retry time. -/
theorem Trace.never_polls_iff {capacity n : Nat} {tr : List (Machine × Move)}
    (h : Trace (Machine.initial capacity n) tr m) :
    ((∀ p ∈ tr, ∀ m' ns, p.1.apply p.2 = some (m', ns) → ¬ p.1.Polls p.2 m') ↔
        ∀ p ∈ tr, ¬ p.1.Impatient p.2) ∧
      ((∀ p ∈ tr, ¬ p.1.Displaces p.2) → ∀ p ∈ tr, ¬ p.1.Impatient p.2) := by
  have queued : ∀ {tr m}, Trace (Machine.initial capacity n) tr m → m.Queued := fun h =>
    h.keep (fun hc hm => hm.change hc) .initial
  have untried : ∀ {tr m}, Trace (Machine.initial capacity n) tr m → m.Untried := fun h =>
    h.keep (P := Machine.Untried) (fun hc hm => hm.change hc) rfl
  refine ⟨?_, ?_⟩
  · induction h with
    | nil => exact ⟨fun _ => nofun, fun _ => nofun⟩
    | @move tr m' m'' v ns ht hv ih =>
        simp only [List.forall_mem_append, List.forall_mem_singleton]
        rw [ih, ← (untried ht).polls_iff hv]
        refine and_congr_right fun _ => ⟨fun hno => hno m'' ns hv, fun hno b bs hb => ?_⟩
        rw [hv] at hb
        obtain rfl := Machine.eq_of_moved hb
        exact hno
  · -- By induction over the run: only the front has a retry time in every state of it.
    suffices hall : (∀ p ∈ tr, ¬ p.1.Displaces p.2) →
        m.FrontRetries ∧ ∀ p ∈ tr, ¬ p.1.Impatient p.2 from fun hno => (hall hno).2
    induction h with
    | nil => exact fun _ => ⟨nofun, nofun⟩
    | @move tr m' m'' v ns ht hv ih =>
        simp only [List.forall_mem_append, List.forall_mem_singleton]
        rintro ⟨hno, hlast⟩
        obtain ⟨hf, hpatient⟩ := ih hno
        exact ⟨hf.apply (queued ht) (untried ht) hlast hv, hpatient, hf.not_impatient⟩

/-- A pool of three slots, two of them vacant, half a second after the second caller failed to
reopen one. The third caller failed after it and sleeps in front of it. -/
def Machine.spinning : Machine where
  capacity := 3
  ledger := ⟨[], 1, 2, false, [2, 1], 3⟩
  calls := [.acquire ⟨none, none, .returned (.connection 0)⟩,
    .acquire ⟨none, some 500, .awake 1⟩, .acquire ⟨none, some 600, .asleep 2 (some 600)⟩]
  held := [⟨0, false⟩]
  clock := 500
  opened := 1
  attempts := 5
  destroyed := []

theorem Machine.spinning_follow :
    (Machine.initial 3 1).follow [.beginAcquire none, .step 0, .step 0, .beginAcquire none,
      .step 1, .beginAcquire none, .step 2, .connected 1 false, .step 1, .advance 100,
      .connected 2 false, .step 2, .step 1, .advance 400, .wake 1] = some spinning := by decide

theorem Machine.spinning_polls : ∃ m', spinning.apply (.step 1) = some (m', []) ∧
    spinning.Polls (.step 1) m' :=
  ⟨_, rfl, 1, none, some 500, 1, 500, rfl, rfl, Nat.le_refl 500⟩

theorem never_polls_iff_spinning :
    ∃ tr m, Trace (Machine.initial 3 1) tr m ∧ (∃ p ∈ tr, p.1.Impatient p.2) ∧
      ∃ p ∈ tr, p.1.Displaces p.2 := by
  obtain ⟨tr, htr⟩ := Machine.exists_trace Machine.spinning_follow
  obtain ⟨m', hv, hpolls⟩ := Machine.spinning_polls
  have hrun := htr.move hv
  have hlast : (Machine.spinning, .step 1) ∈ tr ++ [(Machine.spinning, .step 1)] :=
    List.mem_append_right _ (List.mem_singleton_self _)
  refine ⟨_, m', hrun, ?_, ?_⟩
  · by_contra hno
    have hpatient : ∀ p ∈ tr ++ [(Machine.spinning, .step 1)], ¬ p.1.Impatient p.2 :=
      fun p hp himp => hno ⟨p, hp, himp⟩
    exact hrun.never_polls_iff.1.mpr hpatient _ hlast m' [] hv hpolls
  · by_contra hno
    have hpatient := hrun.never_polls_iff.2 fun p hp hd => hno ⟨p, hp, hd⟩
    exact hrun.never_polls_iff.1.mpr hpatient _ hlast m' [] hv hpolls

theorem not_forall_never_polls :
    ¬ ∀ (m m' : Machine) (v : Move) (ns : List Notice), m.Reachable → m.apply v = some (m', ns) →
      ¬ m.Polls v m' := by
  intro h
  have start : (Machine.initial 3 1).Reachable := .start (by decide) (by decide)
  obtain ⟨m', hv, hpolls⟩ := Machine.spinning_polls
  exact h _ _ _ _ (start.follow Machine.spinning_follow) hv hpolls

end PooledStore.Pool
