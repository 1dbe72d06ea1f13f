import PooledStore.Proofs.Pool.Custody

/-!
# Lending over time

How often a connection was lent (`Machine.timesLent`), and which changes lend it
(`Change.lends`): only the front connection of the idle queue of an open pool is lent, and a
connection that has just been opened. A doomed connection is one that its borrower has marked, or
that came back broken; it is never lent again. One that comes back sound stays until it is lent
again or the pool is closed. `exclusive_custody` puts this together with where connections are.
-/

set_option autoImplicit false

namespace PooledStore.Pool

variable {m m' : Machine} {v : Move} {c : ConnId}

/-! ## How often a connection was lent -/

/-- The call was given the connection. -/
def Call.wasLent (c : ConnId) : Call → Bool
  | .acquire ⟨_, _, .notifying (.connection d)⟩ => d == c
  | .acquire ⟨_, _, .returned (.connection d)⟩ => d == c
  | _ => false

/-- How many acquire calls were given the connection. -/
def Machine.timesLent (m : Machine) (c : ConnId) : Nat := m.calls.countP (Call.wasLent c)

theorem Machine.Turned.timesLent {x y : Call} (h : m.Turned m' x y) (c : ConnId) :
    m'.timesLent c + (x.wasLent c).toNat = m.timesLent c + (y.wasLent c).toNat :=
  h.countP ⟨fun _ _ _ _ => rfl, rfl⟩

/-- A connection is lent when it is the first idle one of an open pool, or newly opened. -/
theorem Change.lends (h : Change v m m') (c : ConnId) :
    m'.timesLent c = m.timesLent c ∨
      m'.timesLent c = m.timesLent c + 1 ∧ m.ledger.idle.head? = some c ∨
      m'.timesLent c = m.timesLent c + 1 ∧ c = m.opened ∧ m'.opened = m.opened + 1 := by
  have same : ∀ {x y : Call}, m.Turned m' x y → x.wasLent c = y.wasLent c →
      m'.timesLent c = m.timesLent c := by
    intro x y ht hxy
    have := ht.timesLent c
    rw [hxy] at this
    omega
  have begun : ∀ {y : Call}, m'.calls = m.calls ++ [y] → y.wasLent c = false →
      m'.timesLent c = m.timesLent c := by
    intro y hy hl
    have := Machine.countP_begun hy (Call.wasLent c)
    rwa [hl, Bool.toNat_false] at this
  have lent : ∀ {x y : Call}, m.Turned m' x y → x.wasLent c = false → y.wasLent c = true →
      m'.timesLent c = m.timesLent c + 1 := by
    intro x y ht hx hy
    have := ht.timesLent c
    rwa [hx, hy] at this
  cases h with
  | acquireBegun timeout => exact Or.inl (begun rfl rfl)
  | closeBegun => exact Or.inl (begun rfl rfl)
  | releaseBegun faulty _ => exact Or.inl (begun rfl rfl)
  | marked d => exact Or.inl rfl
  | elapsed d => exact Or.inl rfl
  | arrived hx | refused hx | woken hx | takenBack hx | discarded hx | closerWoken hx
  | drainedOne hx | closeDone hx => exact Or.inl (same (.same hx rfl) rfl)
  | turnedAway hx _ | closerSlept hx _ | drained hx _ => exact Or.inl (same (.same hx rfl) rfl)
  | timedOut hx _ _ _ | slept hx _ _ _ => exact Or.inl (same (.same hx rfl) rfl)
  | claimed hx _ _ _ _ _ => exact Or.inl (same (.same hx rfl) rfl)
  | rejoined hx | returnTold hx | shut hx => exact Or.inl (same (.woken hx rfl) rfl)
  | @answered _ pre post d r ans hx =>
      exact Or.inl (same (.woken hx rfl) (by cases ans <;> rfl))
  -- Only three changes hand a connection out, and the one they hand out is known.
  | @served _ pre post d r t e rest hx _ _ hi _ =>
      by_cases he : e = c
      · subst he
        exact Or.inr (Or.inl ⟨lent (.same hx rfl) rfl (by simp [Call.wasLent]), by rw [hi]; rfl⟩)
      · exact Or.inl (same (.same hx rfl) (by simp [Call.wasLent, he]))
  | @servedLast _ pre post d r t e hx _ _ hi _ =>
      by_cases he : e = c
      · subst he
        exact Or.inr (Or.inl ⟨lent (.same hx rfl) rfl (by simp [Call.wasLent]), by rw [hi]; rfl⟩)
      · exact Or.inl (same (.same hx rfl) (by simp [Call.wasLent, he]))
  | @reopened _ pre post d r t hx =>
      by_cases he : m.opened = c
      · subst he
        exact Or.inr (Or.inr ⟨lent (.same hx rfl) rfl (by simp [Call.wasLent]), rfl, rfl⟩)
      · exact Or.inl (same (.same hx rfl) (by simp [Call.wasLent, he]))

theorem Change.timesLent_le (h : Change v m m') (c : ConnId) :
    m.timesLent c ≤ m'.timesLent c := by
  obtain h | ⟨h, -⟩ | ⟨h, -⟩ := h.lends c <;> omega

/-! ## Doomed connections -/

/-- The connection that a broken return has still to destroy. -/
def Call.condemns : Call → List ConnId
  | .release ⟨c, true, .arriving⟩ => [c]
  | .release ⟨c, true, .notifying⟩ => [c]
  | .release ⟨c, true, .destroying⟩ => [c]
  | _ => []

/-- The connections that came back broken, and all that are destroyed. -/
def Machine.condemned (m : Machine) : List ConnId := m.calls.flatMap Call.condemns ++ m.destroyed

/-- The borrower has marked the connection, or it is condemned. -/
def Machine.Doomed (m : Machine) (c : ConnId) : Prop := ⟨c, true⟩ ∈ m.held ∨ c ∈ m.condemned

theorem Call.condemns_subset (x : Call) : x.condemns ⊆ x.carries := by
  unfold condemns
  split <;> simp [carries]

theorem Change.condemned (h : Change v m m') (hc : c ∈ m.condemned) : c ∈ m'.condemned := by
  have moved : ∀ {x y : Call}, m.Turned m' x y →
      (c ∈ x.condemns → c ∈ y.condemns ∨ c ∈ m'.destroyed) → m.destroyed ⊆ m'.destroyed →
      c ∈ m'.condemned := by
    intro x y ht hxy hd
    rw [Machine.condemned, List.mem_append] at hc ⊢
    rcases hc with hc | hc
    · -- A condemned connection stays with the call that destroys it, unless it is destroyed by now.
      by_cases hx : c ∈ x.condemns ∧ c ∈ m'.destroyed
      · exact Or.inr hx.2
      · refine Or.inl (ht.mem_flatMap ⟨fun _ _ _ _ => rfl, rfl⟩ hc fun hx' => ?_)
        exact (hxy hx').resolve_right fun hd' => hx ⟨hx', hd'⟩
    · exact Or.inr (hd hc)
  have same : ∀ {x y : Call}, m.Turned m' x y → x.condemns = y.condemns →
      m'.destroyed = m.destroyed → c ∈ m'.condemned :=
    fun ht hxy hd => moved ht (fun hx => Or.inl (hxy ▸ hx)) (hd ▸ List.Subset.refl _)
  have begun : ∀ {y : Call}, m'.calls = m.calls ++ [y] → m'.destroyed = m.destroyed →
      c ∈ m'.condemned := by
    intro y hy hd
    rw [Machine.condemned, List.mem_append] at hc ⊢
    rw [hy, hd, List.flatMap_append]
    exact hc.imp_left (List.mem_append_left _)
  cases h with
  | acquireBegun timeout => exact begun rfl rfl
  | closeBegun => exact begun rfl rfl
  | releaseBegun faulty _ => exact begun rfl rfl
  | marked d => exact hc
  | elapsed d => exact hc
  | arrived hx | refused hx | woken hx | reopened hx | closerWoken hx | closeDone hx =>
      exact same (.same hx rfl) rfl rfl
  | turnedAway hx _ | closerSlept hx _ | drained hx _ => exact same (.same hx rfl) rfl rfl
  | timedOut hx _ _ _ | slept hx _ _ _ => exact same (.same hx rfl) rfl rfl
  | served hx _ _ _ _ | servedLast hx _ _ _ _ => exact same (.same hx rfl) rfl rfl
  | claimed hx _ _ _ _ _ => exact same (.same hx rfl) rfl rfl
  | rejoined hx | answered hx | shut hx => exact same (.woken hx rfl) rfl rfl
  | @takenBack _ pre post d b hx => exact same (.same hx rfl) (by cases b <;> rfl) rfl
  | @returnTold _ pre post d b hx => exact same (.woken hx rfl) (by cases b <;> rfl) rfl
  -- The call lets go of the connection here, and it is destroyed.
  | @discarded _ pre post d b hx =>
      refine moved (.same hx rfl) (fun hd => Or.inr ?_) (List.subset_append_left _ _)
      cases b <;> simp_all [Call.condemns]
  | drainedOne hx => exact moved (.same hx rfl) nofun (List.subset_append_left _ _)

theorem Machine.Doomed.change (h : Change v m m') (hd : m.Doomed c) : m'.Doomed c := by
  obtain hg | hc := hd
  · cases h with
    | acquireBegun timeout | closeBegun | elapsed d => exact Or.inl hg
    | @releaseBegun _ g faulty hf =>
        -- The marked guard may be the one that is returned; then the return condemns it.
        by_cases he : g = ⟨c, true⟩
        · subst he
          refine Or.inr (List.mem_append_left _ ?_)
          simp [Call.condemns]
        · exact Or.inl ((List.mem_erase_of_ne (Ne.symm he)).mpr hg)
    | marked e =>
        refine Or.inl (List.mem_map.mpr ⟨_, hg, ?_⟩)
        split
        · rfl
        · rfl
    | servedLast _ _ _ _ _ | answered _ | reopened _ => exact Or.inl (List.mem_append_left _ hg)
    | _ => exact Or.inl hg
  · exact Or.inr (h.condemned hc)

/-- A doomed connection was opened, and is not idle. -/
theorem Machine.Doomed.not_idle (hd : m.Doomed c) (hm : m.Conserved) :
    c ∉ m.ledger.idle ∧ c < m.opened := by
  have hin : c ∈ m.held.map (·.conn) ∨ c ∈ m.calls.flatMap Call.carries ∨ c ∈ m.destroyed := by
    obtain hg | hc := hd
    · exact Or.inl (List.mem_map.mpr ⟨_, hg, rfl⟩)
    · refine Or.inr ((List.mem_append.mp hc).imp_left fun h => ?_)
      obtain ⟨x, hx, hcx⟩ := List.mem_flatMap.mp h
      exact List.mem_flatMap.mpr ⟨x, hx, x.condemns_subset hcx⟩
  -- In the idle queue as well, it would be counted twice.
  have hone := hm.count_eq c
  rw [count_custody] at hone
  refine ⟨fun hi => ?_, hm.lt_opened ?_⟩
  · have := List.count_pos_iff.mpr hi
    have : (if c < m.opened then 1 else 0) ≤ 1 := by split <;> omega
    obtain h | h | h := hin
    · have := List.count_pos_iff.mpr h; omega
    · have := List.count_pos_iff.mpr h; omega
    · have := List.count_pos_iff.mpr h; omega
  · simp only [custody, List.mem_append]
    tauto

theorem Machine.Doomed.never_lent {tr : List (Machine × Move)} (hd : m.Doomed c)
    (hm : m.Conserved) (h : Trace m tr m') :
    c ∉ m'.ledger.idle ∧ m'.timesLent c = m.timesLent c := by
  -- A doomed connection is in one place, which is not the idle queue, so no change can lend it.
  have key : m'.Conserved ∧ m'.Doomed c ∧ m'.timesLent c = m.timesLent c := by
    refine h.keep (P := fun a => a.Conserved ∧ a.Doomed c ∧ a.timesLent c = m.timesLent c)
      (fun {v a b} hv ⟨ha, hda, hl⟩ => ⟨ha.change hv, hda.change hv, ?_⟩) ⟨hm, hd, rfl⟩
    obtain ⟨hi, ho⟩ := hda.not_idle ha
    obtain hs | ⟨-, hh⟩ | ⟨-, he, -⟩ := hv.lends c
    · rw [hs, hl]
    · exact absurd (List.mem_of_mem_head? hh) hi
    · exact absurd ho (he ▸ Nat.lt_irrefl _)
  exact ⟨(key.2.1.not_idle key.1).1, key.2.2⟩

/-! ## Sound connections -/

/-- The call is a closer that has set the flag. -/
def Call.hasShut : Call → Bool
  | .close .awake => true
  | .close .asleep => true
  | .close (.draining _) => true
  | .close .returned => true
  | _ => false

/-- A closer that has set the flag finds it set. -/
def Machine.ShutKnown (m : Machine) : Prop :=
  m.ledger.closed = false → m.calls.countP Call.hasShut = 0

theorem Machine.ShutKnown.change (h : Change v m m') (hs : m.ShutKnown) : m'.ShutKnown := by
  intro ho
  have turned : ∀ {x y : Call}, m.Turned m' x y → y.hasShut = x.hasShut →
      m.ledger.closed = false → m'.calls.countP Call.hasShut = 0 := by
    intro x y ht hxy hc
    have := ht.countP (p := Call.hasShut) ⟨fun _ _ _ _ => rfl, rfl⟩
    rw [hxy, hs hc] at this
    omega
  have begun : ∀ {y : Call}, m'.calls = m.calls ++ [y] → y.hasShut = false →
      m.ledger.closed = false → m'.calls.countP Call.hasShut = 0 := by
    intro y hy hc ho
    rw [Machine.countP_begun hy, hs ho, hc]
    rfl
  cases h with
  | acquireBegun timeout | closeBegun | releaseBegun faulty _ => exact begun rfl rfl ho
  | marked d | elapsed d => exact hs ho
  | shut hx => cases ho
  | rejoined hx | answered hx | returnTold hx => exact turned (.woken hx rfl) rfl ho
  | @takenBack _ pre post d b hx => exact turned (.same hx rfl) rfl (by cases b <;> exact ho)
  | arrived hx | refused hx | woken hx | reopened hx | discarded hx | closerWoken hx
  | drainedOne hx | closeDone hx => exact turned (.same hx rfl) rfl ho
  | turnedAway hx _ | closerSlept hx _ | drained hx _ => exact turned (.same hx rfl) rfl ho
  | timedOut hx _ _ _ | slept hx _ _ _ => exact turned (.same hx rfl) rfl ho
  | served hx _ _ _ _ | servedLast hx _ _ _ _ => exact turned (.same hx rfl) rfl ho
  | claimed hx _ _ _ _ _ => exact turned (.same hx rfl) rfl ho

theorem Machine.Reachable.shutKnown (h : m.Reachable) : m.ShutKnown :=
  h.keep (P := Machine.ShutKnown) (fun _ _ _ => rfl) fun hv hs => hs.change hv

/-- The connection that a sound return brings back to the idle queue. -/
def Call.bringsBack : Call → List ConnId
  | .release ⟨c, false, .arriving⟩ => [c]
  | _ => []

theorem Call.bringsBack_subset (x : Call) : x.bringsBack ⊆ x.carries := by
  unfold bringsBack
  split <;> simp [carries]

/-- The connections in the idle queue, and on their way to it. -/
def Machine.kept (m : Machine) : List ConnId := m.ledger.idle ++ m.calls.flatMap Call.bringsBack

theorem Machine.Turned.mem_kept {x y : Call} (ht : m.Turned m' x y) (hc : c ∈ m.kept)
    (hxy : c ∈ x.bringsBack → c ∈ y.bringsBack) (hi : m.ledger.idle ⊆ m'.ledger.idle) :
    c ∈ m'.kept := by
  rw [Machine.kept, List.mem_append] at hc ⊢
  exact hc.imp (fun h => hi h) fun h => ht.mem_flatMap ⟨fun _ _ _ _ => rfl, rfl⟩ h hxy

/-- The front takes the first idle connection, which is this one or another. -/
theorem Machine.Turned.mem_kept_of_taken {x y : Call} {e : ConnId} (ht : m.Turned m' x y)
    (hc : c ∈ m.kept) (hx : x.wasLent c = false) (hy : e = c → y.wasLent c = true)
    (hi : m.ledger.idle = e :: m'.ledger.idle) (hb : x.bringsBack = y.bringsBack) :
    c ∈ m'.kept ∨ m'.timesLent c = m.timesLent c + 1 := by
  by_cases he : e = c
  · have := ht.timesLent c
    rw [hx, hy he] at this
    exact Or.inr this
  · rw [Machine.kept, List.mem_append, hi, List.mem_cons] at hc
    rw [Machine.kept, List.mem_append]
    obtain (rfl | hc) | hc := hc
    · exact absurd rfl he
    · exact Or.inl (Or.inl hc)
    · exact Or.inl (Or.inr (ht.mem_flatMap ⟨fun _ _ _ _ => rfl, rfl⟩ hc fun h => hb ▸ h))

/-- A connection that is kept stays so until it is lent or the pool is closed. -/
theorem Change.keeps (h : Change v m m') (hs : m.ShutKnown) (hc : c ∈ m.kept) :
    c ∈ m'.kept ∨ m'.timesLent c = m.timesLent c + 1 ∨ m.ledger.closed = true := by
  have turned : ∀ {x y : Call}, m.Turned m' x y → (c ∈ x.bringsBack → c ∈ y.bringsBack) →
      m.ledger.idle ⊆ m'.ledger.idle → c ∈ m'.kept := fun ht hxy hi => ht.mem_kept hc hxy hi
  have taken : ∀ {x y : Call} {e : ConnId}, m.Turned m' x y → x.wasLent c = false →
      (e = c → y.wasLent c = true) → m.ledger.idle = e :: m'.ledger.idle →
      x.bringsBack = y.bringsBack →
      c ∈ m'.kept ∨ m'.timesLent c = m.timesLent c + 1 ∨ m.ledger.closed = true :=
    fun ht hx hy hi hb => (ht.mem_kept_of_taken hc hx hy hi hb).imp_right Or.inl
  have begun : ∀ {y : Call}, m'.calls = m.calls ++ [y] → m'.ledger = m.ledger → c ∈ m'.kept := by
    intro y hy hl
    rw [Machine.kept, List.mem_append] at hc ⊢
    rw [hy, hl, List.flatMap_append]
    exact hc.imp_right (List.mem_append_left _)
  cases h with
  | acquireBegun timeout | closeBegun | releaseBegun faulty _ => exact Or.inl (begun rfl rfl)
  | marked d | elapsed d => exact Or.inl hc
  | arrived hx | refused hx | woken hx | reopened hx | closerWoken hx
  | drainedOne hx | closeDone hx => exact Or.inl (turned (.same hx rfl) nofun fun _ h => h)
  | turnedAway hx _ | closerSlept hx _ =>
      exact Or.inl (turned (.same hx rfl) nofun fun _ h => h)
  | timedOut hx _ _ _ | slept hx _ _ _ =>
      exact Or.inl (turned (.same hx rfl) nofun fun _ h => h)
  | claimed hx _ _ _ _ _ => exact Or.inl (turned (.same hx rfl) nofun fun _ h => h)
  | rejoined hx | answered hx | shut hx =>
      exact Or.inl (turned (.woken hx rfl) nofun fun _ h => h)
  | @discarded _ pre post d b hx =>
      exact Or.inl (turned (.same hx rfl) (by cases b <;> nofun) fun _ h => h)
  | @returnTold _ pre post d b hx =>
      exact Or.inl (turned (.woken hx rfl) (by cases b <;> nofun) fun _ h => h)
  | served hx _ _ hi _ =>
      exact taken (.same hx rfl) rfl (by simp [Call.wasLent]) hi rfl
  | servedLast hx _ _ hi _ =>
      exact taken (.same hx rfl) rfl (by simp [Call.wasLent]) hi rfl
  | @takenBack _ pre post d b hx =>
      cases b with
      | true => exact Or.inl (turned (.same hx rfl) nofun fun _ h => h)
      | false =>
          by_cases hd : d = c
          · subst hd
            exact Or.inl (List.mem_append_left _ (by simp [Ledger.takeBack]))
          · refine Or.inl (turned (.same hx rfl) (fun h => ?_) ?_)
            · exact absurd (List.mem_singleton.mp h).symm hd
            · exact List.subset_append_left _ _
  | drained hx _ =>
      -- Only a closer drains the idle queue, and it has set the flag before.
      refine Or.inr (Or.inr ?_)
      by_contra ho
      have h0 := hs (by simpa using ho)
      rw [hx, countP_split] at h0
      exact absurd h0 (by simp [Call.hasShut])

/-- A closed pool stays closed. -/
theorem Change.closed (h : Change v m m') (hc : m.ledger.closed = true) :
    m'.ledger.closed = true := by
  cases h with
  | @takenBack _ pre post d b hx => cases b <;> exact hc
  | shut _ => rfl
  | _ => exact hc

theorem Machine.kept_until_lent {tr : List (Machine × Move)} (hk : c ∈ m.kept) (hs : m.ShutKnown)
    (h : Trace m tr m') (ho : m'.ledger.closed = false) (hl : m'.timesLent c = m.timesLent c) :
    c ∈ m'.kept := by
  -- Once lent the count stays above its first value, and once closed the pool stays closed.
  have key : m'.ShutKnown ∧ m.timesLent c ≤ m'.timesLent c ∧
      (c ∈ m'.kept ∨ m.timesLent c < m'.timesLent c ∨ m'.ledger.closed = true) := by
    refine h.keep (P := fun a => a.ShutKnown ∧ m.timesLent c ≤ a.timesLent c ∧
      (c ∈ a.kept ∨ m.timesLent c < a.timesLent c ∨ a.ledger.closed = true))
      (fun {v a b} hv ⟨ha, hle, hc⟩ => ⟨ha.change hv, Nat.le_trans hle (hv.timesLent_le c), ?_⟩)
      ⟨hs, Nat.le_refl _, Or.inl hk⟩
    obtain hc | hlt | hc := hc
    · obtain hb | hb | hb := hv.keeps ha hc
      · exact Or.inl hb
      · exact Or.inr (Or.inl (by omega))
      · exact Or.inr (Or.inr (hv.closed hb))
    · exact Or.inr (Or.inl (Nat.lt_of_lt_of_le hlt (hv.timesLent_le c)))
    · exact Or.inr (Or.inr (hv.closed hc))
  obtain ⟨-, -, hc | hlt | hc⟩ := key
  · exact hc
  · exact absurd hl (Nat.ne_of_gt hlt)
  · rw [ho] at hc; cases hc

/-! ## Where a connection is, and where it goes -/

/-- A guard is marked by its borrower and by nothing else. -/
theorem Change.marks (h : Change v m m') (hg : ⟨c, true⟩ ∈ m'.held) :
    ⟨c, true⟩ ∈ m.held ∨ v = .markBroken c := by
  cases h with
  | releaseBegun faulty _ => exact Or.inl (List.mem_of_mem_erase hg)
  | marked d =>
      obtain ⟨⟨e, b⟩, he, heq⟩ := List.mem_map.mp hg
      by_cases hd : e = d
      · subst hd
        obtain rfl : e = c := by simpa using heq
        exact Or.inr rfl
      · rw [if_neg hd] at heq
        exact Or.inl (heq ▸ he)
  | servedLast _ _ _ _ _ | reopened _ => exact Or.inl (by simpa using hg)
  | @answered _ pre post d r ans hx =>
      cases ans with
      | _ => exact Or.inl (by simpa [Answer.guards] using hg)
  | _ => exact Or.inl hg

theorem Changes.marks (h : Changes v m m') (hg : ⟨c, true⟩ ∈ m'.held) :
    ⟨c, true⟩ ∈ m.held ∨ v = .markBroken c := by
  obtain h | ⟨m₁, h₁, h₂⟩ := h
  · exact h.marks hg
  · obtain hg | hv := h₂.marks hg
    · exact h₁.marks hg
    · exact Or.inr hv

theorem Machine.Reachable.conserved (h : m.Reachable) : m.Conserved :=
  h.keep (P := Machine.Conserved) (fun _ _ => .initial) fun hv hm => hm.change hv

theorem Machine.Conserved.not_destroyed (hm : m.Conserved) (hk : c ∈ m.kept) :
    c ∉ m.destroyed := by
  intro hd
  have hone := hm.count_eq c
  rw [count_custody] at hone
  have := List.count_pos_iff.mpr hd
  have : (if c < m.opened then 1 else 0) ≤ 1 := by split <;> omega
  obtain hi | hb := List.mem_append.mp hk
  · have := List.count_pos_iff.mpr hi; omega
  · obtain ⟨x, hx, hcx⟩ := List.mem_flatMap.mp hb
    have := List.count_pos_iff.mpr (List.mem_flatMap.mpr ⟨x, hx, x.bringsBack_subset hcx⟩)
    omega

/-- A connection that its borrower marks, or that comes back broken, is doomed from then on. -/
theorem Machine.doomed_of_apply {ns : List Notice}
    (hv : v = .markBroken c ∨ v = .beginRelease c true) (h : m.apply v = some (m', ns)) :
    m'.Doomed c := by
  obtain rfl | rfl := hv
  · simp only [apply] at h
    split at h
    · rename_i hany
      obtain rfl := eq_of_moved h
      obtain ⟨g, hg, hc⟩ := List.any_eq_true.mp hany
      refine Or.inl (List.mem_map.mpr ⟨g, hg, ?_⟩)
      rw [decide_eq_true_eq] at hc
      rw [if_pos hc, hc]
    · simp at h
  · simp only [apply] at h
    split at h
    · obtain rfl := eq_of_moved h
      refine Or.inr (List.mem_append_left _ ?_)
      simp [Call.condemns]
    · simp at h

/-- A connection that comes back unmarked and judged sound is on its way to the idle queue. -/
theorem Machine.kept_of_apply {ns : List Notice} (hg : m.guard? c = some ⟨c, false⟩)
    (h : m.apply (.beginRelease c false) = some (m', ns)) : c ∈ m'.kept := by
  rw [guard?] at hg
  simp only [apply, hg] at h
  obtain rfl := eq_of_moved h
  refine List.mem_append_right _ ?_
  simp [Call.bringsBack]

theorem Machine.mem_kept : c ∈ m.kept ↔
    c ∈ m.ledger.idle ∨ Call.release ⟨c, false, .arriving⟩ ∈ m.calls := by
  rw [kept, List.mem_append, List.mem_flatMap]
  refine or_congr_right ⟨fun ⟨x, hx, hcx⟩ => ?_, fun h => ⟨_, h, by simp [Call.bringsBack]⟩⟩
  unfold Call.bringsBack at hcx
  split at hcx
  · rwa [List.mem_singleton.mp hcx]
  · cases hcx

/-- **Every opened connection is in exactly one place** — idle, with one borrower, carried by one
call, or destroyed — and no other connection is in any. One that its borrower marks, or that is
judged broken when it comes back, is never idle and never lent again. A guard is marked by its
borrower only; a connection that comes back unmarked and judged sound is idle or on its way there,
and not destroyed, until it is lent again or the pool is closed. -/
theorem Machine.Reachable.exclusive_custody (h : m.Reachable) :
    m.custody.Perm (List.range m.opened) ∧
      (∀ v c m' ns, v = .markBroken c ∨ v = .beginRelease c true → m.apply v = some (m', ns) →
        ∀ tr m'', Trace m' tr m'' →
          c ∉ m''.ledger.idle ∧ m''.timesLent c = m'.timesLent c) ∧
      (∀ v c m' ns, m.apply v = some (m', ns) → ⟨c, true⟩ ∈ m'.held →
        ⟨c, true⟩ ∈ m.held ∨ v = .markBroken c) ∧
      (∀ c m' ns, m.guard? c = some ⟨c, false⟩ →
        m.apply (.beginRelease c false) = some (m', ns) →
        ∀ tr m'', Trace m' tr m'' → m''.ledger.closed = false →
          m''.timesLent c = m'.timesLent c →
          (c ∈ m''.ledger.idle ∨ .release ⟨c, false, .arriving⟩ ∈ m''.calls) ∧
            c ∉ m''.destroyed) := by
  refine ⟨h.conserved, ?_, ?_, ?_⟩
  · intro v c m' ns hv ha tr m'' ht
    exact (doomed_of_apply hv ha).never_lent (h.move ha).conserved ht
  · intro v c m' ns ha hg
    exact (apply_changes ha).marks hg
  · intro c m' ns hg ha tr m'' ht ho hl
    have hk := kept_until_lent (kept_of_apply hg ha) (h.move ha).shutKnown ht ho hl
    exact ⟨mem_kept.mp hk, (ht.reachable (h.move ha)).conserved.not_destroyed hk⟩

theorem exclusive_custody_contended :
    Machine.contended.custody.Perm [0, 1] ∧
      (∀ m' ns, Machine.contended.apply (.markBroken 1) = some (m', ns) → 1 ∉ m'.ledger.idle) ∧
      (∀ m' ns, Machine.contended.apply (.beginRelease 1 false) = some (m', ns) →
        1 ∉ m'.destroyed) := by
  obtain ⟨hp, hd, -, hk⟩ := Machine.contended_reachable.exclusive_custody
  refine ⟨hp, fun m' ns ha => (hd _ 1 m' ns (Or.inl rfl) ha [] m' .nil).1, fun m' ns ha => ?_⟩
  obtain rfl := Machine.eq_of_moved ha
  exact (hk 1 _ ns rfl ha [] _ .nil rfl rfl).2

end PooledStore.Pool
