import Mathlib.Data.List.Nodup
import PooledStore.Proofs.Pool.Closing
import PooledStore.Proofs.Pool.Settling

/-!
# Giving a connection back

While nobody else returns or marks the connection of a caller (`Move.Spares`), the caller has it
unmarked from the answer of the call on (`Machine.Holds`). Its return is waiting until it puts the
connection back into the ledger (`Machine.return_cases`), and nothing keeps it waiting.

What a pool does to the world of its manager is done by moves, before which a connection may be
opened; no move destroys a connection that somebody has (`Run.world_perform`, `Run.advanceCall_eq`).
-/

set_option autoImplicit false

namespace PooledStore.Pool

variable {m m' : Machine} {v : Move} {i : Nat} {c : ConnId} {b : Bool} {ns : List Notice}

/-! ## The guard of a loan -/

/-- The move does not return the connection, nor declare it unusable. -/
def Move.Spares (v : Move) (c : ConnId) : Prop :=
  v ≠ .markBroken c ∧ ∀ faulty, v ≠ .beginRelease c faulty

theorem Move.spares_of_own (h : v.own = true) : v.Spares c := by
  constructor
  · rintro rfl
    cases h
  · rintro faulty rfl
    cases h

/-- Only its return and a mark change a guard. -/
theorem Change.guard (h : Change v m m') (hv : v.Spares c) (hg : ⟨c, false⟩ ∈ m.held) :
    ⟨c, false⟩ ∈ m'.held := by
  cases h with
  | @releaseBegun _ g faulty hf =>
      refine (List.mem_erase_of_ne ?_).mpr hg
      rintro rfl
      exact hv.2 faulty rfl
  | marked d =>
      have hne : c ≠ d := by
        rintro rfl
        exact hv.1 rfl
      exact List.mem_map.mpr ⟨_, hg, if_neg hne⟩
  | servedLast _ _ _ _ _ | answered _ | reopened _ => exact List.mem_append_left _ hg
  | _ => exact hg

/-- The answer of an acquire call that has returned. -/
def Call.returned? : Call → Option Answer
  | .acquire ⟨_, _, .returned ans⟩ => some ans
  | _ => none

theorem Call.returned?_sleepBlind : Call.SleepBlind Call.returned? := ⟨fun _ _ _ _ => rfl, rfl⟩

theorem Machine.answer?_eq (m : Machine) (i : Nat) :
    m.answer? i = (m.calls[i]?).bind Call.returned? := by
  unfold answer?
  rcases m.calls[i]? with _ | ⟨d, r, p⟩ | r | c
  · rfl
  · cases p with
    | _ => rfl
  · rfl
  · rfl

/-- If call `i` has been answered with a connection, its caller has it, unmarked. -/
def Machine.Holds (m : Machine) (i : Nat) : Prop :=
  ∀ c, m.answer? i = some (.connection c) → ⟨c, false⟩ ∈ m.held

theorem Machine.Holds.change (h : Change v m m')
    (hv : ∀ c, m.answer? i = some (.connection c) → v.Spares c) (hm : m.Holds i) :
    m'.Holds i := by
  have kept : m'.answer? i = m.answer? i → m'.Holds i := by
    intro hsame c hc
    rw [hsame] at hc
    exact h.guard (hv c hc) (hm c hc)
  have same : m'.calls = m.calls → m'.Holds i := by
    intro hcalls
    refine kept ?_
    rw [answer?_eq, answer?_eq, hcalls]
  have begun : ∀ {y : Call}, m'.calls = m.calls ++ [y] → y.returned? = none → m'.Holds i := by
    intro y hy hnone
    refine kept ?_
    rw [answer?_eq, answer?_eq, bind_begun hnone hy]
  -- One call has changed, and if it has been answered then its caller has the connection.
  have moved : ∀ {pre post : List Call} {x y : Call}, m.calls = pre ++ x :: post →
      (m'.calls = pre ++ y :: post ∨
        m'.calls = pre.map Call.roused ++ y :: post.map Call.roused) →
      (∀ c, y.returned? = some (.connection c) → ⟨c, false⟩ ∈ m'.held) → m'.Holds i := by
    intro pre post x y hx hy hnew
    by_cases hi : pre.length = i
    · intro c hc
      refine hnew c ?_
      rwa [answer?_eq, ← hi, getElem?_changed hy] at hc
    · refine kept ?_
      rw [answer?_eq, answer?_eq, bind_of_ne Call.returned?_sleepBlind hx hy hi]
  have quiet : ∀ {pre post : List Call} {x y : Call}, m.calls = pre ++ x :: post →
      (m'.calls = pre ++ y :: post ∨
        m'.calls = pre.map Call.roused ++ y :: post.map Call.roused) → y.returned? = none →
      m'.Holds i := by
    intro pre post x y hx hy hnone
    refine moved hx hy fun c hc => ?_
    rw [hnone] at hc
    cases hc
  have lent : ∀ {c c' : ConnId}, some (Answer.connection c) = some (.connection c') →
      (⟨c', false⟩ : Guard) ∈ m.held ++ [⟨c, false⟩] := by
    intro c c' h
    cases h
    exact List.mem_append_right _ (List.mem_singleton_self _)
  cases h with
  | acquireBegun timeout | closeBegun | releaseBegun faulty _ => exact begun rfl rfl
  | marked d | elapsed d => exact same rfl
  | arrived hx | refused hx | woken hx => exact quiet hx (Or.inl rfl) rfl
  | turnedAway hx _ => exact quiet hx (Or.inl rfl) rfl
  | timedOut hx _ _ _ | slept hx _ _ _ => exact quiet hx (Or.inl rfl) rfl
  | served hx _ _ _ _ => exact quiet hx (Or.inl rfl) rfl
  | claimed hx _ _ _ _ _ => exact quiet hx (Or.inl rfl) rfl
  | takenBack hx | discarded hx | closerWoken hx | drainedOne hx | closeDone hx =>
      exact quiet hx (Or.inl rfl) rfl
  | closerSlept hx _ | drained hx _ => exact quiet hx (Or.inl rfl) rfl
  | rejoined hx | returnTold hx | shut hx => exact quiet hx (Or.inr rfl) rfl
  | servedLast hx _ _ _ _ => exact moved hx (Or.inl rfl) fun c hc => lent hc
  | reopened hx => exact moved hx (Or.inl rfl) fun c hc => lent hc
  | @answered _ pre post d r ans hx =>
      refine moved hx (Or.inr rfl) fun c hc => ?_
      obtain rfl : ans = .connection c := Option.some.inj hc
      exact List.mem_append_right _ (List.mem_singleton_self _)

/-- **Who was answered with a connection has it unmarked**, while nobody returns it or marks it. -/
theorem Machine.Holds.apply (h : m.apply v = some (m', ns))
    (hv : ∀ c, m.answer? i = some (.connection c) → v.Spares c) (hm : m.Holds i) :
    m'.Holds i := by
  have own : v.own = true → m'.Holds i := fun hown =>
    (apply_changes h).keep (P := fun a => a.Holds i)
      (fun hc ha => ha.change hc fun _ _ => Move.spares_of_own hown) hm
  cases v with
  | beginAcquire timeout =>
      obtain rfl := eq_of_moved h
      exact hm.change (.acquireBegun timeout) hv
  | beginClose =>
      obtain rfl := eq_of_moved h
      exact hm.change .closeBegun hv
  | beginRelease c faulty =>
      simp only [Machine.apply] at h
      split at h
      · next g hg =>
          obtain rfl := eq_of_moved h
          obtain rfl : g.conn = c := by simpa using List.find?_some hg
          exact hm.change (.releaseBegun faulty hg) hv
      · cases h
  | markBroken c =>
      simp only [Machine.apply] at h
      split at h
      · obtain rfl := eq_of_moved h
        exact hm.change (.marked c) hv
      · cases h
  | advance _ | step _ | connected _ _ | wake _ => exact own rfl

/-- Nobody else has a guard of the same connection. -/
theorem Machine.Conserved.find?_held (hm : m.Conserved) {g : Guard} (hg : g ∈ m.held) :
    m.held.find? (·.conn = g.conn) = some g := by
  have hnodup : (m.held.map (·.conn)).Nodup := by
    have hall : m.custody.Nodup := (List.Perm.nodup_iff hm).mpr List.nodup_range
    refine hall.sublist ?_
    unfold custody
    exact ((List.sublist_append_right _ _).trans (List.sublist_append_left _ _)).trans
      (List.sublist_append_left _ _)
  cases hf : m.held.find? (·.conn = g.conn) with
  | none => exact absurd (List.find?_eq_none.mp hf g hg) (by simp)
  | some g' =>
      have hconn : g'.conn = g.conn := by simpa using List.find?_some hf
      rw [List.inj_on_of_nodup_map hnodup (List.mem_of_find?_eq_some hf) hg hconn]

/-- A connection that somebody has is not destroyed. -/
theorem Machine.Conserved.alive (hm : m.Conserved)
    (hc : c ∈ m.held.map (·.conn) ∨ c ∈ m.calls.flatMap Call.carries) : c ∉ m.destroyed := by
  intro hd
  have hall : m.custody.Nodup := (List.Perm.nodup_iff hm).mpr List.nodup_range
  refine (List.nodup_append.mp hall).2.2 c ?_ c hd rfl
  obtain hc | hc := hc
  · exact List.mem_append_left _ (List.mem_append_right _ hc)
  · exact List.mem_append_right _ hc

/-! ## The steps of a return -/

/-- A call that makes no move stays where it is, unless it sleeps. -/
theorem Machine.stays {x : Call} (h : m.apply v = some (m', ns)) (hx : m.calls[i]? = some x)
    (hr : x.roused = x) : v.mover? = some i ∨ m'.calls[i]? = some x := by
  by_cases hv : v.mover? = some i
  · exact Or.inl hv
  · exact Or.inr ((apply_changes h).keep (P := fun a => a.calls[i]? = some x)
      (fun hc ha => hc.getElem?_of_mover_ne hv ha hr) hx)

/-- A call that was answered stays so. -/
theorem Machine.answer?_of_apply {ans : Answer} (h : m.apply v = some (m', ns))
    (hi : m.answer? i = some ans) : m'.answer? i = some ans := by
  rw [answer?_eq] at hi ⊢
  obtain ⟨x, hx, hret⟩ := Option.bind_eq_some_iff.mp hi
  unfold Call.returned? at hret
  split at hret
  · next d r ans' =>
      obtain rfl := Option.some.inj hret
      obtain hv | hstay := m.stays h hx rfl
      · -- It has no moves left.
        cases v with
        | step j | connected j _ | wake j =>
            obtain rfl : j = i := Option.some.inj hv
            simp [apply, hx, stepAcquire] at h
        | _ => cases hv
      · rw [hstay]
        rfl
  · cases hret

/-- Between the two states the connection goes to the end of the idle ones, and off those in use. -/
def Machine.PutsBack (m m' : Machine) (c : ConnId) : Prop :=
  m'.ledger.idle = m.ledger.idle ++ [c] ∧ m'.ledger.inUse + 1 = m.ledger.inUse

/-- **A return that is waiting goes on waiting, or puts its connection back.** -/
theorem Machine.return_cases (hm : m.Reachable) (h : m.apply v = some (m', ns))
    (hi : m.calls[i]? = some (.release ⟨c, false, .arriving⟩)) :
    m'.calls[i]? = some (.release ⟨c, false, .arriving⟩) ∨ m.PutsBack m' c ∧ ns = [] := by
  obtain hv | hstay := m.stays h hi rfl
  · cases v with
    | step j =>
        obtain rfl : j = i := Option.some.inj hv
        obtain ⟨pre, post, hx, -⟩ := exists_split_of_getElem? hi
        have hpos : 0 < m.ledger.inUse := hm.accounts.inUse_pos hx (Or.inl rfl)
        simp only [apply, hi, stepRelease] at h
        obtain ⟨rfl, rfl⟩ := Prod.mk.inj (Option.some.inj h)
        exact Or.inr ⟨⟨rfl, Nat.sub_add_cancel hpos⟩, rfl⟩
    | connected j ok | wake j =>
        obtain rfl : j = i := Option.some.inj hv
        simp [apply, hi] at h
    | _ => cases hv
  · exact Or.inl hstay

/-- A return stays the return of its connection. -/
theorem Change.release (h : Change v m m')
    (hi : ∃ p, m.calls[i]? = some (.release ⟨c, b, p⟩)) :
    ∃ p, m'.calls[i]? = some (.release ⟨c, b, p⟩) := by
  obtain ⟨p, hi⟩ := hi
  have moved : ∀ {pre post : List Call} {x y : Call}, m.calls = pre ++ x :: post →
      (m'.calls = pre ++ y :: post ∨
        m'.calls = pre.map Call.roused ++ y :: post.map Call.roused) →
      (x = .release ⟨c, b, p⟩ → ∃ p', y = .release ⟨c, b, p'⟩) →
      ∃ p, m'.calls[i]? = some (.release ⟨c, b, p⟩) := by
    intro pre post x y hx hy hrel
    by_cases hpre : pre.length = i
    · obtain ⟨p', rfl⟩ := hrel (by simpa [hx, ← hpre] using hi)
      exact ⟨p', hpre ▸ Machine.getElem?_changed hy⟩
    · refine ⟨p, ?_⟩
      obtain hcall | hcall := Machine.getElem?_of_ne hx hy hpre
      · rw [hcall, hi]
      · rw [hcall, hi]
        rfl
  have begun : ∀ {y : Call}, m'.calls = m.calls ++ [y] →
      ∃ p, m'.calls[i]? = some (.release ⟨c, b, p⟩) := by
    intro y hy
    exact ⟨p, by rw [hy, List.getElem?_append_left (List.getElem?_eq_some_iff.mp hi).1, hi]⟩
  -- Only its own steps change a return.
  have next : ∀ {c' : ConnId} {b' : Bool} {q q' : Release.Phase},
      Call.release ⟨c', b', q⟩ = .release ⟨c, b, p⟩ →
        ∃ p', Call.release ⟨c', b', q'⟩ = .release ⟨c, b, p'⟩ := by
    intro c' b' q q' heq
    cases heq
    exact ⟨q', rfl⟩
  cases h with
  | acquireBegun timeout | closeBegun | releaseBegun faulty _ => exact begun rfl
  | marked d | elapsed d => exact ⟨p, hi⟩
  | arrived hx | refused hx | woken hx | reopened hx => exact moved hx (Or.inl rfl) nofun
  | turnedAway hx _ => exact moved hx (Or.inl rfl) nofun
  | timedOut hx _ _ _ | slept hx _ _ _ => exact moved hx (Or.inl rfl) nofun
  | served hx _ _ _ _ | servedLast hx _ _ _ _ => exact moved hx (Or.inl rfl) nofun
  | claimed hx _ _ _ _ _ => exact moved hx (Or.inl rfl) nofun
  | rejoined hx | answered hx | shut hx => exact moved hx (Or.inr rfl) nofun
  | closerWoken hx | drainedOne hx | closeDone hx => exact moved hx (Or.inl rfl) nofun
  | closerSlept hx _ | drained hx _ => exact moved hx (Or.inl rfl) nofun
  | takenBack hx | discarded hx => exact moved hx (Or.inl rfl) next
  | returnTold hx => exact moved hx (Or.inr rfl) next

/-- A return that is not over can make its next step, whatever others do. -/
theorem Machine.return_goes_on {p : Release.Phase} (hp : p ≠ .returned)
    (hi : m.calls[i]? = some (.release ⟨c, b, p⟩)) : (m.apply (.step i)).isSome = true := by
  simp only [apply, hi]
  cases p with
  | returned => exact absurd rfl hp
  | arriving | notifying | destroying => rfl

/-! ## The world of the manager -/

/-- A step of an acquire call makes nothing known. -/
theorem Machine.notices_stepAcquire {a : Acquire} (h : m.stepAcquire i a = some (m', ns)) :
    ns = [] := by
  unfold stepAcquire at h
  split at h
  · exact (Prod.mk.inj (Option.some.inj h)).2.symm
  · exact (Prod.mk.inj (Option.some.inj h)).2.symm
  · exact (Prod.mk.inj (Option.some.inj h)).2.symm
  · exact (Prod.mk.inj (Option.some.inj h)).2.symm
  · cases h
  · cases h
  · cases h

/-- A return destroys its own connection, if any. -/
theorem Machine.destroyed_of_stepRelease {r : Release} (h : m.stepRelease i r = some (m', ns))
    (hc : .destroyed c ∈ ns) : c ∈ m'.destroyed := by
  unfold stepRelease at h
  split at h
  · obtain ⟨-, rfl⟩ := Prod.mk.inj (Option.some.inj h)
    cases hc
  · obtain ⟨-, rfl⟩ := Prod.mk.inj (Option.some.inj h)
    cases hc
  · obtain ⟨rfl, rfl⟩ := Prod.mk.inj (Option.some.inj h)
    obtain rfl : c = r.conn := by simpa using hc
    exact List.mem_append_right _ List.mem_cons_self
  · cases h

/-- A closer destroys what it has drained, one at a time. -/
theorem Machine.destroyed_of_stepClose {x : Close} (h : m.stepClose i x = some (m', ns))
    (hc : .destroyed c ∈ ns) : c ∈ m'.destroyed := by
  unfold stepClose at h
  split at h
  · obtain ⟨-, rfl⟩ := Prod.mk.inj (Option.some.inj h)
    split at hc
    · cases hc
    · simp at hc
  · obtain ⟨-, rfl⟩ := Prod.mk.inj (Option.some.inj h)
    cases hc
  · cases h
  · obtain ⟨-, rfl⟩ := Prod.mk.inj (Option.some.inj h)
    cases hc
  · obtain ⟨rfl, rfl⟩ := Prod.mk.inj (Option.some.inj h)
    obtain rfl := Notice.destroyed.inj (List.mem_singleton.mp hc)
    exact List.mem_append_right _ List.mem_cons_self
  · cases h

/-- An attempt to connect destroys nothing. -/
theorem Machine.notices_connected {ok : Bool} (h : m.apply (.connected i ok) = some (m', ns)) :
    .destroyed c ∉ ns := by
  simp only [apply] at h
  split at h
  · split at h
    · split at h
      · obtain ⟨-, rfl⟩ := Prod.mk.inj (Option.some.inj h)
        simp
      · obtain ⟨-, rfl⟩ := Prod.mk.inj (Option.some.inj h)
        simp
    · cases h
  · cases h

/-- What is destroyed in a move is destroyed after it. -/
theorem Machine.destroyed_of_notice (h : m.apply v = some (m', ns)) (hc : .destroyed c ∈ ns) :
    c ∈ m'.destroyed := by
  cases v with
  | beginAcquire _ | beginClose | advance _ =>
      obtain ⟨-, rfl⟩ := Prod.mk.inj (Option.some.inj h)
      cases hc
  | beginRelease d faulty =>
      simp only [apply] at h
      split at h
      · obtain ⟨-, rfl⟩ := Prod.mk.inj (Option.some.inj h)
        cases hc
      · cases h
  | markBroken d =>
      simp only [apply] at h
      split at h
      · obtain ⟨-, rfl⟩ := Prod.mk.inj (Option.some.inj h)
        cases hc
      · cases h
  | step i =>
      simp only [apply] at h
      split at h
      · rw [notices_stepAcquire h] at hc
        cases hc
      · exact destroyed_of_stepRelease h hc
      · exact destroyed_of_stepClose h hc
      · cases h
  | connected i ok => exact absurd hc (notices_connected h)
  | wake i =>
      simp only [apply] at h
      split at h
      · split at h
        · obtain ⟨-, rfl⟩ := Prod.mk.inj (Option.some.inj h)
          cases hc
        · cases h
      · obtain ⟨-, rfl⟩ := Prod.mk.inj (Option.some.inj h)
        cases hc
      · cases h

namespace Run

variable {σ ε : Type} {mgr : Manager σ ε} {r : Run σ} {cause : String}

/-- A move changes the manager's world by destroying what is destroyed after it. -/
theorem world_perform {P : σ → Prop} (v : Move)
    (destroy : ∀ c ∈ (perform mgr r v cause).machine.destroyed, ∀ w, P w → P (mgr.destroy c w))
    (hr : P r.world) : P (perform mgr r v cause).world := by
  have heeded : ∀ (ns : List Notice) (r : Run σ),
      (∀ c, .destroyed c ∈ ns → ∀ w, P w → P (mgr.destroy c w)) → P r.world →
        P (ns.foldl (heed mgr cause) r).world := by
    intro ns
    induction ns with
    | nil => exact fun r _ hr => hr
    | cons n ns ih =>
        intro r hd hr
        refine ih _ (fun c hc => hd c (List.mem_cons_of_mem _ hc)) ?_
        cases n with
        | destroyed c => exact hd c List.mem_cons_self r.world hr
        | _ => exact hr
  cases hv : r.machine.apply v with
  | none =>
      simp only [perform, hv]
      exact hr
  | some x =>
      obtain ⟨m, ns⟩ := x
      rw [perform_machine hv] at destroy
      simp only [perform, hv]
      exact heeded ns _ (fun c hc => destroy c (Machine.destroyed_of_notice hv hc)) hr

/-- **When a call advances the pool makes a move by itself**, after an attempt to connect if that is
what the call is about. -/
theorem advanceCall_eq (mgr : Manager σ ε) (r : Run σ) (i : Nat) : ∃ v w cause, v.own = true ∧
    (w = r.world ∨ w = (mgr.connect r.machine.opened r.world).1) ∧
    advanceCall mgr r i = perform mgr { r with world := w } v cause := by
  unfold advanceCall
  split
  · split
    · next w h => exact ⟨_, w, _, rfl, Or.inr (by rw [h]), rfl⟩
    · next w e h => exact ⟨_, w, _, rfl, Or.inr (by rw [h]), rfl⟩
  · exact ⟨_, r.world, _, rfl, Or.inl rfl, rfl⟩

end Run

end PooledStore.Pool
