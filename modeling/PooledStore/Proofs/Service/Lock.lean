import PooledStore.Proofs.Service.Startup
import PooledStore.Service.Lifecycle

/-!
# The lock of the process-wide service

`Lifecycle.Change` tells once what a move can do: a call looks at the slot or ends (`Look`), a start
goes on by one stage, or something happens that no call does. From it follow the discipline of the
lock and what the slot and the pools have to do with each other (`Lifecycle.Sound`): a start that is
in progress holds the lock alone, the slot is empty meanwhile, and nobody else has the pool that it
has built.
-/

set_option autoImplicit false

namespace PooledStore.Service

open Config Log Pool

variable {σ : Type}

namespace Process

variable [Stores σ] {p : Process σ} {i j : PoolId}
  {f : Manager (Backing σ) ConnectionError → Run (Backing σ) → Run (Backing σ)}

theorem length_pools_drive : (p.drive i f).pools.length = p.pools.length := by
  unfold drive
  split
  · rfl
  · exact List.length_set

theorem pools_drive_of_ne (h : j ≠ i) : (p.drive i f).pools[j]? = p.pools[j]? := by
  unfold drive
  split
  · rfl
  · exact List.getElem?_set_ne h.symm

end Process

namespace Lifecycle

variable {l l' : Lifecycle σ} {v : Move σ} {i j : Nat} {c : GlobalCall} {s : Stage}

/-! ## Stages -/

theorem calls_setStage_self (hi : l.calls[i]? = some c) :
    (l.setStage i c s).calls[i]? = some { c with stage := s } :=
  List.getElem?_set_self (List.getElem?_eq_some_iff.mp hi).1

theorem calls_setStage_of_ne (h : j ≠ i) : (l.setStage i c s).calls[j]? = l.calls[j]? :=
  List.getElem?_set_ne h.symm

theorem stage?_eq (hi : l.calls[i]? = some c) : l.stage? i = some c.stage := by
  rw [stage?, hi, Option.map_some]

theorem stage?_setStage_self (hi : l.calls[i]? = some c) : (l.setStage i c s).stage? i = some s :=
  stage?_eq (calls_setStage_self hi)

theorem stage?_setStage_of_ne (h : j ≠ i) : (l.setStage i c s).stage? j = l.stage? j := by
  rw [stage?, calls_setStage_of_ne h, stage?]

/-! ## The discipline of the lock -/

/-- Who holds the lock, and what that means for the slot and for the pools. -/
structure Sound (l : Lifecycle σ) : Prop where
  lock : ∀ i, l.lockedBy = some i ↔ ∃ next, l.stage? i = some (.starting next)
  empty : ∀ i, l.lockedBy = some i → l.slot = none
  slot : ∀ pool, l.slot = some pool → pool ∈ l.installed
  known : ∀ pool ∈ l.installed, pool < l.process.pools.length
  /-- The pool that a start has built is not one that others know. -/
  apart : ∀ i next pool, l.stage? i = some (.starting next) → next.pool? = some pool →
    pool ∉ l.installed
  /-- Nobody else has used it. -/
  owns : ∀ i next, l.stage? i = some (.starting next) → next.Owns l.process

theorem sound_initial (host : Host σ) : (initial host).Sound where
  lock _ := ⟨nofun, nofun⟩
  empty _ := nofun
  slot _ := nofun
  known _ := nofun
  apart _ _ _ := nofun
  owns _ _ := nofun

/-- Between the states no start goes on, and the pool of none is touched. -/
structure Quiet (l l' : Lifecycle σ) : Prop where
  lockedBy : l'.lockedBy = l.lockedBy
  installed : l'.installed = l.installed
  slot : l'.slot = l.slot ∨ l'.slot = none
  starting : ∀ i next, l'.stage? i = some (.starting next) ↔ l.stage? i = some (.starting next)
  length : l'.process.pools.length = l.process.pools.length
  others : ∀ pool, pool ∉ l.installed → l'.process.pools[pool]? = l.process.pools[pool]?

theorem Sound.quiet (hl : l.Sound) (h : Quiet l l') : l'.Sound where
  lock i := by
    simp only [h.lockedBy, h.starting]
    exact hl.lock i
  empty i hi := by
    rw [h.lockedBy] at hi
    have hnone := hl.empty i hi
    rcases h.slot with hs | hs
    · rw [hs, hnone]
    · exact hs
  slot pool hp := by
    rw [h.installed]
    rcases h.slot with hs | hs
    · exact hl.slot pool (hs.symm.trans hp)
    · rw [hs] at hp
      cases hp
  known pool hp := by
    rw [h.length]
    exact hl.known pool (h.installed ▸ hp)
  apart i next pool hi hp := by
    rw [h.installed]
    exact hl.apart i next pool ((h.starting i next).mp hi) hp
  owns i next hi pool hp := by
    have hi := (h.starting i next).mp hi
    rw [h.others pool (hl.apart i next pool hi hp)]
    exact hl.owns i next hi pool hp

/-- A call that is not starting the service, before and after, has nothing to do with starts. -/
theorem starting_setStage {next : Startup} (hi : l.calls[i]? = some c)
    (hc : ∀ next, c.stage ≠ .starting next) (hs : ∀ next, s ≠ .starting next) :
    (l.setStage i c s).stage? j = some (.starting next) ↔ l.stage? j = some (.starting next) := by
  by_cases hj : j = i
  · subst hj
    rw [stage?_setStage_self hi, stage?_eq hi]
    constructor
    · intro h
      exact absurd (Option.some.inj h) (hs next)
    · intro h
      exact absurd (Option.some.inj h) (hc next)
  · rw [stage?_setStage_of_ne hj]

theorem quiet_called {r : Request} : Quiet l { l with calls := l.calls ++ [⟨r, .arriving⟩] } where
  lockedBy := rfl
  installed := rfl
  slot := Or.inl rfl
  length := rfl
  others _ _ := rfl
  starting i next := by
    unfold stage?
    rw [List.getElem?_append]
    split
    · rfl
    · next hlt =>
        rw [List.getElem?_eq_none (Nat.not_lt.mp hlt)]
        rcases i - l.calls.length with _ | k
        · exact ⟨nofun, nofun⟩
        · exact ⟨nofun, nofun⟩

theorem quiet_outside {host : Host σ} :
    Quiet l { l with process := { l.process with host := host } } where
  lockedBy := rfl
  installed := rfl
  slot := Or.inl rfl
  length := rfl
  starting _ _ := Iff.rfl
  others _ _ := rfl

/-- Only one start is in progress. -/
theorem Sound.alone {next next' : Startup} (hl : l.Sound) (hi : l.stage? i = some (.starting next))
    (hj : l.stage? j = some (.starting next')) : j = i := by
  have hi' := (hl.lock i).mpr ⟨next, hi⟩
  have hj' := (hl.lock j).mpr ⟨next', hj⟩
  exact Option.some.inj (hj'.symm.trans hi')

theorem Sound.begun {source : Source} {updateSchema : Bool} (hl : l.Sound)
    (hi : l.calls[i]? = some c) (hfree : l.lockedBy = none) (hs : l.slot = none) :
    ({ l with lockedBy := some i }.setStage i c
      (.starting (.resolve source updateSchema))).Sound := by
  have hi' : ({ l with lockedBy := some i } : Lifecycle σ).calls[i]? = some c := hi
  have hself : ({ l with lockedBy := some i }.setStage i c
      (.starting (.resolve source updateSchema))).stage? i =
        some (.starting (.resolve source updateSchema)) := stage?_setStage_self hi'
  -- The lock was free, so nobody else is starting.
  have hother : ∀ j next, j ≠ i → ({ l with lockedBy := some i }.setStage i c
      (.starting (.resolve source updateSchema))).stage? j ≠ some (.starting next) := by
    intro j next hj hstage
    rw [stage?_setStage_of_ne hj] at hstage
    exact absurd (hfree.symm.trans ((hl.lock j).mpr ⟨next, hstage⟩)) nofun
  -- The start has built no pool yet.
  have hnopool : ∀ j next pool, ({ l with lockedBy := some i }.setStage i c
      (.starting (.resolve source updateSchema))).stage? j = some (.starting next) →
      next.pool? ≠ some pool := by
    intro j next pool hj hp
    by_cases hji : j = i
    · subst hji
      obtain rfl : Startup.resolve source updateSchema = next :=
        Stage.starting.inj (Option.some.inj (hself.symm.trans hj))
      cases hp
    · exact hother j next hji hj
  refine ⟨fun j => ?_, fun _ _ => hs, hl.slot, hl.known,
    fun j next pool hj hp => absurd hp (hnopool j next pool hj),
    fun j next hj pool hp => absurd hp (hnopool j next pool hj)⟩
  constructor
  · intro hj
    obtain rfl : i = j := Option.some.inj hj
    exact ⟨_, hself⟩
  · rintro ⟨next, hnext⟩
    by_contra hne
    exact hother j next (fun h => hne (congrArg some h.symm)) hnext

/-- The call that holds the lock lets go of it; it has installed some pools. -/
theorem Sound.ended {next : Startup} {p : Process σ} {slot : Option PoolId} {more : List PoolId}
    (hl : l.Sound) (hi : l.calls[i]? = some c) (hc : c.stage = .starting next)
    (hs : ∀ next, s ≠ .starting next) (hp : l.process.pools.length ≤ p.pools.length)
    (hslot : ∀ pool, slot = some pool → pool ∈ l.installed ++ more)
    (hmore : ∀ pool ∈ more, pool < p.pools.length) :
    (setStage ⟨p, slot, l.installed ++ more, none, l.calls⟩ i c s).Sound := by
  have hstage : l.stage? i = some (.starting next) := by rw [stage?_eq hi, hc]
  have hnone : ∀ j next₁, (setStage ⟨p, slot, l.installed ++ more, none, l.calls⟩ i c s).stage? j ≠
      some (.starting next₁) := by
    intro j next₁ hj
    by_cases hji : j = i
    · subst hji
      have hi' :
          (⟨p, slot, l.installed ++ more, none, l.calls⟩ : Lifecycle σ).calls[j]? = some c := hi
      rw [stage?_setStage_self hi'] at hj
      exact hs next₁ (Option.some.inj hj)
    · rw [stage?_setStage_of_ne hji] at hj
      exact hji (hl.alone hstage hj)
  refine ⟨fun j => ⟨nofun, fun ⟨next₁, hj⟩ => absurd hj (hnone j next₁)⟩, nofun, hslot,
    fun pool hpool => ?_, fun j next₁ _ hj _ => absurd hj (hnone j next₁),
    fun j next₁ hj => absurd hj (hnone j next₁)⟩
  rcases List.mem_append.mp hpool with hold | hnew
  · exact Nat.lt_of_lt_of_le (hl.known pool hold) hp
  · exact hmore pool hnew

/-! ## Moves -/

variable [Stores σ]

theorem quiet_driven {pool : PoolId}
    {f : Manager (Backing σ) ConnectionError → Run (Backing σ) → Run (Backing σ)}
    (hp : pool ∈ l.installed) : Quiet l { l with process := l.process.drive pool f } where
  lockedBy := rfl
  installed := rfl
  slot := Or.inl rfl
  length := Process.length_pools_drive
  starting _ _ := Iff.rfl
  others other ho := by
    refine Process.pools_drive_of_ne ?_
    rintro rfl
    exact ho hp

/-- What a call does that does not start the service: it looks at the slot, or it ends. The stage
after it, the slot and the process. -/
inductive Look (l : Lifecycle σ) :
    GlobalCall → Stage → Option PoolId → Process σ → Prop where
  | refused {source : Source} {updateSchema : Bool} {pool : PoolId} :
      l.lockedBy = none → l.slot = some pool →
      Look l ⟨.start source updateSchema, .arriving⟩
        (.returned (.failed .alreadyInitialized)) (some pool) l.process
  | missing {timeout : Option Time} :
      l.lockedBy = none → l.slot = none →
      Look l ⟨.acquire timeout, .arriving⟩ (.returned (.failed .notInitialized)) none l.process
  | found {timeout : Option Time} {pool : PoolId} {call : Nat} :
      l.lockedBy = none → l.slot = some pool →
      Look l ⟨.acquire timeout, .arriving⟩ (.acquiring pool call) (some pool)
        (l.process.drive pool fun mgr r => r.perform mgr (.beginAcquire timeout) "")
  | idle :
      l.lockedBy = none → l.slot = none →
      Look l ⟨.shutdown, .arriving⟩ (.returned .done) none l.process
  | taken {pool : PoolId} {call : Nat} :
      l.lockedBy = none → l.slot = some pool →
      Look l ⟨.shutdown, .arriving⟩ (.closing pool call) none
        (l.process.drive pool fun mgr r => r.perform mgr .beginClose "")
  | served {request : Request} {pool : PoolId} {call : Nat} {conn : ConnId} :
      Look l ⟨request, .acquiring pool call⟩ (.returned (.connection pool conn)) l.slot l.process
  | unserved {request : Request} {pool : PoolId} {call : Nat} {r : Response} :
      r = .timedOut ∨ r = .failed (.pool .closed) →
      Look l ⟨request, .acquiring pool call⟩ (.returned r) l.slot l.process
  | closed {request : Request} {pool : PoolId} {call : Nat} :
      Look l ⟨request, .closing pool call⟩ (.returned .done) l.slot
        { l.process with log := l.process.log ++ [.serviceShutDown] }

theorem Look.not_starting {slot : Option PoolId} {p : Process σ} (h : Look l c s slot p)
    (next : Startup) : c.stage ≠ .starting next ∧ s ≠ .starting next := by
  cases h <;> exact ⟨by rintro ⟨⟩, by rintro ⟨⟩⟩

theorem Look.quiet {slot : Option PoolId} {p : Process σ} (hl : l.Sound)
    (hi : l.calls[i]? = some c) (h : Look l c s slot p) :
    Quiet l ({ l with process := p, slot := slot }.setStage i c s) := by
  have starting : ∀ j next,
      ({ l with process := p, slot := slot }.setStage i c s).stage? j = some (.starting next) ↔
        l.stage? j = some (.starting next) := by
    intro j next
    have hi' : ({ l with process := p, slot := slot } : Lifecycle σ).calls[i]? = some c := hi
    exact starting_setStage hi' (fun next => (h.not_starting next).1)
      fun next => (h.not_starting next).2
  -- The pool in the slot is one that was installed.
  have driven : ∀ {pool f}, l.slot = some pool → p = l.process.drive pool f →
      p.pools.length = l.process.pools.length ∧
        ∀ other, other ∉ l.installed → p.pools[other]? = l.process.pools[other]? := by
    rintro pool f hs rfl
    refine ⟨Process.length_pools_drive, fun other ho => Process.pools_drive_of_ne ?_⟩
    rintro rfl
    exact ho (hl.slot _ hs)
  cases h with
  | refused _ hs => exact ⟨rfl, rfl, Or.inl hs.symm, starting, rfl, fun _ _ => rfl⟩
  | missing _ hs => exact ⟨rfl, rfl, Or.inr rfl, starting, rfl, fun _ _ => rfl⟩
  | found _ hs =>
      obtain ⟨hlen, hothers⟩ := driven hs rfl
      exact ⟨rfl, rfl, Or.inl hs.symm, starting, hlen, hothers⟩
  | idle _ hs => exact ⟨rfl, rfl, Or.inr rfl, starting, rfl, fun _ _ => rfl⟩
  | taken _ hs =>
      obtain ⟨hlen, hothers⟩ := driven hs rfl
      exact ⟨rfl, rfl, Or.inr rfl, starting, hlen, hothers⟩
  | served => exact ⟨rfl, rfl, Or.inl rfl, starting, rfl, fun _ _ => rfl⟩
  | unserved hr => exact ⟨rfl, rfl, Or.inl rfl, starting, rfl, fun _ _ => rfl⟩
  | closed => exact ⟨rfl, rfl, Or.inl rfl, starting, rfl, fun _ _ => rfl⟩

variable [Toml.Parser]

/-- What a move can do. -/
inductive Change (l : Lifecycle σ) : Move σ → Lifecycle σ → Prop where
  | called {r : Request} : Change l (.call r) { l with calls := l.calls ++ [⟨r, .arriving⟩] }
  | looked {i : Nat} {c : GlobalCall} {s : Stage} {slot : Option PoolId} {p : Process σ} :
      l.calls[i]? = some c → Look l c s slot p →
      Change l (.step i) ({ l with process := p, slot := slot }.setStage i c s)
  | begun {i : Nat} {source : Source} {updateSchema : Bool} :
      l.calls[i]? = some ⟨.start source updateSchema, .arriving⟩ → l.lockedBy = none →
      l.slot = none →
      Change l (.step i) ({ l with lockedBy := some i }.setStage i
        ⟨.start source updateSchema, .arriving⟩ (.starting (.resolve source updateSchema)))
  | advanced {i : Nat} {r : Request} {next next' : Startup} {p : Process σ} :
      l.calls[i]? = some ⟨r, .starting next⟩ →
      next.advance l.process = some (.ok (.inl next'), p) →
      Change l (.step i) ({ l with process := p }.setStage i ⟨r, .starting next⟩ (.starting next'))
  | installed {i : Nat} {r : Request} {next : Startup} {pool : PoolId} {p : Process σ} :
      l.calls[i]? = some ⟨r, .starting next⟩ →
      next.advance l.process = some (.ok (.inr pool), p) →
      Change l (.step i) ({ l with
        process := p
        slot := some pool
        installed := l.installed ++ [pool]
        lockedBy := none }.setStage i ⟨r, .starting next⟩ (.returned .done))
  | failed {i : Nat} {r : Request} {next : Startup} {e : Error} {p : Process σ} :
      l.calls[i]? = some ⟨r, .starting next⟩ →
      next.advance l.process = some (.error e, p) →
      Change l (.step i) ({ l with process := p, lockedBy := none }.setStage i
        ⟨r, .starting next⟩ (.returned (.failed e)))
  | driven {v : Move σ} {pool : PoolId}
      {f : Manager (Backing σ) ConnectionError → Run (Backing σ) → Run (Backing σ)} :
      (∀ i, v ≠ .step i) → pool ∈ l.installed →
      Change l v { l with process := l.process.drive pool f }
  | outside {host : Host σ} :
      Change l (.outside host) { l with process := { l.process with host := host } }

theorem arrive_change (hi : l.calls[i]? = some c) (hc : c.stage = .arriving)
    (hl : l.lockedBy = none) : Change l (.step i) (l.arrive i c) := by
  obtain ⟨process, slot, installed, lockedBy, calls⟩ := l
  obtain ⟨request, stage⟩ := c
  obtain rfl : stage = .arriving := hc
  cases request with
  | start source updateSchema =>
      cases slot with
      | none => exact .begun hi hl rfl
      | some pool => exact .looked hi (.refused hl rfl)
  | acquire timeout =>
      cases slot with
      | none => exact .looked hi (.missing hl rfl)
      | some pool => exact .looked hi (.found hl rfl)
  | shutdown =>
      cases slot with
      | none => exact .looked hi (.idle hl rfl)
      | some pool => exact .looked hi (.taken hl rfl)

theorem advanceStart_change {r : Request} {next : Startup}
    {x : Except Error (Startup ⊕ PoolId) × Process σ}
    (hi : l.calls[i]? = some ⟨r, .starting next⟩) (h : next.advance l.process = some x) :
    Change l (.step i) (l.advanceStart i ⟨r, .starting next⟩ x) := by
  rcases x with ⟨e | next' | pool, p⟩
  · exact .failed hi h
  · exact .advanced hi h
  · exact .installed hi h

theorem stepCall_change (hi : l.calls[i]? = some c) (h : l.stepCall i c = some l') :
    Change l (.step i) l' := by
  obtain ⟨request, stage⟩ := c
  cases stage with
  | arriving =>
      simp only [stepCall] at h
      cases hl : l.lockedBy with
      | none =>
          rw [hl] at h
          obtain rfl := Option.some.inj h
          exact arrive_change hi rfl hl
      | some j =>
          rw [hl] at h
          cases h
  | starting next =>
      simp only [stepCall] at h
      obtain ⟨x, hadv, rfl⟩ := Option.map_eq_some_iff.mp h
      exact advanceStart_change hi hadv
  | acquiring pool call =>
      simp only [stepCall] at h
      obtain ⟨ans, -, rfl⟩ := Option.map_eq_some_iff.mp h
      cases ans with
      | connection conn => exact .looked hi .served
      | timedOut => exact .looked hi (.unserved (Or.inl rfl))
      | closed => exact .looked hi (.unserved (Or.inr rfl))
  | closing pool call =>
      simp only [stepCall] at h
      split at h
      · obtain rfl := Option.some.inj h
        exact .looked hi .closed
      · cases h
  | returned r => cases h

/-- **What a move does.** -/
theorem apply_change (h : l.apply v = some l') : Change l v l' := by
  cases v with
  | call r =>
      obtain rfl := Option.some.inj h
      exact .called
  | step i =>
      obtain ⟨c, hi, hc⟩ := Option.bind_eq_some_iff.mp h
      exact stepCall_change hi hc
  | poolStep pool i =>
      simp only [apply] at h
      split at h
      · next hp =>
          obtain rfl := Option.some.inj h
          exact .driven (fun _ => nofun) hp
      · cases h
  | poolMove pool v =>
      simp only [apply] at h
      split at h
      · next hp =>
          obtain rfl := Option.some.inj h
          exact .driven (fun _ => nofun) hp
      · cases h
  | outside host =>
      obtain rfl := Option.some.inj h
      exact .outside

/-- What a stage of a start finds and leaves, under the discipline of the lock. -/
theorem Sound.did {next : Startup} {r : Except Error (Startup ⊕ PoolId)} {p : Process σ}
    (hl : l.Sound) (hi : l.stage? i = some (.starting next))
    (h : next.advance l.process = some (r, p)) : next.Did l.process r p :=
  Startup.did_of_advance (hl.owns i next hi) h

theorem Sound.advanced {next next' : Startup} {p : Process σ} (hl : l.Sound)
    (hi : l.calls[i]? = some c) (hc : c.stage = .starting next)
    (h : next.advance l.process = some (.ok (.inl next'), p)) :
    ({ l with process := p }.setStage i c (.starting next')).Sound := by
  have hstage : l.stage? i = some (.starting next) := by rw [stage?_eq hi, hc]
  have hlock := (hl.lock i).mpr ⟨next, hstage⟩
  have hdid := hl.did hstage h
  have hi' : ({ l with process := p } : Lifecycle σ).calls[i]? = some c := hi
  have hself : ({ l with process := p }.setStage i c (.starting next')).stage? i =
      some (.starting next') := stage?_setStage_self hi'
  -- This call has the lock, so nobody else is starting.
  have hother : ∀ j next₁, j ≠ i → ({ l with process := p }.setStage i c
      (.starting next')).stage? j ≠ some (.starting next₁) := by
    intro j next₁ hj hj'
    rw [stage?_setStage_of_ne hj] at hj'
    exact hj (hl.alone hstage hj')
  have hnext : ∀ j next₁, ({ l with process := p }.setStage i c (.starting next')).stage? j =
      some (.starting next₁) → next' = next₁ := by
    intro j next₁ hj
    by_cases hji : j = i
    · subst hji
      exact Stage.starting.inj (Option.some.inj (hself.symm.trans hj))
    · exact absurd hj (hother j next₁ hji)
  refine ⟨fun j => ?_, hl.empty, hl.slot, fun pool hp => ?_, fun j next₁ pool hj hp => ?_,
    fun j next₁ hj => ?_⟩
  · constructor
    · intro hj
      obtain rfl : i = j := Option.some.inj (hlock.symm.trans hj)
      exact ⟨next', hself⟩
    · rintro ⟨next₁, hnext⟩
      by_contra hne
      refine hother j next₁ ?_ hnext
      rintro rfl
      exact hne hlock
  · exact Nat.lt_of_lt_of_le (hl.known pool hp) hdid.length_le
  · obtain rfl := hnext j next₁ hj
    rcases hdid.pool_cases hp with hsame | rfl
    · exact hl.apart i next pool hstage hsame
    · exact fun hmem => Nat.lt_irrefl _ (hl.known _ hmem)
  · obtain rfl := hnext j next₁ hj
    exact hdid.owns (hl.owns i next hstage)

/-- **Every move keeps the discipline of the lock.** -/
theorem Sound.change (hl : l.Sound) (h : Change l v l') : l'.Sound := by
  cases h with
  | called => exact hl.quiet quiet_called
  | looked hi hlook => exact hl.quiet (hlook.quiet hl hi)
  | begun hi hfree hs => exact hl.begun hi hfree hs
  | advanced hi hadv => exact hl.advanced hi rfl hadv
  | @installed i r next pool p hi hadv =>
      have hdid := hl.did (stage?_eq hi) hadv
      -- The pool in the slot is the one that this start has built.
      refine hl.ended hi rfl nofun hdid.length_le ?_ ?_
      · intro pool' hp
        rw [Option.some.inj hp]
        exact List.mem_append_right _ List.mem_cons_self
      · intro pool' hp
        rw [List.mem_singleton.mp hp]
        exact hdid.ready_lt (hl.owns _ _ (stage?_eq hi))
  | @failed i r next e p hi hadv =>
      have hdid := hl.did (stage?_eq hi) hadv
      have h : (setStage ⟨p, l.slot, l.installed ++ [], none, l.calls⟩ i ⟨r, .starting next⟩
          (.returned (.failed e))).Sound :=
        hl.ended hi rfl nofun hdid.length_le
          (fun pool hp => List.mem_append_left _ (hl.slot pool hp)) nofun
      rwa [List.append_nil] at h
  | driven _ hp => exact hl.quiet (quiet_driven hp)
  | outside => exact hl.quiet quiet_outside

end Lifecycle

end PooledStore.Service
