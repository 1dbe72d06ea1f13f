import PooledStore.Proofs.Migration.Attempt
import PooledStore.Proofs.Service.FreshPool

/-!
# Starting a service

A start makes steps, each of which ends with a result or with a failure and leaves a process either
way. The pool that a start has built is known to nobody else: what became of it can be told from the
stage of the start (`Startup.Owns`), and so a start never has to wait. `Startup.Did` lists what one
step can do: read the options, build a pool, find the directory of the migrations, borrow the first
connection, run the migrations on it and return it; or fail, and then nothing of the pool that the
start has built is open any more (`Startup.Did.failed`).
-/

set_option autoImplicit false

namespace PooledStore.Service

open Config Log Pool

variable {σ κ υ : Type} [Stores σ] {R : Reading σ κ υ}

namespace Process

variable {α β : Type} {p p' : Process σ} {i : PoolId} {sp : ServicePool}

/-! ## Outcomes of actions -/

omit [Stores σ] in
theorem outcome_bind {a : Action σ α} {f : α → Action σ β} :
    outcome (a >>= f) p = match outcome a p with
      | (.ok x, p') => outcome (f x) p'
      | (.error e, p') => (.error e, p') := by
  unfold outcome
  rw [ExceptT.run_bind, StateT.run_bind]
  show _ = match a.run.run p with
      | (.ok x, p') => _
      | (.error e, p') => _
  rcases a.run.run p with ⟨_ | _, _⟩ <;> rfl

omit [Stores σ] in
theorem outcome_tryCatch {a : Action σ α} {f : Error → Action σ α} :
    outcome (tryCatch a f) p = match outcome a p with
      | (.ok x, p') => (.ok x, p')
      | (.error e, p') => outcome (f e) p' := by
  unfold outcome
  rw [ExceptT.run_tryCatch, StateT.run_bind]
  rcases a.run.run p with ⟨_ | _, _⟩ <;> rfl

omit [Stores σ] in
theorem outcome_get : outcome get p = (.ok p, p) := rfl

/-! ## Options and directories -/

omit [Stores σ] in
theorem outcome_resolveFrom [Toml.Parser] {source : Source} :
    outcome (resolveFrom source) p =
      match source.resolve p.host.files p.host.env with
      | (.ok options, log) => (.ok options, { p with log := p.log ++ log })
      | (.error e, log) =>
        (.error (.config e), { p with log := p.log ++ log ++ [.configUnreadable e.message] }) := by
  unfold resolveFrom
  rw [outcome_bind, outcome_get]
  dsimp only
  rcases source.resolve p.host.files p.host.env with ⟨_ | _, _⟩ <;> rfl

omit [Stores σ] in
/-- Reading the options changes nothing but what is reported. -/
theorem rest_of_resolveFrom [Toml.Parser] {source : Source} {r : Except Error Options}
    (h : outcome (resolveFrom source) p = (r, p')) : p'.host = p.host ∧ p'.pools = p.pools := by
  rw [outcome_resolveFrom] at h
  split at h <;> obtain ⟨-, rfl⟩ := Prod.mk.inj h <;> exact ⟨rfl, rfl⟩

omit [Stores σ] in
theorem outcome_locateMigrations :
    outcome (locateMigrations none) p =
      match migrationsDirectory p.host.env p.host.executable with
      | .ok dir => (.ok dir, p)
      | .error e =>
        (.error (.migrationsDirectory e),
          { p with log := p.log ++ [.migrationsUnlocated e.message] }) := by
  unfold locateMigrations
  rw [outcome_bind, outcome_get]
  dsimp only
  cases migrationsDirectory p.host.env p.host.executable <;> rfl

omit [Stores σ] in
/-- Finding the directory of the migrations changes nothing but what is reported. -/
theorem rest_of_locateMigrations {dir? : Option Path} {r : Except Error Path}
    (h : outcome (locateMigrations dir?) p = (r, p')) : p'.host = p.host ∧ p'.pools = p.pools := by
  cases dir? with
  | some dir =>
      obtain ⟨-, rfl⟩ := Prod.mk.inj h
      exact ⟨rfl, rfl⟩
  | none =>
      rw [outcome_locateMigrations] at h
      split at h <;> obtain ⟨-, rfl⟩ := Prod.mk.inj h <;> exact ⟨rfl, rfl⟩

/-! ## Building a pool -/

/-- Connecting runs the builder of a pool, if connections with the options can be managed. -/
theorem outcome_connect {options : Options} {size : Option Nat} :
    outcome (connect options size) p =
      match p.host.prepare options with
      | .error e => (.error (.pool (.connect e)), p)
      | .ok () =>
        match Run.start (manager options) (size.getD (p.host.parallelism.getD fallbackPoolSize))
            ⟨p.host, []⟩ with
        | (b, .ok r) =>
          (.ok p.pools.length,
            ⟨b.host, p.pools ++ [⟨options, r.machine, r.world.connections⟩], p.log ++ r.log⟩)
        | (b, .error e) =>
          (.error (.pool e), ⟨b.host, p.pools,
            p.log ++ [.storeUnreachable options.provider.name (Error.pool e).message]⟩) := by
  unfold connect openPool
  rw [outcome_bind, outcome_get]
  dsimp only
  rcases p.host.prepare options with e | u
  · rfl
  · dsimp only
    rw [outcome_tryCatch, outcome_bind, outcome_get]
    dsimp only
    generalize size.getD (p.host.parallelism.getD fallbackPoolSize) = capacity
    rcases Run.start (manager options) capacity ⟨p.host, []⟩ with ⟨b, e | r⟩
    · rfl
    · rfl

/-- The process has a pool more, which was just built. -/
structure Extended (p : Process σ) (options : Options) (p' : Process σ) (sp : ServicePool) :
    Prop where
  pools : p'.pools = p.pools ++ [sp]
  prepared : p.host.prepare options = .ok ()
  first : ∃ host conn more,
    p.host.connect options Host.defaultBusyTimeout = (host, .ok conn) ∧
      sp.connections = (0, conn) :: more ∧
      Backing.Opens options ⟨host, [(0, conn)]⟩ more ⟨p'.host, sp.connections⟩
  fresh : ∃ capacity n, 0 < n ∧ n ≤ capacity ∧ sp.machine = Machine.initial capacity n ∧
    sp.connections.map Prod.fst = List.range n

theorem Extended.pool {options : Options} (h : p.Extended options p' sp) :
    p'.pools[p.pools.length]? = some sp := by
  rw [h.pools, List.getElem?_concat_length]

/-- All connections of the pool were opened for it. -/
theorem Extended.opens {options : Options} (h : p.Extended options p' sp) :
    Backing.Opens options ⟨p.host, []⟩ sp.connections ⟨p'.host, sp.connections⟩ := by
  obtain ⟨host, conn, more, hcon, hconns, hmore⟩ := h.first
  have hfirst : Backing.Opens options ⟨p.host, []⟩ [(0, conn)] ⟨host, [(0, conn)]⟩ :=
    .opened .nothing hcon
  have hall := hfirst.trans hmore
  rwa [List.singleton_append, ← hconns] at hall

theorem connect_ok {options : Options} {size : Option Nat}
    (h : outcome (connect options size) p = (.ok i, p')) :
    i = p.pools.length ∧ ∃ sp, p.Extended options p' sp := by
  rw [outcome_connect] at h
  generalize size.getD (p.host.parallelism.getD fallbackPoolSize) = capacity at h
  rcases hprep : p.host.prepare options with e | u
  · rw [hprep] at h
    cases (Prod.mk.inj h).1
  · rw [hprep] at h
    dsimp only at h
    rcases hstart : Run.start (manager options) capacity ⟨p.host, []⟩ with ⟨b, result⟩
    rw [hstart] at h
    obtain ⟨host, conn, more, n, log, hcon, hmore, hn, hle, hkeys, rfl⟩ | ⟨⟨e, rfl⟩, -⟩ :=
      start_cases hstart
    · obtain ⟨hi, rfl⟩ := Prod.mk.inj h
      obtain ⟨host', connections⟩ := b
      obtain rfl : connections = (0, conn) :: more := hmore.connections
      exact ⟨(Except.ok.inj hi).symm, _, rfl, hprep, ⟨host, conn, more, hcon, rfl, hmore⟩,
        capacity, n, hn, hle, rfl, hkeys⟩
    · cases (Prod.mk.inj h).1

theorem connect_error {options : Options} {size : Option Nat} {e : Error}
    (h : outcome (connect options size) p = (.error e, p')) :
    p'.pools = p.pools ∧ Backing.Opens options ⟨p.host, []⟩ [] ⟨p'.host, []⟩ := by
  rw [outcome_connect] at h
  generalize size.getD (p.host.parallelism.getD fallbackPoolSize) = capacity at h
  rcases hprep : p.host.prepare options with e' | u
  · rw [hprep] at h
    obtain ⟨-, rfl⟩ := Prod.mk.inj h
    exact ⟨rfl, .nothing⟩
  · rw [hprep] at h
    dsimp only at h
    rcases hstart : Run.start (manager options) capacity ⟨p.host, []⟩ with ⟨b, result⟩
    rw [hstart] at h
    obtain ⟨-, -, -, n, log, -, -, -, -, -, rfl⟩ | ⟨⟨e', rfl⟩, hopens⟩ := start_cases hstart
    · cases (Prod.mk.inj h).1
    · obtain ⟨-, rfl⟩ := Prod.mk.inj h
      obtain ⟨host, connections⟩ := b
      obtain rfl : connections = [] := hopens.connections
      exact ⟨rfl, hopens⟩

/-! ## Closing what a pool has open -/

theorem closeConnections_of_pool (hi : p.pools[i]? = some sp) :
    p.closeConnections i =
      { p with
        host := sp.connections.foldl (fun h e => h.disconnect e.2) p.host
        pools := p.pools.set i { sp with connections := [] } } := by
  simp only [closeConnections, hi]

theorem length_closeConnections : (p.closeConnections i).pools.length = p.pools.length := by
  unfold closeConnections
  split
  · rfl
  · exact List.length_set

theorem pools_closeConnections_of_ne {j : PoolId} (h : j ≠ i) :
    (p.closeConnections i).pools[j]? = p.pools[j]? := by
  unfold closeConnections
  split
  · rfl
  · exact List.getElem?_set_ne h.symm

/-- After connections were closed they have no sessions, and no session is new. -/
theorem standing_foldl_disconnect (laws : R.Sessions) (l : List (ConnId × Connection))
    (h : Host σ) (id : SessionId) :
    R.standing (l.foldl (fun h e => h.disconnect e.2) h).store id =
      if id ∈ l.map (·.2.session) then none else R.standing h.store id := by
  induction l generalizing h with
  | nil => rfl
  | cons e l ih =>
      have hclose : R.standing (h.disconnect e.2).store id =
          if id = e.2.session then none else R.standing h.store id := by
        split
        · next heq => exact heq ▸ laws.close_self e.2 h.store
        · next hne => exact laws.close_other hne
      rw [List.foldl_cons, ih, hclose, List.map_cons]
      by_cases hmem : id ∈ l.map (·.2.session)
      · rw [if_pos hmem, if_pos (List.mem_cons_of_mem _ hmem)]
      · rw [if_neg hmem]
        simp only [List.mem_cons, hmem, or_false]

theorem standing_closeConnections (laws : R.Sessions) (hi : p.pools[i]? = some sp)
    (id : SessionId) :
    R.standing (p.closeConnections i).host.store id =
      if id ∈ sp.connections.map (·.2.session) then none else R.standing p.host.store id := by
  rw [closeConnections_of_pool hi]
  exact standing_foldl_disconnect laws _ _ id

theorem outcome_orAbandon {a : Action σ α} :
    outcome (orAbandon i a) p = match outcome a p with
      | (.ok x, p') => (.ok x, p')
      | (.error e, p') => (.error e, p'.closeConnections i) := by
  unfold orAbandon
  rw [outcome_tryCatch]
  rcases outcome a p with ⟨_ | _, _⟩ <;> rfl

/-! ## Driving a pool -/

/-- The process with another state of a pool. -/
def withMachine (p : Process σ) (i : PoolId) (sp : ServicePool) (m : Machine) : Process σ :=
  { p with pools := p.pools.set i { sp with machine := m } }

omit [Stores σ] in
theorem withMachine_pool {m : Machine} (hi : p.pools[i]? = some sp) :
    (p.withMachine i sp m).pools[i]? = some { sp with machine := m } :=
  List.getElem?_set_self (List.getElem?_eq_some_iff.mp hi).1

omit [Stores σ] in
theorem withMachine_self (hi : p.pools[i]? = some sp) : p.withMachine i sp sp.machine = p := by
  have hset : p.pools.set i sp = p.pools := by
    obtain ⟨hlt, rfl⟩ := List.getElem?_eq_some_iff.mp hi
    exact List.set_getElem_self hlt
  show { p with pools := p.pools.set i sp } = p
  rw [hset]

/-- A pool is driven and leaves the host as it is. -/
theorem drive_eq {f : Manager (Backing σ) ConnectionError → Run (Backing σ) → Run (Backing σ)}
    {m : Machine} (hi : p.pools[i]? = some sp)
    (hf : f (manager sp.options) ⟨sp.machine, ⟨p.host, sp.connections⟩, []⟩ =
      ⟨m, ⟨p.host, sp.connections⟩, []⟩) :
    p.drive i f = p.withMachine i sp m := by
  simp only [drive, hi, hf, withMachine, List.append_nil]

/-- Driving a pool that reports nothing, and driving it again. -/
theorem drive_drive {f g : Manager (Backing σ) ConnectionError → Run (Backing σ) → Run (Backing σ)}
    (hi : p.pools[i]? = some sp)
    (hf : (f (manager sp.options) ⟨sp.machine, ⟨p.host, sp.connections⟩, []⟩).log = []) :
    (p.drive i f).drive i g = p.drive i fun mgr r => g mgr (f mgr r) := by
  have hlt := (List.getElem?_eq_some_iff.mp hi).1
  simp only [drive, hi, List.getElem?_set_self hlt, List.set_set]
  generalize f (manager sp.options) ⟨sp.machine, ⟨p.host, sp.connections⟩, []⟩ = r at hf ⊢
  obtain ⟨machine, world, log⟩ := r
  obtain rfl : log = [] := hf
  rw [List.append_nil]

/-- The session is open in the second process, and is not in the first. -/
def NewSession (R : Reading σ κ υ) (p p' : Process σ) (id : SessionId) : Prop :=
  R.standing p.host.store id = none ∧ (R.standing p'.host.store id).isSome = true

omit [Stores σ] in
theorem machine?_of_pool (hi : p.pools[i]? = some sp) : p.machine? i = some sp.machine := by
  rw [machine?, hi, Option.map_some]

omit [Stores σ] in
theorem connection?_of_pool (hi : p.pools[i]? = some sp) (c : ConnId) :
    p.connection? i c = sp.connections.lookup c := by
  rw [connection?, hi, Option.bind_some]

end Process

/-! ## A pool that one update has used -/

namespace Updating

/-- The state of a pool that was just built, at a stage of its first update. -/
def machine (capacity n : Nat) : Updating → Machine
  | .arriving => .initial capacity n
  | .borrowing _ => .lentFirst capacity n
  | .lent _ => .lentFirst capacity n
  | .updated .. => .lentFirst capacity n
  | .returning .. => .lentOnce capacity n
  | .returned _ => .lentOnce capacity n

/-- The update has made the first calls of its pool, has connection 0, and is not over. -/
def IsFirst : Updating → Prop
  | .arriving => True
  | .borrowing call => call = 0
  | .lent c => c = 0
  | .updated c _ => c = 0
  | .returning c call _ => c = 0 ∧ call = 1
  | .returned _ => False

/-- What came of the migrations, once they were run. -/
def result? : Updating → Option (Except Migration.Error Nat)
  | .updated _ result => some result
  | .returning _ _ result => some result
  | _ => none

/-- A step that leads to the next stage and has to do with the pool alone. -/
inductive Next : Updating → Updating → Prop where
  | called : Next .arriving (.borrowing 0)
  | lent : Next (.borrowing 0) (.lent 0)
  | returned {result : Except Migration.Error Nat} :
      Next (.updated 0 result) (.returning 0 1 result)

end Updating

theorem Updating.Next.isFirst {u u' : Updating} (h : u.Next u') : u'.IsFirst := by
  cases h with
  | called => rfl
  | lent => rfl
  | returned => exact ⟨rfl, rfl⟩

/-- The pool was just built, and only the update has used it. -/
def ServicePool.Reserved (sp : ServicePool) (u : Updating) : Prop :=
  ∃ capacity n, 0 < n ∧ n ≤ capacity ∧ sp.machine = u.machine capacity n ∧
    sp.connections.map Prod.fst = List.range n

theorem exists_lookup_zero {l : List (ConnId × Connection)} {n : Nat} (hn : 0 < n)
    (hl : l.map Prod.fst = List.range n) : ∃ conn, l.lookup 0 = some conn := by
  obtain ⟨k, rfl⟩ : ∃ k, n = k + 1 := ⟨n - 1, by omega⟩
  rw [List.range_succ_eq_map] at hl
  obtain ⟨⟨c, conn⟩, rest, rfl, rfl, -⟩ := List.map_eq_cons_iff.mp hl
  exact ⟨conn, List.lookup_cons_self⟩

/-! ## The calls of the first update -/

namespace Process

variable {p : Process σ} {i : PoolId} {sp : ServicePool} {capacity n : Nat}

theorem settle_of_lentFirst (hi : p.pools[i]? = some sp)
    (hm : sp.machine = Machine.lentFirst capacity n) : p.settle i = p := by
  have hrest : p.settle i = p.withMachine i sp (Machine.lentFirst capacity n) :=
    drive_eq hi (by rw [hm]; exact Run.rest_lentFirst)
  rw [hrest, ← hm, withMachine_self hi]

/-- The first call of a fresh pool is one that borrows. -/
theorem beginCall_initial (hi : p.pools[i]? = some sp)
    (hm : sp.machine = Machine.initial capacity n) (hn : 0 < n) :
    (p.beginCall i (.beginAcquire none)).1.settle i =
        p.withMachine i sp (Machine.lentFirst capacity n) ∧
      (p.beginCall i (.beginAcquire none)).2 = 0 := by
  have hquiet : (Run.perform (manager sp.options) ⟨sp.machine, ⟨p.host, sp.connections⟩, []⟩
      (.beginAcquire none) "").log = [] := by
    rw [hm]
    rfl
  constructor
  · exact (drive_drive (f := fun mgr r => r.perform mgr (.beginAcquire none) "") hi hquiet).trans
      (drive_eq hi (by rw [hm]; exact Run.lend_first hn))
  · simp only [beginCall, machine?_of_pool hi, hm, Option.map_some, Option.getD_some]
    rfl

/-- The second one returns what was borrowed. -/
theorem beginCall_lentFirst (hi : p.pools[i]? = some sp)
    (hm : sp.machine = Machine.lentFirst capacity n) :
    (p.beginCall i (.beginRelease 0 false)).1.settle i =
        p.withMachine i sp (Machine.lentOnce capacity n) ∧
      (p.beginCall i (.beginRelease 0 false)).2 = 1 := by
  have hquiet : (Run.perform (manager sp.options) ⟨sp.machine, ⟨p.host, sp.connections⟩, []⟩
      (.beginRelease 0 false) "").log = [] := by
    rw [hm]
    rfl
  constructor
  · exact (drive_drive (f := fun mgr r => r.perform mgr (.beginRelease 0 false) "") hi hquiet).trans
      (drive_eq hi (by rw [hm]; exact Run.return_first))
  · simp only [beginCall, machine?_of_pool hi, hm, Option.map_some, Option.getD_some]
    rfl

omit [Stores σ] in
theorem answer?_of_lentFirst (hi : p.pools[i]? = some sp)
    (hm : sp.machine = Machine.lentFirst capacity n) :
    p.answer? i 0 = some (.connection 0) := by
  rw [answer?, machine?_of_pool hi, hm]
  rfl

omit [Stores σ] in
theorem hasReleased_of_lentOnce (hi : p.pools[i]? = some sp)
    (hm : sp.machine = Machine.lentOnce capacity n) : p.hasReleased i 1 = true := by
  rw [hasReleased, machine?_of_pool hi, hm]
  rfl

end Process

/-! ## The steps of a start -/

namespace Startup

open Process

variable {p p' : Process σ} {next next' : Startup} {r : Except Error (Startup ⊕ PoolId)}
  {i j : PoolId} {sp : ServicePool} {dir : Path}

/-- The pool that a start has built by the time of a stage. -/
def pool? : Startup → Option PoolId
  | .resolve .. => none
  | .connect .. => none
  | .locate i _ => some i
  | .migrate i _ _ => some i

/-- How far a start has got with its update. -/
def update : Startup → Updating
  | .migrate _ _ u => u
  | _ => .arriving

/-- The pool that a start has built is there, and only the start has used it. -/
def Owns (next : Startup) (p : Process σ) : Prop :=
  ∀ i, next.pool? = some i → next.update.IsFirst ∧
    ∃ sp, p.pools[i]? = some sp ∧ sp.Reserved next.update

/-- The pool that a start has built has the session. -/
def Holds (next : Startup) (p : Process σ) (id : SessionId) : Prop :=
  ∃ i sp, next.pool? = some i ∧ p.pools[i]? = some sp ∧ id ∈ sp.connections.map (·.2.session)

/-- What a step of a start can do to the process. -/
inductive Did [Toml.Parser] (p : Process σ) :
    Startup → Except Error (Startup ⊕ PoolId) → Process σ → Prop where
  | resolved {source : Source} {updateSchema : Bool} {options : Options} {p' : Process σ} :
      outcome (resolveFrom source) p = (.ok options, p') →
      Did p (.resolve source updateSchema)
        (.ok (.inl (.connect options ⟨updateSchema, none, none⟩))) p'
  | unresolved {source : Source} {updateSchema : Bool} {e : Error} {p' : Process σ} :
      outcome (resolveFrom source) p = (.error e, p') →
      Did p (.resolve source updateSchema) (.error e) p'
  | connected {options : Options} {settings : StartSettings} {sp : ServicePool} {p' : Process σ} :
      outcome (Process.connect options settings.poolSize) p = (.ok p.pools.length, p') →
      p.Extended options p' sp → settings.updateSchema = true →
      Did p (.connect options settings)
        (.ok (.inl (.locate p.pools.length settings.migrationsDir))) p'
  /-- Without an update of the schema the service is ready as soon as its pool is. -/
  | ready {options : Options} {settings : StartSettings} {sp : ServicePool} {p' : Process σ} :
      outcome (Process.connect options settings.poolSize) p = (.ok p.pools.length, p') →
      p.Extended options p' sp → settings.updateSchema = false →
      Did p (.connect options settings) (.ok (.inr p.pools.length)) p'
  | unconnected {options : Options} {settings : StartSettings} {e : Error} {p' : Process σ} :
      outcome (Process.connect options settings.poolSize) p = (.error e, p') →
      Did p (.connect options settings) (.error e) p'
  | located {i : PoolId} {dir? : Option Path} {dir : Path} {p' : Process σ} :
      outcome (locateMigrations dir?) p = (.ok dir, p') →
      Did p (.locate i dir?) (.ok (.inl (.migrate i dir .arriving))) p'
  | unlocated {i : PoolId} {dir? : Option Path} {e : Error} {p' : Process σ} :
      outcome (locateMigrations dir?) p = (.error e, p') →
      Did p (.locate i dir?) (.error e) (p'.closeConnections i)
  | moved {i : PoolId} {dir : Path} {u u' : Updating} {sp : ServicePool} {m : Machine} :
      u.Next u' → p.pools[i]? = some sp → ServicePool.Reserved { sp with machine := m } u' →
      Did p (.migrate i dir u) (.ok (.inl (.migrate i dir u'))) (p.withMachine i sp m)
  | updated {i : PoolId} {dir : Path} {conn : Connection} {st : σ}
      {result : Except Migration.Error Nat} {log : List Event} :
      p.connection? i 0 = some conn →
      Migration.update p.host.files p.host.clock dir conn p.host.store = (st, result, log) →
      Did p (.migrate i dir (.lent 0)) (.ok (.inl (.migrate i dir (.updated 0 result))))
        { p with
          host := { p.host with store := st }.later log.length
          log := p.log ++ log }
  | migrated {i : PoolId} {dir : Path} {k : Nat} :
      Did p (.migrate i dir (.returning 0 1 (.ok k))) (.ok (.inr i)) p
  | unmigrated {i : PoolId} {dir : Path} {e : Migration.Error} {log : List Event} :
      Did p (.migrate i dir (.returning 0 1 (.error e))) (.error (.migration e))
        (closeConnections { p with log := log } i)

section Steps

variable [Toml.Parser]

theorem did_of_resolve (source : Source) (us : Bool) :
    ∃ r p', (Startup.resolve source us).advance p = some (r, p') ∧
      Did p (.resolve source us) r p' := by
  simp only [advance, outcome_bind]
  rcases hres : outcome (resolveFrom source) p with ⟨e | options, p₁⟩
  · exact ⟨_, _, rfl, .unresolved hres⟩
  · exact ⟨_, _, rfl, .resolved hres⟩

theorem did_of_connect (options : Options) (settings : StartSettings) :
    ∃ r p', (Startup.connect options settings).advance p = some (r, p') ∧
      Did p (.connect options settings) r p' := by
  simp only [advance, outcome_bind]
  rcases hcon : outcome (Process.connect options settings.poolSize) p with ⟨e | i, p₁⟩
  · exact ⟨_, _, rfl, .unconnected hcon⟩
  · obtain ⟨rfl, sp, hext⟩ := Process.connect_ok hcon
    obtain ⟨us, size, dir?⟩ := settings
    cases us with
    | true => exact ⟨_, _, rfl, .connected hcon hext rfl⟩
    | false => exact ⟨_, _, rfl, .ready hcon hext rfl⟩

theorem did_of_locate (i : PoolId) (dir? : Option Path) :
    ∃ r p', (Startup.locate i dir?).advance p = some (r, p') ∧ Did p (.locate i dir?) r p' := by
  simp only [advance, outcome_bind, outcome_orAbandon]
  rcases hloc : outcome (locateMigrations dir?) p with ⟨e | dir, p₁⟩
  · exact ⟨_, _, rfl, .unlocated hloc⟩
  · exact ⟨_, _, rfl, .located hloc⟩

theorem did_of_migrate {u : Updating} (hi : p.pools[i]? = some sp) (hu : u.IsFirst)
    (hs : sp.Reserved u) :
    ∃ r p', (Startup.migrate i dir u).advance p = some (r, p') ∧ Did p (.migrate i dir u) r p' := by
  obtain ⟨capacity, n, hn, hle, hm, hkeys⟩ := hs
  cases u with
  | arriving =>
      obtain ⟨hbegun, hcall⟩ := beginCall_initial hi hm hn
      have hstep : (Startup.migrate i dir .arriving).advance p =
          some (.ok (.inl (.migrate i dir (.borrowing (p.beginCall i (.beginAcquire none)).2))),
            (p.beginCall i (.beginAcquire none)).1.settle i) := rfl
      rw [hbegun, hcall] at hstep
      exact ⟨_, _, hstep, .moved .called hi ⟨capacity, n, hn, hle, rfl, hkeys⟩⟩
  | borrowing call =>
      obtain rfl : call = 0 := hu
      have hstep : (Startup.migrate i dir (.borrowing 0)).advance p =
          some (.ok (.inl (.migrate i dir (.lent 0))), p.settle i) := by
        simp only [advance, Updating.advance, answer?_of_lentFirst hi hm, Option.map_some]
      rw [settle_of_lentFirst hi hm] at hstep
      have hdid : Did p (.migrate i dir (.borrowing 0)) (.ok (.inl (.migrate i dir (.lent 0))))
          (p.withMachine i sp sp.machine) := .moved .lent hi ⟨capacity, n, hn, hle, hm, hkeys⟩
      rw [withMachine_self hi] at hdid
      exact ⟨_, _, hstep, hdid⟩
  | lent c =>
      obtain rfl : c = 0 := hu
      obtain ⟨conn, hconn⟩ := exists_lookup_zero hn hkeys
      have hconn : p.connection? i 0 = some conn := (connection?_of_pool hi 0).trans hconn
      rcases hup : Migration.update p.host.files p.host.clock dir conn p.host.store with
        ⟨st, result, log⟩
      refine ⟨.ok (.inl (.migrate i dir (.updated 0 result))), _, ?_, .updated hconn hup⟩
      simp only [advance, Updating.advance, hconn, Option.map_some, hup]
      exact congrArg (fun q => some (_, q)) (settle_of_lentFirst (p := ⟨_, p.pools, _⟩) hi hm)
  | updated c result =>
      obtain rfl : c = 0 := hu
      obtain ⟨hbegun, hcall⟩ := beginCall_lentFirst hi hm
      have hstep : (Startup.migrate i dir (.updated 0 result)).advance p =
          some (.ok (.inl (.migrate i dir (.returning 0 (p.beginCall i (.beginRelease 0 false)).2
            result))), (p.beginCall i (.beginRelease 0 false)).1.settle i) := rfl
      rw [hbegun, hcall] at hstep
      exact ⟨_, _, hstep, .moved .returned hi ⟨capacity, n, hn, hle, rfl, hkeys⟩⟩
  | returning c call result =>
      obtain ⟨rfl, rfl⟩ : c = 0 ∧ call = 1 := hu
      cases result with
      | ok k =>
          refine ⟨_, _, ?_, .migrated⟩
          simp only [advance, Updating.advance, hasReleased_of_lentOnce hi hm, if_true,
            Updating.finish, Option.map_some]
      | error e =>
          have hstep : (Startup.migrate i dir (.returning 0 1 (.error e))).advance p =
              some (.error (.migration e), closeConnections
                { p with log := p.log ++ [.schemaUpdateFailed dir.display e.message] } i) := by
            simp only [advance, Updating.advance, hasReleased_of_lentOnce hi hm, if_true,
              Updating.finish, Option.map_some]
          exact ⟨_, _, hstep, .unmigrated⟩
  | returned result => cases hu

/-- **A start that has its pool for itself does not wait**, and does one of these things. -/
theorem exists_did (h : next.Owns p) : ∃ r p', next.advance p = some (r, p') ∧ Did p next r p' := by
  cases next with
  | resolve source us => exact did_of_resolve source us
  | connect options settings => exact did_of_connect options settings
  | locate i dir? => exact did_of_locate i dir?
  | migrate i dir u =>
      obtain ⟨hu, sp, hi, hs⟩ := h i rfl
      exact did_of_migrate hi hu hs

theorem did_of_advance (ho : next.Owns p) (h : next.advance p = some (r, p')) :
    Did p next r p' := by
  obtain ⟨r', p₁, hadv, hdid⟩ := exists_did ho
  obtain ⟨rfl, rfl⟩ := Prod.mk.inj (Option.some.inj (hadv.symm.trans h))
  exact hdid

/-! ## What a step does to the pools -/

theorem Did.length_le (h : Did p next r p') : p.pools.length ≤ p'.pools.length := by
  cases h with
  | resolved h | unresolved h => rw [(rest_of_resolveFrom h).2]
  | connected _ h _ | ready _ h _ =>
      rw [h.pools, List.length_append]
      exact Nat.le_add_right _ _
  | unconnected h => rw [(Process.connect_error h).1]
  | located h => rw [(rest_of_locateMigrations h).2]
  | unlocated h => rw [length_closeConnections, (rest_of_locateMigrations h).2]
  | moved _ _ _ => exact Nat.le_of_eq List.length_set.symm
  | updated _ _ => exact Nat.le_refl _
  | migrated => exact Nat.le_refl _
  | unmigrated => rw [length_closeConnections]

/-- The pools of others stay as they are. -/
theorem Did.others (h : Did p next r p') (hj : j < p.pools.length) (hne : next.pool? ≠ some j) :
    p'.pools[j]? = p.pools[j]? := by
  cases h with
  | resolved h | unresolved h => rw [(rest_of_resolveFrom h).2]
  | connected _ h _ | ready _ h _ => rw [h.pools, List.getElem?_append_left hj]
  | unconnected h => rw [(Process.connect_error h).1]
  | located h => rw [(rest_of_locateMigrations h).2]
  | unlocated h =>
      rw [pools_closeConnections_of_ne fun heq => hne (congrArg some heq.symm),
        (rest_of_locateMigrations h).2]
  | moved _ _ _ => exact List.getElem?_set_ne fun heq => hne (congrArg some heq)
  | updated _ _ => rfl
  | migrated => rfl
  | unmigrated => exact pools_closeConnections_of_ne fun heq => hne (congrArg some heq.symm)

/-- The pool that a start has after a step is the one from before, or a new one. -/
theorem Did.pool_cases (h : Did p next (.ok (.inl next')) p') (hi : next'.pool? = some i) :
    next.pool? = some i ∨ i = p.pools.length := by
  cases h with
  | resolved _ => cases hi
  | connected _ _ _ => exact Or.inr (Option.some.inj hi).symm
  | located _ | moved _ _ _ | updated _ _ => exact Or.inl hi

/-- And nobody else has used it. -/
theorem Did.owns (h : Did p next (.ok (.inl next')) p') (ho : next.Owns p) : next'.Owns p' := by
  intro i hi
  cases h with
  | resolved _ => cases hi
  | connected _ hext _ =>
      obtain rfl := Option.some.inj hi
      obtain ⟨capacity, n, hn, hle, hm, hkeys⟩ := hext.fresh
      exact ⟨trivial, _, hext.pool, capacity, n, hn, hle, hm, hkeys⟩
  | located h =>
      obtain ⟨-, sp, hsp, hs⟩ := ho i hi
      exact ⟨trivial, sp, by rwa [(rest_of_locateMigrations h).2], hs⟩
  | moved hnext hsp hs =>
      obtain rfl := Option.some.inj hi
      exact ⟨hnext.isFirst, _, withMachine_pool hsp, hs⟩
  | updated _ _ =>
      obtain ⟨-, hsp⟩ := ho i hi
      exact ⟨rfl, hsp⟩

/-- The pool of a service that is ready is there. -/
theorem Did.ready_lt (h : Did p next (.ok (.inr i)) p') (ho : next.Owns p) :
    i < p'.pools.length := by
  cases h with
  | ready _ hext _ =>
      rw [hext.pools, List.length_append]
      exact Nat.lt_succ_self _
  | migrated =>
      obtain ⟨-, sp, hsp, -⟩ := ho i rfl
      exact (List.getElem?_eq_some_iff.mp hsp).1

/-! ## What a step does to the sessions -/

omit [Toml.Parser] in
/-- An update ends no session and begins none. -/
theorem isSome_standing_update (laws : R.Sessions) (files : FileTree) (clock : Nat → String)
    (dir : Path) (conn : Connection) (st : σ) (id : SessionId) :
    (R.standing (Migration.update files clock dir conn st).1 id).isSome =
      (R.standing st id).isSome :=
  Migration.update_keep (P := fun a => (R.standing a id).isSome = (R.standing st id).isSome)
    (fun ha hact => (laws.acts id hact).trans ha) rfl

/-- What a start has opened, before a step or in it, its pool has after the step. -/
theorem Did.holds (laws : R.Sessions) {id : SessionId} (h : Did p next (.ok (.inl next')) p')
    (hid : next.Holds p id ∨ NewSession R p p' id) : next'.Holds p' id := by
  have same : p'.host = p.host → ¬ NewSession R p p' id := by
    rintro hhost ⟨hnone, hsome⟩
    rw [hhost, hnone] at hsome
    cases hsome
  cases h with
  | resolved h =>
      obtain ⟨i, sp, hi, -⟩ | hnew := hid
      · cases hi
      · exact absurd hnew (same (rest_of_resolveFrom h).1)
  | @connected options settings sp p' _ hext _ =>
      obtain ⟨i, sp, hi, -⟩ | ⟨hnone, hsome⟩ := hid
      · cases hi
      · refine ⟨_, sp, rfl, hext.pool, ?_⟩
        by_contra hmem
        have hbegins := hext.opens.begins laws
        rw [hbegins.others id fun c hc heq => ?_] at hsome
        · exact absurd (hnone ▸ hsome) nofun
        · obtain ⟨e, he, rfl⟩ := List.mem_map.mp hc
          exact hmem (List.mem_map.mpr ⟨e, he, heq⟩)
  | located h =>
      obtain ⟨hhost, hpools⟩ := rest_of_locateMigrations h
      obtain ⟨i, sp, hi, hsp, hmem⟩ | hnew := hid
      · exact ⟨i, sp, hi, by rwa [hpools], hmem⟩
      · exact absurd hnew (same hhost)
  | moved _ hsp _ =>
      obtain ⟨i, sp', hi, hsp', hmem⟩ | hnew := hid
      · obtain rfl := Option.some.inj hi
        obtain rfl := Option.some.inj (hsp'.symm.trans hsp)
        exact ⟨_, _, rfl, withMachine_pool hsp, hmem⟩
      · exact absurd hnew (same rfl)
  | @updated _ dir conn st _ _ _ hup =>
      obtain hold | ⟨hnone, hsome⟩ := hid
      · exact hold
      · have hsame :=
          isSome_standing_update laws p.host.files p.host.clock dir conn p.host.store id
        rw [hup, hnone] at hsame
        exact absurd (hsome.symm.trans hsame) nofun

/-- **A start that fails leaves nothing open that it has opened.** -/
theorem Did.failed (laws : R.Sessions) {id : SessionId} {e : Error} (h : Did p next (.error e) p')
    (ho : next.Owns p) (hid : next.Holds p id ∨ R.standing p.host.store id = none) :
    R.standing p'.host.store id = none := by
  -- Of a pool that was built, every connection is closed.
  have closed : ∀ {q : Process σ} {i : PoolId}, q.host = p.host → q.pools = p.pools →
      next.pool? = some i → R.standing (q.closeConnections i).host.store id = none := by
    intro q i hhost hpools hi
    obtain ⟨-, sp, hsp, -⟩ := ho i hi
    rw [standing_closeConnections laws (by rwa [hpools])]
    split
    · rfl
    · next hnot =>
        rw [hhost]
        refine hid.resolve_left ?_
        rintro ⟨j, sp', hj, hsp', hmem⟩
        obtain rfl := Option.some.inj (hi.symm.trans hj)
        obtain rfl := Option.some.inj (hsp'.symm.trans hsp)
        exact hnot hmem
  cases h with
  | unresolved h =>
      rw [(rest_of_resolveFrom h).1]
      exact hid.resolve_left fun ⟨_, _, hi, _⟩ => nomatch hi
  | unconnected h =>
      have hbegins := (Process.connect_error h).2.begins laws
      rw [hbegins.others id nofun]
      exact hid.resolve_left fun ⟨_, _, hi, _⟩ => nomatch hi
  | unlocated h =>
      obtain ⟨hhost, hpools⟩ := rest_of_locateMigrations h
      exact closed hhost hpools rfl
  | unmigrated => exact closed rfl rfl rfl

end Steps

end Startup

end PooledStore.Service
