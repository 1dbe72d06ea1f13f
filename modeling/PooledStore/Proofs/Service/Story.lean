import PooledStore.Proofs.Service.Lock

/-!
# Runs of the process-wide service

A run is a list of transitions (`Lifecycle.Trace`). From the stage of a call one can tell what the
call has done in the run so far (`Story`): a start that is under way has succeeded in all its steps
up to the present one; a call that got a connection has found the service in the slot when it
looked. The sessions that a start has opened belong to its pool (`Trace.holds`).
-/

set_option autoImplicit false

namespace PooledStore.Service

/-- The call has started the service. -/
def GlobalCall.hasStarted : GlobalCall → Bool
  | ⟨.start .., .returned .done⟩ => true
  | _ => false

/-- The call is about to take the service out of the slot. -/
def GlobalCall.isToShutDown : GlobalCall → Bool
  | ⟨.shutdown, .arriving⟩ => true
  | _ => false

namespace Lifecycle

open Config Log Pool

variable {σ κ υ : Type} {R : Reading σ κ υ}

/-! ## Runs -/

/-- One move, with the states around it. -/
structure Transition (σ : Type) where
  before : Lifecycle σ
  move : Move σ
  after : Lifecycle σ

namespace Transition

/-- The call `i` looks at the slot. -/
def looks (t : Transition σ) (i : Nat) : Prop :=
  t.move = .step i ∧ t.before.stage? i = some .arriving

/-- A session is opened. -/
def opens (R : Reading σ κ υ) (t : Transition σ) (id : SessionId) : Prop :=
  Process.NewSession R t.before.process t.after.process id

/-- A call that starts the service returns, and has succeeded. -/
def succeeds (t : Transition σ) : Bool :=
  match t.move with
  | .step i => t.after.calls[i]?.any GlobalCall.hasStarted
  | _ => false

/-- A call that shuts the service down takes it out of the slot. -/
def takes (t : Transition σ) : Bool :=
  match t.move with
  | .step i => t.before.calls[i]?.any GlobalCall.isToShutDown && t.before.slot.isSome
  | _ => false

end Transition

variable [Stores σ] [Toml.Parser]

/-- `Trace l₀ tr l`: from `l₀` the process gets to `l` by the transitions `tr`. -/
inductive Trace (l₀ : Lifecycle σ) : List (Transition σ) → Lifecycle σ → Prop where
  | nil : Trace l₀ [] l₀
  | move {tr : List (Transition σ)} {l l' : Lifecycle σ} {v : Move σ} :
      Trace l₀ tr l → l.apply v = some l' → Trace l₀ (tr ++ [⟨l, v, l'⟩]) l'

variable {l₀ l l' : Lifecycle σ} {tr tr' pre post : List (Transition σ)} {t : Transition σ}
  {v : Move σ}
  {i j : Nat} {c : GlobalCall}

theorem Trace.split (h : Trace l₀ (tr ++ tr') l) : ∃ l₁, Trace l₀ tr l₁ ∧ Trace l₁ tr' l := by
  generalize hall : tr ++ tr' = all at h
  induction h generalizing tr' with
  | nil =>
      obtain ⟨rfl, rfl⟩ := List.append_eq_nil_iff.mp hall
      exact ⟨l₀, .nil, .nil⟩
  | @move all l l' v h hv ih =>
      rcases List.eq_nil_or_concat tr' with rfl | ⟨rest, t, rfl⟩
      · rw [List.append_nil] at hall
        exact ⟨l', hall ▸ .move h hv, .nil⟩
      · rw [List.concat_eq_append, ← List.append_assoc] at hall
        obtain ⟨hrest, ht⟩ := List.append_inj' hall rfl
        obtain ⟨l₁, h₁, h₂⟩ := ih hrest
        obtain rfl := List.singleton_inj.mp ht
        exact ⟨l₁, h₁, by rw [List.concat_eq_append]; exact .move h₂ hv⟩

/-- The run up to a transition in it, and the transition. -/
theorem Trace.upTo (h : Trace l₀ (pre ++ t :: post) l) :
    Trace l₀ pre t.before ∧ t.before.apply t.move = some t.after := by
  rw [List.append_cons] at h
  obtain ⟨l₂, h₂, -⟩ := h.split
  generalize hall : pre ++ [t] = all at h₂
  cases h₂ with
  | nil => exact absurd hall (by simp)
  | @move tr l₁ l₂ v h₁ hv =>
      obtain ⟨rfl, ht⟩ := List.append_inj' hall rfl
      obtain rfl := List.singleton_inj.mp ht
      exact ⟨h₁, hv⟩

theorem Trace.sound (hl : l₀.Sound) (h : Trace l₀ tr l) : l.Sound := by
  induction h with
  | nil => exact hl
  | move _ hv ih => exact ih.change (apply_change hv)

/-! ## What a move does to the calls -/

theorem Change.length_calls (h : Change l v l') : l.calls.length ≤ l'.calls.length := by
  cases h with
  | called => exact Nat.le_of_lt (by rw [List.length_append]; exact Nat.lt_succ_self _)
  | looked _ _ | begun _ _ _ | advanced _ _ | installed _ _ | failed _ _ =>
      exact Nat.le_of_eq List.length_set.symm
  | driven _ _ | outside => exact Nat.le_refl _

/-- A call that makes no step stays where it is, or has just begun. -/
theorem Change.calls_other (h : Change l v l') (hj : v ≠ .step j) (hc : l'.calls[j]? = some c) :
    l.calls[j]? = some c ∨ j = l.calls.length ∧ ∃ r, c = ⟨r, .arriving⟩ := by
  have stepped : ∀ {i : Nat} {a b : GlobalCall}, (Move.step i : Move σ) ≠ .step j →
      (l.calls.set i a)[j]? = some b → l.calls[j]? = some b := by
    intro i a b hij hset
    rwa [List.getElem?_set_ne fun h => hij (congrArg Move.step h)] at hset
  cases h with
  | @called r =>
      rw [List.getElem?_append] at hc
      split at hc
      · exact Or.inl hc
      · next hlt =>
          obtain ⟨hk, hget⟩ := List.getElem?_eq_some_iff.mp hc
          have hk : j - l.calls.length < 1 := hk
          exact Or.inr ⟨by omega, r, by simpa using hget.symm⟩
  | looked _ _ | begun _ _ _ | advanced _ _ | installed _ _ | failed _ _ =>
      exact Or.inl (stepped hj hc)
  | driven _ _ | outside => exact Or.inl hc

/-- Only a call that has begun makes steps. -/
theorem Change.step_lt (h : Change l (.step i) l') : i < l.calls.length := by
  have lt : ∀ {c : GlobalCall}, l.calls[i]? = some c → i < l.calls.length :=
    fun hi => (List.getElem?_eq_some_iff.mp hi).1
  cases h with
  | looked hi _ => exact lt hi
  | begun hi _ _ => exact lt hi
  | advanced hi _ => exact lt hi
  | installed hi _ => exact lt hi
  | failed hi _ => exact lt hi
  | driven hv _ => exact absurd rfl (hv i)

theorem Trace.step_lt (h : Trace l₀ tr l) (ht : t ∈ tr) (hi : t.move = .step i) :
    i < l.calls.length := by
  induction h with
  | nil => cases ht
  | move _ hv ih =>
      have hlen := (apply_change hv).length_calls
      rcases List.mem_append.mp ht with hold | hnew
      · exact Nat.lt_of_lt_of_le (ih hold) hlen
      · obtain rfl := List.mem_singleton.mp hnew
        obtain rfl : _ = Move.step i := hi
        exact Nat.lt_of_lt_of_le (apply_change hv).step_lt hlen

/-- The pool of a start that is under way is touched by nobody else. -/
theorem Change.pool_kept {next : Startup} {pool : PoolId} (h : Change l v l') (hl : l.Sound)
    (hj : l.stage? j = some (.starting next)) (hp : next.pool? = some pool) (hv : v ≠ .step j) :
    l'.process.pools[pool]? = l.process.pools[pool]? := by
  have hnot := hl.apart j next pool hj hp
  have hlock := (hl.lock j).mpr ⟨next, hj⟩
  have alone : ∀ {i : Nat} {r : Request} {next' : Startup}, (Move.step i : Move σ) ≠ .step j →
      l.calls[i]? = some ⟨r, .starting next'⟩ → False := by
    intro i r next' hij hi
    exact hij (congrArg Move.step (hl.alone hj (stage?_eq hi)))
  cases h with
  | called => rfl
  | looked hi hlook => exact (hlook.quiet hl hi).others pool hnot
  | begun _ hfree _ =>
      rw [hfree] at hlock
      cases hlock
  | advanced hi _ => exact (alone hv hi).elim
  | installed hi _ => exact (alone hv hi).elim
  | failed hi _ => exact (alone hv hi).elim
  | driven _ hmem => exact (quiet_driven hmem).others pool hnot
  | outside => rfl

/-! ## What a call has done -/

/-- In the run the call `k` did this, with success. -/
def Did {α : Type} (tr : List (Transition σ)) (k : Nat) (action : Process.Action σ α) (x : α) :
    Prop :=
  ∃ t ∈ tr, t.move = .step k ∧
    Process.outcome action t.before.process = (.ok x, t.after.process)

/-- In the run the call `k` ran the migrations of a directory on a connection of the pool, with this
result. -/
def Updated (tr : List (Transition σ)) (k : Nat) (pool : PoolId) (dir : Path)
    (result : Except Migration.Error Nat) : Prop :=
  ∃ t ∈ tr, t.move = .step k ∧ ∃ c conn log, t.before.process.connection? pool c = some conn ∧
    Migration.update t.before.process.host.files t.before.process.host.clock dir conn
      t.before.process.host.store = (t.after.process.host.store, result, log)

/-- In the run the call `k` resolved the options of a source and connected a pool to the store. -/
def Connected (tr : List (Transition σ)) (k : Nat) (source : Source) (pool : PoolId) : Prop :=
  ∃ options, Did tr k (Process.resolveFrom source) options ∧
    Did tr k (Process.connect options none) pool

/-- In the run the whole start of a service by the call `k` succeeded: resolving the options,
connecting the pool, and, if it was asked for, finding the migrations and bringing the schema up to
date. -/
def WholeStart (tr : List (Transition σ)) (k : Nat) (source : Source) (updateSchema : Bool)
    (pool : PoolId) : Prop :=
  Connected tr k source pool ∧
    (updateSchema = true → ∃ dir n, Did tr k (Process.locateMigrations none) dir ∧
      Updated tr k pool dir (.ok n))

/-- The steps of a start before the given one have succeeded. -/
def Prepared (tr : List (Transition σ)) (k : Nat) (source : Source) (updateSchema : Bool) :
    Startup → Prop
  | .resolve source' us => source' = source ∧ us = updateSchema
  | .connect options settings =>
    settings = ⟨updateSchema, none, none⟩ ∧ Did tr k (Process.resolveFrom source) options
  | .locate pool dir? => updateSchema = true ∧ dir? = none ∧ Connected tr k source pool
  | .migrate pool dir u => updateSchema = true ∧ Connected tr k source pool ∧
      Did tr k (Process.locateMigrations none) dir ∧
      ∀ result, u.result? = some result → Updated tr k pool dir result

/-- In the run the call `j` looked at the slot once, when nobody held the lock, and saw this. -/
def Saw (tr : List (Transition σ)) (j : Nat) (slot : Option PoolId) : Prop :=
  (∃ t ∈ tr, t.looks j) ∧
    ∀ t ∈ tr, t.looks j → t.before.lockedBy = none ∧ t.before.slot = slot

/-- What the stage of the call `j` tells of the run. -/
inductive Story (tr : List (Transition σ)) (j : Nat) : GlobalCall → Prop where
  | arriving {r : Request} : (∀ t ∈ tr, t.move ≠ .step j) → Story tr j ⟨r, .arriving⟩
  | starting {source : Source} {updateSchema : Bool} {next : Startup} :
      Prepared tr j source updateSchema next →
      Story tr j ⟨.start source updateSchema, .starting next⟩
  | started {source : Source} {updateSchema : Bool} {pool : PoolId} :
      WholeStart tr j source updateSchema pool →
      Story tr j ⟨.start source updateSchema, .returned .done⟩
  | failed {source : Source} {updateSchema : Bool} {e : Error} :
      Story tr j ⟨.start source updateSchema, .returned (.failed e)⟩
  | acquiring {timeout : Option Time} {pool : PoolId} {call : Nat} :
      Saw tr j (some pool) → Story tr j ⟨.acquire timeout, .acquiring pool call⟩
  | served {timeout : Option Time} {pool : PoolId} {conn : ConnId} :
      Saw tr j (some pool) → Story tr j ⟨.acquire timeout, .returned (.connection pool conn)⟩
  | unserved {timeout : Option Time} {pool : PoolId} {r : Response} :
      r = .timedOut ∨ r = .failed (.pool .closed) → Saw tr j (some pool) →
      Story tr j ⟨.acquire timeout, .returned r⟩
  | missing {timeout : Option Time} :
      Saw tr j none → Story tr j ⟨.acquire timeout, .returned (.failed .notInitialized)⟩
  | closing {pool : PoolId} {call : Nat} : Story tr j ⟨.shutdown, .closing pool call⟩
  | shut : Story tr j ⟨.shutdown, .returned .done⟩

section More

variable {α : Type} {k : Nat} {action : Process.Action σ α} {x : α} {source : Source}
  {updateSchema : Bool} {pool : PoolId} {next : Startup} {slot : Option PoolId}

omit [Stores σ] [Toml.Parser] in
theorem Did.more (h : Did tr k action x) : Did (tr ++ [t]) k action x := by
  obtain ⟨u, hu, hdone⟩ := h
  exact ⟨u, List.mem_append_left _ hu, hdone⟩

omit [Toml.Parser] in
theorem Updated.more {dir : Path} {result : Except Migration.Error Nat}
    (h : Updated tr k pool dir result) : Updated (tr ++ [t]) k pool dir result := by
  obtain ⟨u, hu, hdone⟩ := h
  exact ⟨u, List.mem_append_left _ hu, hdone⟩

theorem Connected.more (h : Connected tr k source pool) : Connected (tr ++ [t]) k source pool := by
  obtain ⟨options, hres, hcon⟩ := h
  exact ⟨options, hres.more, hcon.more⟩

theorem WholeStart.more (h : WholeStart tr k source updateSchema pool) :
    WholeStart (tr ++ [t]) k source updateSchema pool := by
  refine ⟨h.1.more, fun hu => ?_⟩
  obtain ⟨dir, n, hdir, hn⟩ := h.2 hu
  exact ⟨dir, n, hdir.more, hn.more⟩

theorem Prepared.more (h : Prepared tr k source updateSchema next) :
    Prepared (tr ++ [t]) k source updateSchema next := by
  cases next with
  | resolve source' us => exact h
  | connect options us => exact ⟨h.1, h.2.more⟩
  | locate pool dir? => exact ⟨h.1, h.2.1, h.2.2.more⟩
  | migrate pool dir u =>
      obtain ⟨hus, hcon, hdir, hup⟩ := h
      exact ⟨hus, hcon.more, hdir.more, fun result hr => (hup result hr).more⟩

omit [Stores σ] [Toml.Parser] in
theorem Saw.more (h : Saw tr j slot) (ht : ¬ t.looks j) : Saw (tr ++ [t]) j slot := by
  obtain ⟨⟨u, hu, hlook⟩, hall⟩ := h
  refine ⟨⟨u, List.mem_append_left _ hu, hlook⟩, fun w hw hlook => ?_⟩
  rcases List.mem_append.mp hw with hold | hnew
  · exact hall w hold hlook
  · obtain rfl := List.mem_singleton.mp hnew
    exact absurd hlook ht

end More

/-- A call that makes no step has the same story afterwards. -/
theorem Story.other (hs : Story tr j c) (hv : v ≠ .step j) :
    Story (tr ++ [⟨l, v, l'⟩]) j c := by
  have hlook : ¬ (⟨l, v, l'⟩ : Transition σ).looks j := fun hlook => hv hlook.1
  -- What call `j` has seen it saw before.
  cases hs with
  | arriving hnone =>
      refine .arriving fun t ht => ?_
      rcases List.mem_append.mp ht with hold | hnew
      · exact hnone t hold
      · obtain rfl := List.mem_singleton.mp hnew
        exact hv
  | starting hprep => exact .starting hprep.more
  | started hwhole => exact .started hwhole.more
  | failed => exact .failed
  | acquiring hsaw => exact .acquiring (hsaw.more hlook)
  | served hsaw => exact .served (hsaw.more hlook)
  | unserved hr hsaw => exact .unserved hr (hsaw.more hlook)
  | missing hsaw => exact .missing (hsaw.more hlook)
  | closing => exact .closing
  | shut => exact .shut

omit [Stores σ] [Toml.Parser] in
/-- The first step of a call is its only look at the slot. -/
theorem saw_first {slot : Option PoolId} (hnone : ∀ t ∈ tr, t.move ≠ .step j)
    (hj : l.stage? j = some .arriving) (hfree : l.lockedBy = none) (hs : l.slot = slot) :
    Saw (tr ++ [⟨l, .step j, l'⟩]) j slot := by
  refine ⟨⟨_, List.mem_append_right _ List.mem_cons_self, rfl, hj⟩, fun t ht hlook => ?_⟩
  rcases List.mem_append.mp ht with hold | hnew
  · exact absurd hlook.1 (hnone t hold)
  · obtain rfl := List.mem_singleton.mp hnew
    exact ⟨hfree, hs⟩

theorem Story.look {s : Stage} {slot : Option PoolId} {p : Process σ}
    (hs : Story tr i c) (hi : l.calls[i]? = some c) (h : Look l c s slot p) :
    Story (tr ++ [⟨l, .step i, l'⟩]) i { c with stage := s } := by
  -- A call looks at the slot in its first step only.
  have later : ∀ {s : Stage}, c.stage = s → s ≠ .arriving →
      ¬ (⟨l, .step i, l'⟩ : Transition σ).looks i := by
    rintro s hc hne ⟨-, harr⟩
    rw [stage?_eq hi, hc] at harr
    exact hne (Option.some.inj harr)
  cases h with
  | refused _ _ => exact .failed
  | missing hfree hslot =>
      cases hs with
      | arriving hnone => exact .missing (saw_first hnone (stage?_eq hi) hfree hslot)
  | found hfree hslot =>
      cases hs with
      | arriving hnone => exact .acquiring (saw_first hnone (stage?_eq hi) hfree hslot)
  | idle _ _ => exact .shut
  | taken _ _ => exact .closing
  | served =>
      cases hs with
      | acquiring hsaw => exact .served (hsaw.more (later rfl nofun))
  | unserved hr =>
      cases hs with
      | acquiring hsaw => exact .unserved hr (hsaw.more (later rfl nofun))
  | closed =>
      cases hs with
      | closing => exact .shut

omit [Stores σ] [Toml.Parser] in
theorem did_last {α : Type} {action : Process.Action σ α} {x : α}
    (h : Process.outcome action l.process = (.ok x, l'.process)) :
    Did (tr ++ [⟨l, .step i, l'⟩]) i action x :=
  ⟨_, List.mem_append_right _ List.mem_cons_self, rfl, h⟩

/-- A step of a start that succeeds. -/
theorem Story.advance {r : Request} {next next' : Startup} (hs : Story tr i ⟨r, .starting next⟩)
    (hdid : next.Did l.process (.ok (.inl next')) l'.process) :
    Story (tr ++ [⟨l, .step i, l'⟩]) i ⟨r, .starting next'⟩ := by
  generalize hp : l'.process = p at hdid
  cases hs with
  | starting hprep =>
      refine .starting ?_
      cases hdid with
      | resolved hres =>
          subst hp
          obtain ⟨rfl, rfl⟩ := hprep
          exact ⟨rfl, did_last hres⟩
      | connected hcon _ hus =>
          subst hp
          obtain ⟨rfl, hres⟩ := hprep
          exact ⟨hus, rfl, _, hres.more, did_last hcon⟩
      | located hdir =>
          subst hp
          obtain ⟨hus, rfl, hcon⟩ := hprep
          exact ⟨hus, hcon.more, did_last hdir, nofun⟩
      | moved hnext _ _ =>
          obtain ⟨hus, hcon, hdir, hup⟩ := hprep
          refine ⟨hus, hcon.more, hdir.more, fun result hr => (hup result ?_).more⟩
          cases hnext with
          | called | lent => cases hr
          | returned => exact hr
      | @updated _ _ conn st _ log hconn hup =>
          obtain ⟨hus, hcon, hdir, -⟩ := hprep
          refine ⟨hus, hcon.more, hdir.more, fun result hr => ?_⟩
          obtain rfl := Option.some.inj hr
          have hstore : l'.process.host.store = st := by rw [hp]; rfl
          refine ⟨_, List.mem_append_right _ List.mem_cons_self, rfl, 0, conn, log, hconn, ?_⟩
          rw [hstore]
          exact hup

/-- Only a call that is to start the service is at a stage of a start. -/
theorem Story.asked {r : Request} {next : Startup} (hs : Story tr i ⟨r, .starting next⟩) :
    ∃ source updateSchema, r = .start source updateSchema := by
  cases hs with
  | starting _ => exact ⟨_, _, rfl⟩

/-- The last step of a start. -/
theorem Story.whole {source : Source} {us : Bool} {next : Startup} {pool : PoolId}
    (hs : Story tr i ⟨.start source us, .starting next⟩)
    (hdid : next.Did l.process (.ok (.inr pool)) l'.process) :
    WholeStart (tr ++ [⟨l, .step i, l'⟩]) i source us pool := by
  cases hs with
  | starting hprep =>
      generalize hp : l'.process = p at hdid
      cases hdid with
      | ready hcon _ hus =>
          subst hp
          obtain ⟨rfl, hres⟩ := hprep
          exact ⟨⟨_, hres.more, did_last hcon⟩, fun h => absurd (h.symm.trans hus) nofun⟩
      | migrated =>
          obtain ⟨-, hcon, hdir, hup⟩ := hprep
          exact ⟨hcon.more, fun _ => ⟨_, _, hdir.more, (hup _ rfl).more⟩⟩

theorem Story.step (hl : l.Sound) (hs : ∀ {c}, l.calls[i]? = some c → Story tr i c)
    (h : Change l (.step i) l') (hc : l'.calls[i]? = some c) :
    Story (tr ++ [⟨l, .step i, l'⟩]) i c := by
  have last : ∀ {a : Lifecycle σ} {b : GlobalCall} {s : Stage}, a.calls[i]? = some b →
      (a.setStage i b s).calls[i]? = some c → { b with stage := s } = c :=
    fun hb hset => Option.some.inj ((calls_setStage_self hb).symm.trans hset)
  cases h with
  | @looked _ b s slot p hi hlook =>
      have hi' : ({ l with process := p, slot := slot } : Lifecycle σ).calls[i]? = some b := hi
      obtain rfl := last hi' hc
      exact (hs hi).look hi hlook
  | @begun _ source us hi hfree hslot =>
      have hi' : ({ l with lockedBy := some i } : Lifecycle σ).calls[i]? = some _ := hi
      obtain rfl := last hi' hc
      exact .starting ⟨rfl, rfl⟩
  | @advanced _ r next next' p hi hadv =>
      have hi' : ({ l with process := p } : Lifecycle σ).calls[i]? = some _ := hi
      obtain rfl := last hi' hc
      exact (hs hi).advance (hl.did (stage?_eq hi) hadv)
  | @installed _ r next pool p hi hadv =>
      have hi' : (⟨p, some pool, l.installed ++ [pool], none, l.calls⟩ : Lifecycle σ).calls[i]? =
          some _ := hi
      obtain rfl := last hi' hc
      obtain ⟨source, us, rfl⟩ := (hs hi).asked
      exact .started ((hs hi).whole (hl.did (stage?_eq hi) hadv))
  | @failed _ r next e p hi hadv =>
      have hi' : ({ l with process := p, lockedBy := none } : Lifecycle σ).calls[i]? = some _ := hi
      obtain rfl := last hi' hc
      obtain ⟨source, us, rfl⟩ := (hs hi).asked
      exact .failed
  | driven hv _ => exact absurd rfl (hv i)

/-- **The stage of a call tells what it has done**, in every run. -/
theorem Trace.story {host : Host σ} (h : Trace (initial host) tr l) (hc : l.calls[j]? = some c) :
    Story tr j c := by
  induction h generalizing j c with
  | nil => cases hc
  | @move tr l l' v h hv ih =>
      have hl : l.Sound := h.sound (sound_initial host)
      have hch := apply_change hv
      by_cases hj : v = .step j
      · subst hj
        exact .step hl (fun hc => ih hc) hch hc
      · rcases hch.calls_other hj hc with hold | ⟨rfl, r, rfl⟩
        · exact (ih hold).other hj
        · refine .arriving fun t ht hmove => ?_
          rcases List.mem_append.mp ht with hold | hnew
          · exact Nat.lt_irrefl _ (h.step_lt hold hmove)
          · obtain rfl := List.mem_singleton.mp hnew
            exact hj hmove

/-! ## What a start has opened -/

/-- A call that is starting the service was at it before, or has just begun with it. -/
theorem Change.starting_cases {next' : Startup} (h : Change l (.step j) l')
    (hj : l'.stage? j = some (.starting next')) :
    (∃ next, l.stage? j = some (.starting next) ∧
        next.advance l.process = some (.ok (.inl next'), l'.process)) ∨
      l.stage? j = some .arriving ∧ l'.process = l.process := by
  cases h with
  | @looked _ c s slot p hi hlook =>
      have hi' : ({ l with process := p, slot := slot } : Lifecycle σ).calls[j]? = some c := hi
      rw [stage?_setStage_self hi'] at hj
      exact absurd (Option.some.inj hj) (hlook.not_starting next').2
  | begun hi _ _ => exact Or.inr ⟨stage?_eq hi, rfl⟩
  | @advanced _ r next next₁ p hi hadv =>
      have hi' : ({ l with process := p } : Lifecycle σ).calls[j]? = some _ := hi
      rw [stage?_setStage_self hi'] at hj
      obtain rfl := Stage.starting.inj (Option.some.inj hj)
      exact Or.inl ⟨next, stage?_eq hi, hadv⟩
  | @installed _ r next pool p hi hadv =>
      have hi' : (⟨p, some pool, l.installed ++ [pool], none, l.calls⟩ : Lifecycle σ).calls[j]? =
          some _ := hi
      rw [stage?_setStage_self hi'] at hj
      cases hj
  | @failed _ r next e p hi hadv =>
      have hi' : ({ l with process := p, lockedBy := none } : Lifecycle σ).calls[j]? = some _ := hi
      rw [stage?_setStage_self hi'] at hj
      cases hj
  | driven hv _ => exact absurd rfl (hv j)

/-- A call that makes no step and is starting the service was at the same stage before. -/
theorem Change.starting_kept {next : Startup} (h : Change l v l') (hv : v ≠ .step j)
    (hj : l'.stage? j = some (.starting next)) : l.stage? j = some (.starting next) := by
  obtain ⟨c, hc, hstage⟩ := Option.map_eq_some_iff.mp hj
  rcases h.calls_other hv hc with hold | ⟨-, r, rfl⟩
  · rw [stage?_eq hold, hstage]
  · cases hstage

/-- **What a start has opened, the pool has that it has built**, in every run. -/
theorem Trace.holds {host : Host σ} {next : Startup} (laws : R.Sessions)
    (h : Trace (initial host) tr l) (hj : l.stage? j = some (.starting next)) :
    ∀ t ∈ tr, t.move = .step j → ∀ id, t.opens R id → next.Holds l.process id := by
  induction h generalizing next with
  | nil =>
      intro t ht
      cases ht
  | @move tr l l' v h hv ih =>
      have hl : l.Sound := h.sound (sound_initial host)
      have hch := apply_change hv
      intro t ht hmove id hid
      by_cases hstep : v = .step j
      · subst hstep
        obtain ⟨next₀, hbefore, hadv⟩ | ⟨harr, hsame⟩ := hch.starting_cases hj
        · have hdid := hl.did hbefore hadv
          rcases List.mem_append.mp ht with hold | hnew
          · exact hdid.holds laws (Or.inl (ih hbefore t hold hmove id hid))
          · obtain rfl := List.mem_singleton.mp hnew
            exact hdid.holds laws (Or.inr hid)
        -- A start that has just begun has opened nothing.
        · rcases List.mem_append.mp ht with hold | hnew
          · obtain ⟨⟨r, stage⟩, hc, rfl⟩ := Option.map_eq_some_iff.mp harr
            cases h.story hc with
            | arriving hnone => exact absurd hmove (hnone t hold)
          · obtain rfl := List.mem_singleton.mp hnew
            obtain ⟨hnone, hsome⟩ := hid
            rw [hsame, hnone] at hsome
            cases hsome
      · have hbefore := hch.starting_kept hstep hj
        rcases List.mem_append.mp ht with hold | hnew
        · obtain ⟨pool, sp, hp, hsp, hmem⟩ := ih hbefore t hold hmove id hid
          exact ⟨pool, sp, hp, (hch.pool_kept hl hbefore hp hstep).trans hsp, hmem⟩
        · obtain rfl := List.mem_singleton.mp hnew
          exact absurd hmove hstep

end Lifecycle

end PooledStore.Service
