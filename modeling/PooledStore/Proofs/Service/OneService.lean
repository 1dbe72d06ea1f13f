import PooledStore.Proofs.Service.Story
import PooledStore.Proofs.Sql.World
import PooledStore.Toml.Document

/-!
# One service at a time

What any number of calls can rely on, however they interleave (`OneService`): at most one start
succeeds until the service is taken out of the slot; a start that fails leaves nothing; a connection
comes only from a service that has started as a whole; and a call is told that there is no service
exactly if the slot was empty when it looked. `Trace.oneService` says that every run is like that.
-/

set_option autoImplicit false

namespace PooledStore.Service.Lifecycle

open Config Log Pool

section

variable {σ κ υ : Type} [Stores σ] [Toml.Parser] {R : Reading σ κ υ}
  {l₀ l l' : Lifecycle σ} {tr pre post : List (Transition σ)} {t : Transition σ} {v : Move σ}
  {i j : Nat} {c : GlobalCall} {host : Host σ}

/-! ## The slot -/

omit [Stores σ] [Toml.Parser] in
/-- What a step of a call means for the slot. -/
theorem slot_of_step {c' : GlobalCall} (hi : l.calls[i]? = some c) (hi' : l'.calls[i]? = some c')
    (h : c'.hasStarted.toNat + l.slot.isSome.toNat =
      (c.isToShutDown && l.slot.isSome).toNat + l'.slot.isSome.toNat) :
    (Transition.succeeds ⟨l, .step i, l'⟩).toNat + l.slot.isSome.toNat =
      (Transition.takes ⟨l, .step i, l'⟩).toNat + l'.slot.isSome.toNat := by
  simp only [Transition.succeeds, Transition.takes, hi, hi', Option.any_some]
  exact h

/-- A look at the slot takes the service, or leaves the slot as it is. -/
theorem Look.slot {s : Stage} {slot : Option PoolId} {p : Process σ} (hlook : Look l c s slot p)
    (hs : Story tr i c) :
    ({ c with stage := s } : GlobalCall).hasStarted.toNat + l.slot.isSome.toNat =
      (c.isToShutDown && l.slot.isSome).toNat + slot.isSome.toNat := by
  cases hlook with
  | refused _ hslot | missing _ hslot | found _ hslot | idle _ hslot | taken _ hslot =>
      rw [hslot]
      rfl
  | served =>
      cases hs with
      | acquiring _ => rfl
  | unserved hr =>
      cases hs with
      | acquiring _ => rfl
  | closed =>
      cases hs with
      | closing => rfl

/-- A transition fills the slot by a start that succeeds, and empties it by a shutdown that takes
the service. -/
theorem Change.slot (h : Change l v l') (hl : l.Sound)
    (hs : ∀ {i c}, l.calls[i]? = some c → Story tr i c) :
    (Transition.succeeds ⟨l, v, l'⟩).toNat + l.slot.isSome.toNat =
      (Transition.takes ⟨l, v, l'⟩).toNat + l'.slot.isSome.toNat := by
  have set_self : ∀ {i : Nat} {c c' : GlobalCall}, l.calls[i]? = some c →
      (l.calls.set i c')[i]? = some c' :=
    fun hi => List.getElem?_set_self (List.getElem?_eq_some_iff.mp hi).1
  cases h with
  | called | outside => rfl
  | @driven v pool f hv _ =>
      cases v with
      | step i => exact absurd rfl (hv i)
      | _ => rfl
  | looked hi hlook => exact slot_of_step hi (set_self hi) (hlook.slot (hs hi))
  | begun hi _ hslot => exact slot_of_step hi (set_self hi) rfl
  | advanced hi _ =>
      obtain ⟨source, us, rfl⟩ := (hs hi).asked
      exact slot_of_step hi (set_self hi) rfl
  | installed hi _ =>
      obtain ⟨source, us, rfl⟩ := (hs hi).asked
      have hempty := hl.empty _ ((hl.lock _).mpr ⟨_, stage?_eq hi⟩)
      refine slot_of_step hi (set_self hi) ?_
      rw [hempty]
      rfl
  | failed hi _ =>
      obtain ⟨source, us, rfl⟩ := (hs hi).asked
      exact slot_of_step hi (set_self hi) rfl

/-- In every run the starts that succeed are the shutdowns that take a service, and one more while a
service is in the slot. -/
theorem Trace.count_succeeds (h : Trace (initial host) tr l) :
    tr.countP Transition.succeeds = tr.countP Transition.takes + l.slot.isSome.toNat := by
  induction h with
  | nil => rfl
  | @move tr l l' v h hv ih =>
      have hone := (apply_change hv).slot (h.sound (sound_initial host)) h.story
      have hcount : ∀ f : Transition σ → Bool, [(⟨l, v, l'⟩ : Transition σ)].countP f =
          (f ⟨l, v, l'⟩).toNat := by
        intro f
        rw [List.countP_singleton]
        cases f ⟨l, v, l'⟩ <;> rfl
      rw [List.countP_append, List.countP_append, hcount, hcount]
      omega

/-- Between two shutdowns that take a service at most one start succeeds. -/
theorem Trace.succeeds_once {mid : List (Transition σ)}
    (h : Trace (initial host) (pre ++ mid ++ post) l) (hmid : ∀ t ∈ mid, t.takes = false) :
    mid.countP Transition.succeeds ≤ 1 := by
  obtain ⟨l₂, h₂, -⟩ := h.split
  obtain ⟨l₁, h₁, -⟩ := h₂.split
  have hcount₁ := h₁.count_succeeds
  have hcount₂ := h₂.count_succeeds
  have hnone : mid.countP Transition.takes = 0 := by
    rw [List.countP_eq_zero]
    intro t ht
    rw [hmid t ht]
    exact nofun
  rw [List.countP_append, List.countP_append, hnone] at hcount₂
  have hle : l₂.slot.isSome.toNat ≤ 1 := Bool.toNat_le _
  omega

/-! ## Starts that find a service, and starts that fail -/

/-- A start that finds a service in the slot returns at once, whatever the process is like. -/
theorem refused_of_apply {source : Source} {us : Bool} {pool : PoolId}
    (hi : l.calls[i]? = some ⟨.start source us, .arriving⟩) (hs : l.slot = some pool)
    (h : l.apply (.step i) = some l') :
    l' = l.setStage i ⟨.start source us, .arriving⟩ (.returned (.failed .alreadyInitialized)) ∧
      ∀ p : Process σ, ({ l with process := p } : Lifecycle σ).apply (.step i) =
        some { l' with process := p } := by
  obtain ⟨process, slot, installed, lockedBy, calls⟩ := l
  obtain rfl : slot = some pool := hs
  have hi : calls[i]? = some ⟨.start source us, .arriving⟩ := hi
  simp only [apply, hi, Option.bind_some, stepCall] at h ⊢
  split at h
  · cases h
  · next hfree =>
      obtain rfl := Option.some.inj h
      refine ⟨rfl, fun p => ?_⟩
      rw [if_neg hfree]
      rfl

/-- A start that fails has found a service, or leaves the slot empty; and none of the sessions that
it opened is open. -/
theorem Trace.failed {source : Source} {us : Bool} {e : Error} (laws : R.Sessions)
    (h : Trace (initial host) tr l) (hv : l.apply (.step i) = some l')
    (hc : l'.calls[i]? = some ⟨.start source us, .returned (.failed e)⟩) :
    (l.stage? i = some .arriving ∧ l.slot ≠ none ∨ l'.slot = none) ∧
      ∀ u ∈ tr ++ [⟨l, .step i, l'⟩], u.move = .step i → ∀ id, u.opens R id →
        R.standing l'.process.host.store id = none := by
  have hl : l.Sound := h.sound (sound_initial host)
  have last : ∀ {b c : GlobalCall}, l.calls[i]? = some b → (l.calls.set i c)[i]? =
      some ⟨.start source us, .returned (.failed e)⟩ →
        c = ⟨.start source us, .returned (.failed e)⟩ := by
    intro b c hb hset
    rw [List.getElem?_set_self (List.getElem?_eq_some_iff.mp hb).1] at hset
    exact Option.some.inj hset
  cases apply_change hv with
  | @looked _ b s slot p hi hlook =>
      have hb := last hi hc
      have hstory := h.story hi
      cases hlook with
      | refused _ hslot =>
          refine ⟨Or.inl ⟨stage?_eq hi, by rw [hslot]; exact nofun⟩, fun u hu hmove id hid => ?_⟩
          cases hstory with
          | arriving hnone =>
              rcases List.mem_append.mp hu with hold | hnew
              · exact absurd hmove (hnone u hold)
              · obtain rfl := List.mem_singleton.mp hnew
                exact hid.1
      | unserved hr =>
          cases hstory with
          | acquiring _ => cases hb
      | _ => cases hb
  | begun hi _ _ => cases last hi hc
  | advanced hi _ => cases last hi hc
  | installed hi _ => cases last hi hc
  | @failed _ r next _ p hi hadv =>
      have hstage : l.stage? i = some (.starting next) := stage?_eq hi
      have hempty := hl.empty _ ((hl.lock _).mpr ⟨_, hstage⟩)
      have hdid := hl.did hstage hadv
      refine ⟨Or.inr hempty, fun u hu hmove id hid => ?_⟩
      rcases List.mem_append.mp hu with hold | hnew
      -- What it opened in earlier steps its pool has, and what it opened in this one is new.
      · exact hdid.failed laws (hl.owns i next hstage)
          (Or.inl (h.holds laws hstage u hold hmove id hid))
      · obtain rfl := List.mem_singleton.mp hnew
        exact hdid.failed laws (hl.owns i next hstage) (Or.inr hid.1)
  | driven hne _ => exact absurd rfl (hne i)

/-! ## Services that were in the slot -/

/-- A call that has returned stays as it is. -/
theorem Change.returned_kept {r : Request} {x : Response} (h : Change l v l')
    (hc : l.calls[j]? = some ⟨r, .returned x⟩) : l'.calls[j]? = some ⟨r, .returned x⟩ := by
  have other : ∀ {i : Nat} {b c : GlobalCall}, l.calls[i]? = some b →
      (∀ x, b.stage ≠ .returned x) → (l.calls.set i c)[j]? = some ⟨r, .returned x⟩ := by
    intro i b c hb hne
    have hij : i ≠ j := by
      rintro rfl
      rw [hc] at hb
      exact hne x (congrArg GlobalCall.stage (Option.some.inj hb)).symm
    rwa [List.getElem?_set_ne hij]
  cases h with
  | called =>
      have hlt := (List.getElem?_eq_some_iff.mp hc).1
      exact (List.getElem?_append_left hlt).trans hc
  | looked hi hlook => exact other hi (by cases hlook <;> exact fun _ => nofun)
  | begun hi _ _ => exact other hi fun _ => nofun
  | advanced hi _ => exact other hi fun _ => nofun
  | installed hi _ => exact other hi fun _ => nofun
  | failed hi _ => exact other hi fun _ => nofun
  | driven _ _ => exact hc
  | outside => exact hc

/-- Every pool that was ever in the slot is that of a service whose whole start has succeeded. -/
theorem Trace.installed {pool : PoolId} (h : Trace (initial host) tr l) (hp : pool ∈ l.installed) :
    ∃ k source us, l.calls[k]? = some ⟨.start source us, .returned .done⟩ ∧
      WholeStart tr k source us pool := by
  induction h with
  | nil => cases hp
  | @move tr l l' v h hv ih =>
      have hch := apply_change hv
      have before : pool ∈ l.installed →
          ∃ k source us, l'.calls[k]? = some ⟨.start source us, .returned .done⟩ ∧
            WholeStart (tr ++ [⟨l, v, l'⟩]) k source us pool := by
        intro hold
        obtain ⟨k, source, us, hk, hwhole⟩ := ih hold
        exact ⟨k, source, us, hch.returned_kept hk, hwhole.more⟩
      cases hch with
      | @installed i r next pool' p hi hadv =>
          rcases List.mem_append.mp hp with hold | hnew
          · exact before hold
          · obtain rfl := List.mem_singleton.mp hnew
            have hstory := h.story hi
            obtain ⟨source, us, rfl⟩ := hstory.asked
            have hdid := (h.sound (sound_initial host)).did (stage?_eq hi) hadv
            refine ⟨i, source, us, ?_, hstory.whole hdid⟩
            exact List.getElem?_set_self (List.getElem?_eq_some_iff.mp hi).1
      | _ => exact before hp

/-! ## Answers -/

/-- What the stage of an acquire call tells of what it saw in the slot. -/
theorem Story.saw {timeout : Option Time} {s : Stage}
    (hs : Story tr j ⟨.acquire timeout, s⟩) (hne : s ≠ .arriving) :
    ∃ slot, Saw tr j slot ∧ (s = .returned (.failed .notInitialized) ↔ slot = none) := by
  cases hs with
  | arriving _ => exact absurd rfl hne
  | acquiring hsaw => exact ⟨_, hsaw, nofun, nofun⟩
  | served hsaw => exact ⟨_, hsaw, nofun, nofun⟩
  | unserved hr hsaw =>
      refine ⟨_, hsaw, fun h => ?_, nofun⟩
      rcases hr with rfl | rfl <;> cases h
  | missing hsaw => exact ⟨_, hsaw, fun _ => rfl, fun _ => rfl⟩

/-- A call that was handed a connection of a pool saw that pool in the slot. -/
theorem Story.saw_pool {r : Request} {pool : PoolId} {conn : ConnId}
    (hs : Story tr j ⟨r, .returned (.connection pool conn)⟩) : Saw tr j (some pool) := by
  cases hs with
  | served hsaw => exact hsaw
  | unserved hr _ => rcases hr with h | h <;> cases h

/-- What holds of a run of the process-wide service, where `R` reads the sessions. -/
structure OneService (R : Reading σ κ υ) (tr : List (Transition σ)) (l : Lifecycle σ) :
    Prop where
  /-- Between two shutdowns that take a service at most one start succeeds. -/
  once : ∀ pre mid post, tr = pre ++ mid ++ post → (∀ t ∈ mid, t.takes = false) →
    mid.countP Transition.succeeds ≤ 1
  /-- A start that finds a service says so, and neither reads nor changes anything else. -/
  refused : ∀ t ∈ tr, ∀ i source us pool, t.move = .step i →
    t.before.calls[i]? = some ⟨.start source us, .arriving⟩ → t.before.slot = some pool →
    t.after = t.before.setStage i ⟨.start source us, .arriving⟩
        (.returned (.failed .alreadyInitialized)) ∧
      ∀ p : Process σ, ({ t.before with process := p } : Lifecycle σ).apply (.step i) =
        some { t.after with process := p }
  /-- Any other start that fails leaves the slot empty, and nothing open of what it opened. -/
  clean : ∀ pre t post i source us e, tr = pre ++ t :: post → t.move = .step i →
    t.after.calls[i]? = some ⟨.start source us, .returned (.failed e)⟩ →
    (t.looks i ∧ t.before.slot ≠ none ∨ t.after.slot = none) ∧
      ∀ u ∈ pre ++ [t], u.move = .step i → ∀ id, u.opens R id →
        R.standing t.after.process.host.store id = none
  /-- A connection is one of a service whose whole start succeeded before the call looked. -/
  whole : ∀ j r pool conn, l.calls[j]? = some ⟨r, .returned (.connection pool conn)⟩ →
    ∃ pre t post, tr = pre ++ t :: post ∧ t.looks j ∧ ∃ k source us,
      t.before.calls[k]? = some ⟨.start source us, .returned .done⟩ ∧
        WholeStart pre k source us pool
  /-- A call for a connection that got past its look saw an empty slot exactly if it was told that
  there is no service. -/
  answers : ∀ j timeout s, l.calls[j]? = some ⟨.acquire timeout, s⟩ → s ≠ .arriving →
    (∃ t ∈ tr, t.looks j) ∧ ∀ t ∈ tr, t.looks j → t.before.lockedBy = none ∧
      (s = .returned (.failed .notInitialized) ↔ t.before.slot = none)

/-- **There is one service at a time, wholly started or not at all**, however calls interleave. -/
theorem Trace.oneService (laws : R.Sessions) (h : Trace (initial host) tr l) :
    OneService R tr l where
  once pre mid post htr hmid := by
    subst htr
    exact h.succeeds_once hmid
  refused t ht i source us pool hmove hi hs := by
    obtain ⟨pre, post, rfl⟩ := List.append_of_mem ht
    have happly := h.upTo.2
    rw [hmove] at happly
    exact refused_of_apply hi hs happly
  clean pre t post i source us e htr hmove hc := by
    subst htr
    obtain ⟨before, move, after⟩ := t
    obtain rfl : move = .step i := hmove
    obtain ⟨hpre, happly⟩ := h.upTo
    have hfailed := hpre.failed laws happly hc
    refine ⟨hfailed.1.imp_left fun hlook => ⟨⟨rfl, hlook.1⟩, hlook.2⟩, hfailed.2⟩
  whole j r pool conn hj := by
    obtain ⟨⟨t, ht, hlook⟩, hall⟩ := (h.story hj).saw_pool
    have hslot := (hall t ht hlook).2
    obtain ⟨pre, post, rfl⟩ := List.append_of_mem ht
    have hpre := h.upTo.1
    have hsound := hpre.sound (sound_initial host)
    exact ⟨pre, t, post, rfl, hlook, hpre.installed (hsound.slot pool hslot)⟩
  answers j timeout s hj hne := by
    obtain ⟨slot, ⟨hex, hall⟩, hiff⟩ := (h.story hj).saw hne
    refine ⟨hex, fun t ht hlook => ?_⟩
    obtain ⟨hfree, rfl⟩ := hall t ht hlook
    exact ⟨hfree, hiff⟩

/-! A run of one start, which brings an empty store up to date, and of one call for a connection. -/

/-- The state after moves made one after the other, if they are possible. -/
def follow (l : Lifecycle σ) : List (Move σ) → Option (Lifecycle σ)
  | [] => some l
  | v :: vs => (l.apply v).bind fun l => l.follow vs

theorem Trace.cons {l₁ : Lifecycle σ} (hv : l.apply v = some l₁) (h : Trace l₁ tr l') :
    Trace l (⟨l, v, l₁⟩ :: tr) l' := by
  induction h with
  | nil => exact .move .nil hv
  | @move tr l₂ l₃ w _ hw ih => exact .move ih hw

theorem exists_trace {vs : List (Move σ)} (h : l.follow vs = some l') : ∃ tr, Trace l tr l' := by
  induction vs generalizing l with
  | nil =>
      obtain rfl : l = l' := Option.some.inj h
      exact ⟨[], .nil⟩
  | cons v vs ih =>
      obtain ⟨l₁, hv, h₁⟩ := Option.bind_eq_some_iff.mp h
      obtain ⟨tr, htr⟩ := ih h₁
      exact ⟨⟨l, v, l₁⟩ :: tr, .cons hv htr⟩

/-- The connection that a call was handed, with its pool. -/
def handed? (l : Lifecycle σ) (j : Nat) : Option (PoolId × ConnId) :=
  match l.calls[j]? with
  | some ⟨_, .returned (.connection pool conn)⟩ => some (pool, conn)
  | _ => none

end

/-- A host with one directory, which is for the database and for the migrations. -/
def oneDirectory : Host Sql.World where
  files := { cwd := [], nodes := [([Text.encode "d"], .directory 0o755)] }
  env := ⟨[(dataVariable, Text.encode "/d"), (migrationsVariable, Text.encode "/d")]⟩
  store := .isolated
  clock _ := "now"
  executable := Path.ofText "/bin/quire-server"
  parallelism := some 1
  runtimeFault := none

theorem oneService_oneDirectory : ∃ tr l, Trace (initial oneDirectory) tr l ∧
    OneService Sql.World.reading tr l ∧ l.slot = some 0 ∧
      ∃ (pre : List (Transition Sql.World)) (k : Nat) (source : Source) (us : Bool),
        WholeStart pre k source us 0 := by
  have hrun : (((initial oneDirectory).follow [.call (.start (.inline "" "") true), .step 0,
      .step 0, .step 0, .step 0, .step 0, .step 0, .step 0, .step 0, .step 0, .call (.acquire none),
      .step 1, .poolStep 0 2, .step 1]).map fun l => (l.slot, l.handed? 1)) =
        some (some 0, some (0, 0)) := by
    decide +kernel
  obtain ⟨l, hl, hend⟩ := Option.map_eq_some_iff.mp hrun
  obtain ⟨hslot, hhanded⟩ := Prod.mk.inj hend
  obtain ⟨tr, htr⟩ := exists_trace hl
  have hone := htr.oneService Sql.World.sessions
  refine ⟨tr, l, htr, hone, hslot, ?_⟩
  unfold handed? at hhanded
  split at hhanded
  · next r pool conn hcall =>
      obtain ⟨rfl, rfl⟩ := Prod.mk.inj (Option.some.inj hhanded)
      obtain ⟨pre, t, post, -, -, k, source, us, -, hwhole⟩ := hone.whole _ _ _ _ hcall
      exact ⟨pre, k, source, us, hwhole⟩
  · cases hhanded

end PooledStore.Service.Lifecycle
