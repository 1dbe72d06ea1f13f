import PooledStore.Proofs.Service.OneService
import PooledStore.Proofs.Service.PoolRuns

/-!
# What a shutdown waits for

A shutdown that finds a service takes it out of the slot and waits until its pool is closed; one
that finds the slot empty returns at once. So when a shutdown returns, each service that was there
before it began has been taken by exactly one shutdown, itself or another, and nothing is left of
the service if that one has returned (`Trace.shutdown_waits_iff`). While another shutdown still
waits, connections may be out (`not_forall_shutdown_noneOut`).
-/

set_option autoImplicit false

namespace PooledStore.Service

/-- The call has shut the service down, or has found none. -/
def GlobalCall.hasShutDown : GlobalCall → Bool
  | ⟨.shutdown, .returned .done⟩ => true
  | _ => false

theorem GlobalCall.hasShutDown_iff {c : GlobalCall} :
    c.hasShutDown = true ↔ c = ⟨.shutdown, .returned .done⟩ := by
  unfold hasShutDown
  split
  · exact ⟨fun _ => rfl, fun _ => rfl⟩
  · next hne => exact ⟨nofun, fun h => absurd h hne⟩

namespace Lifecycle

open Config Log Pool

section

variable {σ : Type} [Stores σ] [Toml.Parser] {host : Host σ} {l₀ l₁ l l' : Lifecycle σ}
  {tr₀ tr tr' : List (Transition σ)} {v : Move σ} {i j k : Nat} {pool : PoolId} {c : GlobalCall}
  {m : Machine}

/-! ## Runs one after the other, and the steps of one call -/

theorem Trace.append (h : Trace l₀ tr l₁) (h' : Trace l₁ tr' l) : Trace l₀ (tr ++ tr') l := by
  induction h' with
  | nil => rwa [List.append_nil]
  | move _ hv ih =>
      rw [← List.append_assoc]
      exact .move ih hv

/-- A call that makes no step stays where it is. -/
theorem Change.calls_kept (h : Change l v l') (hj : v ≠ .step j) (hc : l.calls[j]? = some c) :
    l'.calls[j]? = some c := by
  have hlt := (List.getElem?_eq_some_iff.mp hc).1
  have hget := List.getElem?_eq_getElem (Nat.lt_of_lt_of_le hlt h.length_calls)
  rcases h.calls_other hj hget with hold | ⟨rfl, -⟩
  · rw [hget, ← hold, hc]
  · exact absurd hlt (Nat.lt_irrefl _)

/-- What is asked for does not change. -/
theorem Change.request (h : Change l (.step j) l') (hc : l'.calls[j]? = some c) :
    ∃ b, l.calls[j]? = some b ∧ b.request = c.request := by
  have last : ∀ {b : GlobalCall} {s : Stage}, l.calls[j]? = some b →
      (l.calls.set j { b with stage := s })[j]? = some c →
        ∃ b, l.calls[j]? = some b ∧ b.request = c.request := by
    intro b s hb hset
    rw [List.getElem?_set_self (List.getElem?_eq_some_iff.mp hb).1] at hset
    obtain rfl := Option.some.inj hset
    exact ⟨b, hb, rfl⟩
  cases h with
  | looked hi _ => exact last hi hc
  | begun hi _ _ => exact last hi hc
  | advanced hi _ => exact last hi hc
  | installed hi _ => exact last hi hc
  | failed hi _ => exact last hi hc
  | driven hv _ => exact absurd rfl (hv j)

/-- A call that began in the run and got on has made its first step in the run. -/
theorem Trace.arrived (h : Trace l₀ tr l) (hj : l₀.calls.length ≤ j) (hc : l.calls[j]? = some c)
    (hne : c.stage ≠ .arriving) :
    ∃ t ∈ tr, t.move = .step j ∧ t.before.calls[j]? = some ⟨c.request, .arriving⟩ := by
  induction h generalizing c with
  | nil => exact absurd (List.getElem?_eq_some_iff.mp hc).1 (Nat.not_lt.mpr hj)
  | @move tr l l' v _ hv ih =>
      have earlier : ∀ {b : GlobalCall}, l.calls[j]? = some b → b.stage ≠ .arriving →
          ∃ t ∈ tr ++ [⟨l, v, l'⟩], t.move = .step j ∧
            t.before.calls[j]? = some ⟨b.request, .arriving⟩ := by
        intro b hb hbne
        obtain ⟨t, ht, hstep⟩ := ih hb hbne
        exact ⟨t, List.mem_append_left _ ht, hstep⟩
      by_cases hstep : v = .step j
      · subst hstep
        obtain ⟨⟨request, stage⟩, hb, rfl⟩ := (apply_change hv).request hc
        by_cases harr : stage = .arriving
        · subst harr
          exact ⟨_, List.mem_append_right _ List.mem_cons_self, rfl, hb⟩
        · exact earlier (b := ⟨c.request, stage⟩) hb harr
      · rcases (apply_change hv).calls_other hstep hc with hold | ⟨-, r, rfl⟩
        · exact earlier hold hne
        · exact absurd rfl hne

/-! ## Who takes a service -/

/-- In the run the call `k` took the service with this pool out of the slot, to shut it down. -/
def Took (tr : List (Transition σ)) (k : Nat) (pool : PoolId) : Prop :=
  ∃ t ∈ tr, t.move = .step k ∧ t.before.calls[k]? = some ⟨.shutdown, .arriving⟩ ∧
    t.before.slot = some pool

omit [Stores σ] [Toml.Parser] in
theorem Took.mono (h : Took tr k pool) (hsub : tr ⊆ tr') : Took tr' k pool := by
  obtain ⟨t, ht, htook⟩ := h
  exact ⟨t, hsub ht, htook⟩

omit [Stores σ] [Toml.Parser] in
theorem took_concat : Took (tr ++ [⟨l, v, l'⟩]) k pool ↔ Took tr k pool ∨
    v = .step k ∧ l.calls[k]? = some ⟨.shutdown, .arriving⟩ ∧ l.slot = some pool := by
  constructor
  · rintro ⟨t, ht, htook⟩
    rcases List.mem_append.mp ht with hold | hnew
    · exact Or.inl ⟨t, hold, htook⟩
    · obtain rfl := List.mem_singleton.mp hnew
      exact Or.inr htook
  · rintro (hold | hnew)
    · exact hold.mono (List.subset_append_left _ _)
    · exact ⟨_, List.mem_append_right _ List.mem_cons_self, hnew⟩

/-- A pool gets into the slot once, when it is new there. -/
theorem Sound.ready_new {next : Startup} {p : Process σ} {request : Request} (hl : l.Sound)
    (hi : l.calls[i]? = some ⟨request, .starting next⟩)
    (h : next.advance l.process = some (.ok (.inr pool), p)) :
    pool ∉ l.installed := by
  have hdid := hl.did (stage?_eq hi) h
  cases hdid with
  | ready _ _ _ => exact fun hmem => Nat.lt_irrefl _ (hl.known _ hmem)
  | migrated => exact hl.apart i _ pool (stage?_eq hi) rfl

/-- What a move does to the slot: nothing, or a shutdown empties it, or a start fills it with a pool
that is new. -/
theorem Change.slot_cases (h : Change l v l') (hl : l.Sound) :
    l'.installed = l.installed ∧ (l'.slot = l.slot ∨ l'.slot = none ∧ ∃ k, v = .step k ∧
      l.calls[k]? = some ⟨.shutdown, .arriving⟩) ∨
    ∃ pool, pool ∉ l.installed ∧ l'.installed = l.installed ++ [pool] ∧ l'.slot = some pool ∧
      l.slot = none := by
  cases h with
  | called | begun _ _ _ | advanced _ _ | failed _ _ | driven _ _ | outside =>
      exact Or.inl ⟨rfl, Or.inl rfl⟩
  | installed hi hadv =>
      have hempty := hl.empty _ ((hl.lock _).mpr ⟨_, stage?_eq hi⟩)
      exact Or.inr ⟨_, hl.ready_new hi hadv, rfl, rfl, hempty⟩
  | looked hi hlook =>
      refine Or.inl ⟨rfl, ?_⟩
      cases hlook with
      | taken _ _ => exact Or.inr ⟨rfl, _, rfl, hi⟩
      | refused _ hs | missing _ hs | found _ hs | idle _ hs => exact Or.inl hs.symm
      | _ => exact Or.inl rfl

theorem Change.installed_kept (h : Change l v l') (hl : l.Sound) (hp : pool ∈ l.installed) :
    pool ∈ l'.installed := by
  rcases h.slot_cases hl with ⟨heq, -⟩ | ⟨new, -, heq, -⟩
  · rwa [heq]
  · rw [heq]
    exact List.mem_append_left _ hp

theorem Change.installed_cases (h : Change l v l') (hl : l.Sound) (hp : pool ∈ l'.installed) :
    pool ∈ l.installed ∨ l'.slot = some pool := by
  rcases h.slot_cases hl with ⟨heq, -⟩ | ⟨new, -, heq, hs, -⟩
  · exact Or.inl (heq ▸ hp)
  · rw [heq] at hp
    rcases List.mem_append.mp hp with hold | hnew
    · exact Or.inl hold
    · obtain rfl := List.mem_singleton.mp hnew
      exact Or.inr hs

/-- Only a shutdown takes a pool out of the slot. -/
theorem Change.slot_left (h : Change l v l') (hl : l.Sound) (hs : l.slot = some pool) :
    l'.slot = some pool ∨ ∃ k, v = .step k ∧ l.calls[k]? = some ⟨.shutdown, .arriving⟩ := by
  rcases h.slot_cases hl with ⟨-, heq | ⟨-, hk⟩⟩ | ⟨new, -, -, -, hempty⟩
  · exact Or.inl (heq.trans hs)
  · exact Or.inr hk
  · exact absurd (hempty.symm.trans hs) nofun

/-- A pool that was in the slot before does not get there again. -/
theorem Change.slot_entered (h : Change l v l') (hl : l.Sound) (hp : pool ∈ l.installed)
    (hs : l'.slot = some pool) : l.slot = some pool := by
  rcases h.slot_cases hl with ⟨-, heq | ⟨hnone, -⟩⟩ | ⟨new, hnew, -, heq, -⟩
  · exact heq.symm.trans hs
  · exact absurd (hnone.symm.trans hs) nofun
  · exact absurd (Option.some.inj (heq.symm.trans hs) ▸ hp) hnew

/-- The first step of a shutdown leaves the slot empty; if it takes a service it waits for it. -/
theorem Change.shutdown_arrives (h : Change l (.step k) l')
    (hk : l.calls[k]? = some ⟨.shutdown, .arriving⟩) :
    l'.slot = none ∧ ∀ pool, l.slot = some pool →
      ∃ call, l'.calls[k]? = some ⟨.shutdown, .closing pool call⟩ := by
  have other : ∀ {c : GlobalCall}, l.calls[k]? = some c → c = ⟨.shutdown, .arriving⟩ :=
    fun hc => Option.some.inj (hc.symm.trans hk)
  cases h with
  | looked hi hlook =>
      cases hlook with
      | idle _ hs => exact ⟨rfl, fun pool hp => absurd (hs.symm.trans hp) nofun⟩
      | taken _ hs =>
          refine ⟨rfl, fun pool hp => ?_⟩
          obtain rfl := Option.some.inj (hs.symm.trans hp)
          exact ⟨_, List.getElem?_set_self (List.getElem?_eq_some_iff.mp hi).1⟩
      | _ => cases other hi
  | begun hi _ _ => cases other hi
  | advanced hi _ => cases other hi
  | installed hi _ => cases other hi
  | failed hi _ => cases other hi
  | driven hv _ => exact absurd rfl (hv k)

/-- Every service that was ever there is still in the slot, or one shutdown has taken it. -/
structure HandedOver (tr : List (Transition σ)) (l : Lifecycle σ) : Prop where
  somewhere : ∀ pool ∈ l.installed, l.slot = some pool ∨ ∃ k, Took tr k pool
  away : ∀ k pool, Took tr k pool → pool ∈ l.installed ∧ l.slot ≠ some pool
  once : ∀ i k pool, Took tr i pool → Took tr k pool → i = k

theorem HandedOver.change (ho : HandedOver tr l) (hl : l.Sound) (h : Change l v l') :
    HandedOver (tr ++ [⟨l, v, l'⟩]) l' := by
  -- A pool leaves the slot when a shutdown takes it, and no pool comes to the slot twice.
  refine ⟨fun pool hp => ?_, fun k pool hk => ?_, fun i k pool hi hk => ?_⟩
  · rcases h.installed_cases hl hp with hold | hnew
    · rcases ho.somewhere pool hold with hs | ⟨k, hk⟩
      · rcases h.slot_left hl hs with hstays | ⟨k, hv, hk⟩
        · exact Or.inl hstays
        · exact Or.inr ⟨k, took_concat.mpr (Or.inr ⟨hv, hk, hs⟩)⟩
      · exact Or.inr ⟨k, took_concat.mpr (Or.inl hk)⟩
    · exact Or.inl hnew
  · rcases took_concat.mp hk with hold | ⟨rfl, hcall, hs⟩
    · obtain ⟨hp, hne⟩ := ho.away k pool hold
      exact ⟨h.installed_kept hl hp, fun hs => hne (h.slot_entered hl hp hs)⟩
    · refine ⟨h.installed_kept hl (hl.slot pool hs), fun hs' => ?_⟩
      rw [(h.shutdown_arrives hcall).1] at hs'
      cases hs'
  · rcases took_concat.mp hi with hi' | ⟨hvi, -, hs⟩
    · rcases took_concat.mp hk with hk' | ⟨-, -, hs⟩
      · exact ho.once i k pool hi' hk'
      · exact absurd hs (ho.away i pool hi').2
    · rcases took_concat.mp hk with hk' | ⟨hvk, -, -⟩
      · exact absurd hs (ho.away k pool hk').2
      · exact Move.step.inj (hvi.symm.trans hvk)

theorem Trace.handedOver (h : Trace (initial host) tr l) : HandedOver tr l := by
  induction h with
  | nil =>
      refine ⟨nofun, ?_, ?_⟩
      · rintro k pool ⟨t, ht, -⟩
        cases ht
      · rintro i k pool ⟨t, ht, -⟩
        cases ht
  | move h hv ih => exact ih.change (h.sound (sound_initial host)) (apply_change hv)

/-! ## How far the call is that took it -/

omit [Toml.Parser] in
theorem emptied_of_leads {m' : Machine} (h : m.Leads m') (hm : m.Reachable) (he : m.Emptied) :
    m'.Emptied := by
  have key : m'.Accounts ∧ m'.Emptied := by
    refine h.keep (P := fun a => a.Accounts ∧ a.Emptied) ?_ ⟨hm.accounts, he⟩
    rintro w a b hv ⟨ha, he⟩
    exact ⟨ha.change hv, he.change hv ha⟩
  exact key.2

/-- A shutdown that waits goes on when its close call has returned, and then the pool is emptied. -/
theorem closed_of_apply {call : Nat} (h : l.apply (.step k) = some l')
    (hk : l.calls[k]? = some ⟨.shutdown, .closing pool call⟩)
    (hm : l.process.machine? pool = some m) (hr : m.Reachable) :
    l'.calls[k]? = some ⟨.shutdown, .returned .done⟩ ∧ l'.process.machine? pool = some m ∧
      m.Emptied := by
  have happly : l.stepCall k ⟨.shutdown, .closing pool call⟩ = some l' := by
    simpa only [apply, hk, Option.bind_some] using h
  simp only [stepCall] at happly
  split at happly
  · next hclosed =>
      obtain rfl := Option.some.inj happly
      refine ⟨calls_setStage_self hk, hm, hr.emptied ?_⟩
      rw [Process.hasClosed, hm, Option.bind_some] at hclosed
      split at hclosed
      · next hcall => exact ⟨_, List.mem_of_getElem? hcall, rfl⟩
      · cases hclosed
  · cases happly

/-- The shutdown that took a service waits for it, or has returned and the pool is emptied. -/
theorem Trace.taker (h : Trace (initial host) tr l) (hk : Took tr k pool) :
    (∃ call, l.calls[k]? = some ⟨.shutdown, .closing pool call⟩) ∨
      l.calls[k]? = some ⟨.shutdown, .returned .done⟩ ∧
        ∃ m, l.process.machine? pool = some m ∧ m.Emptied := by
  -- By induction over the run: who took the pool closes it, until its own step finds it emptied.
  induction h with
  | nil =>
      obtain ⟨t, ht, -⟩ := hk
      cases ht
  | @move tr l l' v h hv ih =>
      have hl : l.Sound := h.sound (sound_initial host)
      have hch := apply_change hv
      rcases took_concat.mp hk with hold | ⟨rfl, hcall, hs⟩
      · have hp := (h.handedOver.away k pool hold).1
        obtain ⟨m, hm, hr⟩ := h.machine_reachable hp
        rcases ih hold with ⟨call, hclosing⟩ | ⟨hret, m₁, hm₁, he⟩
        · by_cases hstep : v = .step k
          · subst hstep
            obtain ⟨hret, hm', he⟩ := closed_of_apply hv hclosing hm hr
            exact Or.inr ⟨hret, m, hm', he⟩
          · exact Or.inl ⟨call, hch.calls_kept hstep hclosing⟩
        · obtain rfl := Option.some.inj (hm₁.symm.trans hm)
          obtain ⟨-, m', hm', hleads⟩ := machine_leads_of_apply hl hv hp hm
          exact Or.inr ⟨hch.returned_kept hret, m', hm', emptied_of_leads hleads hr he⟩
      · exact Or.inl ((hch.shutdown_arrives hcall).2 pool hs)

/-! ## What a shutdown that returns leaves -/

/-- Nobody has a connection of the pool, now or later. -/
def NoneOut (l : Lifecycle σ) (pool : PoolId) : Prop :=
  ∀ tr l', Trace l tr l' → ∃ m, l'.process.machine? pool = some m ∧ m.held = []

/-- What the pool can still do decides it. -/
theorem noneOut_iff (hl : l.Sound) (hp : pool ∈ l.installed)
    (hm : l.process.machine? pool = some m) :
    l.NoneOut pool ↔ ∀ m', m.Leads m' → m'.held = [] := by
  constructor
  · intro h m' hleads
    obtain ⟨tr, l', htr, hm', -⟩ := exists_trace_of_leads hp hm hleads
    obtain ⟨m₁, hm₁, hheld⟩ := h tr l' htr
    obtain rfl := Option.some.inj (hm₁.symm.trans hm')
    exact hheld
  · intro h tr l' htr
    obtain ⟨-, m', hm', hleads⟩ := htr.machine_leads hl hp hm
    exact ⟨m', hm', h m' hleads⟩

/-- When a shutdown returns, every service that was there before it began has been taken. -/
theorem Trace.exists_took (h₀ : Trace (initial host) tr₀ l₀) (hp : pool ∈ l₀.installed)
    (h : Trace l₀ tr l) (hj : l₀.calls.length ≤ j)
    (hret : l.calls[j]? = some ⟨.shutdown, .returned .done⟩) : ∃ k, Took (tr₀ ++ tr) k pool := by
  obtain ⟨t, ht, hmove, hcall⟩ := h.arrived hj hret nofun
  obtain ⟨pre, post, rfl⟩ := List.append_of_mem ht
  obtain ⟨before, move, after⟩ := t
  obtain rfl : move = .step j := hmove
  -- After its look at the slot no service is there.
  obtain ⟨hpre, hv⟩ := h.upTo
  have hempty := ((apply_change hv).shutdown_arrives hcall).1
  have hupto : Trace l₀ (pre ++ [⟨before, .step j, after⟩]) after := .move hpre hv
  obtain ⟨m, hm, -⟩ := h₀.machine_reachable hp
  have hinst := (hupto.machine_leads (h₀.sound (sound_initial host)) hp hm).1
  rcases (h₀.append hupto).handedOver.somewhere pool hinst with hs | ⟨k, hk⟩
  · rw [hempty] at hs
    cases hs
  · refine ⟨k, hk.mono ?_⟩
    have hsplit : tr₀ ++ (pre ++ ⟨before, .step j, after⟩ :: post) =
        tr₀ ++ (pre ++ [⟨before, .step j, after⟩]) ++ post := by
      simp only [List.append_assoc, List.singleton_append]
    rw [hsplit]
    exact List.subset_append_left _ _

/-- **What is left of a service when a shutdown returns that began while the service was there, or
later.** One shutdown, this one or another, has taken the service out of the slot. It waits for the
pool to be emptied, and once it has returned nobody has a connection of the service or ever gets
one. As long as it waits in the closed pool, this is so exactly if nobody has one now and no call is
about to hand one out. -/
theorem Trace.shutdown_waits_iff (h₀ : Trace (initial host) tr₀ l₀) (hp : pool ∈ l₀.installed)
    (h : Trace l₀ tr l) (hj : l₀.calls.length ≤ j)
    (hret : l.calls[j]?.any GlobalCall.hasShutDown = true) :
    ∃ k m, (∀ i, Took (tr₀ ++ tr) i pool ↔ i = k) ∧ l.process.machine? pool = some m ∧
      ((∃ call, l.stage? k = some (.closing pool call)) ∨
        l.calls[k]?.any GlobalCall.hasShutDown = true) ∧
      (l.calls[k]?.any GlobalCall.hasShutDown = true → l.NoneOut pool) ∧
      (m.ledger.closed = true →
        (l.NoneOut pool ↔ m.held = [] ∧ ∀ x ∈ m.calls, x.offers = false)) := by
  have hall : Trace (initial host) (tr₀ ++ tr) l := h₀.append h
  have hl : l.Sound := hall.sound (sound_initial host)
  obtain ⟨c, hc, hdone⟩ := (Option.any_eq_true _ _).mp hret
  obtain rfl := GlobalCall.hasShutDown_iff.mp hdone
  obtain ⟨k, hk⟩ := h₀.exists_took hp h hj hc
  have ho := hall.handedOver
  have hinst := (ho.away k pool hk).1
  obtain ⟨m, hm, hr⟩ := hall.machine_reachable hinst
  -- A closed pool is spent exactly if nobody has a connection of it and no call is about to hand
  -- one out.
  have spent_iff : m.Spent ↔ l.NoneOut pool ∧ m.ledger.closed = true := by
    rw [noneOut_iff hl hinst hm]
    exact ⟨fun hs => ⟨(m.spent_iff hs.closed).mp hs, hs.closed⟩, fun h => (m.spent_iff h.2).mpr h.1⟩
  refine ⟨k, m, fun i => ⟨fun hi => ho.once i k pool hi hk, fun hi => hi ▸ hk⟩, hm, ?_, ?_, ?_⟩
  · rcases hall.taker hk with ⟨call, hclosing⟩ | ⟨hdone, -⟩
    · exact Or.inl ⟨call, stage?_eq hclosing⟩
    · exact Or.inr (by rw [hdone]; rfl)
  · intro hkret
    rcases hall.taker hk with ⟨call, hclosing⟩ | ⟨-, m₁, hm₁, he⟩
    · rw [hclosing] at hkret
      cases hkret
    · obtain rfl := Option.some.inj (hm₁.symm.trans hm)
      exact (spent_iff.mp (he.spent hr.accounts)).1
  · intro hclosed
    constructor
    · intro hnone
      have hs := spent_iff.mpr ⟨hnone, hclosed⟩
      exact ⟨hs.held, fun x hx => by simpa using List.countP_eq_zero.mp hs.offers x hx⟩
    · rintro ⟨hheld, hoffers⟩
      have hs : m.Spent := ⟨hclosed, hheld, List.countP_eq_zero.mpr fun x hx => by
        simp [hoffers x hx]⟩
      exact (spent_iff.mp hs).1

end

/-! A run in which one shutdown takes the service and waits for a borrower, and another finds the
slot empty. -/

/-- A service is started, a connection is borrowed, and a shutdown takes the service and waits. -/
def movesToWait : List (Move Sql.World) :=
  [.call (.start (.inline "" "") false), .step 0, .step 0, .step 0, .call (.acquire none), .step 1,
    .poolStep 0 0, .step 1, .call .shutdown, .step 2, .poolStep 0 1]

/-- Another shutdown finds the slot empty and returns. -/
def movesToPass : List (Move Sql.World) := [.call .shutdown, .step 3]

/-- The connection comes back, and the first shutdown returns. -/
def movesToEnd : List (Move Sql.World) :=
  [.poolMove 0 (.beginRelease 0 false), .poolStep 0 2, .poolStep 0 2, .poolStep 0 1, .poolStep 0 1,
    .poolStep 0 1, .step 2]

/-- The pool while its connection is out and the closer waits. -/
def awaited : Machine where
  capacity := 1
  ledger := ⟨[], 1, 0, true, [], 1⟩
  calls := [.acquire ⟨none, none, .returned (.connection 0)⟩, .close .asleep]
  held := [⟨0, false⟩]
  clock := 0
  opened := 1
  attempts := 1
  destroyed := []

/-- The pool when its connection has come back and the closer has returned. -/
def handedBack : Machine where
  capacity := 1
  ledger := ⟨[], 0, 0, true, [], 1⟩
  calls := [.acquire ⟨none, none, .returned (.connection 0)⟩, .close .returned,
    .release ⟨0, false, .returned⟩]
  held := []
  clock := 0
  opened := 1
  attempts := 1
  destroyed := [0]

/-- What is to be seen after the moves up to the wait, and after further moves. -/
def seenAfter? (vs : List (Move Sql.World)) : Option (List PoolId × Nat × Bool × Option Machine) :=
  ((initial oneDirectory).follow movesToWait).bind fun l₀ => (l₀.follow vs).map fun l =>
    (l₀.installed, l₀.calls.length, l.calls[3]?.any GlobalCall.hasShutDown, l.process.machine? 0)

theorem exists_run_of_seen {vs : List (Move Sql.World)} {m : Machine}
    (h : seenAfter? vs = some ([0], 3, true, some m)) :
    ∃ tr₀ l₀ tr l, Trace (initial oneDirectory) tr₀ l₀ ∧ 0 ∈ l₀.installed ∧ Trace l₀ tr l ∧
      l₀.calls.length ≤ 3 ∧ l.calls[3]?.any GlobalCall.hasShutDown = true ∧
        l.process.machine? 0 = some m := by
  obtain ⟨l₀, h₀, hmap⟩ := Option.bind_eq_some_iff.mp h
  obtain ⟨l, hl, hend⟩ := Option.map_eq_some_iff.mp hmap
  simp only [Prod.mk.injEq] at hend
  obtain ⟨hinst, hlen, hret, hm⟩ := hend
  obtain ⟨tr₀, htr₀⟩ := exists_trace h₀
  obtain ⟨tr, htr⟩ := exists_trace hl
  exact ⟨tr₀, l₀, tr, l, htr₀, by rw [hinst]; decide, htr, Nat.le_of_eq hlen, hret, hm⟩

theorem shutdown_waits_iff_oneDirectory :
    ∃ tr₀ l₀ tr l, Trace (initial oneDirectory) tr₀ l₀ ∧ 0 ∈ l₀.installed ∧ Trace l₀ tr l ∧
      l₀.calls.length ≤ 3 ∧ l.calls[3]?.any GlobalCall.hasShutDown = true ∧ l.NoneOut 0 := by
  have hrun : seenAfter? (movesToPass ++ movesToEnd) = some ([0], 3, true, some handedBack) := by
    decide
  obtain ⟨tr₀, l₀, tr, l, h₀, hp, h, hj, hret, hm⟩ := exists_run_of_seen hrun
  obtain ⟨k, m, -, hm', -, -, hiff⟩ := h₀.shutdown_waits_iff hp h hj hret
  obtain rfl := Option.some.inj (hm.symm.trans hm')
  exact ⟨tr₀, l₀, tr, l, h₀, hp, h, hj, hret, (hiff rfl).mpr ⟨rfl, by decide⟩⟩

/-- A shutdown can return while a connection of a service is out that was there before it began. -/
theorem not_forall_shutdown_noneOut :
    ¬ ∀ (host : Host Sql.World) (tr₀ tr : List (Transition Sql.World)) (l₀ l : Lifecycle Sql.World)
      (pool : PoolId) (j : Nat),
      Trace (initial host) tr₀ l₀ → pool ∈ l₀.installed → Trace l₀ tr l → l₀.calls.length ≤ j →
        l.calls[j]?.any GlobalCall.hasShutDown = true → l.NoneOut pool := by
  have hrun : seenAfter? movesToPass = some ([0], 3, true, some awaited) := by
    decide
  obtain ⟨tr₀, l₀, tr, l, h₀, hp, h, hj, hret, hm⟩ := exists_run_of_seen hrun
  intro hall
  obtain ⟨m, hm', hheld⟩ := hall oneDirectory tr₀ tr l₀ l 0 3 h₀ hp h hj hret [] l .nil
  obtain rfl := Option.some.inj (hm.symm.trans hm')
  cases hheld

end Lifecycle

end PooledStore.Service
