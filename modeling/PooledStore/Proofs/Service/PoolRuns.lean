import PooledStore.Proofs.Pool.Settling
import PooledStore.Proofs.Service.Story

/-!
# The pools of a process

Whatever a process does with the pool of a service that was in the slot, it does by moves of that
pool: in every run each of these pools is in a state that pools get into
(`Lifecycle.Trace.machine_reachable`), and between two states of the run it makes a run of its own
(`Lifecycle.Trace.machine_leads`). Conversely every run of the pool is part of one of the process
(`Lifecycle.exists_trace_of_leads`).
-/

set_option autoImplicit false

namespace PooledStore.Pool

/-! ## The first loan -/

theorem Machine.lentOnce_reachable {capacity n : Nat} (hn : 0 < n) (hc : n ≤ capacity) :
    (Machine.lentOnce capacity n).Reachable := by
  let mgr : Manager Unit Unit :=
    ⟨fun _ w => (w, .ok ()), fun _ _ => false, fun _ w => w, fun _ => ""⟩
  have moved : ∀ (m m' : Machine) (v : Move),
      Run.settle mgr (Run.perform mgr ⟨m, (), []⟩ v "") false = ⟨m', (), []⟩ → m.Leads m' := by
    intro m m' v h
    have hperform : m.Leads (Run.perform mgr ⟨m, (), []⟩ v "").machine :=
      Run.leads_perform (r := ⟨m, (), []⟩)
    have hsettle := Run.runsTo_settle mgr (Run.perform mgr ⟨m, (), []⟩ v "") false
    rw [h] at hsettle
    exact hperform.trans hsettle.leads
  have hfirst : (Machine.initial capacity n).Leads (Machine.lentFirst capacity n) :=
    moved _ _ _ (Run.lend_first hn)
  have hreturn : (Machine.lentFirst capacity n).Leads (Machine.lentOnce capacity n) :=
    moved _ _ _ Run.return_first
  exact (hfirst.trans hreturn).reachable (.start hn hc)

end PooledStore.Pool

namespace PooledStore.Service

open Config Log Pool

variable {σ : Type} [Stores σ]

/-- The pool in the state that a run has got it into. -/
def ServicePool.after (sp : ServicePool) (r : Run (Backing σ)) : ServicePool :=
  { sp with machine := r.machine, connections := r.world.connections }

namespace Process

variable {p p' : Process σ} {i j : PoolId} {m : Machine} {sp : ServicePool}
  {f : Manager (Backing σ) ConnectionError → Run (Backing σ) → Run (Backing σ)}

/-! ## What a process does with a pool -/

omit [Stores σ] in
theorem machine?_eq_some_iff : p.machine? i = some m ↔
    ∃ sp, p.pools[i]? = some sp ∧ sp.machine = m := by
  rw [machine?, Option.map_eq_some_iff]

omit [Stores σ] in
theorem machine?_congr (h : p'.pools[i]? = p.pools[i]?) : p'.machine? i = p.machine? i := by
  rw [machine?, h, machine?]

/-- The run of a pool that begins now. -/
def run (p : Process σ) (sp : ServicePool) : Run (Backing σ) :=
  ⟨sp.machine, ⟨p.host, sp.connections⟩, []⟩

theorem pools_drive_self (hi : p.pools[i]? = some sp) :
    (p.drive i f).pools[i]? = some (sp.after (f (manager sp.options) (p.run sp))) := by
  have hlt := (List.getElem?_eq_some_iff.mp hi).1
  simp only [drive, hi, List.getElem?_set_self hlt]
  rfl

theorem host_drive (hi : p.pools[i]? = some sp) :
    (p.drive i f).host = (f (manager sp.options) (p.run sp)).world.host := by
  simp only [drive, hi]
  rfl

/-- Driving a pool by its moves leaves the other pools as they are. -/
theorem machine?_drive (hf : ∀ mgr (r : Run (Backing σ)), r.machine.Leads (f mgr r).machine)
    (hm : p.machine? j = some m) : ∃ m', (p.drive i f).machine? j = some m' ∧ m.Leads m' := by
  by_cases hj : j = i
  · subst hj
    obtain ⟨sp, hsp, rfl⟩ := machine?_eq_some_iff.mp hm
    exact ⟨_, machine?_eq_some_iff.mpr ⟨_, pools_drive_self hsp, rfl⟩, hf _ (p.run sp)⟩
  · exact ⟨m, (machine?_congr (pools_drive_of_ne hj)).trans hm, .refl m⟩

theorem machine?_perform {v : Pool.Move} {cause : String} (hm : p.machine? j = some m) :
    ∃ m', (p.drive i fun mgr r => r.perform mgr v cause).machine? j = some m' ∧ m.Leads m' :=
  machine?_drive (fun _ _ => Run.leads_perform) hm

/-- A move that is possible is made. -/
theorem machine?_perform_self {v : Pool.Move} {m' : Machine} {ns : List Notice} {cause : String}
    (hm : p.machine? i = some m) (hv : m.apply v = some (m', ns)) :
    (p.drive i fun mgr r => r.perform mgr v cause).machine? i = some m' := by
  obtain ⟨sp, hsp, rfl⟩ := machine?_eq_some_iff.mp hm
  exact machine?_eq_some_iff.mpr
    ⟨_, pools_drive_self hsp, Run.perform_machine (r := p.run sp) hv⟩

end Process

namespace Startup

open Process

variable [Toml.Parser] {p p' : Process σ} {next : Startup} {i : PoolId}

/-- The pool of a service that is ready is in a state that pools get into. -/
theorem Did.ready_reachable (h : Did p next (.ok (.inr i)) p') (ho : next.Owns p) :
    ∃ m, p'.machine? i = some m ∧ m.Reachable := by
  cases h with
  | ready _ hext _ =>
      obtain ⟨capacity, n, hn, hle, hm, -⟩ := hext.fresh
      refine ⟨_, machine?_of_pool hext.pool, ?_⟩
      rw [hm]
      exact .start hn hle
  | migrated =>
      obtain ⟨-, sp, hsp, capacity, n, hn, hle, hm, -⟩ := ho i rfl
      exact ⟨_, machine?_of_pool hsp, hm ▸ Machine.lentOnce_reachable hn hle⟩

end Startup

namespace Lifecycle

variable [Toml.Parser] {host : Host σ} {l₀ l l' : Lifecycle σ} {tr : List (Transition σ)}
  {v : Move σ} {pool : PoolId} {m m' : Machine}

/-! ## What a run does with a pool -/

/-- A move makes moves of the pools of services that were in the slot. -/
theorem machine_leads_of_apply (hl : l.Sound) (hv : l.apply v = some l') (hp : pool ∈ l.installed)
    (hm : l.process.machine? pool = some m) :
    pool ∈ l'.installed ∧ ∃ m', l'.process.machine? pool = some m' ∧ m.Leads m' := by
  have same : l'.process.pools[pool]? = l.process.pools[pool]? →
      ∃ m', l'.process.machine? pool = some m' ∧ m.Leads m' := fun h =>
    ⟨m, (Process.machine?_congr h).trans hm, .refl m⟩
  -- A start that goes on has a pool of its own.
  have others : ∀ {i : Nat} {r : Request} {next : Startup} {x : Except Error (Startup ⊕ PoolId)}
      {p : Process σ}, l.calls[i]? = some ⟨r, .starting next⟩ →
      next.advance l.process = some (x, p) → p.pools[pool]? = l.process.pools[pool]? := by
    intro i r next x p hi hadv
    refine (hl.did (stage?_eq hi) hadv).others (hl.known pool hp) fun hnext => ?_
    exact hl.apart i next pool (stage?_eq hi) hnext hp
  cases v with
  | call r =>
      obtain rfl := Option.some.inj hv
      exact ⟨hp, same rfl⟩
  | poolStep pool' i =>
      simp only [apply] at hv
      split at hv
      · obtain rfl := Option.some.inj hv
        exact ⟨hp, Process.machine?_drive (fun _ _ => Run.runsTo_advanceCall.leads) hm⟩
      · cases hv
  | poolMove pool' v =>
      simp only [apply] at hv
      split at hv
      · obtain rfl := Option.some.inj hv
        exact ⟨hp, Process.machine?_perform hm⟩
      · cases hv
  | outside host =>
      obtain rfl := Option.some.inj hv
      exact ⟨hp, same rfl⟩
  | step i =>
      cases apply_change hv with
      | looked hi hlook =>
          refine ⟨hp, ?_⟩
          cases hlook with
          | found _ _ | taken _ _ => exact Process.machine?_perform hm
          | _ => exact same rfl
      | begun hi _ _ => exact ⟨hp, same rfl⟩
      | advanced hi hadv => exact ⟨hp, same (others hi hadv)⟩
      | installed hi hadv => exact ⟨List.mem_append_left _ hp, same (others hi hadv)⟩
      | failed hi hadv => exact ⟨hp, same (others hi hadv)⟩
      | driven hne _ => exact absurd rfl (hne i)

/-- Between two states of a run the pool of a service that was in the slot makes a run. -/
theorem Trace.machine_leads (h : Trace l₀ tr l) (hl : l₀.Sound) (hp : pool ∈ l₀.installed)
    (hm : l₀.process.machine? pool = some m) :
    pool ∈ l.installed ∧ ∃ m', l.process.machine? pool = some m' ∧ m.Leads m' := by
  induction h with
  | nil => exact ⟨hp, m, hm, .refl m⟩
  | move h hv ih =>
      obtain ⟨hp', m₁, hm₁, hleads⟩ := ih
      obtain ⟨hp'', m₂, hm₂, hleads'⟩ := machine_leads_of_apply (h.sound hl) hv hp' hm₁
      exact ⟨hp'', m₂, hm₂, hleads.trans hleads'⟩

/-- The pool of a service that was in the slot is in a state that pools get into. -/
theorem Trace.machine_reachable (h : Trace (initial host) tr l) (hp : pool ∈ l.installed) :
    ∃ m, l.process.machine? pool = some m ∧ m.Reachable := by
  induction h with
  | nil => cases hp
  | @move tr l l' v h hv ih =>
      have hl : l.Sound := h.sound (sound_initial host)
      have before : pool ∈ l.installed → ∃ m, l'.process.machine? pool = some m ∧ m.Reachable := by
        intro hold
        obtain ⟨m, hm, hreach⟩ := ih hold
        obtain ⟨-, m', hm', hleads⟩ := machine_leads_of_apply hl hv hold hm
        exact ⟨m', hm', hleads.reachable hreach⟩
      cases hch : apply_change hv with
      | @installed i r next pool' p hi hadv =>
          rcases List.mem_append.mp hp with hold | hnew
          · exact before hold
          · obtain rfl := List.mem_singleton.mp hnew
            exact (hl.did (stage?_eq hi) hadv).ready_reachable (hl.owns _ _ (stage?_eq hi))
      | _ => exact before hp

/-- Whatever the pool of a service that was in the slot can do, it can do in the process. -/
theorem exists_trace_of_leads (hp : pool ∈ l.installed) (hm : l.process.machine? pool = some m)
    (h : m.Leads m') : ∃ tr l', Trace l tr l' ∧ l'.process.machine? pool = some m' ∧
      pool ∈ l'.installed := by
  obtain ⟨trm, ht⟩ := h
  induction ht with
  | nil => exact ⟨[], l, .nil, hm, hp⟩
  | @move _ m₁ m₂ v ns _ hv ih =>
      obtain ⟨tr, l₁, htr, hm₁, hp₁⟩ := ih
      have happly : l₁.apply (.poolMove pool v) =
          some { l₁ with process := l₁.process.drive pool fun mgr r => r.perform mgr v "" } :=
        if_pos hp₁
      exact ⟨_, _, .move htr happly, Process.machine?_perform_self hm₁ hv, hp₁⟩

end Lifecycle

end PooledStore.Service
