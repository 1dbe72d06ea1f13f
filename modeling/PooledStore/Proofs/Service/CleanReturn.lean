import Mathlib.Logic.Relation
import PooledStore.Proofs.Pool.Returning
import PooledStore.Proofs.Service.PoolRuns
import PooledStore.Proofs.Sql.Laws

/-!
# Updates return their connection clean

An update of the schema waits for a connection of a pool that others use at the same time: their
calls go on, they return connections and mark them, they close the pool, and what they do with their
own sessions changes the stores (`Updating.Step`). From the loan on the update waits for nobody.
Whatever comes of it, its connection goes back to the end of the idle ones, and is in no transaction
then, if it was in none when it was lent (`Updating.returns_clean`): the update leaves none open,
and until the connection is back nobody else has its session.
-/

set_option autoImplicit false

namespace PooledStore

variable {σ κ υ : Type} [Stores σ] {R : Reading σ κ υ}

/-- The session is open and in no transaction. -/
def Reading.Outside (R : Reading σ κ υ) (st : σ) (id : SessionId) : Prop :=
  ∃ s, R.standing st id = some s ∧ s.inside = false

namespace Service

open Config Log Pool

variable {options : Options} {b b' : Backing σ} {c c' : ConnId} {conn : Connection}

/-! ## What is behind a pool -/

/-- Every connection has an open session, and no other connection has the same one. -/
structure Backing.Apart (R : Reading σ κ υ) (b : Backing σ) : Prop where
  live : ∀ e ∈ b.connections, (R.standing b.host.store e.2.session).isSome = true
  nodup : (b.connections.map (·.2.session)).Nodup

/-- The connection is there under its identity, and in no transaction. -/
structure Backing.Lends (R : Reading σ κ υ) (b : Backing σ) (c : ConnId) (conn : Connection) :
    Prop where
  lookup : b.connections.lookup c = some conn
  outside : R.Outside b.host.store conn.session

namespace Backing.Apart

variable {host : Host σ}

theorem opened (sessions : R.Sessions) (h : b.Apart R)
    (hc : b.host.connect options Host.defaultBusyTimeout = (host, .ok conn)) :
    Backing.Apart R ⟨host, b.connections ++ [(c, conn)]⟩ := by
  have hbegun := Host.connect_ok sessions hc
  -- The session is new, and all others stay.
  have hne : ∀ e ∈ b.connections, e.2.session ≠ conn.session := by
    intro e he heq
    have hlive := h.live e he
    rw [heq, hbegun.new] at hlive
    cases hlive
  constructor
  · refine List.forall_mem_append.mpr ⟨fun e he => ?_, fun e he => ?_⟩
    · rw [hbegun.others _ (hne e he)]
      exact h.live e he
    · obtain rfl := List.mem_singleton.mp he
      obtain ⟨db, k, hidle, -⟩ := hbegun.idle
      exact Option.isSome_iff_exists.mpr ⟨_, hidle⟩
  · rw [List.map_append, List.nodup_append]
    refine ⟨h.nodup, List.nodup_singleton _, ?_⟩
    intro id hid j hj
    obtain ⟨e, he, rfl⟩ := List.mem_map.mp hid
    obtain rfl := List.mem_singleton.mp hj
    exact hne e he

theorem refused (sessions : R.Sessions) {e : ConnectionError} (h : b.Apart R)
    (hc : b.host.connect options Host.defaultBusyTimeout = (host, .error e)) :
    Backing.Apart R { b with host := host } :=
  ⟨fun e he => by
    rw [congrFun (Host.connect_error sessions hc) _]
    exact h.live e he, h.nodup⟩

theorem connect (sessions : R.Sessions) (h : b.Apart R) :
    ((manager options).connect c b).1.Apart R := by
  rcases hc : (manager options).connect c b with ⟨b', e | u⟩
  · obtain ⟨host, hcon, rfl⟩ := manager_connect_error hc
    exact h.refused sessions hcon
  · obtain ⟨host, conn, hcon, rfl⟩ := manager_connect_ok hc
    exact h.opened sessions hcon

omit [Stores σ] in
/-- No other connection has the session of this one. -/
theorem ne_of_mem (h : b.Apart R) (hl : b.connections.lookup c = some conn)
    {e : ConnId × Connection} (he : e ∈ b.connections) (hne : e.1 ≠ c) :
    e.2.session ≠ conn.session := by
  intro heq
  have hsame := List.inj_on_of_nodup_map h.nodup he (mem_of_lookup hl) heq
  exact hne (congrArg Prod.fst hsame)

theorem destroy (sessions : R.Sessions) (h : b.Apart R) :
    ((manager options).destroy c b).Apart R := by
  unfold manager
  dsimp only
  split
  · next conn hl =>
      constructor
      · intro e he
        obtain ⟨he, hne⟩ := List.mem_filter.mp he
        have hother := h.ne_of_mem hl he (by simpa using hne)
        show (R.standing (Stores.close conn b.host.store) e.2.session).isSome = true
        rw [sessions.close_other hother]
        exact h.live e he
      · exact h.nodup.sublist (List.filter_sublist.map _)
  · exact h

end Backing.Apart

namespace Backing.Lends

theorem connect (sessions : R.Sessions) (h : b.Lends R c conn) :
    ((manager options).connect c' b).1.Lends R c conn := by
  obtain ⟨s, hs, hin⟩ := h.outside
  rcases hc : (manager options).connect c' b with ⟨b', e | u⟩
  · obtain ⟨host, hcon, rfl⟩ := manager_connect_error hc
    exact ⟨h.lookup, s, (congrFun (Host.connect_error sessions hcon) _).trans hs, hin⟩
  · obtain ⟨host, new, hcon, rfl⟩ := manager_connect_ok hc
    refine ⟨?_, s, (Host.connect_ok sessions hcon).begins.kept hs, hin⟩
    rw [List.lookup_append, h.lookup]
    rfl

theorem lookup_filter {l : List (ConnId × Connection)} (h : l.lookup c = some conn)
    (hne : c' ≠ c) : (l.filter (·.1 != c')).lookup c = some conn := by
  induction l with
  | nil => cases h
  | cons e l ih =>
      rw [List.lookup_cons] at h
      by_cases he : e.1 = c'
      · have hc : (c == e.1) = false := by simpa [he] using Ne.symm hne
        rw [hc] at h
        rw [List.filter_cons, if_neg (by simp [he])]
        exact ih h
      · rw [List.filter_cons, if_pos (by simp [he]), List.lookup_cons]
        cases hc : c == e.1 with
        | true => rwa [hc] at h
        | false =>
            rw [hc] at h
            exact ih h

/-- Another connection is closed. -/
theorem destroy (sessions : R.Sessions) (ha : b.Apart R) (h : b.Lends R c conn) (hne : c' ≠ c) :
    ((manager options).destroy c' b).Lends R c conn := by
  unfold manager
  dsimp only
  split
  · next closed hl =>
      obtain ⟨s, hs, hin⟩ := h.outside
      have hother := ha.ne_of_mem hl (mem_of_lookup h.lookup) (Ne.symm hne)
      exact ⟨lookup_filter h.lookup hne, s, (sessions.close_other hother).trans hs, hin⟩
  · exact h

end Backing.Lends

/-- Connections that were opened one after the other are apart. -/
theorem Backing.Opens.apart (sessions : R.Sessions) {new : List (ConnId × Connection)}
    (h : b.Opens options new b') (ha : b.Apart R) : b'.Apart R := by
  induction h with
  | nothing => exact ha
  | opened _ hc ih => exact ih.opened sessions hc
  | refused _ hc ih => exact ih.refused sessions hc

/-! ## What the call has -/

namespace Updating

variable {u : Updating} {m m' : Machine} {v : Pool.Move} {ns : List Notice}

/-- The connection is in the hands of the call: the call was answered with it, and has not put it
back yet. -/
def Has (m : Machine) (c : ConnId) : Updating → Prop
  | .borrowing call => m.answer? call = some (.connection c)
  | .lent c' => c' = c
  | .updated c' _ => c' = c
  | .returning c' call _ => c' = c ∧ m.calls[call]? = some (.release ⟨c, false, .arriving⟩)
  | _ => False

/-- The pool knows that the call has its connection, unmarked, or that it returns it. -/
def Known (m : Machine) : Updating → Prop
  | .borrowing call => m.Holds call
  | .lent c => ⟨c, false⟩ ∈ m.held
  | .updated c _ => ⟨c, false⟩ ∈ m.held
  | .returning c call _ => ∃ phase, m.calls[call]? = some (.release ⟨c, false, phase⟩)
  | _ => True

theorem Known.apply (h : m.apply v = some (m', ns)) (hv : ∀ c, u.Has m c → v.Spares c)
    (hu : u.Known m) : u.Known m' := by
  have guarded : ∀ {c : ConnId}, v.Spares c → ⟨c, false⟩ ∈ m.held → ⟨c, false⟩ ∈ m'.held := by
    intro c hspares hg
    exact (Machine.apply_changes h).keep (P := fun a => (⟨c, false⟩ : Guard) ∈ a.held)
      (fun hc ha => hc.guard hspares ha) hg
  cases u with
  | arriving => trivial
  | borrowing call => exact Machine.Holds.apply h hv hu
  | lent c => exact guarded (hv c rfl) hu
  | updated c result => exact guarded (hv c rfl) hu
  | returning c call result =>
      exact (Machine.apply_changes h).keep
        (P := fun a => ∃ phase, a.calls[call]? = some (.release ⟨c, false, phase⟩))
        (fun hc ha => hc.release ha) hu
  | returned result => trivial

/-- The call returns the connection, or is over. -/
def Late (c : ConnId) : Updating → Prop
  | .returning c' _ _ => c' = c
  | .returned _ => True
  | _ => False

/-- A move takes the connection out of the call's hands only where it puts it back. -/
theorem Has.apply (hm : m.Reachable) (h : m.apply v = some (m', ns)) (hu : u.Has m c) :
    u.Has m' c ∨ u.Late c ∧ m.PutsBack m' c ∧ ns = [] := by
  cases u with
  | arriving => exact hu.elim
  | borrowing call => exact Or.inl (Machine.answer?_of_apply h hu)
  | lent c' => exact Or.inl hu
  | updated c' result => exact Or.inl hu
  | returning c' call result =>
      exact (Machine.return_cases hm h hu.2).imp (fun hi => ⟨hu.1, hi⟩) fun hback => ⟨hu.1, hback⟩
  | returned result => exact hu.elim

/-- What the call has is not destroyed. -/
theorem Has.alive (hm : m.Conserved) (hk : u.Known m) (hu : u.Has m c) : c ∉ m.destroyed := by
  have guarded : ⟨c, false⟩ ∈ m.held → c ∉ m.destroyed := fun hg =>
    hm.alive (Or.inl (List.mem_map_of_mem hg))
  cases u with
  | arriving => exact hu.elim
  | borrowing call => exact guarded (hk c hu)
  | lent c' =>
      obtain rfl : c' = c := hu
      exact guarded hk
  | updated c' result =>
      obtain rfl : c' = c := hu
      exact guarded hk
  | returning c' call result =>
      refine hm.alive (Or.inr (List.mem_flatMap.mpr ⟨_, List.mem_of_getElem? hu.2, ?_⟩))
      exact List.mem_cons_self
  | returned result => exact hu.elim

/-- The pool of the call is in a state that pools get into, its connections are apart, and it knows
of the call. -/
structure Safe (R : Reading σ κ υ) (u : Updating) (m : Machine) (b : Backing σ) : Prop where
  reachable : m.Reachable
  apart : b.Apart R
  known : u.Known m

/-- **A step leaves the pool safe**; and a connection that the call has stays in its hands or is put
back, and in no transaction if it was in none. -/
structure Keeps (R : Reading σ κ υ) (u : Updating) (m : Machine) (b : Backing σ) (u' : Updating)
    (m' : Machine) (b' : Backing σ) : Prop where
  safe : u'.Safe R m' b'
  hand : ∀ c conn, u.Has m c → b.Lends R c conn →
    (u'.Has m' c ∨ u'.Late c ∧ m.PutsBack m' c) ∧ b'.Lends R c conn

/-! ## What others do -/

variable {r : Run (Backing σ)} {cause : String}

theorem Safe.perform (options : Options) (cause : String) (sessions : R.Sessions)
    (h : u.Safe R r.machine r.world) (hv : ∀ c, u.Has r.machine c → v.Spares c) :
    u.Keeps R r.machine r.world u (r.perform (manager options) v cause).machine
      (r.perform (manager options) v cause).world := by
  cases happly : r.machine.apply v with
  | none =>
      simp only [Run.perform, happly]
      exact ⟨h, fun c conn hu hl => ⟨Or.inl hu, hl⟩⟩
  | some x =>
      obtain ⟨m', ns⟩ := x
      have hm : (r.perform (manager options) v cause).machine = m' := Run.perform_machine happly
      have hreachable : m'.Reachable := h.reachable.move happly
      have hknown : u.Known m' := h.known.apply happly hv
      refine ⟨⟨hm ▸ hreachable, ?_, hm ▸ hknown⟩, fun c conn hu hl => ?_⟩
      · exact Run.world_perform v (fun c _ w hw => hw.destroy sessions) h.apart
      · rw [hm]
        obtain hhas | ⟨hlate, hback, rfl⟩ := hu.apply h.reachable happly
        · refine ⟨Or.inl hhas, ?_⟩
          have hboth : (r.perform (manager options) v cause).world.Apart R ∧
              (r.perform (manager options) v cause).world.Lends R c conn := by
            refine Run.world_perform (P := fun w : Backing σ => w.Apart R ∧ w.Lends R c conn) v
              (fun c' hc' w hw => ?_) ⟨h.apart, hl⟩
            have hne : c' ≠ c := by
              rintro rfl
              rw [hm] at hc'
              exact hhas.alive hreachable.conserved hknown hc'
            exact ⟨hw.1.destroy sessions, hw.2.destroy sessions hw.1 hne⟩
          exact hboth.2
        · refine ⟨Or.inr ⟨hlate, hback⟩, ?_⟩
          simp only [Run.perform, happly]
          exact hl

theorem Safe.advanceCall (sessions : R.Sessions) (h : u.Safe R r.machine r.world) (k : Nat) :
    u.Keeps R r.machine r.world u (r.advanceCall (manager options) k).machine
      (r.advanceCall (manager options) k).world := by
  obtain ⟨v, w, cause, hown, hw, heq⟩ := Run.advanceCall_eq (manager options) r k
  have hspares : ∀ c, u.Has r.machine c → v.Spares c := fun _ _ => Move.spares_of_own hown
  rw [heq]
  obtain rfl | rfl := hw
  · exact h.perform options cause sessions hspares
  · have hsafe : u.Safe R r.machine ((manager options).connect r.machine.opened r.world).1 :=
      ⟨h.reachable, h.apart.connect sessions, h.known⟩
    obtain ⟨hsafe', hhand⟩ := Safe.perform
      (r := { r with world := ((manager options).connect r.machine.opened r.world).1 }) options
      cause sessions hsafe hspares
    exact ⟨hsafe', fun c conn hu hl => hhand c conn hu (hl.connect sessions)⟩

/-! ## What the call does -/

variable {p p' : Process σ} {i : PoolId} {dir : Path} {sp : ServicePool} {u' : Updating}

theorem exists_of_drive
    {f : Manager (Backing σ) ConnectionError → Run (Backing σ) → Run (Backing σ)}
    (hi : p.pools[i]? = some sp)
    (h : u.Keeps R sp.machine ⟨p.host, sp.connections⟩ u'
      (f (manager sp.options) (p.run sp)).machine (f (manager sp.options) (p.run sp)).world) :
    ∃ sp', (p.drive i f).pools[i]? = some sp' ∧ u.Keeps R sp.machine ⟨p.host, sp.connections⟩ u'
      sp'.machine ⟨(p.drive i f).host, sp'.connections⟩ := by
  refine ⟨_, Process.pools_drive_self hi, ?_⟩
  rw [Process.host_drive hi]
  exact h

omit [Stores σ] in
theorem getD_machine? (hi : p.pools[i]? = some sp) :
    ((p.machine? i).map (·.calls.length)).getD 0 = sp.machine.calls.length := by
  rw [Process.machine?_of_pool hi]
  rfl

/-- The call asks for a connection. -/
theorem Safe.called (sessions : R.Sessions)
    (h : Safe R .arriving sp.machine ⟨p.host, sp.connections⟩) :
    Keeps R .arriving sp.machine ⟨p.host, sp.connections⟩ (.borrowing sp.machine.calls.length)
      ((p.run sp).perform (manager sp.options) (.beginAcquire none) "").machine
      ((p.run sp).perform (manager sp.options) (.beginAcquire none) "").world := by
  obtain ⟨hsafe, -⟩ := Safe.perform (r := p.run sp) (v := .beginAcquire none) sp.options ""
    sessions h (fun c hc => hc.elim)
  refine ⟨⟨hsafe.reachable, hsafe.apart, fun c hc => ?_⟩, fun c conn hc => hc.elim⟩
  rw [Run.perform_machine (r := p.run sp) rfl] at hc
  simp [Process.run, Machine.answer?] at hc

/-- The call begins to return its connection. -/
theorem Safe.released (sessions : R.Sessions) {result : Except Migration.Error Nat}
    (h : Safe R (.updated c result) sp.machine ⟨p.host, sp.connections⟩) :
    Keeps R (.updated c result) sp.machine ⟨p.host, sp.connections⟩
      (.returning c sp.machine.calls.length result)
      ((p.run sp).perform (manager sp.options) (.beginRelease c false) "").machine
      ((p.run sp).perform (manager sp.options) (.beginRelease c false) "").world := by
  have hg : ⟨c, false⟩ ∈ sp.machine.held := h.known
  have happly : (p.run sp).machine.apply (.beginRelease c false) =
      some ({ sp.machine with
        held := sp.machine.held.erase ⟨c, false⟩
        calls := sp.machine.calls ++ [.release ⟨c, false, .arriving⟩] }, []) := by
    simp only [Process.run, Machine.apply, h.reachable.conserved.find?_held hg, Bool.or_self]
  have hcall : ((p.run sp).perform (manager sp.options) (.beginRelease c false) "").machine.calls[
      sp.machine.calls.length]? = some (.release ⟨c, false, .arriving⟩) := by
    rw [Run.perform_machine happly]
    exact List.getElem?_concat_length
  refine ⟨⟨?_, ?_, _, hcall⟩, fun c' conn hc hl => ?_⟩
  · exact Run.leads_perform.reachable h.reachable
  · exact Run.world_perform _ (fun c _ w hw => hw.destroy sessions) h.apart
  · obtain rfl : c = c' := hc
    refine ⟨Or.inl ⟨rfl, hcall⟩, ?_⟩
    simp only [Run.perform, happly]
    exact hl

/-- The call runs the migrations on its connection. -/
theorem Safe.migrated (sessions : R.Sessions) (laws : R.Transactional) {st : σ}
    {result : Except Migration.Error Nat} {log : List Event} {n : Nat}
    (hup : Migration.update p.host.files p.host.clock dir conn p.host.store = (st, result, log))
    (hl : sp.connections.lookup c = some conn)
    (h : Safe R (.lent c) sp.machine ⟨p.host, sp.connections⟩) :
    Keeps R (.lent c) sp.machine ⟨p.host, sp.connections⟩ (.updated c result) sp.machine
      ⟨{ p.host with store := st }.later n, sp.connections⟩ := by
  have hstore : st = (Migration.update p.host.files p.host.clock dir conn p.host.store).1 := by
    rw [hup]
  refine ⟨⟨h.reachable, ⟨fun e he => ?_, h.apart.nodup⟩, h.known⟩, fun c' conn' hc hlends => ?_⟩
  · show (R.standing st e.2.session).isSome = true
    rw [hstore]
    exact Migration.update_keep (P := fun a => (R.standing a e.2.session).isSome = true)
      (fun ha hact => (sessions.acts _ hact).trans ha) (h.apart.live e he)
  · obtain rfl : c = c' := hc
    obtain rfl := Option.some.inj (hl.symm.trans hlends.lookup)
    obtain ⟨s, hs, hin⟩ := hlends.outside
    obtain ⟨k, hk⟩ : ∃ k, R.Idle (Migration.update p.host.files p.host.clock dir conn
        p.host.store).1 conn.session s.database k :=
      Migration.update_idle laws _ (laws.idle hs hin)
    rw [← hstore] at hk
    exact ⟨Or.inl rfl, hlends.lookup, _, hk, rfl⟩

/-- **A step of the call leaves the pool safe**, and the connection in its hands. -/
theorem Safe.advance (sessions : R.Sessions) (laws : R.Transactional)
    (h : u.advance i dir p = some (p', u')) (hi : p.pools[i]? = some sp)
    (hs : u.Safe R sp.machine ⟨p.host, sp.connections⟩) :
    ∃ sp', p'.pools[i]? = some sp' ∧
      u.Keeps R sp.machine ⟨p.host, sp.connections⟩ u' sp'.machine ⟨p'.host, sp'.connections⟩ := by
  cases u with
  | arriving =>
      simp only [Updating.advance, Process.beginCall, getD_machine? hi, Option.some.injEq,
        Prod.mk.injEq] at h
      obtain ⟨rfl, rfl⟩ := h
      exact exists_of_drive hi (hs.called sessions)
  | borrowing call =>
      obtain ⟨ans, hans, hu⟩ := Option.map_eq_some_iff.mp h
      have hcall : sp.machine.answer? call = some ans := by
        rw [Process.answer?, Process.machine?_of_pool hi] at hans
        exact hans
      cases ans with
      | connection c =>
          obtain ⟨rfl, rfl⟩ := Prod.mk.inj hu
          refine ⟨sp, hi, ⟨hs.reachable, hs.apart, hs.known c hcall⟩, fun c' conn hc hl => ?_⟩
          have heq : some (Answer.connection c) = some (.connection c') := hcall.symm.trans hc
          cases heq
          exact ⟨Or.inl rfl, hl⟩
      | timedOut | closed =>
          obtain ⟨rfl, rfl⟩ := Prod.mk.inj hu
          refine ⟨sp, hi, ⟨hs.reachable, hs.apart, trivial⟩, fun c' conn hc hl => ?_⟩
          cases hcall.symm.trans hc
  | lent c =>
      obtain ⟨conn, hconn, hu⟩ := Option.map_eq_some_iff.mp h
      rw [Process.connection?_of_pool hi] at hconn
      rcases hup : Migration.update p.host.files p.host.clock dir conn p.host.store with
        ⟨st, result, log⟩
      rw [hup] at hu
      obtain ⟨rfl, rfl⟩ := Prod.mk.inj hu
      exact ⟨sp, hi, hs.migrated sessions laws hup hconn⟩
  | updated c result =>
      simp only [Updating.advance, Process.beginCall, getD_machine? hi, Option.some.injEq,
        Prod.mk.injEq] at h
      obtain ⟨rfl, rfl⟩ := h
      exact exists_of_drive hi (hs.released sessions)
  | returning c call result =>
      simp only [Updating.advance] at h
      split at h
      · next hreleased =>
          obtain ⟨hp, hu⟩ := Prod.mk.inj (Option.some.inj h)
          subst hu
          have hsame : p'.host = p.host ∧ p'.pools = p.pools := by
            subst hp
            cases result with
            | ok n => exact ⟨rfl, rfl⟩
            | error e => exact ⟨rfl, rfl⟩
          obtain ⟨hhost, hpools⟩ := hsame
          rw [hhost, hpools]
          refine ⟨sp, hi, ⟨hs.reachable, hs.apart, trivial⟩, fun c' conn hc hl => ?_⟩
          -- What is over is waiting no more.
          rw [Process.hasReleased, Process.machine?_of_pool hi, Option.bind_some, hc.2] at hreleased
          cases hreleased
      · cases h
  | returned result => cases h

/-! ## Runs -/

/-- One step of a process in which a call runs the pending migrations on a connection of a pool. -/
inductive Step (R : Reading σ κ υ) (i : PoolId) (dir : Path) :
    Process σ × Updating → Process σ × Updating → Prop where
  /-- The call goes on. -/
  | own {p p' : Process σ} {u u' : Updating} : u.advance i dir p = some (p', u') →
      Step R i dir (p, u) (p', u')
  /-- A call of the pool goes on. -/
  | pool {p : Process σ} {u : Updating} (k : Nat) :
      Step R i dir (p, u) (p.drive i fun mgr r => r.advanceCall mgr k, u)
  /-- Something else happens in the pool. Nobody else returns or marks what the call has. -/
  | others {p : Process σ} {u : Updating} (v : Pool.Move) :
      (∀ m c, p.machine? i = some m → u.Has m c → v.Spares c) →
      Step R i dir (p, u) (p.drive i fun mgr r => r.perform mgr v "", u)
  /-- Something happens elsewhere, or a borrower uses a connection. Nobody else closes the pool's
  sessions, or begins or ends transactions in the one that the call has. -/
  | elsewhere {p p' : Process σ} {u : Updating} : p'.pools[i]? = p.pools[i]? →
      (∀ sp, p.pools[i]? = some sp → ∀ e ∈ sp.connections, ∀ s,
        R.standing p.host.store e.2.session = some s →
        ∃ s', R.standing p'.host.store e.2.session = some s' ∧
          (u.Has sp.machine e.1 → s'.inside = s.inside)) →
      Step R i dir (p, u) (p', u)

/-- A process and a call that others lead to. -/
abbrev Reaches (R : Reading σ κ υ) (i : PoolId) (dir : Path) :
    Process σ × Updating → Process σ × Updating → Prop :=
  Relation.ReflTransGen (Step R i dir)

variable {q q' : Process σ × Updating}

/-- **Every step leaves the pool safe**, and the connection in the call's hands. -/
theorem Step.keeps (sessions : R.Sessions) (laws : R.Transactional) (h : Step R i dir q q')
    (hi : q.1.pools[i]? = some sp)
    (hs : q.2.Safe R sp.machine ⟨q.1.host, sp.connections⟩) :
    ∃ sp', q'.1.pools[i]? = some sp' ∧ q.2.Keeps R sp.machine ⟨q.1.host, sp.connections⟩ q'.2
      sp'.machine ⟨q'.1.host, sp'.connections⟩ := by
  cases h with
  | own h => exact hs.advance sessions laws h hi
  | pool k => exact exists_of_drive hi (Safe.advanceCall (r := Process.run _ sp) sessions hs k)
  | others v hv =>
      exact exists_of_drive hi (Safe.perform (r := Process.run _ sp) sp.options "" sessions hs
        fun c hc => hv sp.machine c (Process.machine?_of_pool hi) hc)
  | elsewhere hpool hstands =>
      refine ⟨sp, hpool.trans hi, ⟨hs.reachable, ⟨fun e he => ?_, hs.apart.nodup⟩, hs.known⟩,
        fun c conn hc hl => ⟨Or.inl hc, hl.lookup, ?_⟩⟩
      · obtain ⟨s, hsome⟩ := Option.isSome_iff_exists.mp (hs.apart.live e he)
        obtain ⟨s', hs', -⟩ := hstands sp hi e he s hsome
        exact Option.isSome_iff_exists.mpr ⟨s', hs'⟩
      · obtain ⟨s, hsome, hin⟩ := hl.outside
        obtain ⟨s', hs', hsame⟩ := hstands sp hi _ (mem_of_lookup hl.lookup) s hsome
        exact ⟨s', hs', (hsame hc).trans hin⟩

theorem Late.step (h : Step R i dir q q') (hl : q.2.Late c) : q'.2.Late c := by
  cases h with
  | @own p p' u u' h =>
      cases u with
      | returning c' call result =>
          simp only [Updating.advance] at h
          split at h
          · obtain ⟨-, rfl⟩ := Prod.mk.inj (Option.some.inj h)
            trivial
          · cases h
      | returned result => cases h
      | arriving | borrowing _ | lent _ | updated _ _ => exact hl.elim
  | pool k => exact hl
  | others v hv => exact hl
  | elsewhere hpool hstands => exact hl

/-- In the step the connection went back to the pool; and after it, its session is open and in no
transaction. -/
structure GoesBack (R : Reading σ κ υ) (i : PoolId) (c : ConnId) (conn : Connection)
    (p p' : Process σ) : Prop where
  counted : ∃ m m', p.machine? i = some m ∧ p'.machine? i = some m' ∧ m.PutsBack m' c
  connection : p'.connection? i c = some conn
  outside : R.Outside p'.host.store conn.session

/-- The connection is in the call's hands still, and in no transaction; or a step on the way was the
one in which it went back. -/
inductive Loan (R : Reading σ κ υ) (i : PoolId) (dir : Path) (c : ConnId) (conn : Connection)
    (start q : Process σ × Updating) : Prop where
  | running {sp : ServicePool} : q.1.pools[i]? = some sp → q.2.Has sp.machine c →
      Backing.Lends R ⟨q.1.host, sp.connections⟩ c conn → Loan R i dir c conn start q
  | ended {q₁ q₂ : Process σ × Updating} : Reaches R i dir start q₁ → Step R i dir q₁ q₂ →
      Reaches R i dir q₂ q → GoesBack R i c conn q₁.1 q₂.1 → q.2.Late c →
      Loan R i dir c conn start q

/-- The pool of the call is safe. -/
def InSafe (R : Reading σ κ υ) (i : PoolId) (q : Process σ × Updating) : Prop :=
  ∃ sp, q.1.pools[i]? = some sp ∧ q.2.Safe R sp.machine ⟨q.1.host, sp.connections⟩

theorem Reaches.safe (sessions : R.Sessions) (laws : R.Transactional) (h : Reaches R i dir q q')
    (hs : InSafe R i q) : InSafe R i q' := by
  induction h with
  | refl => exact hs
  | tail _ hstep ih =>
      obtain ⟨sp, hi, hsafe⟩ := ih
      obtain ⟨sp', hi', hkeeps⟩ := hstep.keeps sessions laws hi hsafe
      exact ⟨sp', hi', hkeeps.safe⟩

/-- **A loan lasts until the connection goes back.** -/
theorem Reaches.loan (sessions : R.Sessions) (laws : R.Transactional) (h : Reaches R i dir q q')
    (hs : InSafe R i q) (hl : Loan R i dir c conn q q) : Loan R i dir c conn q q' := by
  induction h with
  | refl => exact hl
  | @tail q₁ q₂ hreach hstep ih =>
      cases ih with
      | ended h₁ hback h₂ hgone hlate =>
          exact .ended h₁ hback (h₂.tail hstep) hgone (hlate.step hstep)
      | running hi hhas hlends =>
          obtain ⟨sp, hi', hsafe⟩ := Reaches.safe sessions laws hreach hs
          obtain rfl := Option.some.inj (hi.symm.trans hi')
          obtain ⟨sp', hi', hkeeps⟩ := hstep.keeps sessions laws hi hsafe
          obtain ⟨hhand, hlends'⟩ := hkeeps.hand c conn hhas hlends
          obtain hhas' | ⟨hlate, hback⟩ := hhand
          · exact .running hi' hhas' hlends'
          · refine .ended hreach hstep .refl ⟨⟨_, _, Process.machine?_of_pool hi,
              Process.machine?_of_pool hi', hback⟩, ?_, hlends'.outside⟩ hlate
            rw [Process.connection?_of_pool hi']
            exact hlends'.lookup

/-- The call is over, or it can make its next step, or its return of the connection can, whatever
others do. -/
def GoesOn (i : PoolId) (dir : Path) (c : ConnId) (p : Process σ) (u : Updating) : Prop :=
  (∃ result, u = .returned result) ∨ (u.advance i dir p).isSome = true ∨
    ∃ call result m, u = .returning c call result ∧ p.machine? i = some m ∧
      (m.apply (.step call)).isSome = true

/-- A return of the connection goes on, or is over and lets the call go on. -/
theorem Safe.goesOn {call : Nat} {result : Except Migration.Error Nat} {b : Backing σ}
    (hi : p.pools[i]? = some sp) (hs : Safe R (.returning c call result) sp.machine b) :
    GoesOn i dir c p (.returning c call result) := by
  obtain ⟨phase, hphase⟩ := hs.known
  by_cases hp : phase = .returned
  · subst hp
    have hreleased : p.hasReleased i call = true := by
      rw [Process.hasReleased, Process.machine?_of_pool hi, Option.bind_some, hphase]
      rfl
    refine Or.inr (Or.inl ?_)
    simp only [Updating.advance, hreleased, if_true, Option.isSome_some]
  · exact Or.inr (Or.inr ⟨call, result, sp.machine, rfl, Process.machine?_of_pool hi,
      Machine.return_goes_on hp hphase⟩)

/-- **From the loan on the call waits for nobody.** -/
theorem Loan.goesOn {start : Process σ × Updating} (h : Loan R i dir c conn start q)
    (hs : InSafe R i q) : GoesOn i dir c q.1 q.2 := by
  obtain ⟨p, u⟩ := q
  obtain ⟨sp, hi, hsafe⟩ := hs
  dsimp only at hi hsafe ⊢
  cases h with
  | running hi' hhas hlends =>
      obtain rfl := Option.some.inj (hi.symm.trans hi')
      cases u with
      | arriving | returned _ => exact hhas.elim
      | borrowing call =>
          have hans : p.answer? i call = some (.connection c) := by
            rw [Process.answer?, Process.machine?_of_pool hi]
            exact hhas
          refine Or.inr (Or.inl ?_)
          simp only [Updating.advance, hans, Option.map_some, Option.isSome_some]
      | lent c' =>
          obtain rfl : c' = c := hhas
          have hconn : p.connection? i c' = some conn := by
            rw [Process.connection?_of_pool hi]
            exact hlends.lookup
          refine Or.inr (Or.inl ?_)
          simp only [Updating.advance, hconn, Option.map_some, Option.isSome_some]
      | updated c' result => exact Or.inr (Or.inl rfl)
      | returning c' call result =>
          obtain rfl : c' = c := hhas.1
          exact hsafe.goesOn hi
  | ended _ _ _ _ hlate =>
      cases u with
      | returning c' call result =>
          obtain rfl : c' = c := hlate
          exact hsafe.goesOn hi
      | returned result => exact Or.inl ⟨result, rfl⟩
      | arriving | borrowing _ | lent _ | updated _ _ => exact hlate.elim

/-- A pool that was just built is safe. -/
theorem inSafe_of_connect (sessions : R.Sessions) {options : Options} {size : Option Nat}
    (h : Process.outcome (Process.connect options size) p = (.ok i, p')) :
    InSafe R i (p', .arriving) := by
  obtain ⟨rfl, sp, hext⟩ := Process.connect_ok h
  obtain ⟨capacity, n, hn, hle, hm, -⟩ := hext.fresh
  refine ⟨sp, hext.pool, ?_, hext.opens.apart sessions ⟨nofun, List.nodup_nil⟩, trivial⟩
  rw [hm]
  exact .start hn hle

/-- **An update of the schema gives its connection back, whatever comes of it, and in no transaction
if it was in none when it was lent.** The pool is built in `p`, and the connection is lent in `p₁`,
after anything that others and the call have done in between. Between the loan and the end there is
a step in which the connection goes back; and the call waits for nobody on the way. -/
theorem returns_clean (sessions : R.Sessions) (laws : R.Transactional) {p₀ p₁ : Process σ}
    {options : Options} {size : Option Nat}
    (hconnect : Process.outcome (Process.connect options size) p = (.ok i, p₀))
    (hborrow : Reaches R i dir (p₀, .arriving) (p₁, .lent c))
    (hconn : p₁.connection? i c = some conn) (hout : R.Outside p₁.host.store conn.session) :
    (∀ p₂ result, Reaches R i dir (p₁, .lent c) (p₂, .returned result) →
      ∃ q q', Reaches R i dir (p₁, .lent c) q ∧ Step R i dir q q' ∧
        Reaches R i dir q' (p₂, .returned result) ∧ GoesBack R i c conn q.1 q'.1) ∧
    ∀ p₂ u, Reaches R i dir (p₁, .lent c) (p₂, u) → GoesOn i dir c p₂ u := by
  have hsafe : InSafe R i (p₁, .lent c) :=
    Reaches.safe sessions laws hborrow (inSafe_of_connect sessions hconnect)
  have hloan : Loan R i dir c conn (p₁, .lent c) (p₁, .lent c) := by
    obtain ⟨sp, hi, -⟩ := hsafe
    rw [Process.connection?_of_pool hi] at hconn
    exact .running hi rfl ⟨hconn, hout⟩
  constructor
  · intro p₂ result h
    cases Reaches.loan sessions laws h hsafe hloan with
    | running _ hhas _ => exact hhas.elim
    | ended h₁ hstep h₂ hback _ => exact ⟨_, _, h₁, hstep, h₂, hback⟩
  · intro p₂ u h
    exact (Reaches.loan sessions laws h hsafe hloan).goesOn (Reaches.safe sessions laws h hsafe)

/-! ## A script that ends its transaction -/

/-- Makes steps: of the call, or of a call of the pool. -/
def follow (i : PoolId) (dir : Path) :
    List (Option Nat) → Process σ × Updating → Option (Process σ × Updating)
  | [], q => some q
  | none :: steps, q => (q.2.advance i dir q.1).bind (follow i dir steps)
  | some k :: steps, q => follow i dir steps (q.1.drive i fun mgr r => r.advanceCall mgr k, q.2)

theorem reaches_of_follow {steps : List (Option Nat)} (h : follow i dir steps q = some q') :
    Reaches R i dir q q' := by
  induction steps generalizing q with
  | nil =>
      obtain rfl := Option.some.inj h
      exact .refl
  | cons step steps ih =>
      cases step with
      | none =>
          obtain ⟨q₁, h₁, h⟩ := Option.bind_eq_some_iff.mp h
          exact .head (.own h₁) (ih h)
      | some k => exact .head (.pool k) (ih h)

/-- A process on a host with one directory, which has a script that commits the transaction of its
migration, begins another one, and fails in that. -/
def committing : Process Sql.World where
  host :=
    { files :=
        { cwd := []
          nodes := [([Text.encode "m"], .directory 0o755),
            ([Text.encode "m", Text.encode "1_a.sqlite"], .file 0o644 (.bytes (Text.encode
              "COMMIT; BEGIN; CREATE TABLE a(x INTEGER); DROP TABLE b;")))] }
      env := ⟨[]⟩
      store := .isolated
      clock := fun _ => "now"
      executable := Path.ofText "/bin/quire-server"
      parallelism := some 1
      runtimeFault := none }
  pools := []
  log := []

/-- How building a pool ends there, and the process after it. -/
def built : Except Error PoolId × Process Sql.World :=
  Process.outcome (Process.connect (.sqlite (Path.ofText "/m/db")) none) committing

/-- Where the call stands: lent a connection, or ended because the first script has failed. -/
def lent? : Updating → Option ConnId
  | .lent c => some c
  | _ => none

def hasFailed : Updating → Bool
  | .returned (.error (.migration (.failed 1 _ _))) => true
  | _ => false

/-- The steps of the call up to the loan, and from there to the end. -/
def loanSteps : List (Option Nat) := [none, some 0, none]

def endSteps : List (Option Nat) := [none, none, some 1, some 1, none]

theorem follow_built :
    built.1.toOption = some 0 ∧
      (follow 0 ⟨Text.encode "m"⟩ loanSteps (built.2, .arriving)).map (fun q =>
        (lent? q.2, (q.1.connection? 0 0).bind fun conn =>
            (q.1.host.store.store.standing conn.session).map (·.inside),
          (follow 0 ⟨Text.encode "m"⟩ endSteps q).map fun q => hasFailed q.2)) =
        some (some 0, some false, some true) := by
  decide +kernel

theorem returns_clean_committing : ∃ p₁ p₂ result conn,
    Reaches Sql.World.reading 0 ⟨Text.encode "m"⟩ (built.2, .arriving) (p₁, .lent 0) ∧
      p₁.connection? 0 0 = some conn ∧
      Sql.World.reading.Outside p₁.host.store conn.session ∧
      hasFailed (.returned result) = true ∧
      ∃ q q', Reaches Sql.World.reading 0 ⟨Text.encode "m"⟩ (p₁, .lent 0) q ∧
        Step Sql.World.reading 0 ⟨Text.encode "m"⟩ q q' ∧
        Reaches Sql.World.reading 0 ⟨Text.encode "m"⟩ q' (p₂, .returned result) ∧
        GoesBack Sql.World.reading 0 0 conn q.1 q'.1 := by
  obtain ⟨hpool, hrun⟩ := follow_built
  obtain ⟨⟨p₁, u₁⟩, hloan, hat⟩ := Option.map_eq_some_iff.mp hrun
  obtain ⟨hlent, hrest⟩ := Prod.mk.inj hat
  obtain ⟨hinside, hend⟩ := Prod.mk.inj hrest
  obtain ⟨conn, hconn, hinside⟩ := Option.bind_eq_some_iff.mp hinside
  obtain ⟨⟨p₂, u₂⟩, hfollow, hfailed⟩ := Option.map_eq_some_iff.mp hend
  obtain rfl : u₁ = .lent 0 := by
    cases u₁ with
    | lent c => rw [Option.some.inj hlent]
    | _ => cases hlent
  obtain ⟨result, rfl⟩ : ∃ result, u₂ = .returned result := by
    cases u₂ with
    | returned result => exact ⟨result, rfl⟩
    | _ => cases hfailed
  have hconnect : built = (.ok 0, built.2) := by
    refine Prod.ext ?_ rfl
    rcases hx : built.1 with e | i
    · rw [hx] at hpool
      cases hpool
    · rw [hx] at hpool
      rw [Option.some.inj hpool]
  have hreaches := reaches_of_follow (R := Sql.World.reading) hloan
  have hout : Sql.World.reading.Outside p₁.host.store conn.session :=
    Option.map_eq_some_iff.mp hinside
  have hclean := returns_clean Sql.World.sessions Sql.World.transactional hconnect hreaches hconn
    hout
  obtain ⟨q, q', h₁, hstep, h₂, hback⟩ := hclean.1 p₂ result (reaches_of_follow hfollow)
  exact ⟨p₁, p₂, result, conn, hreaches, hconn, hout, hfailed, q, q', h₁, hstep, h₂, hback⟩

end Updating

end Service

end PooledStore
