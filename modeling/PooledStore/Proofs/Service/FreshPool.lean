import Mathlib.Data.List.Range
import PooledStore.Proofs.Store.Laws
import PooledStore.Service.Process

/-!
# Fresh pools

A pool that was just built holds the connections that could be opened, all idle, each with a session
of its own, and nobody has called it. Whoever borrows from it first gets connection 0 at once, and
can return it at once.

* `Reading.Begins`: what opening connections means for the stores.
* `Backing.Opens`, `Run.start_cases`: what the builder of a pool leaves.
* `Run.lend_first`, `Run.return_first`: the first loan from a fresh pool.
-/

set_option autoImplicit false

namespace PooledStore

open Config

/-! ## New sessions -/

namespace Reading

variable {σ κ υ : Type} {R : Reading σ κ υ} {st st₁ st' : σ} {c : Connection}
variable {new more : List Connection}

/-- In the second state each of the new connections has a session, which is in no transaction and
has no temporary tables; and no other session notices. -/
structure Begins (R : Reading σ κ υ) (st st' : σ) (new : List Connection) : Prop where
  unknown : ∀ c ∈ new, R.standing st c.session = none
  idle : ∀ c ∈ new, ∃ db k, R.Idle st' c.session db k ∧ R.bare k
  others : ∀ id, (∀ c ∈ new, c.session ≠ id) → R.standing st' id = R.standing st id

theorem Begins.of_same (h : R.standing st' = R.standing st) : R.Begins st st' [] :=
  ⟨nofun, nofun, fun id _ => congrFun h id⟩

theorem Begun.begins (h : R.Begun st st' c.session) : R.Begins st st' [c] := by
  refine ⟨fun d hd => ?_, fun d hd => ?_, fun id hid => ?_⟩
  · obtain rfl := List.mem_singleton.mp hd
    exact h.new
  · obtain rfl := List.mem_singleton.mp hd
    exact h.idle
  · exact h.others id (hid c List.mem_cons_self).symm

/-- A session that is there is not one that begins. -/
theorem Begins.kept (h : R.Begins st st' new) {id : SessionId} {s : Standing κ}
    (hs : R.standing st id = some s) : R.standing st' id = some s := by
  refine (h.others id ?_).trans hs
  rintro c hc rfl
  exact absurd (hs.symm.trans (h.unknown c hc)) nofun

theorem Begins.append (h : R.Begins st st₁ new) (h' : R.Begins st₁ st' more) :
    R.Begins st st' (new ++ more) := by
  refine ⟨fun c hc => ?_, fun c hc => ?_, fun id hid => ?_⟩
  · rcases List.mem_append.mp hc with hc | hc
    · exact h.unknown c hc
    · by_contra hsome
      obtain ⟨s, hs⟩ := Option.ne_none_iff_exists'.mp hsome
      exact absurd ((h.kept hs).symm.trans (h'.unknown c hc)) nofun
  · rcases List.mem_append.mp hc with hc | hc
    · obtain ⟨db, k, hidle, hbare⟩ := h.idle c hc
      exact ⟨db, k, h'.kept hidle, hbare⟩
    · exact h'.idle c hc
  · rw [List.forall_mem_append] at hid
    rw [h'.others id hid.2, h.others id hid.1]

end Reading

/-! ## Attempts to connect -/

namespace Host

variable {σ κ υ : Type} [Stores σ] {R : Reading σ κ υ} {h h' : Host σ} {busyTimeout : Nat}
variable {options : Options} {c : Connection} {file : Path}

theorem standing_initialise (laws : R.Sessions) (c : Connection) (busyTimeout : Nat) (st : σ) :
    R.standing (initialise c busyTimeout st).1 = R.standing st := by
  have hjournal := laws.setJournal c st
  unfold initialise
  rcases hset : Stores.setJournal c st with ⟨st₁, e | mode⟩
  · rw [hset] at hjournal
    exact hjournal
  · rw [hset] at hjournal
    dsimp only
    split
    · exact hjournal
    · exact (laws.configure c busyTimeout st₁).trans hjournal

theorem openFile_ok (laws : R.Sessions) (hopen : h.openFile file busyTimeout = (h', .ok c)) :
    R.Begun h.store h'.store c.session := by
  unfold openFile at hopen
  rcases hfile : Stores.openFile file h.files h.store with ⟨files, st, e | id⟩
  · rw [hfile] at hopen
    cases (Prod.mk.inj hopen).2
  · rw [hfile] at hopen
    have hbegun := laws.openFile_ok hfile
    have hsame := standing_initialise laws ⟨.sqlite, id⟩ busyTimeout st
    dsimp only at hopen
    rcases hinit : initialise ⟨.sqlite, id⟩ busyTimeout st with ⟨st₁, e | u⟩
    · rw [hinit] at hopen
      cases (Prod.mk.inj hopen).2
    · rw [hinit] at hopen hsame
      obtain ⟨rfl, hc⟩ := Prod.mk.inj hopen
      obtain rfl := Except.ok.inj hc
      obtain ⟨db, k, hidle, hbare⟩ := hbegun.idle
      refine ⟨hbegun.new, ⟨db, k, ?_, hbare⟩, fun j hj => ?_⟩
      · exact (congrFun hsame id).trans hidle
      · exact (congrFun hsame j).trans (hbegun.others j hj)

/-- A session that cannot be made ready is closed again. -/
theorem openFile_error {e : ConnectionError} (laws : R.Sessions)
    (hopen : h.openFile file busyTimeout = (h', .error e)) :
    R.standing h'.store = R.standing h.store := by
  unfold openFile at hopen
  rcases hfile : Stores.openFile file h.files h.store with ⟨files, st, e | id⟩
  · rw [hfile] at hopen
    obtain ⟨rfl, -⟩ := Prod.mk.inj hopen
    exact laws.openFile_error hfile
  · rw [hfile] at hopen
    have hbegun := laws.openFile_ok hfile
    have hsame := standing_initialise laws ⟨.sqlite, id⟩ busyTimeout st
    dsimp only at hopen
    rcases hinit : initialise ⟨.sqlite, id⟩ busyTimeout st with ⟨st₁, e | u⟩
    · rw [hinit] at hopen hsame
      obtain ⟨rfl, -⟩ := Prod.mk.inj hopen
      funext j
      by_cases hj : j = id
      · subst hj
        exact (laws.close_self ⟨.sqlite, j⟩ st₁).trans hbegun.new.symm
      · exact ((laws.close_other (c := ⟨.sqlite, id⟩) hj).trans (congrFun hsame j)).trans
          (hbegun.others j hj)
    · rw [hinit] at hopen
      cases (Prod.mk.inj hopen).2

/-- An attempt to connect that succeeds opens one new session. -/
theorem connect_ok (laws : R.Sessions) (hc : h.connect options busyTimeout = (h', .ok c)) :
    R.Begun h.store h'.store c.session := by
  unfold connect at hc
  cases options with
  | sqlite file => exact openFile_ok laws hc
  | postgres network =>
      dsimp only at hc
      split at hc
      · next hdial =>
          obtain ⟨rfl, hconn⟩ := Prod.mk.inj hc
          obtain rfl := Except.ok.inj hconn
          exact laws.dial_answered hdial
      · cases (Prod.mk.inj hc).2
      · cases (Prod.mk.inj hc).2

/-- One that fails changes no session. -/
theorem connect_error {e : ConnectionError} (laws : R.Sessions)
    (hc : h.connect options busyTimeout = (h', .error e)) :
    R.standing h'.store = R.standing h.store := by
  unfold connect at hc
  cases options with
  | sqlite file => exact openFile_error laws hc
  | postgres network =>
      dsimp only at hc
      split at hc
      · cases (Prod.mk.inj hc).2
      · next hdial =>
          obtain ⟨rfl, -⟩ := Prod.mk.inj hc
          exact laws.dial_failed hdial
      · next hdial =>
          obtain ⟨rfl, -⟩ := Prod.mk.inj hc
          exact laws.dial_late hdial

/-- Only files and stores change. -/
theorem connect_rest (h : Host σ) (options : Options) (busyTimeout : Nat) : ∃ files store,
    (h.connect options busyTimeout).1 = { h with files := files, store := store } := by
  unfold connect
  cases options with
  | sqlite file =>
      dsimp only
      unfold openFile
      split
      · exact ⟨_, _, rfl⟩
      · dsimp only
        split
        · exact ⟨_, _, rfl⟩
        · exact ⟨_, _, rfl⟩
  | postgres network =>
      dsimp only
      split
      · exact ⟨h.files, _, rfl⟩
      · exact ⟨h.files, _, rfl⟩
      · exact ⟨h.files, _, rfl⟩

theorem provider_of_connect (hc : h.connect options busyTimeout = (h', .ok c)) :
    c.provider = options.provider := by
  unfold connect at hc
  cases options with
  | sqlite file =>
      dsimp only at hc
      unfold openFile at hc
      split at hc
      · cases (Prod.mk.inj hc).2
      · dsimp only at hc
        split at hc
        · obtain rfl := Except.ok.inj (Prod.mk.inj hc).2
          rfl
        · cases (Prod.mk.inj hc).2
  | postgres network =>
      dsimp only at hc
      split at hc
      · obtain rfl := Except.ok.inj (Prod.mk.inj hc).2
        rfl
      · cases (Prod.mk.inj hc).2
      · cases (Prod.mk.inj hc).2

end Host

end PooledStore

namespace PooledStore.Service

open Config Log Pool

variable {σ κ υ : Type} [Stores σ] {R : Reading σ κ υ} {options : Options}
variable {b b₁ b' : Backing σ} {new : List (ConnId × Connection)}

theorem mem_of_lookup {l : List (ConnId × Connection)} {c : ConnId} {conn : Connection}
    (h : l.lookup c = some conn) : (c, conn) ∈ l := by
  obtain ⟨front, back, rfl, -⟩ := List.lookup_eq_some_iff.mp h
  exact List.mem_append_right _ List.mem_cons_self

/-! ## Building a pool -/

/-- What attempts to connect make of the world of a manager, and the connections that they opened,
under their identities. -/
inductive Backing.Opens (options : Options) (b : Backing σ) :
    List (ConnId × Connection) → Backing σ → Prop where
  | nothing : Backing.Opens options b [] b
  | opened {new : List (ConnId × Connection)} {b' : Backing σ} {host : Host σ} {c : ConnId}
      {conn : Connection} : Backing.Opens options b new b' →
      b'.host.connect options Host.defaultBusyTimeout = (host, .ok conn) →
      Backing.Opens options b (new ++ [(c, conn)]) ⟨host, b'.connections ++ [(c, conn)]⟩
  | refused {new : List (ConnId × Connection)} {b' : Backing σ} {host : Host σ}
      {e : ConnectionError} : Backing.Opens options b new b' →
      b'.host.connect options Host.defaultBusyTimeout = (host, .error e) →
      Backing.Opens options b new { b' with host := host }

namespace Backing.Opens

theorem connections (h : b.Opens options new b') : b'.connections = b.connections ++ new := by
  induction h with
  | nothing => exact (List.append_nil _).symm
  | opened _ _ ih => rw [ih, List.append_assoc]
  | refused _ _ ih => exact ih

/-- Only files and stores change. -/
theorem rest (h : b.Opens options new b') :
    ∃ files store, b'.host = { b.host with files := files, store := store } := by
  have further : ∀ {h h' : Host σ} {r : Except ConnectionError Connection},
      h.connect options Host.defaultBusyTimeout = (h', r) →
      (∃ files store, h = { b.host with files := files, store := store }) →
      ∃ files store, h' = { b.host with files := files, store := store } := by
    rintro h h' r hc ⟨files, store, rfl⟩
    obtain ⟨files', store', hrest⟩ :=
      Host.connect_rest { b.host with files := files, store := store } options
        Host.defaultBusyTimeout
    rw [hc] at hrest
    exact ⟨files', store', hrest⟩
  induction h with
  | nothing => exact ⟨_, _, rfl⟩
  | opened _ hc ih => exact further hc ih
  | refused _ hc ih => exact further hc ih

theorem provider (h : b.Opens options new b') : ∀ e ∈ new, e.2.provider = options.provider := by
  induction h with
  | nothing => exact nofun
  | opened _ hc ih =>
      refine List.forall_mem_append.mpr ⟨ih, fun e he => ?_⟩
      obtain rfl := List.mem_singleton.mp he
      exact Host.provider_of_connect hc
  | refused _ _ ih => exact ih

theorem trans {more : List (ConnId × Connection)} (h : b.Opens options new b₁)
    (h' : b₁.Opens options more b') : b.Opens options (new ++ more) b' := by
  induction h' with
  | nothing => rwa [List.append_nil]
  | opened _ hc ih =>
      rw [← List.append_assoc]
      exact .opened ih hc
  | refused _ hc ih => exact .refused ih hc

/-- **Each connection has a new session, and no other session notices.** -/
theorem begins (laws : R.Sessions) (h : b.Opens options new b') :
    R.Begins b.host.store b'.host.store (new.map Prod.snd) := by
  induction h with
  | nothing => exact .of_same rfl
  | opened _ hc ih =>
      rw [List.map_append]
      exact ih.append (Host.connect_ok laws hc).begins
  | refused _ hc ih =>
      rw [← List.append_nil (List.map _ _)]
      exact ih.append (.of_same (Host.connect_error laws hc))

end Backing.Opens

theorem manager_connect_ok {c : ConnId} {u : Unit}
    (h : (manager options).connect c b = (b', .ok u)) :
    ∃ host conn, b.host.connect options Host.defaultBusyTimeout = (host, .ok conn) ∧
      b' = ⟨host, b.connections ++ [(c, conn)]⟩ := by
  unfold manager at h
  dsimp only at h
  split at h
  · next host conn hc => exact ⟨host, conn, hc, (Prod.mk.inj h).1.symm⟩
  · cases (Prod.mk.inj h).2

theorem manager_connect_error {c : ConnId} {e : ConnectionError}
    (h : (manager options).connect c b = (b', .error e)) :
    ∃ host, b.host.connect options Host.defaultBusyTimeout = (host, .error e) ∧
      b' = { b with host := host } := by
  unfold manager at h
  dsimp only at h
  split at h
  · cases (Prod.mk.inj h).2
  · next host e' hc =>
      obtain ⟨rfl, he⟩ := Prod.mk.inj h
      obtain rfl := Except.error.inj he
      exact ⟨host, hc, rfl⟩

/-- The connections that open get the next numbers. -/
theorem openEach_opens {slots next n : Nat} {log log' : List Event}
    (h : Run.openEach (manager options) slots next b log = (n, b', log')) :
    ∃ k more, k ≤ slots ∧ n = next + k ∧ b.Opens options more b' ∧
      more.map Prod.fst = List.range' next k := by
  induction slots generalizing next b log with
  | zero =>
      obtain ⟨rfl, rfl, rfl⟩ : next = n ∧ b = b' ∧ log = log' := by
        simpa [Run.openEach] using h
      exact ⟨0, [], Nat.le_refl _, rfl, .nothing, rfl⟩
  | succ slots ih =>
      unfold Run.openEach at h
      rcases hc : (manager options).connect next b with ⟨b₁, e | u⟩
      · rw [hc] at h
        obtain ⟨host, hcon, rfl⟩ := manager_connect_error hc
        obtain ⟨k, more, hk, rfl, hmore, hkeys⟩ := ih h
        have hfirst : b.Opens options [] { b with host := host } := .refused .nothing hcon
        exact ⟨k, more, by omega, rfl, hfirst.trans hmore, hkeys⟩
      · rw [hc] at h
        obtain ⟨host, conn, hcon, rfl⟩ := manager_connect_ok hc
        obtain ⟨k, more, hk, rfl, hmore, hkeys⟩ := ih h
        have hfirst : b.Opens options [(next, conn)] ⟨host, b.connections ++ [(next, conn)]⟩ :=
          .opened .nothing hcon
        refine ⟨k + 1, (next, conn) :: more, by omega, by omega, hfirst.trans hmore, ?_⟩
        rw [List.map_cons, hkeys, List.range'_succ]

/-- What the builder of a pool leaves: a pool with its first connection at least, or no new
connection. -/
theorem start_cases {capacity : Nat} {r : Except (Pool.Error ConnectionError) (Run (Backing σ))}
    (h : Run.start (manager options) capacity b = (b', r)) :
    (∃ host conn more n log,
        b.host.connect options Host.defaultBusyTimeout = (host, .ok conn) ∧
        Backing.Opens options ⟨host, b.connections ++ [(0, conn)]⟩ more b' ∧
        0 < n ∧ n ≤ capacity ∧ ((0, conn) :: more).map Prod.fst = List.range n ∧
        r = .ok ⟨Machine.initial capacity n, b', log⟩) ∨
      (∃ e, r = .error e) ∧ b.Opens options [] b' := by
  cases capacity with
  | zero =>
      obtain ⟨rfl, rfl⟩ := Prod.mk.inj h
      exact Or.inr ⟨⟨_, rfl⟩, .nothing⟩
  | succ others =>
      unfold Run.start at h
      dsimp only at h
      rcases hc : (manager options).connect 0 b with ⟨b₁, e | u⟩
      · rw [hc] at h
        obtain ⟨host, hcon, rfl⟩ := manager_connect_error hc
        obtain ⟨rfl, rfl⟩ := Prod.mk.inj h
        exact Or.inr ⟨⟨_, rfl⟩, .refused .nothing hcon⟩
      · rw [hc] at h
        obtain ⟨host, conn, hcon, rfl⟩ := manager_connect_ok hc
        dsimp only at h
        rcases ho : Run.openEach (manager options) others 1
          ⟨host, b.connections ++ [(0, conn)]⟩ [] with ⟨n, b₂, log⟩
        rw [ho] at h
        obtain ⟨rfl, rfl⟩ := Prod.mk.inj h
        -- Only the first connection is needed: of the others there are as many as could be opened.
        obtain ⟨k, more, hk, rfl, hmore, hkeys⟩ := openEach_opens ho
        refine Or.inl ⟨host, conn, more, 1 + k, _, hcon, hmore, by omega, by omega, ?_, rfl⟩
        rw [List.map_cons, hkeys, List.range_eq_range', Nat.add_comm 1 k, List.range'_succ]

end PooledStore.Service

namespace PooledStore.Pool

/-! ## The first loan -/

/-- A pool of which only connection 0 was lent. -/
def Machine.lentFirst (capacity n : Nat) : Machine :=
  { Machine.initial capacity n with
    ledger := ⟨(List.range n).tail, 1, capacity - n, false, [], 1⟩
    calls := [.acquire ⟨none, none, .returned (.connection 0)⟩]
    held := [⟨0, false⟩] }

/-- That pool after the connection came back. -/
def Machine.lentOnce (capacity n : Nat) : Machine :=
  { Machine.initial capacity n with
    ledger := ⟨(List.range n).tail ++ [0], 0, capacity - n, false, [], 1⟩
    calls := [.acquire ⟨none, none, .returned (.connection 0)⟩, .release ⟨0, false, .returned⟩] }

namespace Run

variable {σ ε : Type} {mgr : Manager σ ε} {w : σ} {capacity n : Nat}

theorem settleFor_of_none {r : Run σ} {fuel : Nat}
    (h : r.machine.calls.findIdx? (canAdvance false) = none) :
    settleFor mgr false fuel r = r := by
  cases fuel with
  | zero => rfl
  | succ fuel => simp only [settleFor, h]

theorem settleFor_of_some {r : Run σ} {fuel i : Nat}
    (h : r.machine.calls.findIdx? (canAdvance false) = some i) :
    settleFor mgr false (fuel + 1) r = settleFor mgr false fuel (advanceCall mgr r i) := by
  simp only [settleFor, h]

theorem stepBound_eq_add (m : Machine) : ∃ fuel, stepBound m = fuel + 3 :=
  ⟨stepBound m - 3, by unfold stepBound; omega⟩

/-- Whoever borrows from a fresh pool gets connection 0 without waiting. -/
theorem lend_first (hn : 0 < n) :
    settle mgr (perform mgr ⟨Machine.initial capacity n, w, []⟩ (.beginAcquire none) "") false =
      ⟨Machine.lentFirst capacity n, w, []⟩ := by
  obtain ⟨rest, hrest⟩ : ∃ rest, List.range n = 0 :: rest := by
    obtain ⟨k, rfl⟩ : ∃ k, n = k + 1 := ⟨n - 1, by omega⟩
    exact ⟨_, List.range_succ_eq_map⟩
  unfold Machine.lentFirst Machine.initial
  rw [hrest]
  generalize capacity - n = vacant
  have hbegin : ∀ m : Machine, perform mgr ⟨m, w, []⟩ (.beginAcquire none) "" =
      ⟨{ m with calls := m.calls ++ [.acquire ⟨none, none, .arriving⟩] }, w, []⟩ := fun _ => rfl
  rw [hbegin, settle]
  obtain ⟨fuel, hfuel⟩ := stepBound_eq_add
    ⟨capacity, ⟨0 :: rest, 0, vacant, false, [], 0⟩, [.acquire ⟨none, none, .arriving⟩], [], 0, n,
      capacity, []⟩
  rw [List.nil_append, hfuel, settleFor_of_some (i := 0) rfl]
  -- The caller wakes the others first if there is more to be had.
  cases rest with
  | nil =>
      cases vacant with
      | zero => exact settleFor_of_none rfl
      | succ vacant =>
          rw [settleFor_of_some (i := 0) rfl]
          exact settleFor_of_none rfl
  | cons c rest =>
      rw [settleFor_of_some (i := 0) rfl]
      exact settleFor_of_none rfl

/-- While the connection is lent the pool is at rest. -/
theorem rest_lentFirst :
    settle mgr ⟨Machine.lentFirst capacity n, w, []⟩ false =
      ⟨Machine.lentFirst capacity n, w, []⟩ :=
  settleFor_of_none rfl

/-- It can be returned without waiting. -/
theorem return_first :
    settle mgr (perform mgr ⟨Machine.lentFirst capacity n, w, []⟩ (.beginRelease 0 false) "")
      false = ⟨Machine.lentOnce capacity n, w, []⟩ := by
  have hbegin : perform mgr ⟨Machine.lentFirst capacity n, w, []⟩ (.beginRelease 0 false) "" =
      ⟨{ Machine.lentFirst capacity n with
          calls := (Machine.lentFirst capacity n).calls ++ [.release ⟨0, false, .arriving⟩]
          held := [] }, w, []⟩ := rfl
  rw [hbegin, settle]
  obtain ⟨fuel, hfuel⟩ := stepBound_eq_add
    { Machine.lentFirst capacity n with
      calls := (Machine.lentFirst capacity n).calls ++ [.release ⟨0, false, .arriving⟩]
      held := [] }
  rw [hfuel, settleFor_of_some (i := 1) rfl, settleFor_of_some (i := 1) rfl]
  exact settleFor_of_none rfl

end Run

end PooledStore.Pool
