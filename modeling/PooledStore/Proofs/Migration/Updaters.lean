import PooledStore.Migration.Updaters
import PooledStore.Proofs.Migration.Specification

/-!
# Several connections that update

What a connection took for pending may have been applied by another one since (`Updaters`). Then its
next attempt fails on the key of the table of records, and its update ends there. So whatever the
order of the steps, the recorded versions are a first part of the discovered scripts, and what was
done to the database since is these scripts, each once and in order
(`Updaters.Reachable.applied_once`). A connection that takes its steps alone does what `update` does
(`Updaters.advance_alone`).
-/

set_option autoImplicit false

namespace PooledStore.Migration

open Config

variable {σ κ υ : Type} [Stores σ] {R : Reading σ κ υ}
variable {files : FileTree} {dir : Path} {time text : String} {st st' : σ} {c : Connection}
variable {id : SessionId} {p : Provider} {db : Nat} {k k' : κ} {scripts : List Script}
variable {m n n' : Nat} {s : Script}

/-! ## Sessions without temporary tables -/

/-- The session is on the database, in no transaction, and has no temporary tables. -/
def Attends (R : Reading σ κ υ) (st : σ) (id : SessionId) (db : Nat) : Prop :=
  ∃ k, R.Idle st id db k ∧ R.bare k

/-- What another connection does leaves a session where it is. -/
theorem Attends.acts (laws : R.Transactional) (shared : R.Shared) (h : Attends R st id db)
    (hid : id ≠ c.session) (ha : Acts c st st') : Attends R st' id db := by
  obtain ⟨k, hk, hb⟩ := h
  obtain ⟨t, ht, hdb, hin, hbare⟩ := shared.others ha hid hk
  obtain rfl : t.database = db := hdb
  exact ⟨t.lasting, laws.idle ht hin, hbare hb⟩

/-- It sees what others on the database see. -/
theorem Attends.idle (shared : R.Shared) (h : Attends R st id db)
    (hc : R.Idle st c.session db k) (hb : R.bare k) : R.Idle st id db k := by
  obtain ⟨k', hk', hb'⟩ := h
  obtain rfl : k = k' := shared.lasting hc hk' rfl hb hb'
  exact hk'

/-! ## Records -/

/-- What is newer than a recorded first part of ascending scripts is the rest of them. -/
theorem unrecorded_of_take (ho : scripts.Pairwise fun a b => a.version < b.version) :
    unrecorded ((scripts.take n).map (·.version) : List Int) scripts = scripts.drop n := by
  have hall : ∀ s : Script, (∀ v ∈ (((scripts.take n).map (·.version) : List Int) : Multiset Int),
      v < s.version) ↔ ∀ a ∈ scripts.take n, a.version < s.version := by
    intro s
    simp [-List.map_take]
  have hsplit := (List.take_append_drop n scripts).symm
  rw [unrecorded]
  simp only [hall]
  rw [hsplit] at ho
  conv_lhs => rw [hsplit]
  rw [List.filter_append]
  have hold : (scripts.take n).filter
      (fun s => decide (∀ a ∈ scripts.take n, a.version < s.version)) = [] := by
    refine List.filter_eq_nil_iff.mpr fun s hs hgt => ?_
    exact lt_irrefl _ (of_decide_eq_true hgt s hs)
  have hrest : (scripts.drop n).filter
      (fun s => decide (∀ a ∈ scripts.take n, a.version < s.version)) = scripts.drop n := by
    refine List.filter_eq_self.mpr fun s hs => decide_eq_true fun a ha => ?_
    exact (List.pairwise_append.mp ho).2.2 a ha s hs
  rw [hsplit.symm, hold, hrest, List.nil_append]

/-! ## Scripts carried out in order -/

/-- The table of records has the first `n` of the scripts, with their versions as a key, or it is
not there yet. -/
def Holds (R : Reading σ κ υ) (scripts : List Script) (n : Nat) (k : κ) : Prop :=
  R.records k = .kept true ((scripts.take n).map (·.version) : List Int) ∨
    R.records k = .absent ∧ n = 0

omit [Stores σ] in
theorem Holds.versions (h : Holds R scripts n k) :
    (R.records k).versions = ((scripts.take n).map (·.version) : List Int) := by
  obtain h | ⟨h, rfl⟩ := h
  · rw [h]
    rfl
  · rw [h]
    rfl

/-- The first `n` of the scripts are recorded, and what was done since `k₀` was seen is those from
`m` on, each once and in order, and at most the making of the table of records before. -/
structure InOrder (R : Reading σ κ υ) (p : Provider) (files : FileTree) (scripts : List Script)
    (m : Nat) (k₀ k : κ) (n : Nat) : Prop where
  from_start : m ≤ n
  bound : n ≤ scripts.length
  bare : R.bare k
  holds : Holds R scripts n k
  done : ∃ k₁ deeds, (k₁ = k₀ ∨ Furnished R p k₀ k₁) ∧
    DeedsOf files ((scripts.take n).drop m) deeds ∧ Performed R p deeds k₁ k
  /-- As long as there is no table of records, nothing was done. -/
  untouched : R.records k = .absent → k = k₀ ∧ m = n

variable {k₀ : κ}

omit [Stores σ] in
theorem Holds.ne_other (h : Holds R scripts n k) : R.records k ≠ .other := by
  obtain h | ⟨h, -⟩ := h
  · exact Records.ne_other_of_kept h
  · exact Records.ne_other_of_absent h

/-- The table of records is made, or found. -/
theorem InOrder.furnish (h : InOrder R p files scripts m k₀ k n) (hf : Furnished R p k k')
    (hb : R.bare k') : InOrder R p files scripts m k₀ k' n := by
  cases hf with
  | same _ => exact h
  | made habs hmade hkept hown =>
      obtain ⟨rfl, rfl⟩ := h.untouched habs
      obtain hk | ⟨-, rfl⟩ := h.holds
      · rw [habs] at hk
        cases hk
      · refine ⟨h.from_start, h.bound, hb, Or.inl hkept,
          ⟨k', [], Or.inr (.made habs hmade hkept hown), .nil, .nil⟩, fun hn => ?_⟩
        rw [hkept] at hn
        cases hn

/-- One more script, with its record. -/
theorem InOrder.deed (h : InOrder R p files scripts m k₀ k n) (hs : scripts[n]? = some s)
    (ht : files.readText s.path = .ok text) (hd : Deed.Done R p ⟨s.version, text⟩ k k')
    (hb : R.bare k')
    (hk' : R.records k' =
      .kept true (s.version ::ₘ ((scripts.take n).map (·.version) : List Int))) :
    InOrder R p files scripts m k₀ k' (n + 1) := by
  obtain ⟨hlt, hget⟩ := List.getElem?_eq_some_iff.mp hs
  have htake : scripts.take (n + 1) = scripts.take n ++ [s] := by
    rw [List.take_succ_eq_append_getElem hlt, hget]
  obtain ⟨k₂, deeds, hfirst, hof, hdone⟩ := h.done
  refine ⟨Nat.le_succ_of_le h.from_start, hlt, hb, Or.inl ?_, ⟨k₂, deeds ++ [⟨s.version, text⟩],
    hfirst, ?_, hdone.append (.cons hd .nil)⟩, fun hn => ?_⟩
  · rw [hk', htake, List.map_append, List.map_singleton, Multiset.cons_coe]
    exact congrArg _ (Multiset.coe_eq_coe.mpr (List.perm_append_singleton _ _).symm)
  · have hlen : m ≤ (scripts.take n).length := by
      rw [List.length_take, Nat.min_eq_left h.bound]
      exact h.from_start
    rw [htake, List.drop_append_of_le_length hlen]
    exact List.rel_append hof (.cons ⟨rfl, ht⟩ .nil)
  · rw [hk'] at hn
    cases hn

/-! ## What every move keeps -/

/-- What a connection relies on: there is a table of records, the scripts that it has left to apply
are all from some script on, and the first that is not recorded is not before it. -/
def Relies (R : Reading σ κ υ) (scripts : List Script) (k : κ) (n : Nat) : Phase → Prop
  | .arriving => True
  | .asking l => l = scripts ∧ R.records k ≠ .absent
  | .applying _ rest => R.records k ≠ .absent ∧ ∃ j ≤ n, rest = scripts.drop j
  | .returned _ => True

/-- Every connection of the list attends to the database, in which scripts were carried out in
order. -/
structure Orderly (R : Reading σ κ υ) (p : Provider) (files : FileTree) (scripts : List Script)
    (cs : List Connection) (db m : Nat) (k₀ : κ) (u : Updaters σ) (k : κ) (n : Nat) : Prop where
  idle : ∀ c ∈ cs, R.Idle u.store c.session db k
  inOrder : InOrder R p files scripts m k₀ k n
  relies : ∀ c ∈ cs, Relies R scripts k n (u.phase c)

variable {cs : List Connection} {u : Updaters σ} {ph : Phase}

omit [Stores σ] in
/-- What others record does not take from what a connection relies on. -/
theorem Relies.mono (h : Relies R scripts k n ph) (hn : n ≤ n')
    (hk : R.records k ≠ .absent → R.records k' ≠ .absent) : Relies R scripts k' n' ph := by
  cases ph with
  | arriving | returned _ => trivial
  | asking l => exact ⟨h.1, hk h.2⟩
  | applying x rest =>
      obtain ⟨hne, j, hj, hrest⟩ := h
      exact ⟨hk hne, j, hj.trans hn, hrest⟩

/-- Where a connection has come to something else by its own operations, the others have come
with it. -/
theorem Orderly.enter (laws : R.Transactional) (shared : R.Shared)
    (h : Orderly R p files scripts cs db m k₀ u k n) (hcs : ∀ c ∈ cs, c.provider = p)
    (hc : c ∈ cs) (hi : R.Idle st' c.session db k')
    (hkeep : ∀ P : σ → Prop, (∀ {a b}, P a → Acts c a b → P b) → P u.store → P st')
    (ho : InOrder R p files scripts m k₀ k' n') (hn : n ≤ n')
    (hk : R.records k ≠ .absent → R.records k' ≠ .absent) (hp : Relies R scripts k' n' ph) :
    Orderly R p files scripts cs db m k₀ (u.enter c st' ph) k' n' := by
  refine ⟨fun d hd => ?_, ho, fun d hd => ?_⟩
  · by_cases hdc : d = c
    · exact hdc ▸ hi
    · have hne : d.session ≠ c.session := by
        intro hs
        refine hdc ?_
        rcases c with ⟨q, id⟩
        rcases d with ⟨q', id'⟩
        obtain rfl : id' = id := hs
        obtain rfl : q = p := hcs _ hc
        obtain rfl : q' = q := hcs _ hd
        rfl
      have hatt : Attends R st' d.session db :=
        hkeep (fun a => Attends R a d.session db) (fun ha hact => ha.acts laws shared hne hact)
          ⟨k, h.idle d hd, h.inOrder.bare⟩
      exact hatt.idle shared hi ho.bare
  · show Relies R scripts k' n' (if d = c then ph else u.phase d)
    by_cases hdc : d = c
    · rw [if_pos hdc]
      exact hp
    · rw [if_neg hdc]
      exact (h.relies d hd).mono hn hk

/-- Another phase, in which the connection relies on nothing new. -/
theorem Orderly.enter_same (h : Orderly R p files scripts cs db m k₀ u k n)
    (hp : Relies R scripts k n ph) :
    Orderly R p files scripts cs db m k₀ (u.enter c u.store ph) k n := by
  refine ⟨h.idle, h.inOrder, fun d hd => ?_⟩
  show Relies R scripts k n (if d = c then ph else u.phase d)
  by_cases hdc : d = c
  · rw [if_pos hdc]
    exact hp
  · rw [if_neg hdc]
    exact h.relies d hd

/-- A connection makes sure that there is a table of records. -/
theorem Orderly.advance_arriving (laws : R.Transactional) (books : R.Bookkeeping)
    (shared : R.Shared) (h : Orderly R p files scripts cs db m k₀ u k n)
    (hcs : ∀ c ∈ cs, c.provider = p) (hc : c ∈ cs)
    (hd : (discover files dir p).1 = .ok scripts) (hu : u.phase c = .arriving) :
    ∃ k' n', Orderly R p files scripts cs db m k₀ (u.advance files dir time c) k' n' := by
  have hacts : ∀ P : σ → Prop, (∀ {a b}, P a → Acts c a b → P b) → P u.store →
      P (Stores.batch c makeRecords u.store).1 := fun P keep hp => keep hp (.batch _)
  unfold Updaters.advance Connection.executeBatch Connection.answer
  simp only [hu, hcs c hc, hd]
  rcases hb : Stores.batch c makeRecords u.store with ⟨st', e | x⟩
  · rw [hb] at hacts
    exact ⟨k, n, h.enter laws shared hcs hc (books.make_error (h.idle c hc) hb) hacts h.inOrder
      (Nat.le_refl n) id trivial⟩
  · rw [hb] at hacts
    obtain ⟨k', hi, hf⟩ := furnished_of_make books (h.idle c hc) h.inOrder.holds.ne_other hb
    have hbare : R.bare k' :=
      shared.bare_batch (laws.make_controls c.provider) (shared.make_temporary c.provider)
        (h.idle c hc) h.inOrder.bare hb hi
    obtain ⟨keyed, hkept⟩ := hf.kept
    have hne : R.records k' ≠ .absent := Records.ne_absent_of_kept hkept
    have horder := h.inOrder.furnish (hcs c hc ▸ hf) hbare
    exact ⟨k', n, h.enter laws shared hcs hc hi hacts horder (Nat.le_refl n) (fun _ => hne)
      ⟨rfl, hne⟩⟩

/-- A connection asks for the largest version, and takes the scripts that are not recorded for
pending. -/
theorem Orderly.advance_asking (laws : R.Transactional) (books : R.Bookkeeping)
    (shared : R.Shared) {l : List Script} (h : Orderly R p files scripts cs db m k₀ u k n)
    (hcs : ∀ c ∈ cs, c.provider = p) (hc : c ∈ cs)
    (ho : scripts.Pairwise fun a b => a.version < b.version) (hu : u.phase c = .asking l) :
    Orderly R p files scripts cs db m k₀ (u.advance files dir time c) k n := by
  have hrel := h.relies c hc
  rw [hu] at hrel
  obtain ⟨rfl, hne⟩ := hrel
  have hacts : ∀ P : σ → Prop, (∀ {a b}, P a → Acts c a b → P b) → P u.store →
      P (Stores.largest c u.store).1 := fun P keep hp => keep hp .largest
  have hi : R.Idle (Stores.largest c u.store).1 c.session db k :=
    (laws.largest c u.store).trans (h.idle c hc)
  unfold Updaters.advance highestVersion Connection.answer
  simp only [hu]
  rcases hl : Stores.largest c u.store with ⟨st', e | v⟩
  · rw [hl] at hi hacts
    exact h.enter laws shared hcs hc hi hacts h.inOrder (Nat.le_refl n) id trivial
  · rw [hl] at hi hacts
    refine h.enter laws shared hcs hc hi hacts h.inOrder (Nat.le_refl n) id
      ⟨hne, n, Nat.le_refl n, ?_⟩
    obtain hk | ⟨hk, -⟩ := h.inOrder.holds
    · rw [newer_of_greatest (books.largest (h.idle c hc) hk hl), unrecorded_of_take ho]
    · exact absurd hk hne

/-- A connection attempts the next of the scripts that it has left. -/
theorem Orderly.advance_applying (laws : R.Transactional) (books : R.Bookkeeping)
    (shared : R.Shared) {x : Nat} {rest : List Script}
    (h : Orderly R p files scripts cs db m k₀ u k n) (hcs : ∀ c ∈ cs, c.provider = p) (hc : c ∈ cs)
    (hp : ∀ s ∈ scripts, ∀ text, files.readText s.path = .ok text → Restrained R p text)
    (hu : u.phase c = .applying x (s :: rest)) :
    ∃ k' n', Orderly R p files scripts cs db m k₀ (u.advance files dir time c) k' n' := by
  have hrel := h.relies c hc
  rw [hu] at hrel
  obtain ⟨hne, j, hj, hrest⟩ := hrel
  have hs : scripts[j]? = some s := by
    rw [← List.head?_drop, ← hrest, List.head?_cons]
  have htail : rest = scripts.drop (j + 1) := by
    rw [← List.tail_drop, ← hrest, List.tail_cons]
  unfold Updaters.advance
  simp only [hu]
  cases ht : files.readText s.path with
  | error e => exact ⟨k, n, h.enter_same trivial⟩
  | ok text =>
      have hrestr : Restrained R c.provider text :=
        hcs c hc ▸ hp s (List.mem_of_getElem? hs) text ht
      have hacts : ∀ P : σ → Prop, (∀ {a b}, P a → Acts c a b → P b) → P u.store →
          P (apply c s.version text time u.store).1 :=
        fun P keep hP => apply_keep keep hP s.version text time
      dsimp only
      obtain hk | ⟨hk, -⟩ := h.inOrder.holds
      · obtain ⟨hok, k₂, hdone, hi, hrec, hnew⟩ | ⟨⟨e, he⟩, hi⟩ :=
          apply_plain laws books (h.idle c hc) hk hrestr.toPlain s.version time
        · -- The version was not recorded, so no other connection was faster.
          obtain rfl : j = n := by
            by_contra hjn
            have hmem : (scripts.take n)[j]? = some s := by
              rw [List.getElem?_take, if_pos (by omega), hs]
            exact hnew rfl (Multiset.mem_coe.mpr
              (List.mem_map.mpr ⟨s, List.mem_of_getElem? hmem, rfl⟩))
          have hbare := bare_apply laws shared (h.idle c hc) h.inOrder.bare hrestr hok hi
          rcases ha : apply c s.version text time u.store with ⟨st', e | y⟩
          · rw [ha] at hok
            cases hok
          · rw [ha] at hi hacts
            have hthere : R.records k₂ ≠ .absent := Records.ne_absent_of_kept hrec
            exact ⟨k₂, j + 1, h.enter laws shared hcs hc hi hacts
              (h.inOrder.deed hs ht (hcs c hc ▸ hdone) hbare hrec) (Nat.le_succ j)
              (fun _ => hthere) ⟨hthere, j + 1, Nat.le_refl _, htail⟩⟩
        · rcases ha : apply c s.version text time u.store with ⟨st', e' | y⟩
          · rw [ha] at hi hacts
            exact ⟨k, n, h.enter laws shared hcs hc hi hacts h.inOrder (Nat.le_refl n) id trivial⟩
          · rw [ha] at he
            cases he
      · exact absurd hk hne

theorem Orderly.advance (laws : R.Transactional) (books : R.Bookkeeping) (shared : R.Shared)
    (h : Orderly R p files scripts cs db m k₀ u k n) (hcs : ∀ c ∈ cs, c.provider = p) (hc : c ∈ cs)
    (hd : (discover files dir p).1 = .ok scripts)
    (hp : ∀ s ∈ scripts, ∀ text, files.readText s.path = .ok text → Restrained R p text) :
    ∃ k' n', Orderly R p files scripts cs db m k₀ (u.advance files dir time c) k' n' := by
  have ho : scripts.Pairwise fun a b => a.version < b.version :=
    discover_ascending (Prod.ext hd rfl)
  cases hu : u.phase c with
  | arriving => exact h.advance_arriving laws books shared hcs hc hd hu
  | asking l => exact ⟨k, n, h.advance_asking laws books shared hcs hc ho hu⟩
  | applying x rest =>
      cases rest with
      | nil =>
          refine ⟨k, n, ?_⟩
          simp only [Updaters.advance, hu]
          exact h.enter_same trivial
      | cons s rest => exact h.advance_applying laws books shared hcs hc hp hu
  | returned r =>
      refine ⟨k, n, ?_⟩
      simp only [Updaters.advance, hu]
      exact h

theorem Orderly.refuse (h : Orderly R p files scripts cs db m k₀ u k n) (c : Connection)
    (cause : ConnectionError) : Orderly R p files scripts cs db m k₀ (u.refuse c cause) k n := by
  unfold Updaters.refuse
  split
  · exact h.enter_same trivial
  · exact h.enter_same trivial
  · exact h.enter_same trivial
  · exact h
  · exact h

theorem Orderly.move (laws : R.Transactional) (books : R.Bookkeeping) (shared : R.Shared)
    (h : Orderly R p files scripts cs db m k₀ u k n) (hcs : ∀ c ∈ cs, c.provider = p) (mv : Move)
    (hc : mv.connection ∈ cs) (hd : (discover files dir p).1 = .ok scripts)
    (hp : ∀ s ∈ scripts, ∀ text, files.readText s.path = .ok text → Restrained R p text) :
    ∃ k' n', Orderly R p files scripts cs db m k₀ (u.move files dir mv) k' n' := by
  cases mv with
  | advance c time => exact h.advance laws books shared hcs hc hd hp
  | refuse c cause => exact ⟨k, n, h.refuse c cause⟩
  | again c =>
      refine ⟨k, n, ?_⟩
      cases hu : u.phase c with
      | returned r =>
          simp only [Updaters.move, hu]
          exact h.enter_same trivial
      | arriving | asking _ | applying _ _ =>
          simp only [Updaters.move, hu]
          exact h

/-! ## Every interleaving -/

/-- What the connections of the list can come to, if each of them starts anew. -/
inductive Updaters.Reachable (files : FileTree) (dir : Path) (cs : List Connection) (st : σ) :
    Updaters σ → Prop where
  | start : Updaters.Reachable files dir cs st (.start st)
  | move {u : Updaters σ} (mv : Move) : Updaters.Reachable files dir cs st u →
      mv.connection ∈ cs → Updaters.Reachable files dir cs st (u.move files dir mv)

open Sql

theorem Updaters.Reachable.moves (hr : Updaters.Reachable files dir cs st u) (moves : List Move)
    (h : ∀ mv ∈ moves, mv.connection ∈ cs) :
    Updaters.Reachable files dir cs st (moves.foldl (Updaters.move files dir) u) := by
  induction moves generalizing u with
  | nil => exact hr
  | cons mv moves ih =>
      exact ih (hr.move mv (h mv List.mem_cons_self)) fun w hw => h w (List.mem_cons_of_mem _ hw)

/-- The connection's update has ended with the failure of the version. -/
def Updaters.hasFailed (u : Updaters σ) (c : Connection) (v : Int) : Bool :=
  match u.phase c with
  | .returned (.error (.failed w _ _)) => w = v
  | _ => false

namespace Updaters

omit [Stores σ] in
theorem enter_enter (u : Updaters σ) (c : Connection) (st st' : σ) (ph ph' : Phase) :
    (u.enter c st ph).enter c st' ph' = u.enter c st' ph' := by
  simp only [enter]
  congr 1
  funext d
  by_cases hd : d = c
  · rw [if_pos hd, if_pos hd]
  · rw [if_neg hd, if_neg hd, if_neg hd]

omit [Stores σ] in
theorem phase_enter (u : Updaters σ) (c : Connection) (st : σ) (ph : Phase) :
    (u.enter c st ph).phase c = ph := if_pos rfl

/-- The steps of a connection alone, each with the time at which it is made. -/
def advances (files : FileTree) (dir : Path) (c : Connection) (times : List String)
    (u : Updaters σ) : Updaters σ :=
  times.foldl (fun w time => w.advance files dir time c) u

/-- A connection that takes its steps alone applies the scripts that it has left. -/
theorem advance_applyAll (files : FileTree) {x : Nat} {rest : List Script}
    (hu : u.phase c = .applying x rest) (clock : Nat → String) :
    ∃ times, u.advances files dir c times =
      u.enter c (applyAll files c clock rest u.store).1
        (.returned ((applyAll files c clock rest u.store).2.1.map fun _ => x)) := by
  induction rest generalizing u clock with
  | nil =>
      refine ⟨[clock 0], ?_⟩
      show u.advance files dir (clock 0) c = _
      simp only [advance, hu, applyAll, Except.map]
  | cons s rest ih =>
      cases ht : files.readText s.path with
      | error e =>
          refine ⟨[clock 0], ?_⟩
          show u.advance files dir (clock 0) c = _
          simp only [advance, hu, applyAll, ht, Except.map]
      | ok text =>
          rcases ha : apply c s.version text (clock 0) u.store with ⟨st', e | y⟩
          · refine ⟨[clock 0], ?_⟩
            show u.advance files dir (clock 0) c = _
            simp only [advance, hu, applyAll, ht, ha, Except.map]
          · have hstep : u.advance files dir (clock 0) c = u.enter c st' (.applying x rest) := by
              simp only [advance, hu, ht, ha]
            obtain ⟨times, hrest⟩ :=
              ih (u.phase_enter c st' (.applying x rest)) fun i => clock (i + 1)
            refine ⟨clock 0 :: times, ?_⟩
            show (u.advance files dir (clock 0) c).advances files dir c times = _
            rw [hstep, hrest, enter_enter, applyAll_cons_read rest ht ha]
            rfl

/-- **A connection that takes its steps alone does what `update` does.** -/
theorem advance_alone (hu : u.phase c = .arriving) (clock : Nat → String) :
    ∃ times, u.advances files dir c times =
      u.enter c (update files clock dir c u.store).1
        (.returned (update files clock dir c u.store).2.1) := by
  rcases hd : discover files dir c.provider with ⟨e | scripts, log⟩
  · -- The directory is refused in the first step.
    refine ⟨[clock 0], ?_⟩
    show u.advance files dir (clock 0) c = _
    rw [update_of_error (pending_of_discovery c u.store hd)]
    simp only [advance, hu, hd]
  · rcases hb : c.executeBatch makeRecords u.store with ⟨st', e | x⟩
    · have hv : currentVersion c u.store = (st', .error (.bookkeeping e)) := by
        simp only [currentVersion, hb]
      refine ⟨[clock 0], ?_⟩
      show u.advance files dir (clock 0) c = _
      rw [update_of_error (pending_of_bookkeeping hd hv)]
      simp only [advance, hu, hd, hb]
    · -- The table of records is there: one step asks for the largest version, and the rest apply.
      have hfirst : u.advance files dir (clock 0) c = u.enter c st' (.asking scripts) := by
        simp only [advance, hu, hd, hb]
      have hphase := u.phase_enter c st' (.asking scripts)
      rcases hh : highestVersion c st' with ⟨st₂, e | current⟩
      · have hv : currentVersion c u.store = (st₂, .error (.bookkeeping e)) := by
          simp only [currentVersion, hb, hh]
        refine ⟨[clock 0, clock 0], ?_⟩
        show (u.advance files dir (clock 0) c).advance files dir (clock 0) c = _
        have hstore : (u.enter c st' (.asking scripts)).store = st' := rfl
        rw [hfirst, update_of_error (pending_of_bookkeeping hd hv)]
        simp only [advance, hphase, hstore, hh, enter_enter]
      · have hv : currentVersion c u.store = (st₂, .ok current) := by
          simp only [currentVersion, hb, hh]
        have hsecond : (u.enter c st' (.asking scripts)).advance files dir (clock 0) c =
            u.enter c st₂ (.applying (newer current scripts).length (newer current scripts)) := by
          have hstore : (u.enter c st' (.asking scripts)).store = st' := rfl
          simp only [advance, hphase, hstore, hh, enter_enter]
        have happly : ∃ times, Updaters.advances files dir c times _ = _ :=
          advance_applyAll files (u.phase_enter c st₂
            (.applying (newer current scripts).length (newer current scripts))) clock
        obtain ⟨times, htimes⟩ := happly
        refine ⟨clock 0 :: clock 0 :: times, ?_⟩
        show ((u.advance files dir (clock 0) c).advance files dir (clock 0) c).advances files dir c
          times = _
        rw [hfirst, hsecond, htimes, enter_enter,
          update_of_pending clock (pending_of_version hd hv)]
        rfl

end Updaters

end PooledStore.Migration
