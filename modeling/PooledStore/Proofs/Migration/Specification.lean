import PooledStore.Proofs.Migration.Discovery
import PooledStore.Proofs.Migration.Deeds

/-!
# What an update does

`update` applies a first part of the pending scripts, in order, and tells how far it came
(`Commits`). `update_commits` says so for all stores in which the table of records, if it is there,
keeps versions as integers, unless they refuse to make or to read that table.
-/

set_option autoImplicit false

namespace PooledStore.Migration

open Config

variable {σ κ υ : Type} [Stores σ] {R : Reading σ κ υ}
variable {files : FileTree} {clock : Nat → String} {dir : Path} {c : Connection} {st st' : σ}
variable {db : Nat} {k : κ} {keyed : Bool} {vs : Multiset Int} {s : Script} {text : String}

/-! ## Scripts in order -/

/-- Of the scripts the first `n` were applied: these are all and the result is `x`, or the next one
could not be read or has failed. -/
def Stops {α : Type} (files : FileTree) (scripts : List Script) (n : Nat) (x : α)
    (r : Except Error α) : Prop :=
  n = scripts.length ∧ r = .ok x ∨ ∃ s, scripts[n]? = some s ∧
    ((∃ e, files.readText s.path = .error e ∧ r = .error (.readScript s.version s.name e)) ∨
      ∃ text e, files.readText s.path = .ok text ∧ r = .error (.failed s.version s.name e))

/-- Where all goes well, no script was left. -/
theorem Stops.eq_length {α : Type} {files : FileTree} {scripts : List Script} {n : Nat} {x y : α}
    {r : Except Error α} (h : Stops files scripts n x r) (hr : r = .ok y) :
    n = scripts.length := by
  obtain ⟨hlen, -⟩ | ⟨s, -, ⟨e, -, hres⟩ | ⟨text, e, -, hres⟩⟩ := h
  · exact hlen
  · cases hr.symm.trans hres
  · cases hr.symm.trans hres

/-- How far scripts are applied, and what comes of it: the scripts that were not begun are not
read. -/
structure Applied (R : Reading σ κ υ) (files : FileTree) (clock : Nat → String) (c : Connection)
    (st : σ) (db : Nat) (k : κ) (keyed : Bool) (vs : Multiset Int) (scripts : List Script)
    (n : Nat) : Prop where
  bound : n ≤ scripts.length
  performed : ∃ deeds k', DeedsOf files (scripts.take n) deeds ∧ Performed R c.provider deeds k k' ∧
    R.Idle (applyAll files c clock scripts st).1 c.session db k' ∧
    R.records k' = .kept keyed (((scripts.take n).map (·.version) : List Int) + vs)
  result : Stops files scripts n () (applyAll files c clock scripts st).2.1
  log : (applyAll files c clock scripts st).2.2 = (scripts.take (n + 1)).map begun
  unread : ∀ files' : FileTree,
    (∀ s ∈ scripts.take (n + 1), files'.readText s.path = files.readText s.path) →
      applyAll files' c clock scripts st = applyAll files c clock scripts st

/-- Where the first script stops everything, nothing was applied. -/
theorem Applied.of_stopped {rest : List Script} {r : Except Error Unit}
    (h : R.Idle st' c.session db k) (hk : R.records k = .kept keyed vs)
    (hall : applyAll files c clock (s :: rest) st = (st', r, [begun s]))
    (hr : Stops files (s :: rest) 0 () r)
    (hunread : ∀ files' : FileTree, files'.readText s.path = files.readText s.path →
      applyAll files' c clock (s :: rest) st = (st', r, [begun s])) :
    Applied R files clock c st db k keyed vs (s :: rest) 0 where
  bound := Nat.zero_le _
  performed := ⟨[], k, .nil, .nil, by rwa [hall], by simpa using hk⟩
  result := by rwa [hall]
  log := by rw [hall]; rfl
  unread files' hf := (hunread files' (hf s (by simp))).trans hall.symm

/-- Where the first script is applied, the others decide how far it goes. -/
theorem Applied.of_applied {rest : List Script} {k₁ : κ} {n : Nat}
    (ht : files.readText s.path = .ok text)
    (ha : apply c s.version text (clock 0) st = (st', .ok ()))
    (hd : Deed.Done R c.provider ⟨s.version, text⟩ k k₁)
    (h : Applied R files (fun i => clock (i + 1)) c st' db k₁ keyed (s.version ::ₘ vs) rest n) :
    Applied R files clock c st db k keyed vs (s :: rest) (n + 1) := by
  have hall := applyAll_cons_read rest ht ha
  obtain ⟨deeds, k', hof, hdone, hidle, hrec⟩ := h.performed
  refine ⟨Nat.succ_le_succ h.bound, ⟨⟨s.version, text⟩ :: deeds, k', ?_, ?_, ?_, ?_⟩, ?_, ?_,
    fun files' hf => ?_⟩
  · exact .cons ⟨rfl, ht⟩ hof
  · exact .cons hd hdone
  · rwa [hall]
  · rw [hrec, List.take_succ_cons, List.map_cons, ← Multiset.cons_coe, Multiset.cons_add,
      Multiset.add_cons]
  · rw [hall]
    refine h.result.imp (fun ⟨hn, hr⟩ => ⟨congrArg (· + 1) hn, hr⟩) ?_
    rintro ⟨u, hu, hr⟩
    exact ⟨u, hu, hr⟩
  · rw [hall, h.log]
    rfl
  · have hs : files'.readText s.path = .ok text := (hf s (by simp)).trans ht
    rw [hall, applyAll_cons_read rest hs ha, h.unread files' fun u hu => hf u ?_]
    rw [List.take_succ_cons]
    exact List.mem_cons_of_mem _ hu

/-- Plain scripts are applied up to the first that fails. -/
theorem exists_applied (laws : R.Transactional) (books : R.Bookkeeping) (files : FileTree)
    (clock : Nat → String) (scripts : List Script) (h : R.Idle st c.session db k)
    (hk : R.records k = .kept keyed vs)
    (hp : ∀ s ∈ scripts, ∀ text, files.readText s.path = .ok text → Plain R c.provider text) :
    ∃ n, Applied R files clock c st db k keyed vs scripts n := by
  induction scripts generalizing st k vs clock with
  | nil =>
      exact ⟨0, Nat.le_refl 0, ⟨[], k, .nil, .nil, h, by simpa using hk⟩, Or.inl ⟨rfl, rfl⟩, rfl,
        fun _ _ => rfl⟩
  | cons s rest ih =>
      cases ht : files.readText s.path with
      | error e =>
          refine ⟨0, .of_stopped h hk (applyAll_cons_unread ht)
            (Or.inr ⟨s, rfl, Or.inl ⟨e, ht, rfl⟩⟩) fun files' hf => ?_⟩
          exact applyAll_cons_unread (hf.trans ht)
      | ok text =>
          have hplain := hp s List.mem_cons_self text ht
          obtain ⟨hok, k₁, hd, hi, hrec, -⟩ | ⟨⟨e, he⟩, hi⟩ :=
            apply_plain laws books h hk hplain s.version (clock 0)
          · obtain ⟨n, hn⟩ :=
              ih (fun i => clock (i + 1)) hi hrec fun u hu => hp u (List.mem_cons_of_mem _ hu)
            exact ⟨n + 1, .of_applied ht (Prod.ext rfl hok) hd hn⟩
          · have ha : apply c s.version text (clock 0) st =
                ((apply c s.version text (clock 0) st).1, .error e) := Prod.ext rfl he
            refine ⟨0, .of_stopped hi hk (applyAll_cons_failed ht ha)
              (Or.inr ⟨s, rfl, Or.inr ⟨text, e, ht, rfl⟩⟩) fun files' hf => ?_⟩
            exact applyAll_cons_failed (hf.trans ht) ha

/-! ## An update -/

/-- The scripts whose versions are greater than all that are recorded. -/
def unrecorded (vs : Multiset Int) (scripts : List Script) : List Script :=
  scripts.filter fun s => ∀ v ∈ vs, v < s.version

theorem mem_unrecorded {scripts : List Script} :
    s ∈ unrecorded vs scripts ↔ s ∈ scripts ∧ ∀ v ∈ vs, v < s.version := by
  simp [unrecorded, List.mem_filter]

theorem newer_of_greatest {m : Option Int} (h : Greatest vs m) (scripts : List Script) :
    newer m scripts = unrecorded vs scripts := by
  cases m with
  | none =>
      obtain rfl : vs = 0 := h
      simp [newer, unrecorded]
  | some n =>
      refine List.filter_congr fun s _ => decide_eq_decide.mpr ⟨fun hn v hv => ?_, fun hall => ?_⟩
      · exact (h.2 v hv).trans_lt hn
      · exact hall n h.1

theorem unrecorded_ascending {scripts : List Script}
    (ho : scripts.Pairwise fun a b => a.version < b.version) :
    (unrecorded vs scripts).Pairwise fun a b => a.version < b.version :=
  ho.sublist List.filter_sublist

/-- Of versions that a list of newer ones was added to, the last of the list is the largest. -/
theorem greatest_added {scripts : List Script} {m : Option Int}
    (ho : scripts.Pairwise fun a b => a.version < b.version)
    (hnew : ∀ s ∈ scripts, ∀ v ∈ vs, v < s.version)
    (h : Greatest (((scripts.map (·.version) : List Int) : Multiset Int) + vs) m) :
    (scripts = [] → Greatest vs m) ∧ ∀ s, scripts.getLast? = some s → m = some s.version := by
  constructor
  · rintro rfl
    simpa using h
  · intro s hs
    obtain ⟨before, rfl⟩ := List.getLast?_eq_some_iff.mp hs
    have hmem : s.version ∈ (((before ++ [s]).map (·.version) : List Int) : Multiset Int) + vs := by
      simp
    cases m with
    | none =>
        rw [show _ = (0 : Multiset Int) from h] at hmem
        cases hmem
    | some n =>
        obtain ⟨hn, hall⟩ := h
        refine congrArg some (le_antisymm ?_ (hall _ hmem))
        -- Every version of the sum is at most the last of the list.
        rcases Multiset.mem_add.mp hn with hn | hn
        · obtain ⟨u, hu, rfl⟩ := List.mem_map.mp (Multiset.mem_coe.mp hn)
          rcases List.mem_append.mp hu with hu | hu
          · exact ((List.pairwise_append.mp ho).2.2 u hu s (List.mem_singleton_self s)).le
          · rw [List.mem_singleton.mp hu]
        · exact (hnew s (List.mem_append_right _ (List.mem_singleton_self s)) n hn).le

/-- `update` commits the first `n` of the pending scripts, each with its record, and nothing else
but the table of records. `pending` gives the same scripts before, and does no more than to make
that table; the largest version after is that of the last script that was applied, if any was. The
script at which `update` stops is named, and what comes after it is not looked at. -/
structure Commits (R : Reading σ κ υ) (files : FileTree) (clock : Nat → String) (dir : Path)
    (c : Connection) (st : σ) (db : Nat) (k : κ) (scripts : List Script) (n : Nat) : Prop where
  bound : n ≤ scripts.length
  pending : ∃ st₁ k₁ log, pending files dir c st = (st₁, .ok scripts, log) ∧
    R.Idle st₁ c.session db k₁ ∧ Furnished R c.provider k k₁
  committed : ∃ k₁ deeds k' keyed, Furnished R c.provider k k₁ ∧
    DeedsOf files (scripts.take n) deeds ∧ Performed R c.provider deeds k₁ k' ∧
    R.Idle (update files clock dir c st).1 c.session db k' ∧
    R.records k' =
      .kept keyed (((scripts.take n).map (·.version) : List Int) + (R.records k).versions)
  result : Stops files scripts n scripts.length (update files clock dir c st).2.1
  log : (update files clock dir c st).2.2 = (discover files dir c.provider).2 ++
    (scripts.take (n + 1)).map begun ++ if n < scripts.length then [] else [closing dir scripts]
  unread : ∀ files' : FileTree, discover files' dir c.provider = discover files dir c.provider →
    (∀ s ∈ scripts.take (n + 1), files'.readText s.path = files.readText s.path) →
      update files' clock dir c st = update files clock dir c st
  current : ∀ st₂ m, currentVersion c (update files clock dir c st).1 = (st₂, .ok m) →
    (scripts.take n = [] → Greatest (R.records k).versions m) ∧
      ∀ s, (scripts.take n).getLast? = some s → m = some s.version

theorem pending_of_discovery (c : Connection) (st : σ) {e : DiscoveryError} {log : List Log.Event}
    (hd : discover files dir c.provider = (.error e, log)) :
    pending files dir c st = (st, .error (.discovery e), log) := by
  simp only [pending, hd]

theorem pending_of_bookkeeping {scripts : List Script} {log : List Log.Event} {e : Error}
    (hd : discover files dir c.provider = (.ok scripts, log))
    (hv : currentVersion c st = (st', .error e)) :
    pending files dir c st = (st', .error e, log) := by
  simp only [pending, hd, hv]

theorem pending_of_version {scripts : List Script} {log : List Log.Event} {m : Option Int}
    (hd : discover files dir c.provider = (.ok scripts, log))
    (hv : currentVersion c st = (st', .ok m)) :
    pending files dir c st = (st', .ok (newer m scripts), log) := by
  simp only [pending, hd, hv]

/-- An update that is told the largest version commits a first part of what is pending. -/
theorem exists_commits (laws : R.Transactional) (books : R.Bookkeeping) (clock : Nat → String)
    {scripts : List Script} {log : List Log.Event} {m : Option Int}
    (h : R.Idle st c.session db k) (hr : R.records k ≠ .other)
    (hd : discover files dir c.provider = (.ok scripts, log))
    (hv : currentVersion c st = (st', .ok m))
    (hp : ∀ s ∈ scripts, ∀ text, files.readText s.path = .ok text → Plain R c.provider text) :
    ∃ n, Commits R files clock dir c st db k (unrecorded (R.records k).versions scripts) n := by
  obtain ⟨k₁, hi, hf, hm⟩ := currentVersion_ok laws books h hr hv
  obtain ⟨keyed, hkept⟩ := hf.kept
  have hpend := pending_of_version hd hv
  rw [newer_of_greatest hm] at hpend
  have hup := update_of_pending clock hpend
  obtain ⟨n, hn⟩ := exists_applied laws books files clock
    (unrecorded (R.records k).versions scripts) hi hkept fun s hs => hp s (mem_unrecorded.mp hs).1
  obtain ⟨deeds, k', hof, hdone, hidle, hrec⟩ := hn.performed
  have hfst : (update files clock dir c st).1 =
      (applyAll files c clock (unrecorded (R.records k).versions scripts) st').1 := by rw [hup]
  -- One goal for each field of `Commits` that `Applied` does not give at once.
  refine ⟨n, hn.bound, ⟨st', k₁, log, hpend, hi, hf⟩,
    ⟨k₁, deeds, k', keyed, hf, hof, hdone, by rwa [hfst], hrec⟩, ?_, ?_, ?_, ?_⟩
  · rw [hup]
    refine hn.result.imp (fun ⟨hlen, hres⟩ => ⟨hlen, by rw [hres]; rfl⟩) ?_
    rintro ⟨s, hs, ⟨e, hread, hres⟩ | ⟨text, e, hread, hres⟩⟩
    · exact ⟨s, hs, Or.inl ⟨e, hread, by rw [hres]; rfl⟩⟩
    · exact ⟨s, hs, Or.inr ⟨text, e, hread, by rw [hres]; rfl⟩⟩
  · rw [hup, hn.log, hd]
    obtain ⟨hlen, hres⟩ | ⟨s, hs, hres⟩ := hn.result
    · rw [hres, if_neg (by omega)]
    · have hlt := (List.getElem?_eq_some_iff.mp hs).1
      obtain ⟨e, -, hres⟩ | ⟨text, e, -, hres⟩ := hres
      · rw [hres, if_pos hlt]
      · rw [hres, if_pos hlt]
  · intro files' hdisc hread
    have hpend' := pending_of_version (hdisc.trans hd) hv
    rw [newer_of_greatest hm] at hpend'
    rw [update_of_pending clock hpend', hup, hn.unread files' hread]
  · intro st₂ m' hcur
    rw [hfst] at hcur
    obtain ⟨-, -, -, hm'⟩ :=
      currentVersion_ok laws books hidle (Records.ne_other_of_kept hrec) hcur
    rw [hrec] at hm'
    refine greatest_added ?_ (fun s hs => ?_) hm'
    · exact (unrecorded_ascending (discover_ascending hd)).sublist (List.take_sublist n _)
    · exact (mem_unrecorded.mp (List.mem_of_mem_take hs)).2

/-- A session that nothing disturbs is told the largest version after such an update. -/
theorem Commits.answers {scripts : List Script} {n : Nat} (laws : R.Transactional)
    (books : R.Bookkeeping) (steady : R.Steady)
    (h : Commits R files clock dir c st db k scripts n) (hu : R.undisturbed st c.session) :
    ∃ st₂ m, currentVersion c (update files clock dir c st).1 = (st₂, .ok m) := by
  obtain ⟨-, -, k', keyed, -, -, -, hidle, hrec⟩ := h.committed
  have hu' : R.undisturbed (update files clock dir c st).1 c.session :=
    update_keep (P := fun a => R.undisturbed a c.session) (fun ha hact => steady.acts hact ha) hu
  obtain ⟨st₂, m, hcur, -⟩ := currentVersion_again laws books steady (.same hrec) rfl hidle hu'
  exact ⟨st₂, m, hcur⟩

/-- Where the store refuses to make the table of records or to tell the largest version, `pending`
and `update` fail with the same error. -/
theorem update_refused (clock : Nat → String) (laws : R.Transactional) (books : R.Bookkeeping)
    {scripts : List Script} {log : List Log.Event} {e : Error} (h : R.Idle st c.session db k)
    (hr : R.records k ≠ .other) (hd : discover files dir c.provider = (.ok scripts, log))
    (hv : currentVersion c st = (st', .error e)) :
    ∃ cause k', pending files dir c st = (st', .error (.bookkeeping cause), log) ∧
      update files clock dir c st = (st', .error (.bookkeeping cause), log) ∧
      R.Idle st' c.session db k' ∧ (k' = k ∨ Furnished R c.provider k k') := by
  obtain ⟨⟨cause, rfl⟩, k', hi, hk'⟩ := currentVersion_error laws books h hr hv
  have hpend := pending_of_bookkeeping hd hv
  exact ⟨cause, k', hpend, update_of_error hpend, hi, hk'⟩

open Sql

/-- None of the statements of the script controls transactions or mentions the table of records. -/
def plainText (text : String) : Bool :=
  (statements text).all fun stmt => !stmt.controls && !stmt.mentions recordTable

theorem plain_of_plainText {p : Provider} (h : plainText text = true) :
    Plain World.reading p text := by
  have hall : ∀ stmt ∈ statements text,
      stmt.controls = false ∧ stmt.mentions recordTable = false := by
    simpa [plainText] using h
  constructor
  · rintro ⟨stmt, hs, hc⟩
    rw [(hall stmt hs).1] at hc
    cases hc
  · rintro ⟨stmt, hs, hm⟩
    rw [(hall stmt hs).2] at hm
    cases hm

/-- An index has the name of the table of records. -/
def indexNamed : Catalog :=
  ⟨[⟨"t", [⟨"x", .integer, false, none⟩], none, false, 0, [], [], [], []⟩],
    [⟨recordTable, "t", false, [0]⟩]⟩

end PooledStore.Migration
