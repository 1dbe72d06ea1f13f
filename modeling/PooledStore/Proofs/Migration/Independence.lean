import Mathlib.Data.List.Sort
import PooledStore.Proofs.Migration.Prefix

/-!
# Updates that leave no history

A database is updated again and again over a directory that is edited in between: recorded scripts
stay as they are, and what is new or changed is newer than everything recorded (`Edited`). Whatever
fails on the way, what was done is always the recorded scripts of the last directory in their order,
each once (`Lineage`). So as soon as an update succeeds, the contents of the database are what one
update over the last directory makes of those at first, and one more update changes nothing
(`Updates.history_independent`).
-/

set_option autoImplicit false

namespace PooledStore.Migration

open Config

variable {σ κ υ : Type} [Stores σ] {R : Reading σ κ υ} {files : FileTree} {clock : Nat → String}
variable {st st' : σ} {c : Connection} {db : Nat} {k k' k₀ k₁ : κ} {p : Provider}
variable {past : List (σ × Round)} {r : Round} {deeds more : List Deed} {scripts : List Script}
variable {keyed : Bool} {vs : Multiset Int}

/-! ## Scripts that are deterministic -/

/-- What the script has made of what a session saw, with a table of records, it makes of it again,
in every session that nothing disturbs. -/
def Deterministic (R : Reading σ κ υ) (p : Provider) (text : String) : Prop :=
  ∀ {c c' : Connection} {st st' a : σ} {db db' : Nat} {k l k' : κ} {keyed : Bool}
    {vs : Multiset Int}, c.provider = p → c'.provider = p → R.records k = .kept keyed vs →
    R.Inside st c.session db k l → R.Inside st' c'.session db' k l →
    R.undisturbed st' c'.session → Stores.batch c text st = (a, .ok ()) →
    R.Inside a c.session db k' l →
    ∃ a', Stores.batch c' text st' = (a', .ok ()) ∧ R.Inside a' c'.session db' k' l

/-- The script is plain and deterministic. -/
structure Discreet (R : Reading σ κ υ) (p : Provider) (text : String) : Prop extends
    Plain R p text where
  deterministic : Deterministic R p text

/-- An operation that succeeds leaves the stores in some state. -/
theorem exists_ok {α : Type} {a : α × Except String Unit} (h : a.2 = .ok ()) :
    ∃ a₁, a = (a₁, .ok ()) :=
  ⟨a.1, Prod.ext rfl h⟩

/-- **A migration that was carried out is carried out again**, at another time, in every session
that sees the same and that nothing disturbs. -/
theorem Deed.Done.again {d : Deed} (laws : R.Transactional) (books : R.Bookkeeping)
    (steady : R.Steady) (h : d.Done R p k k') (hd : Discreet R p d.text)
    (hk : R.records k = .kept keyed vs) (hp : c.provider = p) (hi : R.Idle st c.session db k)
    (hu : R.undisturbed st c.session) (time : String) :
    (apply c d.version d.text time st).2 = .ok () ∧
      R.Idle (apply c d.version d.text time st).1 c.session db k' ∧
      R.undisturbed (apply c d.version d.text time st).1 c.session := by
  have hundisturbed : R.undisturbed (apply c d.version d.text time st).1 c.session :=
    apply_keep (P := fun a => R.undisturbed a c.session) (fun ha hact => steady.acts hact ha) hu _ _
      _
  obtain ⟨c₀, st₀, time₀, db₀, hp₀, hi₀, hok₀, hi₀'⟩ := h.applied
  have hplain : Plain R c₀.provider d.text := hp₀ ▸ hd.toPlain
  obtain ⟨b₁, b₂, b₃, k₁, k₂, h₁, hbatch₀, h₂, hrec₀, h₃, hcom₀, hend⟩ :=
    sights_of_ok laws hplain.controls hi₀ hok₀
  obtain ⟨-, rfl⟩ := hend.unique hi₀'
  have hkept : R.records k₁ = .kept keyed vs :=
    hplain.records books h₁ hk (Records.ne_other_of_kept rfl) hbatch₀ h₂
  have hpp : c.provider = c₀.provider := hp.trans hp₀.symm
  -- The session goes through the same steps as the one before.
  obtain ⟨st₁, hbegin⟩ := exists_ok (steady.begin hi hu)
  have hu₁ := steady.acts (.begin (c := c)) hu
  rw [hbegin] at hu₁
  have h₁' := laws.begin_ok hi hbegin
  obtain ⟨st₂, hbatch, h₂'⟩ := hd.deterministic hp₀ hp hk h₁ h₁' hu₁ hbatch₀ h₂
  have hu₂ := steady.acts (.batch d.text) hu₁
  rw [hbatch] at hu₂
  obtain ⟨st₃, hrec, h₃'⟩ := steady.record time hpp h₂ h₂' hu₂ hkept hrec₀ h₃
  have hu₃ := steady.acts (.record d.version time) hu₂
  rw [hrec] at hu₃
  have hrecs := (books.record h₂ hkept hrec₀ h₃).1
  obtain ⟨st₄, hcommit⟩ := exists_ok (steady.commit hpp h₃ h₃' hu₃ hrecs
    (Records.ne_other_of_kept hk) hcom₀)
  have happly : apply c d.version d.text time st = (st₄, .ok ()) := by
    simp only [apply, hbegin, hbatch, hrec, hcommit, Connection.answer, Except.mapError]
  refine ⟨by rw [happly], ?_, hundisturbed⟩
  rw [happly]
  exact laws.commit_ok h₃' hcommit

/-! ## Directories that are edited -/

/-- The version of a script, and what its file holds. -/
def content (files : FileTree) (s : Script) : Int × Except FileError String :=
  (s.version, files.readText s.path)

/-- The version of a migration, and its script. -/
def Deed.content (d : Deed) : Int × Except FileError String := (d.version, .ok d.text)

namespace Round

/-- The versions of the scripts that are discovered, and what their files hold. -/
def contents (r : Round) : List (Int × Except FileError String) := r.found.map (content r.files)

/-- The scripts are plain and deterministic. -/
def Discreet (R : Reading σ κ υ) (r : Round) : Prop :=
  ∀ s ∈ r.found, ∀ text, r.files.readText s.path = .ok text →
    Migration.Discreet R r.connection.provider text

instance : Decidable r.Discovers :=
  inferInstanceAs (Decidable
    ((discover r.files r.dir r.connection.provider).1.toOption.isSome = true))

/-- Where the scripts cannot be told, an update fails and leaves the stores as they are. -/
theorem after_of_not_discovers (h : ¬ r.Discovers) (st : σ) :
    r.after st = st ∧ ∃ e, r.result st = .error e := by
  rcases hd : discover r.files r.dir r.connection.provider with ⟨e | scripts, log⟩
  · have hup : update r.files r.clock r.dir r.connection st = (st, .error (.discovery e), log) :=
      update_of_error (pending_of_discovery r.connection st hd)
    rw [after, result, hup]
    exact ⟨rfl, _, rfl⟩
  · rw [Discovers, hd] at h
    exact absurd rfl h

end Round

theorem Round.contents_ascending (r : Round) : r.contents.Pairwise fun a b => a.1 < b.1 :=
  List.pairwise_map.mpr r.found_ascending

/-- What the directory held when its scripts could last be told. -/
def lastContents : List (σ × Round) → List (Int × Except FileError String)
  | [] => []
  | (_, r) :: past => if r.Discovers then r.contents else lastContents past

omit [Stores σ] in
theorem lastContents_ascending (past : List (σ × Round)) :
    (lastContents past).Pairwise fun a b => a.1 < b.1 := by
  induction past with
  | nil => exact .nil
  | cons p past ih =>
      rw [lastContents]
      split
      · exact p.2.contents_ascending
      · exact ih

/-- From one update to the next, scripts that are recorded stay as they are, and those that are new
or changed are newer than everything recorded. -/
def Edited (R : Reading σ κ υ) : List (σ × Round) → Prop
  | [] => True
  | (st, r) :: past => Edited R past ∧ (r.Discovers →
      (∀ e ∈ lastContents past, e.1 ∈ R.recorded st r.session → e ∈ r.contents) ∧
        ∀ e ∈ r.contents, e ∈ lastContents past ∨ ∀ v ∈ R.recorded st r.session, v < e.1)

/-- Contents in the order of their versions are told by which they are. -/
theorem eq_of_ascending {l l' : List (Int × Except FileError String)}
    (h : l.Pairwise fun a b => a.1 < b.1) (h' : l'.Pairwise fun a b => a.1 < b.1)
    (hm : ∀ e, e ∈ l ↔ e ∈ l') : l = l' := by
  have : Std.Irrefl fun a b : Int × Except FileError String => a.1 < b.1 := ⟨fun a => lt_irrefl a.1⟩
  have : Std.Antisymm fun a b : Int × Except FileError String => a.1 < b.1 :=
    ⟨fun _ _ hab hba => absurd hab hba.asymm⟩
  exact h.eq_of_mem_iff h' hm

/-! ## What was done so far -/

/-- What is seen is what the migrations have made of what was seen at first, after the table of
records was made if there was none; or nothing was done. The migrations are the recorded ones, and
the first ones of the directory. -/
structure Lineage (R : Reading σ κ υ) (p : Provider) (k₀ : κ) (past : List (σ × Round)) (k : κ)
    (deeds : List Deed) : Prop where
  done : deeds = [] ∧ k = k₀ ∨ ∃ k₁, Furnished R p k₀ k₁ ∧ Performed R p deeds k₁ k
  discreet : ∀ d ∈ deeds, Discreet R p d.text
  kept : R.records k ≠ .other
  recorded : (R.records k).versions = (deeds.map (·.version) : List Int)
  first : deeds.map Deed.content <+: lastContents past

/-- All scripts of the directory were carried out, in order, after the table of records was made. -/
structure CaughtUp (R : Reading σ κ υ) (p : Provider) (k₀ : κ) (r : Round) (k : κ)
    (deeds : List Deed) : Prop where
  discovers : r.Discovers
  contents : r.contents = deeds.map Deed.content
  discreet : ∀ d ∈ deeds, Discreet R p d.text
  recorded : ∃ keyed, R.records k = .kept keyed (deeds.map (·.version) : List Int)
  done : ∃ k₁, Furnished R p k₀ k₁ ∧ Performed R p deeds k₁ k

/-- What was furnished stays furnished. -/
theorem Furnished.trans {k₂ : κ} (h : Furnished R p k k₁) (h' : Furnished R p k₁ k₂) :
    Furnished R p k k₂ := by
  obtain ⟨keyed, hk⟩ := h.kept
  cases h' with
  | same _ => exact h
  | made habs _ _ _ =>
      rw [hk] at habs
      cases habs

/-- The deeds are told by what the files of their scripts hold. -/
theorem DeedsOf.contents (h : DeedsOf files scripts deeds) :
    deeds.map Deed.content = scripts.map (content files) := by
  induction h with
  | nil => rfl
  | cons hsd _ ih =>
      obtain ⟨hv, ht⟩ := hsd
      rw [List.map_cons, List.map_cons, ih, Deed.content, content, hv, ht]

theorem DeedsOf.versions (h : DeedsOf files scripts deeds) :
    deeds.map (·.version) = scripts.map (·.version) := by
  have heq := congrArg (List.map Prod.fst) h.contents
  rw [List.map_map, List.map_map] at heq
  exact heq

theorem DeedsOf.discreet (h : DeedsOf files scripts deeds)
    (hp : ∀ s ∈ scripts, ∀ text, files.readText s.path = .ok text → Discreet R p text) :
    ∀ d ∈ deeds, Discreet R p d.text := by
  intro d hd
  have hcontent : d.content ∈ deeds.map Deed.content := List.mem_map_of_mem hd
  obtain ⟨s, hs, heq⟩ := List.mem_map.mp (h.contents ▸ hcontent)
  exact hp s hs _ (Prod.mk.inj heq).2

namespace Lineage

/-- Once the table of records is there, all that was done has begun with it. -/
theorem furnish (h : Lineage R p k₀ past k deeds) (hf : Furnished R p k k') :
    ∃ k₁, Furnished R p k₀ k₁ ∧ Performed R p deeds k₁ k' := by
  obtain ⟨rfl, rfl⟩ | ⟨k₁, hf₁, hdone⟩ := h.done
  · exact ⟨k', hf, .nil⟩
  · cases hf with
    | same _ => exact ⟨k₁, hf₁, hdone⟩
    | made habs hmade hk' ho =>
        -- Where the table is not there, nothing is recorded, and nothing was done.
        have hnone := h.recorded
        rw [habs] at hnone
        obtain rfl : deeds = [] := List.map_eq_nil_iff.mp (Multiset.coe_eq_zero _ |>.mp hnone.symm)
        cases hdone
        exact ⟨k', hf₁.trans (.made habs hmade hk' ho), .nil⟩

/-- The directory has the migrations first, and then what is newer than all of them. -/
theorem contents_eq (h : Lineage R p k₀ past k deeds) (hi : R.Idle st r.session db k)
    (hd : r.Discovers) (he : Edited R ((st, r) :: past)) :
    r.contents = deeds.map Deed.content ++
      (unrecorded (R.records k).versions r.found).map (content r.files) := by
  obtain ⟨hkept, hnew⟩ := he.2 hd
  rw [hi.recorded] at hkept hnew
  have hlast := lastContents_ascending past
  obtain ⟨rest, hrest⟩ := h.first
  rw [← hrest] at hkept hnew hlast
  have hrecorded : ∀ d ∈ deeds, d.version ∈ (R.records k).versions := by
    intro d hm
    rw [h.recorded]
    exact Multiset.mem_coe.mpr (List.mem_map_of_mem hm)
  have hasc : (deeds.map Deed.content ++
      (unrecorded (R.records k).versions r.found).map (content r.files)).Pairwise
        fun a b => a.1 < b.1 := by
    refine List.pairwise_append.mpr ⟨(List.pairwise_append.mp hlast).1, ?_, ?_⟩
    · exact List.pairwise_map.mpr (unrecorded_ascending r.found_ascending)
    · intro a ha b hb
      obtain ⟨d, hm, rfl⟩ := List.mem_map.mp ha
      obtain ⟨s, hs, rfl⟩ := List.mem_map.mp hb
      exact (mem_unrecorded.mp hs).2 _ (hrecorded d hm)
  -- Both sides are in the order of their versions, so it is enough to tell what is in them.
  refine eq_of_ascending r.contents_ascending hasc fun e => ⟨fun hm => ?_, fun hm => ?_⟩
  · -- What the last directory had after the migrations is newer than all of them.
    have hor : e ∈ deeds.map Deed.content ∨ ∀ v ∈ (R.records k).versions, v < e.1 := by
      rcases hnew e hm with hlast' | hgt
      · refine (List.mem_append.mp hlast').imp_right fun hrest' v hv => ?_
        rw [h.recorded] at hv
        obtain ⟨d, hd, rfl⟩ := List.mem_map.mp (Multiset.mem_coe.mp hv)
        exact (List.pairwise_append.mp hlast).2.2 _ (List.mem_map_of_mem hd) e hrest'
      · exact Or.inr hgt
    refine List.mem_append.mpr (hor.imp_right fun hgt => ?_)
    obtain ⟨s, hs, rfl⟩ := List.mem_map.mp hm
    exact List.mem_map.mpr ⟨s, mem_unrecorded.mpr ⟨hs, hgt⟩, rfl⟩
  · rcases List.mem_append.mp hm with hm | hm
    · obtain ⟨d, hd, rfl⟩ := List.mem_map.mp hm
      exact hkept _ (List.mem_append_left _ (List.mem_map_of_mem hd)) (hrecorded d hd)
    · obtain ⟨s, hs, rfl⟩ := List.mem_map.mp hm
      exact List.mem_map_of_mem (mem_unrecorded.mp hs).1

/-- Where an update does no more than make the table of records, nothing more was done. -/
theorem stay (h : Lineage R p k₀ past k deeds) (hk : k' = k ∨ Furnished R p k k')
    (hfirst : deeds.map Deed.content <+: lastContents ((st, r) :: past)) :
    Lineage R p k₀ ((st, r) :: past) k' deeds := by
  rcases hk with rfl | hf
  · exact ⟨h.done, h.discreet, h.kept, h.recorded, hfirst⟩
  · obtain ⟨keyed, hkept⟩ := hf.kept
    refine ⟨Or.inr (h.furnish hf), h.discreet, Records.ne_other_of_kept hkept, ?_, hfirst⟩
    rw [hkept]
    exact h.recorded

/-- What an update commits is added to what was done. -/
theorem commit {n : Nat} (h : Lineage R p k₀ past k deeds) (hp : r.connection.provider = p)
    (hi : R.Idle st r.session db k) (hi' : R.Idle (r.after st) r.session db k')
    (hr : r.Discreet R) (hd : r.Discovers) (he : Edited R ((st, r) :: past))
    (hn : Commits R r.files r.clock r.dir r.connection st db k
      (unrecorded (R.records k).versions r.found) n) :
    ∃ more, Lineage R p k₀ ((st, r) :: past) k' (deeds ++ more) ∧
      ∀ n, r.result st = .ok n → CaughtUp R p k₀ r k' (deeds ++ more) := by
  have hcontents := h.contents_eq hi hd he
  obtain ⟨k₁, more, k₂, keyed, hf, hof, hdone, hi₂, hrec⟩ := hn.committed
  obtain ⟨-, rfl⟩ := hi'.unique hi₂
  rw [hp] at hf hdone
  obtain ⟨k₃, hf₃, hdone₃⟩ := h.furnish hf
  have hall := hdone₃.append hdone
  have hmore := hof.contents
  have hdiscreet : ∀ d ∈ deeds ++ more, Discreet R p d.text := by
    refine List.forall_mem_append.mpr ⟨h.discreet, hof.discreet fun s hs => ?_⟩
    exact hp ▸ hr s (mem_unrecorded.mp (List.mem_of_mem_take hs)).1
  have hrecorded : R.records k' = .kept keyed ((deeds ++ more).map (·.version) : List Int) := by
    rw [hrec, List.map_append, hof.versions, ← Multiset.coe_add, ← h.recorded, Multiset.add_comm]
  have hversions : (R.records k').versions = ((deeds ++ more).map (·.version) : List Int) := by
    rw [hrecorded]
    rfl
  refine ⟨more, ⟨Or.inr ⟨k₃, hf₃, hall⟩, hdiscreet, Records.ne_other_of_kept hrecorded,
    hversions, ?_⟩, fun m hm => ⟨hd, ?_, hdiscreet, ⟨keyed, hrecorded⟩, k₃, hf₃, hall⟩⟩
  · -- What is pending comes after the migrations, and a first part of it was done.
    have hlast : lastContents ((st, r) :: past) = r.contents := if_pos hd
    rw [hlast, hcontents, List.map_append, hmore, List.map_take]
    exact (List.prefix_append_right_inj _).mpr (List.take_prefix _ _)
  · rw [hcontents, List.map_append, hmore, hn.result.eq_length hm, List.take_length]

/-- **One more update goes on from what was done**, and if it succeeds, all of the directory was
done. -/
theorem update (laws : R.Transactional) (books : R.Bookkeeping) (h : Lineage R p k₀ past k deeds)
    (hp : r.connection.provider = p) (hi : R.Idle st r.session db k)
    (hi' : R.Idle (r.after st) r.session db k') (hr : r.Discreet R)
    (he : Edited R ((st, r) :: past)) :
    ∃ more, Lineage R p k₀ ((st, r) :: past) k' (deeds ++ more) ∧
      ∀ n, r.result st = .ok n → CaughtUp R p k₀ r k' (deeds ++ more) := by
  by_cases hd : r.Discovers
  · have hlast : lastContents ((st, r) :: past) = r.contents := if_pos hd
    obtain ⟨log, hdisc⟩ := Round.discover_of_discovers hd
    rcases hv : currentVersion r.connection st with ⟨st₁, e | m⟩
    · obtain ⟨cause, k₁, -, hup, hi₁, hk₁⟩ :=
        update_refused r.clock laws books hi h.kept hdisc hv
      -- The table of records may have been made, and no script was applied.
      have hafter : r.after st = st₁ := by rw [Round.after, hup]
      rw [hafter] at hi'
      obtain ⟨-, rfl⟩ := hi'.unique hi₁
      refine ⟨[], ?_, fun n hn => ?_⟩
      · rw [List.append_nil]
        refine h.stay (hp ▸ hk₁) ?_
        rw [hlast, h.contents_eq hi hd he]
        exact List.prefix_append _ _
      · rw [Round.result, hup] at hn
        cases hn
    · obtain ⟨n, hn⟩ := exists_commits laws books r.clock hi h.kept hdisc hv
        fun s hs text ht => (hr s hs text ht).toPlain
      exact h.commit hp hi hi' hr hd he hn
  · obtain ⟨hafter, e, hres⟩ := Round.after_of_not_discovers hd st
    rw [hafter] at hi'
    obtain ⟨-, rfl⟩ := hi'.unique hi
    refine ⟨[], ?_, fun n hn => ?_⟩
    · rw [List.append_nil]
      refine h.stay (Or.inl rfl) ?_
      have hlast : lastContents ((st, r) :: past) = lastContents past := if_neg hd
      rw [hlast]
      exact h.first
    · cases hres.symm.trans hn

end Lineage

/-! ## Where all of a directory was done -/

/-- An update over the same files at other times, by another connection. -/
def Round.anew (r : Round) (clock : Nat → String) (c : Connection) : Round :=
  { r with clock := clock, connection := c }

/-- Migrations that were carried out are carried out again, as long as nothing disturbs. -/
theorem applyAll_again (laws : R.Transactional) (books : R.Bookkeeping) (steady : R.Steady)
    (hp : c.provider = p) (h : Performed R p deeds k k')
    (hd : ∀ d ∈ deeds, Discreet R p d.text)
    (hc : scripts.map (content files) = deeds.map Deed.content)
    (hk : R.records k = .kept keyed vs) (hi : R.Idle st c.session db k)
    (hu : R.undisturbed st c.session) (clock : Nat → String) :
    (applyAll files c clock scripts st).2.1 = .ok () ∧
      R.Idle (applyAll files c clock scripts st).1 c.session db k' := by
  induction h generalizing st scripts vs clock with
  | nil =>
      obtain rfl : scripts = [] := List.map_eq_nil_iff.mp hc
      exact ⟨rfl, hi⟩
  | @cons d deeds k k₁ k' hdone _ ih =>
      obtain ⟨s, rest, rfl, hs, hrest⟩ := List.map_eq_cons_iff.mp hc
      obtain ⟨hv, ht⟩ := Prod.mk.inj hs
      have hdisc := hd d List.mem_cons_self
      obtain ⟨hok, hi₁, hu₁⟩ := hdone.again laws books steady hdisc hk hp hi hu (clock 0)
      have hplain := apply_plain laws books hi hk (hp ▸ hdisc.toPlain) d.version (clock 0)
      obtain ⟨-, k₂, -, hi₂, hrec, -⟩ | ⟨⟨e, he⟩, -⟩ := hplain
      · obtain ⟨-, rfl⟩ := hi₁.unique hi₂
        rcases ha : apply c d.version d.text (clock 0) st with ⟨st₁, e | u⟩
        · rw [ha] at hok
          cases hok
        · rw [ha] at hi₁ hu₁
          have ha' : apply c s.version d.text (clock 0) st = (st₁, .ok ()) := by
            rw [show s.version = d.version from hv, ha]
          rw [applyAll_cons_read rest ht ha']
          exact ih (fun d hm => hd d (List.mem_cons_of_mem _ hm)) hrest hrec hi₁ hu₁ _
      · rw [he] at hok
        cases hok

namespace CaughtUp

/-- **A single update does all of it as well**, with other times. -/
theorem alone (laws : R.Transactional) (books : R.Bookkeeping) (steady : R.Steady)
    (h : CaughtUp R p k₀ r k deeds) (hv : (R.records k₀).versions = 0)
    (hrp : r.connection.provider = p) (hp : c.provider = p) (hi : R.Idle st c.session db k₀)
    (hu : R.undisturbed st c.session) :
    (r.anew clock c).result st = .ok r.found.length ∧
      R.Idle ((r.anew clock c).after st) c.session db k := by
  obtain ⟨log, hdisc⟩ := Round.discover_of_discovers h.discovers
  rw [hrp, ← hp] at hdisc
  obtain ⟨k₁, hf, hdone⟩ := h.done
  obtain ⟨st₁, m, hcur, hi₁, hu₁, hm⟩ := currentVersion_again laws books steady hf hp hi hu
  obtain ⟨keyed, hkept⟩ := hf.kept
  -- As nothing is recorded, the update has to do everything.
  have hpend := pending_of_version hdisc hcur
  have hall : unrecorded (R.records k₀).versions r.found = r.found := by
    rw [hv]
    exact List.filter_eq_self.mpr fun s _ => decide_eq_true fun v hv => nomatch hv
  rw [newer_of_greatest hm, hall] at hpend
  obtain ⟨hok, hi'⟩ :=
    applyAll_again laws books steady hp hdone h.discreet h.contents hkept hi₁ hu₁ clock
  show (update r.files clock r.dir c st).2.1 = _ ∧
    R.Idle (update r.files clock r.dir c st).1 c.session db k
  rw [update_of_pending clock hpend, hok]
  exact ⟨rfl, hi'⟩

/-- **One more update finds nothing to do.** -/
theorem again (laws : R.Transactional) (books : R.Bookkeeping) (steady : R.Steady)
    (h : CaughtUp R p k₀ r k deeds) (hrp : r.connection.provider = p) (hp : c.provider = p)
    (hi : R.Idle st c.session db k) (hu : R.undisturbed st c.session) :
    (r.anew clock c).result st = .ok 0 ∧ R.Idle ((r.anew clock c).after st) c.session db k := by
  obtain ⟨log, hdisc⟩ := Round.discover_of_discovers h.discovers
  rw [hrp, ← hp] at hdisc
  obtain ⟨keyed, hkept⟩ := h.recorded
  obtain ⟨st₁, m, hcur, hi₁, -, hm⟩ :=
    currentVersion_again laws books steady (.same hkept) hp hi hu
  have hpend := pending_of_version hdisc hcur
  have hnone : unrecorded (R.records k).versions r.found = [] := by
    refine List.filter_eq_nil_iff.mpr fun s hs hall => ?_
    have hmem : content r.files s ∈ deeds.map Deed.content := h.contents ▸ List.mem_map_of_mem hs
    obtain ⟨d, hd, heq⟩ := List.mem_map.mp hmem
    have hv : s.version ∈ (R.records k).versions := by
      rw [hkept]
      exact Multiset.mem_coe.mpr (List.mem_map.mpr ⟨d, hd, (Prod.mk.inj heq).1⟩)
    exact lt_irrefl _ (of_decide_eq_true hall _ hv)
  rw [newer_of_greatest hm, hnone] at hpend
  show (update r.files clock r.dir c st).2.1 = _ ∧
    R.Idle (update r.files clock r.dir c st).1 c.session db k
  rw [update_of_pending clock hpend]
  exact ⟨rfl, hi₁⟩

end CaughtUp

/-! ## Updates one after the other -/

open Sql

/-- What the embedded store makes of a script that makes tables is determined by what is seen. -/
theorem deterministic_of_makesTable {text : String} (hp : ∀ stmt ∈ statements text,
    stmt.mentions recordTable = false ∧ stmt.makesTable = true) :
    Deterministic World.reading p text := by
  intro c c' w w' a db db' k l k' keyed vs _ _ hr hk hk' hu hb ha
  obtain ⟨x, hx, hi, rfl, rfl⟩ := World.inside_iff.mp hk
  obtain ⟨x', hx', hi', hs', hl'⟩ := World.inside_iff.mp hk'
  have hcontrols : ∀ stmt ∈ statements text, stmt.controls = false := by
    intro stmt hs
    cases stmt with
    | createTable _ _ _ _ _ _ _ => rfl
    | _ => cases (hp _ hs).2
  have hrec : records x.sees ≠ .other :=
    Records.ne_other_of_kept ((records_timeless _).symm.trans hr)
  rw [World.batch_eq hx] at hb
  obtain ⟨rfl, hok⟩ := Prod.mk.inj hb
  have hok : (x.script c.session text).2 = .ok () := World.ok_of_mapError hok
  obtain ⟨hok', hsees⟩ :=
    Site.scriptFor_again hp hs' hrec hi' ((World.undisturbed_iff hx').mp hu) hok
  have heq := World.standing_put hx ha
  obtain rfl : k' = timeless (x.script c.session text).1.sees := congrArg Standing.sees heq
  obtain ⟨hin, hlast⟩ := x'.inside_script c'.session hcontrols
  refine ⟨w'.put c'.session (x'.script c'.session text).1, ?_, World.inside_iff.mpr
    ⟨_, World.has_put hx' _, hin.trans hi', hsees, (congrArg timeless (hlast hi')).trans hl'⟩⟩
  rw [World.batch_eq hx', show (x'.script c'.session text).2 = .ok () from hok']
  rfl

/-- All statements of the script make tables other than that of records. -/
def makesTables (text : String) : Bool :=
  (statements text).all fun stmt => !stmt.mentions recordTable && stmt.makesTable

theorem discreet_of_makesTables {text : String} (h : makesTables text = true) :
    Migration.Discreet World.reading p text := by
  have hall : ∀ stmt ∈ statements text,
      stmt.mentions recordTable = false ∧ stmt.makesTable = true := by
    simpa [makesTables] using h
  have hplain : plainText text = true := by
    refine List.all_eq_true.mpr fun stmt hs => ?_
    obtain ⟨hm, hmake⟩ := hall stmt hs
    cases stmt with
    | createTable _ _ _ _ _ _ _ => rw [hm]; rfl
    | _ => cases hmake
  exact ⟨plain_of_plainText hplain, deterministic_of_makesTable hall⟩

theorem Round.Reads.discreet {texts : List String} (h : r.Reads scripts texts)
    (hp : texts.all makesTables = true) : r.Discreet World.reading :=
  h.keep fun text ht => discreet_of_makesTables (List.all_eq_true.mp hp text ht)

/-- What a directory holds is told by what is found and read. -/
theorem Round.Reads.contents {texts : List String} (h : r.Reads scripts texts) :
    r.contents = (scripts.map (·.version)).zip (texts.map .ok) := by
  rw [Round.contents, h.found, ← h.read, List.zip_map']
  rfl

end PooledStore.Migration
