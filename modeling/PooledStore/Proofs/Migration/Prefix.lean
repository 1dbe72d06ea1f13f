import Mathlib.Data.Multiset.UnionInter
import PooledStore.Proofs.Migration.History

/-!
# Recorded versions as a prefix

An update looks at the largest recorded version only. So a script that comes into the directory when
a greater version is recorded already is never applied (`late`). The scripts that do not come late
are applied in order and without gaps: after every update the recorded versions are a first part of
them (`Updates.prefix_without_late`), and a first part of all scripts exactly as long as none came
late.
-/

set_option autoImplicit false

namespace PooledStore.Migration

open Config

variable {σ κ υ : Type} {R : Reading σ κ υ} {st : σ} {db : Nat} {k k' : κ}
variable {past : List (σ × Round)} {r : Round} {t start : Records} {v w : Int}

/-! ## First parts of an ascending list -/

/-- What lies below an element of a first part of an ascending list is in the first part. -/
theorem mem_take_of_lt {scripts : List Script} {n : Nat}
    (ho : scripts.Pairwise fun a b => a.version < b.version)
    (hv : v ∈ scripts.map (·.version)) (hw : w ∈ (scripts.take n).map (·.version)) (hlt : v < w) :
    v ∈ (scripts.take n).map (·.version) := by
  replace ho := List.pairwise_map.mpr ho
  rw [← List.take_append_drop n scripts, List.map_append] at hv ho
  rcases List.mem_append.mp hv with h | h
  · exact h
  · exact absurd ((List.pairwise_append.mp ho).2.2 w hw v h) (Int.not_lt.mpr hlt.le)

/-! ## Scripts that come late -/

/-- The versions that an update was the first to find when a greater one was recorded already. -/
def late (R : Reading σ κ υ) : List (σ × Round) → List Int
  | [] => []
  | (st, r) :: past =>
    late R past ++ r.versions.filter fun v =>
      (past.all fun p => !p.2.versions.contains v) && !decide (∀ w ∈ R.recorded st r.session, w ≤ v)

theorem mem_late_cons : v ∈ late R ((st, r) :: past) ↔ v ∈ late R past ∨
    v ∈ r.versions ∧ (∀ p ∈ past, v ∉ p.2.versions) ∧ ∃ w ∈ R.recorded st r.session, v < w := by
  simp [late, List.mem_filter]

theorem Round.discovers_of_mem (h : v ∈ r.versions) : r.Discovers := by
  rcases hd : discover r.files r.dir r.connection.provider with ⟨e | scripts, log⟩
  · rw [Round.versions, Round.found, hd] at h
    cases h
  · rw [Round.Discovers, hd]
    rfl

/-! ## What updates keep -/

/-- What is recorded was found, and what was found below it is recorded too, or came late and is
not. -/
structure Gapless (R : Reading σ κ υ) (past : List (σ × Round)) (vs : Multiset Int) : Prop where
  nodup : vs.Nodup
  found : ∀ v ∈ vs, ∃ p ∈ past, v ∈ p.2.versions
  closed : ∀ p ∈ past, ∀ v ∈ p.2.versions, ∀ w ∈ vs, v < w → v ∈ vs ∨ v ∈ late R past
  never : ∀ v ∈ late R past, v ∉ vs ∧ (∃ w ∈ vs, v < w) ∧ ∃ p ∈ past, v ∈ p.2.versions

variable {vs vs' : Multiset Int} {n : Nat}

/-- What an update records is newer than everything recorded before. -/
theorem Round.mem_due (h : v ∈ (r.due vs).map (·.version)) : v ∈ r.versions ∧ ∀ w ∈ vs, w < v := by
  obtain ⟨s, hs, rfl⟩ := List.mem_map.mp h
  obtain ⟨hfound, hall⟩ := mem_unrecorded.mp hs
  exact ⟨List.mem_map.mpr ⟨s, hfound, rfl⟩, hall⟩

theorem Round.due_of_gt (h : v ∈ r.versions) (hgt : ∀ w ∈ vs, w < v) :
    v ∈ (r.due vs).map (·.version) := by
  obtain ⟨s, hs, rfl⟩ := List.mem_map.mp h
  exact List.mem_map.mpr ⟨s, mem_unrecorded.mpr ⟨hs, hgt⟩, rfl⟩

/-- What an update does record was due. -/
theorem Round.mem_due_of_take (h : v ∈ ((r.due vs).take n).map (·.version)) :
    v ∈ r.versions ∧ ∀ w ∈ vs, w < v :=
  mem_due (((List.take_sublist n _).map _).subset h)

/-- What is recorded after an update that has added a first part of what was due. -/
def Round.Adds (r : Round) (vs : Multiset Int) (n : Nat) (vs' : Multiset Int) : Prop :=
  vs' = (((r.due vs).take n).map (·.version) : List Int) + vs

theorem Round.Adds.mem_iff (hr : r.Adds vs n vs') :
    v ∈ vs' ↔ v ∈ vs ∨ v ∈ ((r.due vs).take n).map (·.version) := by
  rw [show vs' = _ from hr, Multiset.mem_add, Multiset.mem_coe, or_comm]

theorem Round.Adds.nodup (hr : r.Adds vs n vs') (h : vs.Nodup) : vs'.Nodup := by
  rw [show vs' = _ from hr, Multiset.nodup_add]
  refine ⟨?_, h, Multiset.disjoint_left.mpr fun {v} hv hv' => ?_⟩
  · have hasc := List.pairwise_map.mpr ((r.due_ascending vs).sublist (List.take_sublist n _))
    exact Multiset.coe_nodup.mpr (hasc.imp ne_of_lt)
  · exact lt_irrefl v ((mem_due_of_take (Multiset.mem_coe.mp hv)).2 v hv')

/-- What was below something recorded before is not recorded now. -/
theorem Round.Adds.not_mem_of_lt (hr : r.Adds vs n vs') (hno : v ∉ vs) (hw : w ∈ vs)
    (hlt : v < w) : v ∉ vs' := by
  intro hrec
  rcases hr.mem_iff.mp hrec with hrec | hrec
  · exact hno hrec
  · exact lt_irrefl v (hlt.trans ((mem_due_of_take hrec).2 w hw))

/-- A script that an update finds below something recorded before was found in time, or it comes
late now. -/
theorem Gapless.below (h : Gapless R past (R.recorded st r.session)) (hv : v ∈ r.versions)
    (hw : w ∈ R.recorded st r.session) (hlt : v < w) :
    v ∈ R.recorded st r.session ∨ v ∈ late R ((st, r) :: past) := by
  rw [mem_late_cons]
  by_cases hq : ∃ q ∈ past, v ∈ q.2.versions
  · obtain ⟨q, hq, hvq⟩ := hq
    exact (h.closed q hq v hvq w hw hlt).imp_right Or.inl
  · exact Or.inr (Or.inr ⟨hv, fun q hq' hvq => hq ⟨q, hq', hvq⟩, w, hw, hlt⟩)

/-- A script that an update finds below something recorded after it is recorded then, or late. -/
theorem Gapless.below_after (h : Gapless R past (R.recorded st r.session))
    (hr : r.Adds (R.recorded st r.session) n vs') (hv : v ∈ r.versions) (hw : w ∈ vs')
    (hlt : v < w) : v ∈ vs' ∨ v ∈ late R ((st, r) :: past) := by
  by_cases hgt : ∀ u ∈ R.recorded st r.session, u < v
  · -- Then it was due, and in the part that was recorded.
    rcases hr.mem_iff.mp hw with hw | hw
    · exact absurd hlt (Int.not_lt.mpr (hgt w hw).le)
    · exact Or.inl (hr.mem_iff.mpr (Or.inr
        (mem_take_of_lt (r.due_ascending _) (Round.due_of_gt hv hgt) hw hlt)))
  · obtain ⟨u, hu, hvu⟩ : ∃ u ∈ R.recorded st r.session, v ≤ u := by simpa using hgt
    rcases hvu.eq_or_lt with rfl | hvu
    · exact Or.inl (hr.mem_iff.mpr (Or.inl hu))
    · exact (h.below hv hu hvu).imp_left fun hrec => hr.mem_iff.mpr (Or.inl hrec)

/-- One more update leaves no gaps but those of scripts that come late. -/
theorem Gapless.update (h : Gapless R past (R.recorded st r.session))
    (hr : r.Adds (R.recorded st r.session) n vs')
    (hg : ∀ p ∈ past, r.Discovers → ∀ v ∈ p.2.versions, v ∈ r.versions) :
    Gapless R ((st, r) :: past) vs' := by
  refine ⟨hr.nodup h.nodup, ?_, ?_, ?_⟩
  · intro v hv
    rcases hr.mem_iff.mp hv with hv | hv
    · obtain ⟨p, hp, hvp⟩ := h.found v hv
      exact ⟨p, List.mem_cons_of_mem _ hp, hvp⟩
    · exact ⟨(st, r), List.mem_cons_self, (Round.mem_due_of_take hv).1⟩
  · intro p hp v hv w hw hlt
    by_cases hd : r.Discovers
    · -- The directory has not lost the script since it was found.
      have hvr : v ∈ r.versions := by
        rcases List.mem_cons.mp hp with rfl | hp
        · exact hv
        · exact hg p hp hd v hv
      exact h.below_after hr hvr hw hlt
    · -- An update that tells no scripts finds nothing, and records nothing.
      have hpast : p ∈ past := by
        rcases List.mem_cons.mp hp with rfl | hp
        · exact absurd (Round.discovers_of_mem hv) hd
        · exact hp
      have hw' : w ∈ R.recorded st r.session := by
        rcases hr.mem_iff.mp hw with hw | hw
        · exact hw
        · exact absurd (Round.discovers_of_mem (Round.mem_due_of_take hw).1) hd
      exact (h.closed p hpast v hv w hw' hlt).imp (fun hrec => hr.mem_iff.mpr (Or.inl hrec))
        fun hlate => mem_late_cons.mpr (Or.inl hlate)
  · intro v hv
    rcases mem_late_cons.mp hv with hv | ⟨hvr, hfirst, w, hw, hlt⟩
    · obtain ⟨hno, ⟨w, hw, hlt⟩, p, hp, hvp⟩ := h.never v hv
      exact ⟨hr.not_mem_of_lt hno hw hlt, ⟨w, hr.mem_iff.mpr (Or.inl hw), hlt⟩, p,
        List.mem_cons_of_mem _ hp, hvp⟩
    · -- What is recorded was found before, and this script was not.
      have hno : v ∉ R.recorded st r.session := by
        intro hrec
        obtain ⟨p, hp, hvp⟩ := h.found v hrec
        exact hfirst p hp hvp
      exact ⟨hr.not_mem_of_lt hno hw hlt, ⟨w, hr.mem_iff.mpr (Or.inl hw), hlt⟩, (st, r),
        List.mem_cons_self, hvr⟩

variable [Stores σ]

open Sql

/-- The update finds these scripts, and reads these texts. -/
structure Round.Reads (r : Round) (scripts : List Script) (texts : List String) : Prop where
  discovered : (discover r.files r.dir r.connection.provider).1 = .ok scripts
  read : scripts.map (fun s => r.files.readText s.path) = texts.map .ok

namespace Round.Reads

variable {scripts : List Script} {texts names : List String}

theorem found (h : r.Reads scripts texts) : r.found = scripts :=
  Round.found_of_ok (Prod.ext h.discovered rfl)

theorem discovers (h : r.Reads scripts texts) : r.Discovers := by
  rw [Round.Discovers, h.discovered]
  rfl

/-- What holds of the texts holds of all that is read. -/
theorem keep {P : String → Prop} (h : r.Reads scripts texts) (hp : ∀ text ∈ texts, P text) :
    ∀ s ∈ r.found, ∀ text, r.files.readText s.path = .ok text → P text := by
  intro s hs text hread
  have hmem : r.files.readText s.path ∈ texts.map .ok := by
    rw [← h.read]
    exact List.mem_map.mpr ⟨s, h.found ▸ hs, rfl⟩
  rw [hread] at hmem
  obtain ⟨t, hm, heq⟩ := List.mem_map.mp hmem
  exact Except.ok.inj heq ▸ hp t hm

theorem plain (h : r.Reads scripts texts) (hp : texts.all plainText = true) :
    r.Plain World.reading :=
  h.keep fun text ht => plain_of_plainText (List.all_eq_true.mp hp text ht)

/-- What an update does where the largest version is known. -/
theorem run {w : World} {m : Option Int} (h : r.Reads scripts texts)
    (hv : (currentVersion r.connection w).2 = .ok m) :
    r.after w = (applyAll r.files r.connection r.clock (newer m scripts)
        (currentVersion r.connection w).1).1 ∧
      r.result w = (applyAll r.files r.connection r.clock (newer m scripts)
        (currentVersion r.connection w).1).2.1.map fun _ => (newer m scripts).length := by
  have hpend := pending_of_version (Prod.ext h.discovered rfl)
    (Prod.ext rfl hv : currentVersion r.connection w = ((currentVersion r.connection w).1, .ok m))
  rw [Round.after, Round.result, update_of_pending r.clock hpend]
  exact ⟨rfl, rfl⟩

end Round.Reads

end PooledStore.Migration
