import PooledStore.Proofs.Migration.Independence

/-!
# Stores that are up to date

After an update that has succeeded nothing is pending, as long as the scripts have nothing to do
with the table of records themselves; they may control transactions (`settled_of_update`). Every
session on the database is told so, if nothing disturbs it (`pending_of_settled`).
-/

set_option autoImplicit false

namespace PooledStore.Migration

open Config

variable {σ κ υ : Type} [Stores σ] {R : Reading σ κ υ} {files : FileTree} {clock : Nat → String}
variable {dir : Path} {c : Connection} {st st' : σ} {db : Nat} {k : κ} {keyed : Bool}
variable {vs : Multiset Int} {v : Int} {text time : String} {scripts : List Script}

/-- An attempt that succeeds has recorded the version, if the script leaves the table of records
alone. -/
theorem records_of_apply (laws : R.Transactional) (books : R.Bookkeeping)
    (h : R.Idle st c.session db k) (hk : R.records k = .kept keyed vs)
    (hn : ¬ R.names c.provider text) (hok : (apply c v text time st).2 = .ok ()) :
    ∃ k', R.Idle (apply c v text time st).1 c.session db k' ∧
      R.records k' = .kept keyed (v ::ₘ vs) := by
  rcases hbegin : Stores.begin c st with ⟨st₁, e | u⟩
  · have happly : (apply c v text time st).2 = .error (.ofStore c.provider e) := by
      simp only [apply, hbegin, Connection.answer, Except.mapError]
    rw [happly] at hok
    cases hok
  · have h₁ := laws.begin_ok h hbegin
    obtain ⟨e, he, -⟩ := laws.batch text h₁
    have hkept := (books.unnamed hn h₁ (Records.ne_other_of_kept rfl) hk hk he).1
    exact records_of_allDone laws books h hok (by rwa [hbegin]) hkept

/-- Scripts that were all applied are recorded. -/
theorem records_of_applyAll (laws : R.Transactional) (books : R.Bookkeeping)
    (h : R.Idle st c.session db k) (hk : R.records k = .kept keyed vs)
    (hn : ∀ s ∈ scripts, ∀ text, files.readText s.path = .ok text → ¬ R.names c.provider text)
    (hok : (applyAll files c clock scripts st).2.1 = .ok ()) :
    ∃ k', R.Idle (applyAll files c clock scripts st).1 c.session db k' ∧
      R.records k' = .kept keyed ((scripts.map (·.version) : List Int) + vs) := by
  induction scripts generalizing st k vs clock with
  | nil => exact ⟨k, h, by simpa using hk⟩
  | cons s rest ih =>
      rcases ht : files.readText s.path with e | text
      · rw [applyAll_cons_unread ht] at hok
        cases hok
      · rcases ha : apply c s.version text (clock 0) st with ⟨st₁, e | u⟩
        · rw [applyAll_cons_failed ht ha] at hok
          cases hok
        · obtain ⟨k₁, hi₁, hk₁⟩ := records_of_apply laws books h hk
            (hn s List.mem_cons_self text ht) (congrArg Prod.snd ha)
          rw [ha] at hi₁
          rw [applyAll_cons_read rest ht ha] at hok ⊢
          obtain ⟨k', hi', hk'⟩ :=
            ih hi₁ hk₁ (fun u hu => hn u (List.mem_cons_of_mem _ hu)) hok
          refine ⟨k', hi', ?_⟩
          rw [hk', List.map_cons, ← Multiset.cons_coe, Multiset.cons_add, Multiset.add_cons]

/-- The table of records has versions than which no script is newer. -/
def Settled (R : Reading σ κ υ) (scripts : List Script) (k : κ) : Prop :=
  ∃ keyed vs, R.records k = .kept keyed vs ∧ unrecorded vs scripts = []

/-- **After an update that succeeds no script is newer than what is recorded.** -/
theorem settled_of_update (laws : R.Transactional) (books : R.Bookkeeping) {n : Nat}
    {log : List Log.Event} (h : R.Idle st c.session db k) (hr : R.records k ≠ .other)
    (hn : ∀ scripts log, discover files dir c.provider = (.ok scripts, log) →
      ∀ s ∈ scripts, ∀ text, files.readText s.path = .ok text → ¬ R.names c.provider text)
    (hup : update files clock dir c st = (st', .ok n, log)) :
    ∃ scripts log k', discover files dir c.provider = (.ok scripts, log) ∧
      R.Idle st' c.session db k' ∧ Settled R scripts k' := by
  rcases hp : pending files dir c st with ⟨st₁, e | rest, log₁⟩
  · rw [update_of_error hp] at hup
    cases (Prod.mk.inj (Prod.mk.inj hup).2).1
  · obtain ⟨scripts, m, hd, hv, rfl⟩ := pending_ok hp
    obtain ⟨k₁, hi₁, hf, hm⟩ := currentVersion_ok laws books h hr hv
    obtain ⟨keyed, hkept⟩ := hf.kept
    rw [update_of_pending clock hp, newer_of_greatest hm] at hup
    obtain ⟨rfl, hres⟩ := Prod.mk.inj hup
    have hok : (applyAll files c clock (unrecorded (R.records k).versions scripts) st₁).2.1 =
        .ok () := by
      rcases hall : (applyAll files c clock (unrecorded (R.records k).versions scripts) st₁).2.1
        with e | u
      · rw [hall] at hres
        cases (Prod.mk.inj hres).1
      · rfl
    obtain ⟨k', hi', hk'⟩ := records_of_applyAll laws books hi₁ hkept
      (fun s hs => hn scripts log₁ hd s (mem_unrecorded.mp hs).1) hok
    refine ⟨scripts, log₁, k', hd, hi', keyed, _, hk', ?_⟩
    -- A script is recorded now, or it was not newer than all that was recorded before.
    refine List.filter_eq_nil_iff.mpr fun s hs hall => ?_
    have hgt := of_decide_eq_true hall
    have hdue : s ∈ unrecorded (R.records k).versions scripts :=
      mem_unrecorded.mpr ⟨hs, fun w hw => hgt w (Multiset.mem_add.mpr (Or.inr hw))⟩
    exact lt_irrefl _ (hgt s.version
      (Multiset.mem_add.mpr (Or.inl (Multiset.mem_coe.mpr (List.mem_map_of_mem hdue)))))

/-- **Any other session on the database sees that as well**, if it is in no transaction and has no
temporary tables. -/
theorem Settled.shared (laws : R.Transactional) (shared : R.Shared) {j : SessionId}
    {t : Standing κ} (hs : Settled R scripts k) (h : R.Idle st c.session db k)
    (ht : R.standing st j = some t) (hdb : t.database = db) (hin : t.inside = false)
    (hbare : R.bare t.lasting) : ∃ k', R.Idle st j db k' ∧ Settled R scripts k' := by
  obtain ⟨keyed, vs, hk, hnone⟩ := hs
  have hrecords : R.records t.lasting = R.records k :=
    shared.records h ht hdb.symm hbare (by rw [hk]; exact nofun)
  refine ⟨t.lasting, ?_, keyed, vs, hrecords.trans hk, hnone⟩
  rw [← hdb]
  exact laws.idle ht hin

/-- An update puts no other session into a transaction, and makes no temporary tables for it. -/
theorem others_of_update (files : FileTree) (clock : Nat → String) (dir : Path)
    (shared : R.Shared) {j : SessionId} {t : Standing κ}
    (hne : j ≠ c.session) (ht : R.standing st j = some t) (hbare : R.bare t.lasting) :
    ∃ t', R.standing (update files clock dir c st).1 j = some t' ∧ t'.database = t.database ∧
      t'.inside = t.inside ∧ R.bare t'.lasting := by
  refine update_keep (P := fun a => ∃ t', R.standing a j = some t' ∧ t'.database = t.database ∧
    t'.inside = t.inside ∧ R.bare t'.lasting) (fun ha hact => ?_) ⟨t, ht, rfl, rfl, hbare⟩
  obtain ⟨t₁, h₁, hdb, hin, hbare₁⟩ := ha
  obtain ⟨t₂, h₂, hdb₂, hin₂, hkept⟩ := shared.others hact hne h₁
  exact ⟨t₂, h₂, hdb₂.trans hdb, hin₂.trans hin, hkept hbare₁⟩

/-- **Nothing is pending** for a session that sees so and that nothing disturbs. -/
theorem pending_of_settled (laws : R.Transactional) (books : R.Bookkeeping) (steady : R.Steady)
    {log : List Log.Event} (h : R.Idle st c.session db k) (hu : R.undisturbed st c.session)
    (hd : discover files dir c.provider = (.ok scripts, log)) (hs : Settled R scripts k) :
    ∃ st', pending files dir c st = (st', .ok [], log) := by
  obtain ⟨keyed, vs, hk, hnone⟩ := hs
  obtain ⟨st₁, m, hv, -, -, hm⟩ := currentVersion_again laws books steady (.same hk) rfl h hu
  rw [hk] at hm
  have hpend := pending_of_version hd hv
  have hpending : unrecorded (Records.kept keyed vs).versions scripts = [] := hnone
  rw [newer_of_greatest hm, hpending] at hpend
  exact ⟨st₁, hpend⟩

end PooledStore.Migration
