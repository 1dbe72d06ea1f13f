import Mathlib.Data.List.Forall2
import PooledStore.Proofs.Migration.Attempt

/-!
# Migrations that were carried out

A migration that was carried out is its script, followed by the record of its version (`Deed`).
Scripts that leave transactions and the table of records alone (`Plain`) are carried out as a whole
or not at all, so that what updates have made of a database is what all their deeds make of it, in
order (`Performed`).
-/

set_option autoImplicit false

namespace PooledStore.Migration

open Config

variable {σ κ υ : Type} [Stores σ] {R : Reading σ κ υ}

/-- A migration that was carried out. -/
structure Deed where
  version : Int
  text : String

/-- An attempt of the migration has led from `k` to `k'`: its script was carried out on `k`, and its
record on what that left, of which it changed nothing but the table of records. -/
structure Deed.Done (R : Reading σ κ υ) (p : Provider) (d : Deed) (k k' : κ) : Prop where
  carried : ∃ k₁, R.Ran p d.text k k₁ ∧ R.Noted p d.version k₁ k' ∧ R.own k' = R.own k₁
  applied : ∃ c st time db, c.provider = p ∧ R.Idle st c.session db k ∧
    (apply c d.version d.text time st).2 = .ok () ∧
    R.Idle (apply c d.version d.text time st).1 c.session db k'

/-- Migrations, one after the other, have led from `k` to `k'`. -/
inductive Performed (R : Reading σ κ υ) (p : Provider) : List Deed → κ → κ → Prop where
  | nil {k : κ} : Performed R p [] k k
  | cons {d : Deed} {deeds : List Deed} {k k₁ k' : κ} : d.Done R p k k₁ →
      Performed R p deeds k₁ k' → Performed R p (d :: deeds) k k'

theorem Performed.append {p : Provider} {deeds more : List Deed} {k k₁ k' : κ}
    (h : Performed R p deeds k k₁) (h' : Performed R p more k₁ k') :
    Performed R p (deeds ++ more) k k' := by
  induction h with
  | nil => exact h'
  | cons hd _ ih => exact .cons hd (ih h')

/-- The deeds are those of the scripts. -/
def DeedsOf (files : FileTree) (scripts : List Script) (deeds : List Deed) : Prop :=
  List.Forall₂ (fun s d => d.version = s.version ∧ files.readText s.path = .ok d.text) scripts deeds

/-- The script leaves transactions and the table of records alone. -/
structure Plain (R : Reading σ κ υ) (p : Provider) (text : String) : Prop where
  controls : ¬ R.controls p text
  names : ¬ R.names p text

/-- The script leaves temporary tables alone as well. -/
structure Restrained (R : Reading σ κ υ) (p : Provider) (text : String) : Prop extends
    Plain R p text where
  temporary : ¬ R.temporary p text

variable {c : Connection} {st : σ} {db : Nat} {k : κ} {keyed : Bool} {vs : Multiset Int}

/-- A plain script leaves what is recorded in a transaction as it is. -/
theorem Plain.records {text : String} {st' : σ} {k₁ : κ} {r : Records}
    (hp : Plain R c.provider text) (books : R.Bookkeeping) (h : R.Inside st c.session db k k)
    (hr : R.records k = r) (hne : r ≠ .other) (hb : Stores.batch c text st = (st', .ok ()))
    (h' : R.Inside st' c.session db k₁ k) : R.records k₁ = r := by
  have hs : R.standing (Stores.batch c text st).1 c.session = some ⟨db, true, k₁, k⟩ := by rwa [hb]
  exact (books.unnamed hp.names h hne hr hr hs).1

/-- **A plain script is carried out as a whole, with its record, or not at all.** -/
theorem apply_plain (laws : R.Transactional) (books : R.Bookkeeping) {text : String}
    (h : R.Idle st c.session db k) (hk : R.records k = .kept keyed vs)
    (hp : Plain R c.provider text) (v : Int) (time : String) :
    ((apply c v text time st).2 = .ok () ∧ ∃ k', Deed.Done R c.provider ⟨v, text⟩ k k' ∧
        R.Idle (apply c v text time st).1 c.session db k' ∧
        R.records k' = .kept keyed (v ::ₘ vs) ∧ (keyed = true → v ∉ vs)) ∨
      (∃ e, (apply c v text time st).2 = .error e) ∧
        R.Idle (apply c v text time st).1 c.session db k := by
  obtain ⟨e, he, -, ⟨hok, -⟩ | ⟨hfail, hi⟩⟩ := apply_cases laws h v text time
  · refine Or.inl ⟨hok, ?_⟩
    obtain ⟨st₁, st₂, st₃, k₁, k₂, h₁, hbatch, h₂, hrec, h₃, -, hi⟩ :=
      sights_of_ok laws hp.controls h hok
    have hkept : R.records k₁ = .kept keyed vs :=
      hp.records books h₁ hk (Records.ne_other_of_kept rfl) hbatch h₂
    obtain ⟨hrecs, hown, hnew⟩ := books.record h₂ hkept hrec h₃
    have hcarried : ∃ k₁, R.Ran c.provider text k k₁ ∧ R.Noted c.provider v k₁ k₂ ∧
        R.own k₂ = R.own k₁ :=
      ⟨k₁, ⟨c, st₁, st₂, db, k, rfl, h₁, hbatch, h₂⟩,
        ⟨c, time, st₂, st₃, db, k, rfl, h₂, hrec, h₃⟩, hown⟩
    exact ⟨k₂, ⟨hcarried, c, st, time, db, rfl, h, hok, hi⟩, hi, hrecs, hnew⟩
  · -- What lasted before the commit is what was there at first.
    rw [lasting_reach laws h hp.controls he] at hi
    exact Or.inr ⟨hfail, hi⟩

/-- A restrained script makes no temporary tables, and neither does its record. -/
theorem bare_apply (laws : R.Transactional) (shared : R.Shared) {text time : String} {v : Int}
    {k' : κ} (h : R.Idle st c.session db k) (hb : R.bare k) (hp : Restrained R c.provider text)
    (hok : (apply c v text time st).2 = .ok ())
    (h' : R.Idle (apply c v text time st).1 c.session db k') : R.bare k' := by
  obtain ⟨st₁, st₂, st₃, k₁, k₂, h₁, hbatch, h₂, hrec, h₃, -, hi⟩ :=
    sights_of_ok laws hp.controls h hok
  obtain ⟨-, rfl⟩ := hi.unique h'
  have hb₂ := shared.bare_batch hp.controls hp.temporary h₁ hb hbatch h₂
  exact shared.bare_record h₂ hb₂ hrec h₃

end PooledStore.Migration
