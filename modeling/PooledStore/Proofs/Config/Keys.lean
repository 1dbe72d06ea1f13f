import PooledStore.Config.Settings

/-!
# Reading keys

A key that is absent has its default, and one that is there is read from its value alone
(`valueOr`). All four ways of reading a key are this one with another reader; what a reader takes,
and as what, says `Reads`.
-/

set_option autoImplicit false

namespace PooledStore.Toml.Value

/-- The text that the value is. -/
def text? : Value → Option String
  | .text s => some s
  | _ => none

/-- The number from zero to `most` that the value is. -/
def natural? (most : Nat) : Value → Option Nat
  | .integer n => if 0 ≤ n ∧ n ≤ most then some n.toNat else none
  | _ => none

/-- The truth value that the value is. -/
def flag? : Value → Option Bool
  | .boolean b => some b
  | _ => none

end PooledStore.Toml.Value

namespace PooledStore.Config

open Toml

/-! ## Readers -/

/-- The values that are texts. -/
def IsText (v : Value) : Prop := ∃ s, v = .text s

/-- The values that are numbers from zero to `most`. -/
def IsNatural (most : Nat) (v : Value) : Prop := ∃ n : Nat, v = .integer n ∧ n ≤ most

/-- The values that are truth values. -/
def IsFlag (v : Value) : Prop := ∃ b, v = .boolean b

variable {α : Type} {Admits : Value → Prop} {read : Value → Option α} {write : α → Option Value}

/-- The reader takes the values that are admitted, and `write` gives back what it has read. -/
structure Reads (Admits : Value → Prop) (read : Value → Option α) (write : α → Option Value) :
    Prop where
  exact : ∀ v a, read v = some a ↔ Admits v ∧ write a = some v
  total : ∀ v, Admits v → ∃ a, read v = some a
  injective : Function.Injective write

theorem reads_text : Reads IsText Value.text? fun s => some (.text s) where
  exact v a := by
    cases v <;> simp [Value.text?, IsText, eq_comm]
  total := by
    rintro _ ⟨s, rfl⟩
    exact ⟨s, rfl⟩
  injective _ _ h := Value.text.inj (Option.some.inj h)

theorem reads_optionalText :
    Reads IsText (fun v => v.text?.map some) fun s => s.map .text where
  exact v a := by
    cases v <;> cases a <;> simp [Value.text?, IsText, eq_comm]
  total := by
    rintro _ ⟨s, rfl⟩
    exact ⟨some s, rfl⟩
  injective := Option.map_injective fun _ _ h => Value.text.inj h

theorem reads_natural (most : Nat) :
    Reads (IsNatural most) (Value.natural? most) fun n => some (.integer n) where
  exact v n := by
    rw [Option.some.injEq]
    constructor
    · intro h
      cases v with
      | integer m =>
          rw [Value.natural?] at h
          split at h
          · next hm =>
              obtain rfl := Option.some.inj h
              have hcast : (m.toNat : Int) = m := Int.toNat_of_nonneg hm.1
              exact ⟨⟨m.toNat, by rw [hcast], by omega⟩, by rw [hcast]⟩
          · cases h
      | _ => cases h
    · rintro ⟨⟨m, rfl, hle⟩, h⟩
      obtain rfl : n = m := Int.ofNat.inj (Value.integer.inj h)
      rw [Value.natural?, if_pos (by omega), Int.toNat_natCast]
  total := by
    rintro _ ⟨n, rfl, hle⟩
    exact ⟨n, by rw [Value.natural?, if_pos (by omega), Int.toNat_natCast]⟩
  injective _ _ h := Int.ofNat.inj (Value.integer.inj (Option.some.inj h))

theorem reads_flag : Reads IsFlag Value.flag? fun b => some (.boolean b) where
  exact v a := by
    cases v <;> simp [Value.flag?, IsFlag, eq_comm]
  total := by
    rintro _ ⟨b, rfl⟩
    exact ⟨b, rfl⟩
  injective _ _ h := Value.boolean.inj (Option.some.inj h)

/-! ## Keys -/

variable {es : Entries} {key : String} {d a : α}

/-- What is read from the value of the key, or the default where the key is absent. -/
def valueOr (read : Value → Option α) (es : Entries) (key : String) (d : α) : Option α :=
  match es.get? key with
  | none => some d
  | some v => read v

/-- What a key is read to: what is written as its value, which must be admitted, or the default. -/
theorem Reads.valueOr_eq_some_iff (h : Reads Admits read write) :
    valueOr read es key d = some a ↔
      (∃ v, es.get? key = some v ∧ Admits v ∧ write a = some v) ∨
        es.get? key = none ∧ a = d := by
  unfold valueOr
  cases es.get? key with
  | none => simp [eq_comm]
  | some v => simp [h.exact]

/-- A key can be read if its value is admitted, where it is there. -/
theorem Reads.exists_valueOr (h : Reads Admits read write)
    (hv : ∀ v, es.get? key = some v → Admits v) : ∃ a, valueOr read es key d = some a := by
  unfold valueOr
  cases hkey : es.get? key with
  | none => exact ⟨d, rfl⟩
  | some v => exact h.total v (hv v hkey)

theorem textOr_eq_valueOr {d : String} : textOr es key d = valueOr Value.text? es key d := by
  unfold textOr valueOr
  cases es.get? key with
  | none => rfl
  | some v => cases v <;> rfl

theorem optionalText_eq_valueOr :
    optionalText es key = valueOr (fun v => v.text?.map some) es key none := by
  unfold optionalText valueOr
  cases es.get? key with
  | none => rfl
  | some v => cases v <;> rfl

theorem naturalOr_eq_valueOr {most d : Nat} :
    naturalOr es key most d = valueOr (Value.natural? most) es key d := by
  unfold naturalOr valueOr
  cases es.get? key with
  | none => rfl
  | some v => cases v <;> rfl

theorem flagOr_eq_valueOr {d : Bool} : flagOr es key d = valueOr Value.flag? es key d := by
  unfold flagOr valueOr
  cases es.get? key with
  | none => rfl
  | some v => cases v <;> rfl

end PooledStore.Config
