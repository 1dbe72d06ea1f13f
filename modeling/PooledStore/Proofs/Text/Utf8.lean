import Mathlib.Data.String.Basic
import PooledStore.Text.Utf8

/-!
# What UTF-8 decoding says

* `decode?_eq_some_iff`: bytes are decoded to a text exactly if they are its UTF-8 form.
* `encode_lt_encode_iff`: texts stand in the order of their UTF-8 forms, byte by byte.

Decoding goes through `pieces`, which loses nothing (`flatMap_spelled_pieces`): the bytes are those
of the characters and of the ill-formed pieces. A character that has begun is `Partial`; the
invariant is `Partial.Sound`, that the bytes which may complete it spell it together with those
seen.
-/

set_option autoImplicit false

namespace PooledStore.Text

variable {a b c d : UInt8} {p : Partial} {tail rest : Bytes}

/-! ## The code point of a sequence -/

theorem toUInt8_ofNat_eq {n : Nat} (h : n = a.toNat) : UInt8.ofNat n = a := by
  rw [h, UInt8.ofNat_toNat]

theorem val_toNat_ofNat {n : Nat} (h : n.isValidChar) : (Char.ofNat n).val.toNat = n := by
  rw [Char.ofNat, dif_pos h]
  rfl

theorem utf8EncodeChar_one (ha : a.toNat < 0x80) :
    String.utf8EncodeChar (Char.ofNat a.toNat) = [a] := by
  have hv : (a.toNat).isValidChar := Or.inl (by omega)
  rw [String.utf8EncodeChar, val_toNat_ofNat hv, if_pos (by omega), toUInt8_ofNat_eq rfl]

theorem utf8EncodeChar_two {n : Nat} (ha : 0xC2 ≤ a.toNat) (ha' : a.toNat < 0xE0)
    (hb : 0x80 ≤ b.toNat) (hb' : b.toNat ≤ 0xBF)
    (hn : n = (a.toNat - 0xC0) * 64 + (b.toNat - 0x80)) :
    String.utf8EncodeChar (Char.ofNat n) = [a, b] := by
  have hv : n.isValidChar := Or.inl (by omega)
  rw [String.utf8EncodeChar, val_toNat_ofNat hv, if_neg (by omega), if_pos (by omega),
    toUInt8_ofNat_eq (a := a) (by omega), toUInt8_ofNat_eq (a := b) (by omega)]

theorem utf8EncodeChar_three {n : Nat} (ha : 0xE0 ≤ a.toNat) (ha' : a.toNat < 0xF0)
    (hb : (if a.toNat = 0xE0 then 0xA0 else 0x80) ≤ b.toNat)
    (hb' : b.toNat ≤ if a.toNat = 0xED then 0x9F else 0xBF)
    (hc : 0x80 ≤ c.toNat) (hc' : c.toNat ≤ 0xBF)
    (hn : n = ((a.toNat - 0xE0) * 64 + (b.toNat - 0x80)) * 64 + (c.toNat - 0x80)) :
    String.utf8EncodeChar (Char.ofNat n) = [a, b, c] := by
  -- The range of the second byte keeps the code point above the two-byte ones and off surrogates.
  have hlow : 0x80 ≤ b.toNat := by split at hb <;> omega
  have hhigh : b.toNat ≤ 0xBF := by split at hb' <;> omega
  have hE0 : a.toNat = 0xE0 → 0xA0 ≤ b.toNat := fun h => by rwa [if_pos h] at hb
  have hED : a.toNat = 0xED → b.toNat ≤ 0x9F := fun h => by rwa [if_pos h] at hb'
  have hv : n.isValidChar := by
    obtain h | h := Nat.lt_or_ge a.toNat 0xEE
    · exact Or.inl (by omega)
    · exact Or.inr ⟨by omega, by omega⟩
  rw [String.utf8EncodeChar, val_toNat_ofNat hv, if_neg (by omega), if_neg (by omega),
    if_pos (by omega), toUInt8_ofNat_eq (a := a) (by omega), toUInt8_ofNat_eq (a := b) (by omega),
    toUInt8_ofNat_eq (a := c) (by omega)]

theorem utf8EncodeChar_four {n : Nat} (ha : 0xF0 ≤ a.toNat) (ha' : a.toNat < 0xF5)
    (hb : (if a.toNat = 0xF0 then 0x90 else 0x80) ≤ b.toNat)
    (hb' : b.toNat ≤ if a.toNat = 0xF4 then 0x8F else 0xBF)
    (hc : 0x80 ≤ c.toNat) (hc' : c.toNat ≤ 0xBF) (hd : 0x80 ≤ d.toNat) (hd' : d.toNat ≤ 0xBF)
    (hn : n = (((a.toNat - 0xF0) * 64 + (b.toNat - 0x80)) * 64 + (c.toNat - 0x80)) * 64 +
      (d.toNat - 0x80)) :
    String.utf8EncodeChar (Char.ofNat n) = [a, b, c, d] := by
  have hlow : 0x80 ≤ b.toNat := by split at hb <;> omega
  have hhigh : b.toNat ≤ 0xBF := by split at hb' <;> omega
  have hF0 : a.toNat = 0xF0 → 0x90 ≤ b.toNat := fun h => by rwa [if_pos h] at hb
  have hF4 : a.toNat = 0xF4 → b.toNat ≤ 0x8F := fun h => by rwa [if_pos h] at hb'
  have hv : n.isValidChar := Or.inr ⟨by omega, by omega⟩
  rw [String.utf8EncodeChar, val_toNat_ofNat hv, if_neg (by omega), if_neg (by omega),
    if_neg (by omega), toUInt8_ofNat_eq (a := a) (by omega), toUInt8_ofNat_eq (a := b) (by omega),
    toUInt8_ofNat_eq (a := c) (by omega), toUInt8_ofNat_eq (a := d) (by omega)]

/-! ## Characters that have begun -/

/-- Bytes that complete a character: one for each that is owed, the first of them in its range. -/
structure Partial.Completed (p : Partial) (tail : Bytes) : Prop where
  length : tail.length = p.owed
  head : ∀ b ∈ tail.head?, p.low ≤ b ∧ b ≤ p.high
  rest : ∀ b ∈ tail.tail, 0x80 ≤ b ∧ b ≤ 0xBF

/-- The character, completed. -/
def Partial.finish (p : Partial) (tail : Bytes) : Char :=
  Char.ofNat (tail.foldl (fun n b => n * 64 + (b.toNat - 0x80)) p.bits)

/-- The character with one more byte. -/
def Partial.push (p : Partial) (b : UInt8) : Partial :=
  ⟨p.seen ++ [b], p.bits * 64 + (b.toNat - 0x80), p.owed - 1, 0x80, 0xBF⟩

theorem Partial.finish_push : (p.push b).finish tail = p.finish (b :: tail) := by
  simp only [Partial.finish, Partial.push, List.foldl_cons]

/-- Some byte is owed, and those that complete the character spell it with those seen. -/
structure Partial.Sound (p : Partial) : Prop where
  owed : 0 < p.owed
  spells : ∀ tail, p.Completed tail → String.utf8EncodeChar (p.finish tail) = p.seen ++ tail

theorem Partial.Completed.push (hb : p.low ≤ b ∧ b ≤ p.high) (ho : 1 < p.owed)
    (h : (p.push b).Completed tail) : p.Completed (b :: tail) where
  length := by
    have hlen : tail.length = p.owed - 1 := h.length
    rw [List.length_cons, hlen]
    omega
  head := by
    intro x hx
    obtain rfl : b = x := by simpa using hx
    exact hb
  rest := by
    intro x hx
    cases tail with
    | nil => simp at hx
    | cons y tail =>
        obtain rfl | hx := List.mem_cons.mp hx
        · exact h.head x rfl
        · exact h.rest x hx

theorem Partial.Completed.single (hb : p.low ≤ b ∧ b ≤ p.high) (ho : p.owed = 1) :
    p.Completed [b] where
  length := by simp [ho]
  head := by simpa using hb
  rest := by simp

theorem Partial.Sound.push (h : p.Sound) (hb : p.low ≤ b ∧ b ≤ p.high) (ho : 1 < p.owed) :
    (p.push b).Sound where
  owed := by
    show 0 < p.owed - 1
    omega
  spells := by
    intro tail ht
    have hspells : String.utf8EncodeChar (p.finish (b :: tail)) = p.seen ++ b :: tail :=
      h.spells _ (Partial.Completed.push hb ho ht)
    have hseen : (p.push b).seen = p.seen ++ [b] := rfl
    rw [Partial.finish_push, hspells, hseen, List.append_assoc, List.singleton_append]

theorem Partial.Completed.length_one (h : p.Completed tail) (ho : p.owed = 1) :
    ∃ b, tail = [b] ∧ p.low ≤ b ∧ b ≤ p.high := by
  obtain ⟨b, rfl⟩ := List.length_eq_one_iff.mp (h.length.trans ho)
  exact ⟨b, rfl, h.head b rfl⟩

theorem Partial.Completed.length_two (h : p.Completed tail) (ho : p.owed = 2) :
    ∃ b c, tail = [b, c] ∧ (p.low ≤ b ∧ b ≤ p.high) ∧ 0x80 ≤ c ∧ c ≤ 0xBF := by
  obtain ⟨b, c, rfl⟩ := List.length_eq_two.mp (h.length.trans ho)
  exact ⟨b, c, rfl, h.head b rfl, h.rest c (by simp)⟩

theorem Partial.Completed.length_three (h : p.Completed tail) (ho : p.owed = 3) :
    ∃ b c d, tail = [b, c, d] ∧ (p.low ≤ b ∧ b ≤ p.high) ∧ (0x80 ≤ c ∧ c ≤ 0xBF) ∧
      0x80 ≤ d ∧ d ≤ 0xBF := by
  obtain ⟨b, c, d, rfl⟩ := List.length_eq_three.mp (h.length.trans ho)
  exact ⟨b, c, d, rfl, h.head b rfl, h.rest c (by simp), h.rest d (by simp)⟩

/-- The first byte of a character opens it soundly. -/
theorem sound_of_lead (h : lead a = .opens p) : p.Sound := by
  unfold lead at h
  dsimp only at h
  split at h
  · cases h
  split at h
  · cases h
  split at h
  · cases h
    refine ⟨Nat.zero_lt_succ _, fun tail ht => ?_⟩
    -- One byte is owed.
    obtain ⟨b, rfl, hb, hb'⟩ := ht.length_one rfl
    exact utf8EncodeChar_two (by omega) (by omega) (UInt8.le_iff_toNat_le.mp hb)
      (UInt8.le_iff_toNat_le.mp hb') rfl
  split at h
  · cases h
    refine ⟨Nat.zero_lt_succ _, fun tail ht => ?_⟩
    -- Two bytes are owed, and the bounds of the first depend on the lead.
    obtain ⟨b, c, rfl, ⟨hb, hb'⟩, hc, hc'⟩ := ht.length_two rfl
    refine utf8EncodeChar_three (by omega) (by omega) ?_ ?_ (UInt8.le_iff_toNat_le.mp hc)
      (UInt8.le_iff_toNat_le.mp hc') rfl
    · dsimp only at hb
      split at hb <;> simpa [*] using UInt8.le_iff_toNat_le.mp hb
    · dsimp only at hb'
      split at hb' <;> simpa [*] using UInt8.le_iff_toNat_le.mp hb'
  split at h
  · cases h
    refine ⟨Nat.zero_lt_succ _, fun tail ht => ?_⟩
    obtain ⟨b, c, d, rfl, ⟨hb, hb'⟩, ⟨hc, hc'⟩, hd, hd'⟩ := ht.length_three rfl
    refine utf8EncodeChar_four (by omega) (by omega) ?_ ?_ (UInt8.le_iff_toNat_le.mp hc)
      (UInt8.le_iff_toNat_le.mp hc') (UInt8.le_iff_toNat_le.mp hd)
      (UInt8.le_iff_toNat_le.mp hd') rfl
    · dsimp only at hb
      split at hb <;> simpa [*] using UInt8.le_iff_toNat_le.mp hb
    · dsimp only at hb'
      split at hb' <;> simpa [*] using UInt8.le_iff_toNat_le.mp hb'
  · cases h

/-! ## The order of sequences -/

theorem cons_ofNat_lt_cons_ofNat {m n : Nat} (hm : m < 256) (hn : n < 256) {xs ys : Bytes} :
    UInt8.ofNat m :: xs < UInt8.ofNat n :: ys ↔ m < n ∨ m = n ∧ xs < ys := by
  rw [List.cons_lt_cons_iff, UInt8.lt_iff_toNat_lt, ← UInt8.toNat_inj,
    UInt8.toNat_ofNat_of_lt' hm, UInt8.toNat_ofNat_of_lt' hn]

theorem val_toNat_lt (x : Char) : x.val.toNat < 0x110000 := by
  obtain h | ⟨-, h⟩ := x.valid
  · exact Nat.lt_trans h (by decide)
  · exact h

/-- The forms of two characters differ before either ends, the way their code points differ. -/
theorem utf8EncodeChar_append_lt {x y : Char} (h : x < y) (xs ys : Bytes) :
    String.utf8EncodeChar x ++ xs < String.utf8EncodeChar y ++ ys := by
  have hlt : x.val.toNat < y.val.toNat := h
  have hx : x.val.toNat < 0x110000 := val_toNat_lt x
  have hy : y.val.toNat < 0x110000 := val_toNat_lt y
  have htwo : ∀ n, n / 4096 = n / 64 / 64 := fun n => (Nat.div_div_eq_div_mul n 64 64).symm
  have hthree : ∀ n, n / 262144 = n / 4096 / 64 := fun n => (Nat.div_div_eq_div_mul n 4096 64).symm
  -- Of code points with as many bytes, the first byte that differs decides.
  unfold String.utf8EncodeChar
  dsimp only
  split_ifs
  all_goals first
    | omega
    | simp (disch := omega) only [List.cons_append, List.nil_append, cons_ofNat_lt_cons_ofNat,
        hthree, htwo]
      omega

theorem utf8EncodeChar_inj {x y : Char} (h : String.utf8EncodeChar x = String.utf8EncodeChar y) :
    x = y := by
  obtain hlt | heq | hgt := lt_trichotomy x y
  · have hne := utf8EncodeChar_append_lt hlt [] []
    rw [h] at hne
    exact absurd hne (List.lt_irrefl _)
  · exact heq
  · have hne := utf8EncodeChar_append_lt hgt [] []
    rw [h] at hne
    exact absurd hne (List.lt_irrefl _)

theorem flatMap_utf8EncodeChar_lt {xs ys : List Char} (h : xs < ys) :
    xs.flatMap String.utf8EncodeChar < ys.flatMap String.utf8EncodeChar := by
  induction xs generalizing ys with
  | nil =>
      cases ys with
      | nil => exact absurd h (List.lt_irrefl _)
      | cons y ys =>
          obtain ⟨a, tail, ha⟩ := List.exists_cons_of_ne_nil (String.utf8EncodeChar_ne_nil (c := y))
          rw [List.flatMap_nil, List.flatMap_cons, ha]
          exact List.nil_lt_cons _ _
  | cons x xs ih =>
      cases ys with
      | nil => exact absurd h (List.not_lt_nil _)
      | cons y ys =>
          rw [List.flatMap_cons, List.flatMap_cons]
          obtain hlt | ⟨rfl, hlt⟩ := List.cons_lt_cons_iff.mp h
          · exact utf8EncodeChar_append_lt hlt _ _
          · exact List.append_left_lt (ih hlt)

/-- **Texts stand in the order of their UTF-8 forms**, compared byte by byte. -/
theorem encode_lt_encode_iff {s t : String} : encode s < encode t ↔ s < t := by
  constructor
  · intro h
    obtain hlt | rfl | hgt := lt_trichotomy s t
    · exact hlt
    · exact absurd h (List.lt_irrefl _)
    · exact absurd (flatMap_utf8EncodeChar_lt (String.lt_iff.mp hgt)) (List.lt_asymm h)
  · exact fun h => flatMap_utf8EncodeChar_lt (String.lt_iff.mp h)

/-! ## Reading back what was written -/

theorem lead_one (ha : a.toNat < 0x80) : lead a = .whole (Char.ofNat a.toNat) := by
  rw [lead, if_pos ha]

theorem lead_two (ha : 0xC2 ≤ a.toNat) (ha' : a.toNat < 0xE0) :
    lead a = .opens ⟨[a], a.toNat - 0xC0, 1, 0x80, 0xBF⟩ := by
  rw [lead, if_neg (by omega), if_neg (by omega), if_pos (by omega)]

theorem lead_three (ha : 0xE0 ≤ a.toNat) (ha' : a.toNat < 0xF0) :
    lead a = .opens ⟨[a], a.toNat - 0xE0, 2, if a.toNat = 0xE0 then 0xA0 else 0x80,
      if a.toNat = 0xED then 0x9F else 0xBF⟩ := by
  rw [lead, if_neg (by omega), if_neg (by omega), if_neg (by omega), if_pos (by omega)]

theorem lead_four (ha : 0xF0 ≤ a.toNat) (ha' : a.toNat < 0xF5) :
    lead a = .opens ⟨[a], a.toNat - 0xF0, 3, if a.toNat = 0xF0 then 0x90 else 0x80,
      if a.toNat = 0xF4 then 0x8F else 0xBF⟩ := by
  rw [lead, if_neg (by omega), if_neg (by omega), if_neg (by omega), if_neg (by omega),
    if_pos (by omega)]

/-- The bound is a numeral here, so that `omega` finds it. -/
theorem toNat_ofNat_of_lt {n : Nat} (h : n < 256) : (UInt8.ofNat n).toNat = n :=
  UInt8.toNat_ofNat_of_lt' h

/-- A byte that is not the first of its character. -/
theorem continuation_range (n : Nat) :
    0x80 ≤ UInt8.ofNat (n % 64 + 128) ∧ UInt8.ofNat (n % 64 + 128) ≤ 0xBF := by
  rw [UInt8.le_iff_toNat_le, UInt8.le_iff_toNat_le, toNat_ofNat_of_lt (by omega)]
  exact ⟨Nat.le_add_left _ _, Nat.add_le_add_right (Nat.le_of_lt_succ (Nat.mod_lt _ (by decide))) _⟩

/-- What follows the first of three bytes. The surrogates, which are no characters, are out of the
range of the second. -/
theorem completed_three {v : Nat} (hlow : 0x800 ≤ v) (hhigh : v < 0x10000)
    (hv : v < 0xD800 ∨ 0xDFFF < v) (ha : a.toNat = v / 4096 % 16 + 224) (seen : Bytes)
    (bits : Nat) :
    Partial.Completed ⟨seen, bits, 2, if a.toNat = 0xE0 then 0xA0 else 0x80,
      if a.toNat = 0xED then 0x9F else 0xBF⟩
      [UInt8.ofNat (v / 64 % 64 + 128), UInt8.ofNat (v % 64 + 128)] := by
  have hb : (UInt8.ofNat (v / 64 % 64 + 128)).toNat = v / 64 % 64 + 128 :=
    toNat_ofNat_of_lt (by omega)
  obtain ⟨hmin, hmax⟩ := continuation_range (v / 64)
  refine ⟨rfl, ?_, List.forall_mem_singleton.mpr (continuation_range _)⟩
  rintro b ⟨⟩
  constructor
  · dsimp only
    split
    · rw [UInt8.le_iff_toNat_le, hb]
      show 0xA0 ≤ _
      omega
    · exact hmin
  · dsimp only
    split
    · rw [UInt8.le_iff_toNat_le, hb]
      show _ ≤ 0x9F
      omega
    · exact hmax

/-- What follows the first of four bytes. -/
theorem completed_four {v : Nat} (hlow : 0x10000 ≤ v) (hhigh : v < 0x110000)
    (ha : a.toNat = v / 262144 % 8 + 240) (seen : Bytes) (bits : Nat) :
    Partial.Completed ⟨seen, bits, 3, if a.toNat = 0xF0 then 0x90 else 0x80,
      if a.toNat = 0xF4 then 0x8F else 0xBF⟩
      [UInt8.ofNat (v / 4096 % 64 + 128), UInt8.ofNat (v / 64 % 64 + 128),
        UInt8.ofNat (v % 64 + 128)] := by
  have hb : (UInt8.ofNat (v / 4096 % 64 + 128)).toNat = v / 4096 % 64 + 128 :=
    toNat_ofNat_of_lt (by omega)
  obtain ⟨hmin, hmax⟩ := continuation_range (v / 4096)
  refine ⟨rfl, ?_, List.forall_mem_cons.mpr ⟨continuation_range _,
    List.forall_mem_singleton.mpr (continuation_range _)⟩⟩
  rintro b ⟨⟩
  constructor
  · dsimp only
    split
    · rw [UInt8.le_iff_toNat_le, hb]
      show 0x90 ≤ _
      omega
    · exact hmin
  · dsimp only
    split
    · rw [UInt8.le_iff_toNat_le, hb]
      show _ ≤ 0x8F
      omega
    · exact hmax

/-- The form of a character is a first byte and what completes it. -/
theorem exists_lead (x : Char) :
    (∃ a, String.utf8EncodeChar x = [a] ∧ lead a = .whole x) ∨
      ∃ a p tail, String.utf8EncodeChar x = a :: tail ∧ lead a = .opens p ∧ p.seen = [a] ∧
        p.Completed tail := by
  have hmax : x.val.toNat < 0x110000 := val_toNat_lt x
  unfold String.utf8EncodeChar
  dsimp only
  split_ifs with h1 h2 h3
  · have ha : (UInt8.ofNat x.val.toNat).toNat = x.val.toNat := toNat_ofNat_of_lt (by omega)
    have hback : Char.ofNat x.val.toNat = x := Char.ofNat_toNat x
    refine Or.inl ⟨_, rfl, ?_⟩
    rw [lead_one (by omega), ha, hback]
  · have ha : (UInt8.ofNat (x.val.toNat / 64 % 32 + 192)).toNat = x.val.toNat / 64 % 32 + 192 :=
      toNat_ofNat_of_lt (by omega)
    refine Or.inr ⟨_, _, _, rfl, lead_two (by omega) (by omega), rfl, rfl, ?_, nofun⟩
    rintro b ⟨⟩
    exact continuation_range _
  · have ha : (UInt8.ofNat (x.val.toNat / 4096 % 16 + 224)).toNat = x.val.toNat / 4096 % 16 + 224 :=
      toNat_ofNat_of_lt (by omega)
    have hv : x.val.toNat < 0xD800 ∨ 0xDFFF < x.val.toNat := x.valid.imp_right And.left
    exact Or.inr ⟨_, _, _, rfl, lead_three (by omega) (by omega), rfl,
      completed_three (by omega) (by omega) hv ha _ _⟩
  · have ha : (UInt8.ofNat (x.val.toNat / 262144 % 8 + 240)).toNat =
        x.val.toNat / 262144 % 8 + 240 := toNat_ofNat_of_lt (by omega)
    exact Or.inr ⟨_, _, _, rfl, lead_four (by omega) (by omega), rfl,
      completed_four (by omega) hmax ha _ _⟩

/-- The last byte of a character. -/
theorem piecesFrom_finish (hb : p.low ≤ b ∧ b ≤ p.high) (hone : p.owed ≤ 1) :
    piecesFrom (some p) (b :: rest) = .ok (p.finish [b]) :: piecesFrom none rest := by
  rw [piecesFrom, if_pos hb]
  dsimp only
  rw [if_pos hone]
  rfl

/-- A byte of a character that is not its last. -/
theorem piecesFrom_push (hb : p.low ≤ b ∧ b ≤ p.high) (hone : ¬ p.owed ≤ 1) :
    piecesFrom (some p) (b :: rest) = piecesFrom (some (p.push b)) rest := by
  rw [piecesFrom, if_pos hb]
  dsimp only
  rw [if_neg hone]
  rfl

/-- The bytes that complete a character are read as that character. -/
theorem piecesFrom_completed (h : p.Completed tail) (ho : 0 < p.owed) :
    piecesFrom (some p) (tail ++ rest) = .ok (p.finish tail) :: piecesFrom none rest := by
  induction tail generalizing p with
  | nil =>
      have hlen : 0 = p.owed := h.length
      omega
  | cons b tail ih =>
      have hb : p.low ≤ b ∧ b ≤ p.high := h.head b rfl
      have hlen : tail.length + 1 = p.owed := h.length
      rw [List.cons_append]
      by_cases hone : p.owed ≤ 1
      · obtain rfl : tail = [] := List.length_eq_zero_iff.mp (by omega)
        exact piecesFrom_finish hb hone
      · have hpush : (p.push b).Completed tail := by
          refine ⟨?_, fun c hc => h.rest c (List.mem_of_mem_head? hc), fun c hc =>
            h.rest c (List.mem_of_mem_tail hc)⟩
          show tail.length = p.owed - 1
          omega
        have hpos : 0 < (p.push b).owed := by
          show 0 < p.owed - 1
          omega
        rw [piecesFrom_push hb hone, ← Partial.finish_push]
        exact ih hpush hpos

theorem pieces_utf8EncodeChar (x : Char) (rest : Bytes) :
    piecesFrom none (String.utf8EncodeChar x ++ rest) = .ok x :: piecesFrom none rest := by
  obtain ⟨a, ha, hl⟩ | ⟨a, p, tail, ha, hl, hseen, ht⟩ := exists_lead x
  · rw [ha, List.singleton_append, piecesFrom, hl]
  · have hs : p.Sound := sound_of_lead hl
    have hx : p.finish tail = x := by
      refine utf8EncodeChar_inj ?_
      rw [hs.spells tail ht, ha, hseen, List.singleton_append]
    rw [ha, List.cons_append, piecesFrom, hl]
    dsimp only
    rw [piecesFrom_completed ht hs.owed, hx]

theorem pieces_encode (s : String) : pieces (encode s) = s.toList.map .ok := by
  have h : ∀ xs : List Char, piecesFrom none (xs.flatMap String.utf8EncodeChar) = xs.map .ok := by
    intro xs
    induction xs with
    | nil => rfl
    | cons x xs ih => rw [List.flatMap_cons, pieces_utf8EncodeChar, ih, List.map_cons]
  exact h s.toList

/-! ## Reading loses nothing -/

/-- The bytes of a piece. -/
def spelled : Except Bytes Char → Bytes
  | .ok x => String.utf8EncodeChar x
  | .error bs => bs

theorem utf8EncodeChar_of_lead {x : Char} (h : lead b = .whole x) :
    String.utf8EncodeChar x = [b] := by
  unfold lead at h
  dsimp only at h
  split_ifs at h with hb
  obtain rfl := Lead.whole.inj h
  exact utf8EncodeChar_one hb

theorem seen_of_lead (h : lead b = .opens p) : p.seen = [b] := by
  unfold lead at h
  dsimp only at h
  split_ifs at h <;> (obtain rfl := Lead.opens.inj h; rfl)

/-- The pieces hold the bytes of the character that was begun, and those that follow. -/
theorem flatMap_spelled_piecesFrom {q : Option Partial} (bs : Bytes) (hq : ∀ p ∈ q, p.Sound) :
    (piecesFrom q bs).flatMap spelled = q.elim [] Partial.seen ++ bs := by
  -- By induction over the bytes: what a byte begins or goes on with is sound again.
  induction bs generalizing q with
  | nil =>
      cases q with
      | none => rfl
      | some p => simp [piecesFrom, spelled]
  | cons b rest ih =>
      have hnone : (piecesFrom none rest).flatMap spelled = rest := ih nofun
      have hsome : ∀ {p : Partial}, p.Sound →
          (piecesFrom (some p) rest).flatMap spelled = p.seen ++ rest := by
        intro p hp
        refine ih ?_
        rintro _ ⟨⟩
        exact hp
      cases q with
      | none =>
          cases hl : lead b with
          | whole x => simp [piecesFrom, hl, spelled, hnone, utf8EncodeChar_of_lead hl]
          | opens p => simp [piecesFrom, hl, hsome (sound_of_lead hl), seen_of_lead hl]
          | stray => simp [piecesFrom, hl, spelled, hnone]
      | some p =>
          have hp : p.Sound := hq p rfl
          by_cases hb : p.low ≤ b ∧ b ≤ p.high
          · by_cases hone : p.owed ≤ 1
            · have ho : p.owed = 1 := Nat.le_antisymm hone hp.owed
              have hspells : String.utf8EncodeChar (p.finish [b]) = p.seen ++ [b] :=
                hp.spells [b] (Partial.Completed.single hb ho)
              simp [piecesFrom_finish hb hone, spelled, hspells, hnone]
            · have hpush : (p.push b).Sound := hp.push hb (Nat.lt_of_not_le hone)
              rw [piecesFrom_push hb hone, hsome hpush]
              simp [Partial.push]
          · cases hl : lead b with
            | whole x => simp [piecesFrom, hb, hl, spelled, hnone, utf8EncodeChar_of_lead hl]
            | opens p =>
                simp [piecesFrom, hb, hl, spelled, hsome (sound_of_lead hl), seen_of_lead hl]
            | stray => simp [piecesFrom, hb, hl, spelled, hnone]

/-- The pieces hold every byte, in order. -/
theorem flatMap_spelled_pieces (bs : Bytes) : (pieces bs).flatMap spelled = bs :=
  flatMap_spelled_piecesFrom bs nofun

theorem eq_map_ok_of_mapM {ps : List (Except Bytes Char)} {xs : List Char}
    (h : ps.mapM Except.toOption = some xs) : ps = xs.map .ok := by
  induction ps generalizing xs with
  | nil =>
      obtain rfl : [] = xs := by simpa using h
      rfl
  | cons p ps ih =>
      cases p with
      | error bs => simp [Except.toOption] at h
      | ok x =>
          obtain ⟨ys, hys, rfl⟩ : ∃ ys, ps.mapM Except.toOption = some ys ∧ x :: ys = xs := by
            simpa [Except.toOption, List.mapM_cons, Option.bind_eq_some_iff] using h
          rw [ih hys, List.map_cons]

theorem mapM_toOption_map_ok (xs : List Char) :
    (xs.map (Except.ok (ε := Bytes))).mapM Except.toOption = some xs := by
  induction xs with
  | nil => rfl
  | cons x xs ih => simp [List.mapM_cons, ih, Except.toOption]

/-- **Bytes are decoded to a text exactly if they are its UTF-8 form.** -/
theorem decode?_eq_some_iff {bs : Bytes} {s : String} : decode? bs = some s ↔ encode s = bs := by
  constructor
  · intro h
    obtain ⟨xs, hxs, rfl⟩ := Option.map_eq_some_iff.mp h
    rw [← flatMap_spelled_pieces bs, eq_map_ok_of_mapM hxs, List.flatMap_map, encode,
      String.toList_ofList]
    rfl
  · rintro rfl
    rw [decode?, pieces_encode, mapM_toOption_map_ok, Option.map_some, String.ofList_toList]

theorem decode?_eq_none_iff {bs : Bytes} : decode? bs = none ↔ ∀ s, encode s ≠ bs := by
  rw [Option.eq_none_iff_forall_ne_some]
  exact forall_congr' fun s => not_congr decode?_eq_some_iff

end PooledStore.Text
