import Mathlib.Data.List.TakeWhile
import Mathlib.Data.Nat.Digits.Defs
import PooledStore.Migration.Discovery
import PooledStore.Proofs.Text.Utf8

/-!
# The names of scripts

A name is a script's if it is text, begins with digits and has the provider's extension or the
portable one (`ScriptName`). `classify_eq_script_iff` is the whole rule: an entry of a directory is
taken for a script exactly if it is a file with such a name and its number can be recorded. A file
with such a name whose number is too large is reported as one without a version
(`classify_of_scriptName`).
-/

set_option autoImplicit false

namespace PooledStore.Path

open Text

variable {name ext : Bytes}

theorem extensionOf_of_append {stem : Bytes} (hstem : stem ≠ []) (hext : dot ∉ ext)
    (hne : ext ≠ []) :
    extensionOf (stem ++ dot :: ext) = some ext := by
  have hup : stem ++ dot :: ext ≠ up := by
    intro h
    have hlen : stem.length + (ext.length + 1) = 2 := by
      simpa [up] using congrArg List.length h
    have := List.length_pos_of_ne_nil hstem
    have := List.length_pos_of_ne_nil hne
    omega
  have hall : ∀ b ∈ ext.reverse, (b != dot) = true := by
    intro b hb
    simp only [bne_iff_ne, ne_eq]
    rintro rfl
    exact hext (List.mem_reverse.mp hb)
  have hafter : (stem ++ dot :: ext).reverse.takeWhile (· != dot) = ext.reverse := by
    rw [List.reverse_append, List.reverse_cons, List.append_assoc,
      List.takeWhile_append_of_pos hall]
    simp
  have hlong : ¬ (stem ++ dot :: ext).length ≤ ext.reverse.length + 1 := by
    have := List.length_pos_of_ne_nil hstem
    simp only [List.length_append, List.length_cons, List.length_reverse]
    omega
  unfold extensionOf
  rw [if_neg hup, hafter]
  dsimp only
  rw [if_neg hlong, List.reverse_reverse]

/-- The extension is what follows the last dot, if there is something before that dot. -/
theorem extensionOf_eq_some_iff (hne : ext ≠ []) : extensionOf name = some ext ↔
    dot ∉ ext ∧ ∃ stem, stem ≠ [] ∧ name = stem ++ dot :: ext := by
  constructor
  · intro h
    unfold extensionOf at h
    split at h
    · cases h
    dsimp only at h
    split at h
    · cases h
    · next hlong =>
        obtain rfl := Option.some.inj h
        have hdot : dot ∉ (name.reverse.takeWhile (· != dot)).reverse := by
          intro hmem
          have hp := List.mem_takeWhile_imp (List.mem_reverse.mp hmem)
          simp at hp
        refine ⟨hdot, ?_⟩
        -- Before the bytes that are not dots there is a dot, and something before that.
        have hsplit := List.takeWhile_append_dropWhile (p := (· != dot)) (l := name.reverse)
        cases hd : name.reverse.dropWhile (· != dot) with
        | nil =>
            rw [hd, List.append_nil] at hsplit
            rw [hsplit, List.length_reverse] at hlong
            omega
        | cons b before =>
            have hb : b = dot := by
              have hhead := List.head?_dropWhile_not (· != dot) name.reverse
              rw [hd] at hhead
              simpa using hhead
            rw [hd, hb] at hsplit
            refine ⟨before.reverse, ?_, ?_⟩
            · rintro hnil
              rw [List.reverse_eq_nil_iff.mp hnil] at hsplit
              have hlen := congrArg List.length hsplit
              simp only [List.length_append, List.length_singleton, List.length_reverse] at hlen
              omega
            · rw [← List.reverse_inj, List.reverse_append, List.reverse_cons, List.reverse_reverse,
                List.reverse_reverse, List.append_assoc, List.singleton_append, hsplit]
  · rintro ⟨hext, stem, hstem, rfl⟩
    exact extensionOf_of_append hstem hext hne

end PooledStore.Path

namespace PooledStore.Migration

open Text

variable {provider : Provider} {name : Bytes} {text : String} {ds : List Char}

/-! ## Versions -/

/-- The digits with which a text begins: some, and all of them. -/
structure LeadingDigits (text : String) (ds : List Char) : Prop where
  nonempty : ds ≠ []
  digits : ∀ d ∈ ds, d.isDigit = true
  spelled : ∃ rest, text.toList = ds ++ rest ∧ ∀ c ∈ rest.head?, c.isDigit = false

theorem leadingDigits_iff :
    LeadingDigits text ds ↔ ds ≠ [] ∧ text.toList.takeWhile Char.isDigit = ds := by
  constructor
  · rintro ⟨hne, hdigits, rest, hspelled, hrest⟩
    refine ⟨hne, ?_⟩
    rw [hspelled, List.takeWhile_append_of_pos hdigits]
    cases rest with
    | nil => simp
    | cons c rest => simp [hrest c rfl]
  · rintro ⟨hne, rfl⟩
    refine ⟨hne, fun d hd => List.mem_takeWhile_imp hd, _, List.takeWhile_append_dropWhile.symm, ?_⟩
    intro c hc
    have hhead := List.head?_dropWhile_not Char.isDigit text.toList
    rw [Option.mem_def.mp hc] at hhead
    simpa using hhead

theorem LeadingDigits.unique {ds' : List Char} (h : LeadingDigits text ds)
    (h' : LeadingDigits text ds') : ds = ds' :=
  (leadingDigits_iff.mp h).2.symm.trans (leadingDigits_iff.mp h').2

/-- The number that digits write, in base ten. -/
theorem numberOf_eq_ofDigits (ds : List Char) :
    numberOf ds = Nat.ofDigits 10 (ds.reverse.map fun d => d.toNat - 48) := by
  rw [numberOf, Nat.ofDigits_eq_foldr, List.foldr_map, List.foldr_reverse]
  congr 1
  funext n d
  show n * 10 + (d.toNat - 48) = d.toNat - 48 + 10 * n
  omega

theorem versionOf?_eq_some_iff {version : Int} : versionOf? text = some version ↔
    ∃ ds, LeadingDigits text ds ∧ numberOf ds ≤ maxVersion ∧ version = numberOf ds := by
  unfold versionOf?
  dsimp only
  split
  · next hempty =>
      refine ⟨nofun, ?_⟩
      rintro ⟨ds, hds, -⟩
      rw [(leadingDigits_iff.mp hds).2, List.isEmpty_iff] at hempty
      exact absurd hempty hds.nonempty
  · next hne =>
      have hds : LeadingDigits text (text.toList.takeWhile Char.isDigit) :=
        leadingDigits_iff.mpr ⟨by simpa using hne, rfl⟩
      constructor
      · intro h
        split at h
        · next hle => exact ⟨_, hds, hle, (Option.some.inj h).symm⟩
        · cases h
      · rintro ⟨ds, hds', hle, rfl⟩
        obtain rfl := hds.unique hds'
        rw [if_pos hle]

/-! ## Names -/

/-- The name of a script: it is the text, which begins with the digits, and has the provider's
extension or the portable one. -/
structure ScriptName (provider : Provider) (name : Bytes) (text : String) (ds : List Char) :
    Prop where
  encoded : encode text = name
  extension : ∃ stem, stem ≠ [] ∧
    (name = stem ++ Path.dot :: encode provider.extension ∨
      name = stem ++ Path.dot :: encode portableExtension)
  digits : LeadingDigits text ds

theorem encode_extension (provider : Provider) :
    encode provider.extension ≠ [] ∧ Path.dot ∉ encode provider.extension := by
  cases provider <;> decide

theorem encode_portableExtension :
    encode portableExtension ≠ [] ∧ Path.dot ∉ encode portableExtension := by decide

/-- A name has the extension, read as text. -/
theorem bind_extensionOf_iff {ext : String} (h : encode ext ≠ [] ∧ Path.dot ∉ encode ext) :
    (Path.extensionOf name).bind decode? = some ext ↔
      ∃ stem, stem ≠ [] ∧ name = stem ++ Path.dot :: encode ext := by
  constructor
  · intro hbind
    obtain ⟨bs, hbs, hext⟩ := Option.bind_eq_some_iff.mp hbind
    rw [← decode?_eq_some_iff.mp hext] at hbs
    exact ((Path.extensionOf_eq_some_iff h.1).mp hbs).2
  · intro hstem
    rw [(Path.extensionOf_eq_some_iff h.1).mpr ⟨h.2, hstem⟩]
    exact decode?_eq_some_iff.mpr rfl

theorem extension_refused_iff :
    ((Path.extensionOf name).bind decode? != some provider.extension &&
        (Path.extensionOf name).bind decode? != some portableExtension) = false ↔
      ∃ stem, stem ≠ [] ∧
        (name = stem ++ Path.dot :: encode provider.extension ∨
          name = stem ++ Path.dot :: encode portableExtension) := by
  rw [Bool.and_eq_false_iff, bne_eq_false_iff_eq, bne_eq_false_iff_eq,
    bind_extensionOf_iff (encode_extension provider), bind_extensionOf_iff encode_portableExtension]
  constructor
  · rintro (⟨stem, hstem, h⟩ | ⟨stem, hstem, h⟩)
    · exact ⟨stem, hstem, Or.inl h⟩
    · exact ⟨stem, hstem, Or.inr h⟩
  · rintro ⟨stem, hstem, h | h⟩
    · exact Or.inl ⟨stem, hstem, h⟩
    · exact Or.inr ⟨stem, hstem, h⟩

variable {dir : Path} {isFile : Bool}

/-- What a file with the name of a script is taken for. -/
theorem classify_of_scriptName (h : ScriptName provider name text ds) :
    classify dir provider name true =
      if numberOf ds ≤ maxVersion then .script ⟨numberOf ds, text, dir.join ⟨name⟩⟩
      else .skipped (.scriptUnversioned text) := by
  have hext := extension_refused_iff.mpr h.extension
  have hname : decode? name = some text := decode?_eq_some_iff.mpr h.encoded
  unfold classify
  dsimp only
  rw [if_neg nofun, hext, if_neg nofun, hname]
  dsimp only
  by_cases hle : numberOf ds ≤ maxVersion
  · rw [versionOf?_eq_some_iff.mpr ⟨ds, h.digits, hle, rfl⟩, if_pos hle]
  · have hnone : versionOf? text = none := by
      rw [Option.eq_none_iff_forall_ne_some]
      intro version hv
      obtain ⟨ds', hds', hle', -⟩ := versionOf?_eq_some_iff.mp hv
      rw [h.digits.unique hds'] at hle
      exact hle hle'
    rw [hnone, if_neg hle]

/-- **An entry is taken for a script exactly if** it is a file with the name of one whose number can
be recorded. -/
theorem classify_eq_script_iff {s : Script} : classify dir provider name isFile = .script s ↔
    isFile = true ∧ s.path = dir.join ⟨name⟩ ∧
      ∃ ds, ScriptName provider name s.name ds ∧ numberOf ds ≤ maxVersion ∧
        s.version = numberOf ds := by
  constructor
  · intro h
    unfold classify at h
    dsimp only at h
    split at h
    · cases h
    · next hfile =>
        split at h
        · cases h
        · next hext =>
            split at h
            · cases h
            · next text htext =>
                split at h
                · cases h
                · next version hversion =>
                    obtain rfl := Finding.script.inj h
                    obtain ⟨ds, hds, hle, rfl⟩ := versionOf?_eq_some_iff.mp hversion
                    exact ⟨by simpa using hfile, rfl, ds,
                      ⟨decode?_eq_some_iff.mp htext,
                        extension_refused_iff.mp (Bool.eq_false_iff.mpr hext), hds⟩, hle, rfl⟩
  · rintro ⟨rfl, hpath, ds, hname, hle, hversion⟩
    rw [classify_of_scriptName hname, if_pos hle, ← hpath, ← hversion]

end PooledStore.Migration
