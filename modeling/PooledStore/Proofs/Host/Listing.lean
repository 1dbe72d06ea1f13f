import Mathlib.Data.List.Nodup
import Mathlib.Data.List.Perm.Basic
import PooledStore.FileTree

/-!
# The order in which a tree is held

A tree holds its nodes in some order, and a directory is listed in that order. Where every place is
held once, the order says nothing else: every path leads to the same place
(`FileTree.resolve_of_reordered`), what it leads to is the same, and each name in a directory is
listed once (`FileTree.list_of_reordered`, `FileTree.nodup_of_list`).
-/

set_option autoImplicit false

namespace PooledStore.FileTree

variable {t t' : FileTree} {l : Location}

/-- The same tree, its nodes held in another order. -/
structure Reordered (t t' : FileTree) : Prop where
  cwd : t'.cwd = t.cwd
  permits : t'.permits = t.permits
  nodes : t'.nodes.Perm t.nodes

/-- No place is held twice. -/
def Distinct (t : FileTree) : Prop := (t.nodes.map Prod.fst).Nodup

instance (t : FileTree) : Decidable t.Distinct := inferInstanceAs (Decidable (List.Nodup _))

theorem Distinct.find?_eq_some_iff {e : Location × Node} (h : t.Distinct) :
    (t.nodes.find? fun e => e.1 = l) = some e ↔ e ∈ t.nodes ∧ e.1 = l := by
  constructor
  · intro he
    exact ⟨List.mem_of_find?_eq_some he, by simpa using List.find?_some he⟩
  · rintro ⟨he, rfl⟩
    obtain ⟨e', he'⟩ := Option.isSome_iff_exists.mp
      (List.find?_isSome (p := fun e' : Location × Node => e'.1 = e.1) |>.mpr ⟨e, he, by simp⟩)
    have hsame : e'.1 = e.1 := by simpa using List.find?_some he'
    rw [he', List.inj_on_of_nodup_map h (List.mem_of_find?_eq_some he') he hsame]

theorem Reordered.distinct (h : t.Reordered t') (hd : t.Distinct) : t'.Distinct :=
  (h.nodes.map Prod.fst).nodup_iff.mpr hd

theorem Reordered.node? (h : t.Reordered t') (hd : t.Distinct) (l : Location) :
    t'.node? l = t.node? l := by
  have hfind : (t'.nodes.find? fun e => e.1 = l) = t.nodes.find? fun e => e.1 = l := by
    rw [Option.ext_iff]
    intro e
    rw [hd.find?_eq_some_iff, (h.distinct hd).find?_eq_some_iff, h.nodes.mem_iff]
  rw [FileTree.node?, FileTree.node?, hfind]

/-! ## Where paths lead -/

variable {followLast : Bool}

theorem walk_congr (hn : ∀ l, t'.node? l = t.node? l) (hp : t'.permits = t.permits)
    {follow follow' : Location → List Text.Bytes → Except FileError Location}
    (hf : ∀ here names, follow' here names = follow here names)
    (names : List Text.Bytes) (here : Location) :
    t'.walk followLast follow' here names = t.walk followLast follow here names := by
  induction names generalizing here with
  | nil => rfl
  | cons name rest ih => simp only [walk, hn, hp, hf, ih]

theorem walkLinks_congr (hn : ∀ l, t'.node? l = t.node? l) (hp : t'.permits = t.permits)
    (links : Nat) (here : Location) (names : List Text.Bytes) :
    t'.walkLinks followLast links here names = t.walkLinks followLast links here names := by
  induction links generalizing here names with
  | zero => exact walk_congr hn hp (fun _ _ => rfl) names here
  | succ links ih => exact walk_congr hn hp ih names here

theorem resolve_of_reordered (h : t.Reordered t') (hd : t.Distinct) (p : Path) :
    t'.resolve followLast p = t.resolve followLast p := by
  simp only [resolve, walkLinks_congr (h.node? hd) h.permits, h.cwd]

theorem isFile_of_reordered (h : t.Reordered t') (hd : t.Distinct) (p : Path) :
    t'.isFile p = t.isFile p := by
  simp only [isFile, lookup, resolve_of_reordered h hd, h.node? hd]

/-! ## The names in a directory -/

/-- The name of a place in the directory. -/
def nameIn (l : Location) (place : Location) : Option Text.Bytes :=
  match place.getLast? with
  | some name => if place = l ++ [name] then some name else none
  | none => none

theorem nameIn_eq_some_iff {place : Location} {name : Text.Bytes} :
    nameIn l place = some name ↔ place = l ++ [name] := by
  unfold nameIn
  constructor
  · intro h
    split at h
    · split at h
      · next heq => exact Option.some.inj h ▸ heq
      · cases h
    · cases h
  · rintro rfl
    simp

theorem childNames_eq : t.childNames l = (t.nodes.map Prod.fst).filterMap (nameIn l) := by
  rw [List.filterMap_map]
  rfl

theorem Distinct.nodup_childNames (h : t.Distinct) (l : Location) : (t.childNames l).Nodup := by
  rw [childNames_eq]
  refine h.filterMap ?_
  intro place place' name hname hname'
  rw [nameIn_eq_some_iff.mp hname, nameIn_eq_some_iff.mp hname']

theorem list_eq_ok_iff {p : Path} {names : List Text.Bytes} : t.list p = .ok names ↔
    ∃ l mode, t.resolve true p = .ok l ∧ t.node? l = some (.directory mode) ∧
      t.permits .read l mode = true ∧ names = t.childNames l := by
  unfold list
  cases hr : t.resolve true p with
  | error e => simp [bind, Except.bind]
  | ok l =>
      cases hn : t.node? l with
      | none => simp [bind, Except.bind, hn]
      | some node =>
          cases node with
          | file mode contents | link target => simp [bind, Except.bind, hn]
          | directory mode =>
              cases hreadable : t.permits .read l mode with
              | false => simp [bind, Except.bind, hn, hreadable]
              | true =>
                  simp only [bind, Except.bind, hn, hreadable, if_true, Except.ok.injEq]
                  constructor
                  · rintro rfl
                    exact ⟨l, mode, rfl, hn, hreadable, rfl⟩
                  · rintro ⟨_, _, rfl, -, -, rfl⟩
                    rfl

theorem nodup_of_list {p : Path} {names : List Text.Bytes} (h : t.Distinct)
    (hl : t.list p = .ok names) : names.Nodup := by
  obtain ⟨l, -, -, -, -, rfl⟩ := list_eq_ok_iff.mp hl
  exact h.nodup_childNames l

/-- A directory is listed again with the same names, in some order; one that cannot be listed fails
for the same reason. -/
theorem list_of_reordered (h : t.Reordered t') (hd : t.Distinct) (p : Path) :
    (∃ e, t.list p = .error e ∧ t'.list p = .error e) ∨
      ∃ names names', t.list p = .ok names ∧ t'.list p = .ok names' ∧ names'.Perm names := by
  have hchildren : ∀ l, (t'.childNames l).Perm (t.childNames l) := fun l => h.nodes.filterMap _
  simp only [list, resolve_of_reordered h hd, h.node? hd, h.permits]
  cases t.resolve true p with
  | error e => exact Or.inl ⟨e, rfl, rfl⟩
  | ok l =>
      simp only [bind, Except.bind]
      split
      · split
        · exact Or.inr ⟨_, _, rfl, rfl, hchildren l⟩
        · exact Or.inl ⟨_, rfl, rfl⟩
      · exact Or.inl ⟨_, rfl, rfl⟩
      · exact Or.inl ⟨_, rfl, rfl⟩

end PooledStore.FileTree
