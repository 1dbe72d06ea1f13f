import Mathlib.Tactic.SplitIfs
import PooledStore.FileTree

/-!
# Files put in place

Putting a file where nothing is, or in place of a file, leaves every path that leads somewhere
leading to the same place (`FileTree.resolve_of_refined`); and what is found at the other places
stays as it is.
-/

set_option autoImplicit false

namespace PooledStore.FileTree

variable {t t' : FileTree} {l place : Location} {n : Node}

/-! ## Putting a node at a place -/

theorem set_of_any (h : t.nodes.any (·.1 = place) = true) :
    t.set place n =
      { t with nodes := t.nodes.map fun e => if e.1 = place then (place, n) else e } := by
  unfold set
  exact if_pos h

theorem set_of_not_any (h : t.nodes.any (·.1 = place) = false) :
    t.set place n = { t with nodes := t.nodes ++ [(place, n)] } := by
  unfold set
  exact if_neg (by rw [h]; exact nofun)

/-- The first entry of the place is the node that was put there; the entries of other places are as
before. -/
theorem find?_set : ((t.set place n).nodes.find? fun e => e.1 = l) =
    if l = place then some (place, n) else t.nodes.find? fun e => e.1 = l := by
  cases hany : t.nodes.any (·.1 = place) with
  | true =>
      have hp : (fun e : Location × Node => decide (e.1 = l)) ∘
          (fun e => if e.1 = place then (place, n) else e) = fun e => decide (e.1 = l) := by
        funext e
        by_cases he : e.1 = place
        · simp [he]
        · simp [he]
      rw [set_of_any hany, List.find?_map, hp]
      by_cases hl : l = place
      · obtain ⟨e, he⟩ := Option.isSome_iff_exists.mp
          (List.find?_isSome.mpr (List.any_eq_true.mp (hl ▸ hany)))
        have heq : e.1 = l := by simpa using List.find?_some he
        rw [he, Option.map_some, if_pos hl, if_pos (heq.trans hl)]
      · rw [if_neg hl]
        cases he : t.nodes.find? fun e => e.1 = l with
        | none => rfl
        | some e =>
            have heq : e.1 = l := by simpa using List.find?_some he
            rw [Option.map_some, if_neg (heq ▸ hl)]
  | false =>
      rw [set_of_not_any hany, List.find?_append, List.find?_singleton]
      by_cases hl : l = place
      · have hnone : (t.nodes.find? fun e => e.1 = l) = none := by
          rw [List.find?_eq_none]
          intro e he
          rw [hl]
          exact (List.any_eq_false.mp hany) e he
        rw [hnone, Option.none_or, if_pos hl, if_pos (decide_eq_true hl.symm)]
      · have hne : ¬ decide (place = l) = true := by simpa using Ne.symm hl
        rw [if_neg hne, Option.or_none, if_neg hl]

theorem node?_set_self (hl : place ≠ []) : (t.set place n).node? place = some n := by
  have hne : place.isEmpty = false := by simpa using hl
  unfold node?
  rw [hne, if_neg nofun, find?_set, if_pos rfl, Option.map_some]

theorem node?_set_of_ne (h : l ≠ place) : (t.set place n).node? l = t.node? l := by
  unfold node?
  rw [find?_set, if_neg h]

/-! ## Paths that lead to the same place -/

/-- The second tree has files where the first one has nothing or files, and is the same
elsewhere. The same is permitted in both. -/
structure Refined (t t' : FileTree) : Prop where
  cwd : t'.cwd = t.cwd
  permits : t'.permits = t.permits
  node : ∀ l, t'.node? l = t.node? l ∨
    (∃ mode contents, t'.node? l = some (.file mode contents)) ∧
      (t.node? l = none ∨ ∃ mode contents, t.node? l = some (.file mode contents))

variable {followLast : Bool}
variable {follow follow' : Location → List Text.Bytes → Except FileError Location}

theorem Refined.directory {mode : Nat} (h : t.Refined t')
    (hd : t.node? l = some (.directory mode)) :
    t'.node? l = some (.directory mode) := by
  obtain hsame | ⟨-, hnone | ⟨_, _, hfile⟩⟩ := h.node l
  · exact hsame.trans hd
  · rw [hd] at hnone
    cases hnone
  · rw [hd] at hfile
    cases hfile

/-- Where the name `name` leads from a directory, `rest` being left. -/
theorem walk_name {mode : Nat} {here : Location} {name : Text.Bytes} {rest : List Text.Bytes}
    (hd : t.node? here = some (.directory mode)) (hs : ¬ (!t.permits .search here mode) = true)
    (hdot : name ≠ [Path.dot]) (hup : name ≠ Path.up) (hlen : ¬ name.length > maxName) :
    t.walk followLast follow here (name :: rest) =
      match t.node? (here ++ [name]) with
      | none => if rest.isEmpty then .ok (here ++ [name]) else .error .notFound
      | some (.link target) =>
        if rest.isEmpty && !followLast then .ok (here ++ [name])
        else if target.bytes.isEmpty then .error .notFound
        else follow (if target.isAbsolute then [] else here) (steps target ++ rest)
      | some _ => t.walk followLast follow (here ++ [name]) rest := by
  rw [walk, hd]
  dsimp only
  rw [if_neg hs, if_neg hdot, if_neg hup]
  exact if_neg hlen

/-- From the same directory a name leads to the same place: where it is a file's in the second
tree, the walk ends there. -/
theorem walk_name_of_refined {mode : Nat} {here : Location} {name : Text.Bytes}
    {rest : List Text.Bytes} (h : t.Refined t') (hd : t.node? here = some (.directory mode))
    (hs : ¬ (!t.permits .search here mode) = true) (hdot : name ≠ [Path.dot]) (hup : name ≠ Path.up)
    (hlen : ¬ name.length > maxName)
    (hf : ∀ here names, follow here names = .ok l → follow' here names = .ok l)
    (ih : t.walk followLast follow (here ++ [name]) rest = .ok l →
      t'.walk followLast follow' (here ++ [name]) rest = .ok l)
    (hw : t.walk followLast follow here (name :: rest) = .ok l) :
    t'.walk followLast follow' here (name :: rest) = .ok l := by
  rw [walk_name hd hs hdot hup hlen] at hw
  rw [walk_name (h.directory hd) (by rwa [h.permits]) hdot hup hlen]
  obtain hsame | ⟨⟨mode', contents, hfile⟩, hbefore⟩ := h.node (here ++ [name])
  · rw [hsame]
    split at hw
    · exact hw
    · split_ifs at hw ⊢
      · exact hw
      · exact hf _ _ hw
      · exact hf _ _ hw
    · exact ih hw
  · rw [hfile]
    obtain hnone | ⟨mode'', contents', hfile'⟩ := hbefore
    · rw [hnone] at hw
      dsimp only at hw
      split at hw
      · next hempty =>
          obtain rfl : rest = [] := by simpa using hempty
          exact hw
      · cases hw
    · rw [hfile'] at hw
      exact ih hw

/-- A walk that gets to a place in the first tree gets there in the second: files are at the ends of
walks only. -/
theorem walk_of_refined (h : t.Refined t')
    (hf : ∀ here names, follow here names = .ok l → follow' here names = .ok l)
    {names : List Text.Bytes} {here : Location}
    (hw : t.walk followLast follow here names = .ok l) :
    t'.walk followLast follow' here names = .ok l := by
  induction names generalizing here with
  | nil => exact hw
  | cons name rest ih =>
      cases hd : t.node? here with
      | none =>
          rw [walk, hd] at hw
          cases hw
      | some node =>
          cases node with
          | file mode contents | link target =>
              rw [walk, hd] at hw
              cases hw
          | directory mode =>
              -- Only through a directory does the walk go on, and the second tree has the same one.
              have hd' := h.directory hd
              have hsame : t'.permits .search here mode = t.permits .search here mode := by
                rw [h.permits]
              by_cases hs : (!t.permits .search here mode) = true
              · rw [walk, hd] at hw
                dsimp only at hw
                rw [if_pos hs] at hw
                cases hw
              by_cases hdot : name = [Path.dot]
              · rw [walk, hd] at hw
                rw [walk, hd']
                dsimp only at hw ⊢
                rw [hsame]
                rw [if_neg hs, if_pos hdot] at hw ⊢
                exact ih hw
              by_cases hup : name = Path.up
              · rw [walk, hd] at hw
                rw [walk, hd']
                dsimp only at hw ⊢
                rw [hsame]
                rw [if_neg hs, if_neg hdot, if_pos hup] at hw ⊢
                exact ih hw
              by_cases hlen : name.length > maxName
              · rw [walk, hd] at hw
                dsimp only at hw
                rw [if_neg hs, if_neg hdot, if_neg hup, if_pos hlen] at hw
                cases hw
              exact walk_name_of_refined h hd hs hdot hup hlen hf ih hw

theorem walkLinks_of_refined (h : t.Refined t') {links : Nat} {names : List Text.Bytes}
    {here : Location} (hw : t.walkLinks followLast links here names = .ok l) :
    t'.walkLinks followLast links here names = .ok l := by
  induction links generalizing here names with
  | zero => exact walk_of_refined h (fun _ _ hno => hno) hw
  | succ links ih => exact walk_of_refined h (fun _ _ hfollow => ih hfollow) hw

/-- A path that leads to a place in the first tree leads there in the second. -/
theorem resolve_of_refined {p : Path} (h : t.Refined t')
    (hr : t.resolve followLast p = .ok l) : t'.resolve followLast p = .ok l := by
  unfold resolve at hr ⊢
  rw [h.cwd]
  split_ifs at hr ⊢
  · exact walkLinks_of_refined h hr
  · exact walkLinks_of_refined h hr

/-- Putting a file where nothing is, or in place of a file. -/
theorem refined_set {mode : Nat} {contents : Contents}
    (hn : t.node? place = none ∨ ∃ mode contents, t.node? place = some (.file mode contents)) :
    t.Refined (t.set place (.file mode contents)) := by
  have hroot : place ≠ [] := by
    rintro rfl
    obtain hnone | ⟨_, _, hfile⟩ := hn
    · cases hnone
    · cases hfile
  constructor
  · unfold set
    split <;> rfl
  · unfold set
    split <;> rfl
  · intro l
    by_cases hl : l = place
    · subst hl
      exact Or.inr ⟨⟨_, _, node?_set_self hroot⟩, hn⟩
    · exact Or.inl (node?_set_of_ne hl)

end PooledStore.FileTree
