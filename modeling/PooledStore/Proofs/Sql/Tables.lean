import Mathlib.Data.List.Basic
import PooledStore.Sql.Catalog

/-!
# Tables under statements

What a statement makes of a catalog (`Catalog.does`), and of a single table in it. A row that is
inserted is not refused by those that are there (`Table.insertRow_eq`); a statement that does not
make, drop or write to the table of a name leaves it as it is (`Catalog.table?_of_does`). A table
that is made without rows gives no foreign key anything to lead to (`Catalog.dangling_made`).
-/

set_option autoImplicit false

namespace PooledStore.Sql

/-! ## Tables by their names -/

theorem sameName_iff {a b : String} :
    sameName a b = true ↔ Text.asciiLower a = Text.asciiLower b := by
  simp [sameName]

theorem Catalog.sameName_of_table? {c : Catalog} {t : Table} {n : String}
    (h : c.table? n = some t) : sameName t.name n = true := by
  rw [table?] at h
  have := List.find?_some h
  exact this

theorem Catalog.table?_setTable {c : Catalog} {t t' : Table} {n : String}
    (h : c.table? n = some t) (hn : t'.name = t.name) : (c.setTable t').table? n = some t' := by
  have htn : sameName t'.name n = true := hn ▸ sameName_of_table? h
  -- Putting the table in its place does not change which name any table answers to.
  have hp : (fun u : Table => sameName u.name n) ∘
      (fun u => if sameName u.name t'.name then t' else u) = fun u => sameName u.name n := by
    funext u
    simp only [Function.comp_apply]
    split
    · rename_i hu
      rw [htn]
      exact (sameName_iff.mpr ((sameName_iff.mp hu).trans (sameName_iff.mp htn))).symm
    · rfl
  have hself : sameName t.name t'.name = true := sameName_iff.mpr (by rw [hn])
  simp only [table?, setTable] at h ⊢
  rw [List.find?_map, hp, h, Option.map_some, if_pos hself]

/-- A table in place of another one leaves the tables of other names as they are. -/
theorem Catalog.table?_setTable_of_ne {c : Catalog} {t : Table} {n : String}
    (hn : sameName t.name n = false) : (c.setTable t).table? n = c.table? n := by
  have other : ∀ {u : Table}, sameName u.name n = true → sameName u.name t.name = false := by
    intro u hu
    rw [← Bool.not_eq_true] at hn ⊢
    rw [sameName_iff] at hu hn ⊢
    exact fun ht => hn (ht.symm.trans hu)
  have hp : (fun u : Table => sameName u.name n) ∘
      (fun u => if sameName u.name t.name then t else u) = fun u => sameName u.name n := by
    funext u
    simp only [Function.comp_apply]
    cases hu : sameName u.name n with
    | true => rw [other hu, if_neg nofun, hu]
    | false => split <;> assumption
  simp only [table?, setTable]
  rw [List.find?_map, hp]
  cases hf : c.tables.find? fun u => sameName u.name n with
  | none => rfl
  | some u =>
      have hu := List.find?_some hf
      rw [Option.map_some, other hu, if_neg nofun]

theorem Catalog.table?_append {c : Catalog} {t : Table} {n : String} :
    ({ c with tables := c.tables ++ [t] } : Catalog).table? n =
      (c.table? n).or (if sameName t.name n then some t else none) := by
  simp only [table?, List.find?_append, List.find?_singleton]

/-! ## Inserting a row -/

namespace Table

variable {t t' : Table} {uniques : List (List Nat)} {cells : List Value} {r : Row} {n : Int}
variable {i : Nat} {c : Column} {x : Value}

theorem mem_place {r u : Row} {l : List Row} : u ∈ place r l ↔ u = r ∨ u ∈ l := by
  induction l with
  | nil => simp [place]
  | cons w l ih =>
      unfold place
      split
      · simp
      · rw [List.mem_cons, ih, List.mem_cons]
        exact or_left_comm

/-- A row is inserted if nothing refuses it. -/
theorem insertRow_eq (h : t.insertRow uniques cells = .ok t') :
    ∃ r, t.rowOf cells t.nextId = .ok r ∧ t.refusal? uniques t.rows r = none ∧
      t' = { t with rows := place r t.rows, lastId := max t.lastId r.id } := by
  unfold insertRow at h
  cases hr : t.rowOf cells t.nextId with
  | error e => simp [hr, bind, Except.bind] at h
  | ok r =>
      simp only [hr, bind, Except.bind] at h
      split at h
      · cases h
      · split at h
        · cases h
        · rename_i hnone
          exact ⟨r, rfl, hnone, (Except.ok.inj h).symm⟩

/-- A row that is not refused agrees with no other in columns whose values are unique. -/
theorem not_clash_of_refusal {others : List Row} {w : Row} {u : List Nat}
    (h : t.refusal? uniques others r = none) (hu : u ∈ uniques) (hw : w ∈ others) :
    clash u r w = false := by
  unfold refusal? at h
  simp only at h
  split at h
  · cases h
  · split at h
    · cases h
    · have hnone := List.find?_eq_none.mp (Option.map_eq_none_iff.mp h) u hu
      rw [Bool.not_eq_true, List.any_eq_false] at hnone
      simpa using hnone w hw

end Table

/-! ## What statements write to -/

/-- The statement makes or drops a table of the name, or writes to it. -/
def Statement.alters (n : String) : Statement → Bool
  | .createTable _ _ name .. => sameName name n
  | .dropTable _ name => sameName name n
  | .insert table .. => sameName table n
  | .insertDefaults table => sameName table n
  | .delete table _ => sameName table n
  | .update table .. => sameName table n
  | _ => false

/-- The table to whose rows the statement writes. -/
def Statement.rowsOf? : Statement → Option String
  | .insert table .. => some table
  | .insertDefaults table => some table
  | .delete table _ => some table
  | .update table .. => some table
  | _ => none

/-- What every step of a fold keeps, a fold that succeeds keeps. -/
theorem foldlM_keep {α β ε : Type} {f : β → α → Except ε β} {P : β → Prop} {l : List α} {b r : β}
    (keep : ∀ {a b b'}, P b → f b a = .ok b' → P b') (hb : P b) (h : l.foldlM f b = .ok r) :
    P r := by
  induction l generalizing b with
  | nil => exact Except.ok.inj h ▸ hb
  | cons a l ih =>
      rw [List.foldlM_cons] at h
      cases hf : f b a with
      | error e => rw [hf] at h; cases h
      | ok b' =>
          rw [hf] at h
          exact ih (keep hb hf) h

theorem ok_of_ite {α ε : Type} {p : Prop} [Decidable p] {e : ε} {x : Except ε α} {y : α}
    (h : (if p then .error e else x) = .ok y) : x = .ok y := by
  split at h
  · cases h
  · exact h

theorem Table.ofDecl_name {n : String} {columns : List ColumnDecl} {rules : List TableRule}
    {t : Table} (h : Table.ofDecl n columns rules = .ok t) : t.name = n := by
  unfold Table.ofDecl at h
  simp only [bind, Except.bind, pure, Except.pure, throw, throwThe, MonadExceptOf.throw] at h
  -- Each of the four checks of a declaration can only fail or go on.
  split at h
  · cases h
  · replace h := ok_of_ite h
    split at h
    · cases h
    · obtain rfl := Except.ok.inj (ok_of_ite h)
      rfl

/-! ## A table with other rows -/

variable {t t' : Table}

/-- A table with other rows. -/
def Table.Refills (t t' : Table) : Prop :=
  ∃ rows lastId, t' = { t with rows := rows, lastId := lastId }

theorem Table.Refills.refl (t : Table) : t.Refills t := ⟨t.rows, t.lastId, rfl⟩

theorem Table.Refills.name (h : t.Refills t') : t'.name = t.name := by
  obtain ⟨rows, lastId, rfl⟩ := h
  rfl

theorem Table.insertRow_refills {uniques : List (List Nat)} {cells : List Value}
    (h : t.insertRow uniques cells = .ok t') : t.Refills t' := by
  obtain ⟨r, -, -, rfl⟩ := Table.insertRow_eq h
  exact ⟨_, _, rfl⟩

theorem Table.changeRow_refills {uniques : List (List Nat)} {old : Row} {cells : List Value}
    (h : t.changeRow uniques old cells = .ok t') : t.Refills t' := by
  unfold Table.changeRow at h
  simp only [bind, Except.bind, pure, Except.pure, throw, throwThe, MonadExceptOf.throw] at h
  split at h
  · cases h
  · split at h
    · cases h
    · split at h
      · cases h
      · obtain rfl := Except.ok.inj h
        exact ⟨_, _, rfl⟩

theorem Table.Refills.foldlM {α : Type} {f : Table → α → Except Error Table} {l : List α}
    (hf : ∀ {a u u'}, f u a = .ok u' → u.Refills u') (h : l.foldlM f t = .ok t') :
    t.Refills t' := by
  refine foldlM_keep (P := t.Refills) ?_ (.refl t) h
  rintro a _ u' ⟨rows, lastId, rfl⟩ hu
  obtain ⟨rows', lastId', rfl⟩ := hf hu
  exact ⟨rows', lastId', rfl⟩

theorem bind_pure_eq_map {α β ε : Type} (r : Except ε α) (f : α → β) :
    (r >>= fun a => pure (f a)) = r.map f := by
  cases r <;> rfl

namespace Catalog

variable {c c' : Catalog} {stmt : Statement} {n : String}

theorem perform_of_run (h : c.run stmt = .ok c') : c.perform stmt = .ok c' := by
  unfold run at h
  cases hp : c.perform stmt with
  | error e => rw [hp] at h; cases h
  | ok c₁ =>
      simp only [hp, bind, Except.bind] at h
      split at h
      · cases h
      · exact h

/-- What a statement that writes rows makes of its table depends on this table and the indexes
only. -/
theorem perform_rows {k : Catalog} {table : String} (hs : stmt.rowsOf? = some table)
    (ht : k.table? table = c.table? table) (hi : k.indexes = c.indexes) :
    ∃ r : Except Error Table, c.perform stmt = r.map c.setTable ∧
      k.perform stmt = r.map k.setTable ∧
      ∀ t', r = .ok t' → ∃ t, c.table? table = some t ∧ t.Refills t' := by
  have hu : ∀ t, k.uniquesOf t = c.uniquesOf t := by
    intro t
    rw [uniquesOf, hi, uniquesOf]
  cases stmt with
  | insert _ _ _ =>
      obtain rfl := Option.some.inj hs
      simp only [perform, ht, hu]
      cases c.table? _ with
      | none => exact ⟨.error _, rfl, rfl, fun _ hf => by cases hf⟩
      | some t =>
          exact ⟨_, bind_pure_eq_map _ _, bind_pure_eq_map _ _, fun t' hf =>
            ⟨t, rfl, .foldlM (fun hi => Table.insertRow_refills hi) hf⟩⟩
  | insertDefaults _ =>
      obtain rfl := Option.some.inj hs
      simp only [perform, ht, hu]
      cases c.table? _ with
      | none => exact ⟨.error _, rfl, rfl, fun _ hf => by cases hf⟩
      | some t =>
          exact ⟨_, bind_pure_eq_map _ _, bind_pure_eq_map _ _, fun t' hf =>
            ⟨t, rfl, Table.insertRow_refills hf⟩⟩
  | delete _ _ =>
      obtain rfl := Option.some.inj hs
      simp only [perform, ht]
      cases c.table? _ with
      | none => exact ⟨.error _, rfl, rfl, fun _ hf => by cases hf⟩
      | some t =>
          refine ⟨.ok _, rfl, rfl, fun t' hf => ?_⟩
          obtain rfl := Except.ok.inj hf
          exact ⟨t, rfl, _, t.lastId, rfl⟩
  | update _ _ _ =>
      obtain rfl := Option.some.inj hs
      simp only [perform, ht, hu]
      cases c.table? _ with
      | none => exact ⟨.error _, rfl, rfl, fun _ hf => by cases hf⟩
      | some t =>
          exact ⟨_, bind_pure_eq_map _ _, bind_pure_eq_map _ _, fun t' hf =>
            ⟨t, rfl, .foldlM (fun hc => Table.changeRow_refills hc) hf⟩⟩
  | _ => cases hs

/-! ## Statements about other tables -/

/-- Writing rows leaves the tables of other names as they are. -/
theorem table?_of_rows {table : String} (hs : stmt.rowsOf? = some table)
    (h : c.perform stmt = .ok c') (hn : sameName table n = false) : c'.table? n = c.table? n := by
  obtain ⟨r, hr, -, hrefills⟩ := perform_rows (k := c) hs rfl rfl
  rw [hr] at h
  cases r with
  | error e => cases h
  | ok t' =>
      obtain rfl := Except.ok.inj h
      obtain ⟨t, ht, href⟩ := hrefills t' rfl
      refine table?_setTable_of_ne ?_
      have hsame := sameName_of_table? ht
      rw [← Bool.not_eq_true, sameName_iff] at hn ⊢
      rw [href.name, sameName_iff.mp hsame]
      exact hn

/-- Dropping a table leaves those of other names. -/
theorem table?_drop {name : String} {indexes : List Index} (hn : sameName name n = false) :
    (⟨c.tables.filter (!sameName ·.name name), indexes⟩ : Catalog).table? n = c.table? n := by
  simp only [table?, List.find?_filter]
  congr 1
  funext u
  cases hu : sameName u.name n with
  | false => simp
  | true =>
      have hne : sameName u.name name = false := by
        rw [← Bool.not_eq_true, sameName_iff] at hn ⊢
        exact fun he => hn (he.symm.trans (sameName_iff.mp hu))
      simp [hne]

theorem table?_of_perform (h : c.perform stmt = .ok c') (hn : stmt.alters n = false) :
    c'.table? n = c.table? n := by
  cases stmt with
  | createTable temporary lenient name written pos columns rules =>
      simp only [perform] at h
      split at h
      · rename_i t ht
        obtain rfl := Except.ok.inj h
        rw [table?_append, Table.ofDecl_name ht, show sameName name n = false from hn,
          if_neg nofun, Option.or_none]
      · cases h
  | createIndex unique lenient name table columns =>
      simp only [perform] at h
      split at h
      · cases h
      · split at h
        · cases h
        · obtain rfl := Except.ok.inj h
          rfl
  | dropTable lenient name =>
      obtain rfl := Except.ok.inj h
      exact table?_drop hn
  | insert _ _ _ | insertDefaults _ | delete _ _ | update _ _ _ => exact table?_of_rows rfl h hn
  | dropIndex _ _ | select _ _ _ | values _ | begin _ | commit | rollback =>
      obtain rfl := Except.ok.inj h
      rfl

/-- What a statement makes of a catalog, if it can be carried out there. -/
def does (c : Catalog) (stmt : Statement) : Option Catalog :=
  match c.check stmt with
  | .ok false => some c
  | .ok true => (c.run stmt).toOption
  | .error _ => none

theorem does_cases (h : c.does stmt = some c') :
    c.check stmt = .ok false ∧ c' = c ∨ c.check stmt = .ok true ∧ c.run stmt = .ok c' := by
  unfold does at h
  split at h
  · rename_i hc
    exact Or.inl ⟨hc, (Option.some.inj h).symm⟩
  · rename_i hc
    cases hr : c.run stmt with
    | error e => rw [hr] at h; cases h
    | ok c₁ =>
        rw [hr] at h
        exact Or.inr ⟨hc, congrArg Except.ok (Option.some.inj h)⟩
  · cases h

/-- A statement that does not alter the table of a name leaves it as it is. -/
theorem table?_of_does (h : c.does stmt = some c') (hn : stmt.alters n = false) :
    c'.table? n = c.table? n := by
  obtain ⟨-, rfl⟩ | ⟨-, hr⟩ := does_cases h
  · rfl
  · exact table?_of_perform (perform_of_run hr) hn

/-! ## Making a table -/

theorem isDangling_made {t : Table} (hr : t.rows = []) (k : ForeignKey) (r : Row) :
    ({ c with tables := c.tables ++ [t] } : Catalog).isDangling k r = c.isDangling k r := by
  simp only [isDangling, table?_append]
  cases c.table? k.parent with
  | some parent => rfl
  | none =>
      by_cases hs : sameName t.name k.parent = true
      · simp [hs, hr]
      · simp [hs]

/-- A new table without rows and foreign keys changes nothing about where foreign keys lead. -/
theorem dangling_made {t : Table} (hr : t.rows = []) (hk : t.foreignKeys = []) (deferred : Bool) :
    ({ c with tables := c.tables ++ [t] } : Catalog).dangling deferred = c.dangling deferred := by
  have hsame : ({ c with tables := c.tables ++ [t] } : Catalog).isDangling = c.isDangling := by
    funext k r
    exact isDangling_made hr k r
  simp [dangling, hsame, List.flatMap_append, hk]

end Catalog

end PooledStore.Sql
