import PooledStore.Proofs.Sql.Tables

/-!
# Cells that nothing depends on

The cells in a column of a table can be erased (`Catalog.erase`). Where no index and no foreign key
is about the table (`Detached`), and no key of its own uses the column, a statement that does not
mention the table does the same with the cells and without them (`Detached.does_erase`), and so does
the insertion of a row (`Table.insertRow_erase`).
-/

set_option autoImplicit false

namespace PooledStore.Sql

variable {n col : String} {t t' : Table} {c c' : Catalog} {stmt : Statement} {i : Nat}

/-! ## Erasing -/

namespace Table

/-- The column of this number has the name. -/
def isColumn (t : Table) (col : String) (i : Nat) : Bool :=
  (t.columns[i]?).any (sameName ·.name col)

/-- The cells with nothing in the columns of the name. -/
def eraseCells (t : Table) (col : String) (cells : List Value) : List Value :=
  cells.zipIdx.map fun p => if t.isColumn col p.2 then .text "" else p.1

/-- The row with nothing in the columns of the name. -/
def eraseRow (t : Table) (col : String) (r : Row) : Row :=
  { r with cells := t.eraseCells col r.cells }

/-- The table with nothing in the columns of the one name, if it has the other name itself. -/
def erase (n col : String) (t : Table) : Table :=
  { t with rows := if sameName t.name n then t.rows.map (t.eraseRow col) else t.rows }

theorem erase_of_ne (h : sameName t.name n = false) : t.erase n col = t := by
  rw [erase, h, if_neg nofun]

theorem rows_erase (h : sameName t.name n = true) :
    (t.erase n col).rows = t.rows.map (t.eraseRow col) := by
  rw [erase, if_pos h]

theorem eraseCells_getElem? (cells : List Value) (i : Nat) :
    (t.eraseCells col cells)[i]? =
      (cells[i]?).map fun v => if t.isColumn col i then .text "" else v := by
  rw [eraseCells, List.getElem?_map, List.getElem?_zipIdx, Option.map_map]
  cases cells[i]? with
  | none => rfl
  | some v => simp

theorem eraseCells_of_not (cells : List Value) (hi : t.isColumn col i = false) :
    (t.eraseCells col cells)[i]? = cells[i]? := by
  rw [eraseCells_getElem?, hi]
  simp

/-- Columns of other names hold the same cells. -/
theorem pick_eraseCells {columns : List Nat} (cells : List Value)
    (h : ∀ i ∈ columns, t.isColumn col i = false) :
    pick columns (t.eraseCells col cells) = pick columns cells := by
  refine List.map_congr_left fun i hi => ?_
  rw [eraseCells_of_not cells (h i hi)]

end Table

/-! ## Names -/

theorem sameName_congr {a b m : String} (h : sameName a b = true) :
    sameName a m = sameName b m := by
  unfold sameName
  rw [sameName_iff.mp h]

/-- The statement names the table in some other place than an expression. -/
def Statement.mentions (n : String) : Statement → Bool
  | .createTable _ _ name _ _ columns rules =>
    sameName name n ||
      match Table.ofDecl name columns rules with
      | .ok t => t.foreignKeys.any (sameName ·.parent n)
      | .error _ => false
  | .createIndex _ _ _ table _ => sameName table n
  | .dropTable _ name => sameName name n
  | .insert table .. => sameName table n
  | .insertDefaults table => sameName table n
  | .delete table _ => sameName table n
  | .update table .. => sameName table n
  | .select _ table _ => table.any (sameName ·.1 n)
  | _ => false

theorem Statement.alters_of_mentions (h : stmt.mentions n = false) : stmt.alters n = false := by
  cases stmt with
  | createTable _ _ name _ _ _ _ => exact (Bool.or_eq_false_iff.mp h).1
  | createIndex _ _ _ _ _ | dropIndex _ _ | select _ _ _ | values _ | begin _ | commit
  | rollback => rfl
  | _ => exact h

/-- The table to whose rows a statement writes is one that it mentions. -/
theorem Statement.mentions_rowsOf? {table : String} (hs : stmt.rowsOf? = some table)
    (hm : stmt.mentions n = false) : sameName table n = false := by
  cases stmt with
  | insert _ _ _ | insertDefaults _ | delete _ _ | update _ _ _ =>
      obtain rfl := Option.some.inj hs
      exact hm
  | _ => cases hs

namespace Catalog

/-- The database with nothing in the columns of the one name, in the tables of the other name. -/
def erase (n col : String) (c : Catalog) : Catalog :=
  { c with tables := c.tables.map (Table.erase n col) }

theorem table?_erase (m : String) :
    (c.erase n col).table? m = (c.table? m).map (Table.erase n col) :=
  List.find?_map

theorem isSome_table?_erase (m : String) :
    ((c.erase n col).table? m).isSome = (c.table? m).isSome := by
  rw [table?_erase, Option.isSome_map]

/-- A table of another name is left as it is. -/
theorem table?_erase_of_ne {m : String} (h : sameName m n = false) :
    (c.erase n col).table? m = c.table? m := by
  rw [table?_erase]
  cases ht : c.table? m with
  | none => rfl
  | some t =>
      have hne : sameName t.name n = false := (sameName_congr (sameName_of_table? ht)).trans h
      rw [Option.map_some, Table.erase_of_ne hne]

/-! ## Checks -/

theorem checkReferences_erase (concerned : ForeignKey → Bool) :
    (c.erase n col).checkReferences t concerned = c.checkReferences t concerned := by
  unfold checkReferences
  congr 1
  funext k
  rw [table?_erase]
  cases c.table? k.parent <;> rfl

theorem checkReferents_erase (concerned : ForeignKey → Bool) :
    (c.erase n col).checkReferents t concerned = c.checkReferents t concerned := by
  unfold checkReferents
  show (c.tables.map (Table.erase n col)).forM _ = c.tables.forM _
  exact List.forM_map

theorem require_erase_of_ne {m : String} (h : sameName m n = false) :
    (c.erase n col).require m = c.require m := by
  rw [require, table?_erase_of_ne h, require]

/-- A check does not look at cells. -/
theorem check_erase (h : stmt.mentions n = false) : (c.erase n col).check stmt = c.check stmt := by
  have hindex : ∀ m, (c.erase n col).index? m = c.index? m := fun _ => rfl
  cases stmt with
  | createTable _ _ name _ _ _ _ => simp only [check, isSome_table?_erase, hindex]
  | createIndex _ _ name table _ =>
      have h : sameName table n = false := h
      simp only [check, isSome_table?_erase, hindex, table?_erase_of_ne h]
  | dropTable _ name =>
      have hnone : ∀ m, ((c.erase n col).table? m).isNone = (c.table? m).isNone := by
        intro m
        rw [table?_erase, Option.isNone_map]
      simp only [check, hnone]
  | dropIndex _ _ => rfl
  | insert table _ _ | insertDefaults table | delete table _ | update table _ _ =>
      have h : sameName table n = false := h
      simp only [check, require_erase_of_ne h, checkReferences_erase, checkReferents_erase]
  | select _ table _ =>
      cases table with
      | none => rfl
      | some table =>
          have h : sameName table.1 n = false := h
          simp only [check, require_erase_of_ne h]
  | values _ | begin _ | commit | rollback => rfl

/-! ## Changes -/

theorem setTable_erase : (c.erase n col).setTable (t.erase n col) = (c.setTable t).erase n col := by
  unfold setTable erase
  simp only [List.map_map]
  congr 1
  refine List.map_congr_left fun u _ => ?_
  show (if sameName u.name t.name then t.erase n col else u.erase n col) =
    Table.erase n col (if sameName u.name t.name then t else u)
  split
  · rfl
  · rfl

/-- Carrying out a statement commutes with erasing, as long as foreign keys are not regarded. -/
theorem perform_erase (h : stmt.mentions n = false) :
    (c.erase n col).perform stmt = (c.perform stmt).map (erase n col) := by
  cases hrows : stmt.rowsOf? with
  | some table =>
      have hne : sameName table n = false := Statement.mentions_rowsOf? hrows h
      obtain ⟨r, hc, he, hr⟩ := perform_rows hrows (table?_erase_of_ne hne)
        (rfl : (c.erase n col).indexes = c.indexes)
      rw [hc, he]
      cases r with
      | error e => rfl
      | ok t' =>
          obtain ⟨t, ht, href⟩ := hr t' rfl
          have hname : sameName t'.name n = false := by
            rw [href.name]
            exact (sameName_congr (sameName_of_table? ht)).trans hne
          have hset := @setTable_erase n col t' c
          -- The table in its place has a name that nothing is erased under.
          rw [Table.erase_of_ne hname] at hset
          exact congrArg Except.ok hset
  | none =>
      cases stmt with
      | createTable _ _ name _ _ columns rules =>
          have hname : sameName name n = false := (Bool.or_eq_false_iff.mp h).1
          simp only [perform]
          cases hd : Table.ofDecl name columns rules with
          | error f => rfl
          | ok t =>
              have hne : sameName t.name n = false := Table.ofDecl_name hd ▸ hname
              simp only [Except.map, erase, List.map_append, List.map_cons, List.map_nil,
                Table.erase_of_ne hne]
      | createIndex unique _ name table columns =>
          have h : sameName table n = false := h
          simp only [perform, table?_erase_of_ne h]
          cases c.table? table with
          | none => rfl
          | some t =>
              simp only
              split
              · rfl
              · rfl
      | dropTable _ name =>
          simp only [perform, Except.map, erase, List.filter_map]
          rfl
      | insert _ _ _ | insertDefaults _ | delete _ _ | update _ _ _ => cases hrows
      | dropIndex _ _ | select _ _ _ | values _ | begin _ | commit | rollback => rfl

end Catalog

/-! ## Inserting a row -/

namespace Table

variable {uniques : List (List Nat)} {cells cells' : List Value} {r : Row} {rows : List Row}

theorem place_erase : place (t.eraseRow col r) (rows.map (t.eraseRow col)) =
    (place r rows).map (t.eraseRow col) := by
  induction rows with
  | nil => rfl
  | cons u rows ih =>
      rw [List.map_cons]
      unfold place
      show (if r.id < u.id then _ else _) = _
      split
      · rfl
      · rw [ih, List.map_cons]

theorem nextId_erase : (t.erase n col).nextId = t.nextId := by
  cases hn : sameName t.name n with
  | false => rw [erase_of_ne hn]
  | true =>
      unfold nextId
      rw [rows_erase hn, List.foldl_map]
      rfl

theorem eraseCells_set (hi : t.isColumn col i = false) (x : Value) :
    (t.eraseCells col cells).set i x = t.eraseCells col (cells.set i x) := by
  refine List.ext_getElem? fun j => ?_
  rw [eraseCells_getElem?, List.getElem?_set, List.getElem?_set, eraseCells_getElem?]
  have hlen : (t.eraseCells col cells).length = cells.length := by simp [eraseCells]
  rw [hlen]
  split
  · rename_i hij
    subst hij
    split
    · simp [hi]
    · rfl
  · rfl

/-- The number of a row is not taken from a column that holds none. -/
theorem rowOf_erase (hid : ∀ i, t.isColumn col i = true → t.idColumn ≠ some i)
    (hc : t.coerced cells' = t.eraseCells col (t.coerced cells)) (newId : Int) :
    (t.erase n col).rowOf cells' newId = (t.rowOf cells newId).map (t.eraseRow col) := by
  have hc : (t.erase n col).coerced cells' = t.eraseCells col (t.coerced cells) := hc
  have hsame : (t.erase n col).idColumn = t.idColumn := rfl
  simp only [rowOf, hc, hsame]
  cases hcol : t.idColumn with
  | none => rfl
  | some i =>
      have hi : t.isColumn col i = false := by
        rw [← Bool.not_eq_true]
        exact fun h => hid i h hcol
      simp only [eraseCells_of_not _ hi, eraseCells_set hi]
      cases ((t.coerced cells)[i]?).getD .null <;> rfl

/-- No key of the table uses the columns of the name, and it has no foreign keys. -/
structure Frees (t : Table) (col : String) : Prop where
  foreignKeys : t.foreignKeys = []
  keys : ∀ i, t.isColumn col i = true → t.idColumn ≠ some i ∧ ∀ u ∈ t.uniques, i ∉ u

/-- The columns of the name take part in no uniqueness, and hold no number of a row. -/
def Spares (t : Table) (col : String) (uniques : List (List Nat)) : Prop :=
  ∀ i, t.isColumn col i = true → t.idColumn ≠ some i ∧ ∀ u ∈ uniques, i ∉ u

theorem Spares.of_mem (h : t.Spares col uniques) {u : List Nat} (hu : u ∈ uniques) :
    ∀ i ∈ u, t.isColumn col i = false := by
  intro i hi
  rw [← Bool.not_eq_true]
  exact fun hcol => (h i hcol).2 u hu hi

/-- Cells that are not null are not missed where they are erased. -/
theorem null_erase (hnull : ∀ i, t.isColumn col i = true → cells[i]? ≠ some .null) (i : Nat) :
    (t.eraseCells col cells)[i]? = some .null ↔ cells[i]? = some .null := by
  cases hi : t.isColumn col i with
  | false => rw [eraseCells_of_not _ hi]
  | true =>
      refine iff_of_false ?_ (hnull i hi)
      rw [eraseCells_getElem?, hi]
      cases cells[i]? with
      | none => nofun
      | some x => nofun

theorem clash_erase {u : List Nat} (hu : ∀ i ∈ u, t.isColumn col i = false) {a b : Row} :
    clash u (t.eraseRow col a) (t.eraseRow col b) = clash u a b := by
  simp only [clash, eraseRow, pick_eraseCells _ hu]

/-- A row has no null but where it was given one. -/
theorem rowOf_not_null {newId : Int} (h : t.rowOf cells newId = .ok r)
    (hi : (t.coerced cells)[i]? ≠ some .null) : r.cells[i]? ≠ some .null := by
  unfold rowOf at h
  simp only at h
  split at h
  · obtain rfl := Except.ok.inj h
    exact hi
  · split at h
    · obtain rfl := Except.ok.inj h
      rw [List.getElem?_set]
      split
      · split
        · nofun
        · nofun
      · exact hi
    · obtain rfl := Except.ok.inj h
      exact hi
    · cases h

theorem find?_congr {α : Type} {p q : α → Bool} {l : List α} (h : ∀ a ∈ l, p a = q a) :
    l.find? p = l.find? q := by
  induction l with
  | nil => rfl
  | cons a l ih =>
      rw [List.find?_cons, List.find?_cons, h a List.mem_cons_self,
        ih fun b hb => h b (List.mem_cons_of_mem _ hb)]

theorem refusal?_erase (hs : t.Spares col uniques)
    (hnull : ∀ i, t.isColumn col i = true → r.cells[i]? ≠ some .null) :
    (t.erase n col).refusal? uniques (rows.map (t.eraseRow col)) (t.eraseRow col r) =
      t.refusal? uniques rows r := by
  have hmissing : (t.columns.zipIdx.find? fun p => p.1.notNull && t.idColumn != some p.2 &&
      decide ((t.eraseCells col r.cells)[p.2]? = some .null)) =
        t.columns.zipIdx.find? fun p => p.1.notNull && t.idColumn != some p.2 &&
          decide (r.cells[p.2]? = some .null) := by
    refine find?_congr fun p _ => ?_
    rw [decide_eq_decide.mpr (null_erase hnull p.2)]
  have hclash : (uniques.find? fun u =>
      (rows.map (t.eraseRow col)).any (clash u (t.eraseRow col r))) =
        uniques.find? fun u => rows.any (clash u r) := by
    refine find?_congr fun u hu => ?_
    rw [List.any_map]
    congr 1
    funext w
    exact clash_erase (hs.of_mem hu)
  have hid : (rows.map (t.eraseRow col)).any (fun w => decide (w.id = (t.eraseRow col r).id)) =
      rows.any fun w => decide (w.id = r.id) := by
    rw [List.any_map]
    rfl
  have hcells : (t.eraseRow col r).cells = t.eraseCells col r.cells := rfl
  have hcolumns : (t.erase n col).columns = t.columns := rfl
  have hnumber : (t.erase n col).idColumn = t.idColumn := rfl
  simp only [refusal?, hcells, hcolumns, hnumber, hclash, hid, hmissing]
  rfl

/-- **A row is inserted in the same way where cells are erased**, if those that are erased in it are
not null. -/
theorem insertRow_erase (hn : sameName t.name n = true) (hs : t.Spares col uniques)
    (hc : t.coerced cells' = t.eraseCells col (t.coerced cells))
    (hnull : ∀ i, t.isColumn col i = true → (t.coerced cells)[i]? ≠ some .null) :
    (t.erase n col).insertRow uniques cells' =
      (t.insertRow uniques cells).map (Table.erase n col) := by
  unfold insertRow
  rw [nextId_erase, rowOf_erase (fun i hi => (hs i hi).1) hc]
  cases hr : t.rowOf cells t.nextId with
  | error e => rfl
  | ok r =>
      have hcells : ∀ i, t.isColumn col i = true → r.cells[i]? ≠ some .null :=
        fun i hi => rowOf_not_null hr (hnull i hi)
      simp only [Except.map, bind, Except.bind, rows_erase hn, refusal?_erase hs hcells]
      show (if maxId < r.id then _ else _) = _
      split
      · rfl
      · cases t.refusal? uniques t.rows r with
        | some e => rfl
        | none =>
            refine congrArg Except.ok ?_
            simp only [erase, hn, if_true, place_erase]
            rfl

end Table

namespace Catalog

/-! ## Tables that nothing depends on -/

theorem mem_uniquesOf {u : List Nat} : u ∈ c.uniquesOf t ↔
    (∃ x ∈ c.indexes, x.unique = true ∧ sameName x.table t.name = true ∧ x.columns = u) ∨
      u ∈ t.uniques := by
  simp [uniquesOf, and_assoc]

/-- The tables of the name are `t` with other rows, and no index and no foreign key is about
them. -/
structure Detached (n : String) (t : Table) (c : Catalog) : Prop where
  own : ∀ u ∈ c.tables, sameName u.name n = true → t.Refills u
  indexes : ∀ x ∈ c.indexes, sameName x.table n = false
  referred : ∀ u ∈ c.tables, ∀ k ∈ u.foreignKeys, sameName k.parent n = false

namespace Detached

variable {k : ForeignKey} {u : Table} {r : Row}

/-- Only such tables matter that are of the name or refer to it. -/
theorem congr (h : Detached n t c)
    (ht : ∀ u ∈ c'.tables, (∃ w ∈ c.tables, w.Refills u) ∨
      sameName u.name n = false ∧ ∀ k ∈ u.foreignKeys, sameName k.parent n = false)
    (hi : ∀ x ∈ c'.indexes, x ∈ c.indexes ∨ sameName x.table n = false) : Detached n t c' := by
  refine ⟨fun u hu hname => ?_, fun x hx => ?_, fun u hu k hk => ?_⟩
  · rcases ht u hu with ⟨w, hw, rows, lastId, rfl⟩ | ⟨hne, -⟩
    · obtain ⟨rows', lastId', rfl⟩ := h.own w hw hname
      exact ⟨rows, lastId, rfl⟩
    · rw [hname] at hne
      cases hne
  · rcases hi x hx with hx | hne
    · exact h.indexes x hx
    · exact hne
  · rcases ht u hu with ⟨w, hw, rows, lastId, rfl⟩ | ⟨-, hne⟩
    · exact h.referred w hw k hk
    · exact hne k hk

/-- Which rows there are is of no importance. -/
theorem setTable (h : Detached n t c) (hu : u ∈ c.tables) {u' : Table} (hr : u.Refills u') :
    Detached n t (c.setTable u') := by
  refine h.congr (fun w hw => Or.inl ?_) fun x hx => Or.inl hx
  obtain ⟨v, hv, rfl⟩ := List.mem_map.mp hw
  split
  · exact ⟨u, hu, hr⟩
  · exact ⟨v, hv, .refl v⟩

/-- **A statement that does not mention the table keeps it detached.** -/
theorem perform (h : Detached n t c) (hm : stmt.mentions n = false)
    (hp : c.perform stmt = .ok c') : Detached n t c' := by
  cases hrows : stmt.rowsOf? with
  | some table =>
      obtain ⟨r, hr, -, href⟩ := perform_rows (k := c) hrows rfl rfl
      rw [hr] at hp
      cases r with
      | error e => cases hp
      | ok u' =>
          obtain rfl := Except.ok.inj hp
          obtain ⟨u, hu, hrefills⟩ := href u' rfl
          exact h.setTable (List.mem_of_find?_eq_some hu) hrefills
  | none =>
      cases stmt with
      | createTable _ _ name _ _ columns rules =>
          simp only [Catalog.perform] at hp
          split at hp
          · rename_i u hd
            obtain rfl := Except.ok.inj hp
            obtain ⟨hname, hkeys⟩ := Bool.or_eq_false_iff.mp hm
            rw [hd] at hkeys
            refine h.congr (fun w hw => ?_) fun x hx => Or.inl hx
            rcases List.mem_append.mp hw with hw | hw
            · exact Or.inl ⟨w, hw, .refl w⟩
            · rcases List.mem_singleton.mp hw with rfl
              exact Or.inr ⟨Table.ofDecl_name hd ▸ hname, fun k hk => by
                simpa using List.any_eq_false.mp hkeys k hk⟩
          · cases hp
      | createIndex unique _ name table columns =>
          simp only [Catalog.perform] at hp
          split at hp
          · cases hp
          · rename_i u hu
            obtain rfl := Except.ok.inj (ok_of_ite hp)
            refine h.congr (fun w hw => Or.inl ⟨w, hw, .refl w⟩) fun x hx => ?_
            rcases List.mem_append.mp hx with hx | hx
            · exact Or.inl hx
            · rcases List.mem_singleton.mp hx with rfl
              exact Or.inr ((sameName_congr (sameName_of_table? hu)).trans hm)
      | dropTable _ name =>
          obtain rfl := Except.ok.inj hp
          exact h.congr (fun w hw => Or.inl ⟨w, List.mem_of_mem_filter hw, .refl w⟩)
            fun x hx => Or.inl (List.mem_of_mem_filter hx)
      | dropIndex _ _ =>
          obtain rfl := Except.ok.inj hp
          exact h.congr (fun w hw => Or.inl ⟨w, hw, .refl w⟩)
            fun x hx => Or.inl (List.mem_of_mem_filter hx)
      | insert _ _ _ | insertDefaults _ | delete _ _ | update _ _ _ => cases hrows
      | select _ _ _ | values _ | begin _ | commit | rollback =>
          obtain rfl := Except.ok.inj hp
          exact h

theorem does (h : Detached n t c) (hm : stmt.mentions n = false) (hd : c.does stmt = some c') :
    Detached n t c' := by
  obtain ⟨-, rfl⟩ | ⟨-, hr⟩ := does_cases hd
  · exact h
  · exact h.perform hm (perform_of_run hr)

/-! ## Erasing a column of such a table -/

theorem isDangling_erase (h : Detached n t c) (hu : u ∈ c.tables) (hk : k ∈ u.foreignKeys) :
    (c.erase n col).isDangling k r = c.isDangling k r := by
  simp only [isDangling, table?_erase_of_ne (h.referred u hu k hk)]

/-- As many foreign keys lead nowhere as before. -/
theorem dangling_erase (h : Detached n t c) (hf : t.Frees col) (deferred : Bool) :
    (c.erase n col).dangling deferred = c.dangling deferred := by
  simp only [dangling, erase, List.flatMap_map, List.length_flatMap]
  congr 1
  refine List.map_congr_left fun u hu => ?_
  cases hn : sameName u.name n with
  | false =>
      rw [Table.erase_of_ne hn]
      congr 1
      refine List.map_congr_left fun k hk => ?_
      have hk : k ∈ u.foreignKeys := (List.mem_filter.mp hk).1
      congr 2
      funext r
      exact h.isDangling_erase hu hk
  | true =>
      -- A table of the name has no foreign keys.
      obtain ⟨rows, lastId, rfl⟩ := h.own u hu hn
      have hnone : (Table.erase n col { t with rows := rows, lastId := lastId }).foreignKeys = [] :=
        hf.foreignKeys
      have hnone' : ({ t with rows := rows, lastId := lastId } : Table).foreignKeys = [] :=
        hf.foreignKeys
      rw [hnone, hnone']
      rfl

theorem spares (h : Detached n t c) (hf : t.Frees col) (hu : u ∈ c.tables)
    (hn : sameName u.name n = true) : u.Spares col (c.uniquesOf u) := by
  obtain ⟨rows, lastId, rfl⟩ := h.own u hu hn
  intro i hi
  refine ⟨(hf.keys i hi).1, fun g hg => ?_⟩
  rcases mem_uniquesOf.mp hg with ⟨x, hx, -, hxt, -⟩ | hg
  · have hne := h.indexes x hx
    rw [sameName_congr hxt, hn] at hne
    cases hne
  · exact (hf.keys i hi).2 g hg

/-- Where two statements are checked and performed alike, one of them where the cells are erased,
they do the same. -/
theorem does_of_perform {stmt' : Statement} (h : Detached n t c) (hf : t.Frees col)
    (hc : (c.erase n col).check stmt' = c.check stmt)
    (hp : (c.erase n col).perform stmt' = (c.perform stmt).map (erase n col))
    (hd : ∀ c', c.perform stmt = .ok c' → Detached n t c') :
    (c.erase n col).does stmt' = (c.does stmt).map (erase n col) := by
  have hrun : (c.erase n col).run stmt' = (c.run stmt).map (erase n col) := by
    unfold run
    rw [hp]
    cases hok : c.perform stmt with
    | error e => rfl
    | ok c' =>
        simp only [Except.map, bind, Except.bind, h.dangling_erase hf,
          (hd c' hok).dangling_erase hf]
        split
        · rfl
        · rfl
  unfold Catalog.does
  rw [hc, hrun]
  cases c.check stmt with
  | error f => rfl
  | ok writes =>
      cases writes with
      | false => rfl
      | true => cases c.run stmt <;> rfl

/-- **A statement that does not mention the table does the same where the cells of the column are
erased.** -/
theorem does_erase (h : Detached n t c) (hf : t.Frees col) (hm : stmt.mentions n = false) :
    (c.erase n col).does stmt = (c.does stmt).map (erase n col) :=
  h.does_of_perform hf (check_erase hm) (perform_erase hm) fun _ hp => h.perform hm hp

end Detached

end Catalog

end PooledStore.Sql
