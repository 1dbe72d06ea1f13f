import PooledStore.Proofs.Sql.Effect
import PooledStore.Proofs.Sql.Erasure
import PooledStore.Proofs.Store.Laws
import PooledStore.Sql.World

/-!
# The table of records

What a session sees of the table of records (`records`), and what is left of a sight without the
times at which records were made (`timeless`). The script that makes the table is one declaration
(`makeRecords_read`), which leaves a table that is there and otherwise makes an empty one. The
statement that records a version adds it, once, and does so alike at all times (`record_records`,
`record_again`). A statement that does not mention the table leaves what is recorded.
-/

set_option autoImplicit false

namespace PooledStore.Sql

open Migration

variable {c c' c'' : Sight} {k k' : Catalog} {t t' : Table} {stmt : Statement} {x y : Site}
variable {id : SessionId} {v : Int} {time : String} {keyed : Bool} {vs : Multiset Int}

/-! ## The declaration of the table -/

/-- The table of records as it is made. -/
def recordsTable : Table where
  name := recordTable
  columns := [⟨versionColumn, .integer, true, none⟩, ⟨timeColumn, .text, true, none⟩]
  idColumn := none
  autoincrement := false
  lastId := 0
  uniques := [[0]]
  primaryKey := [0]
  foreignKeys := []
  rows := []

/-- How the table of records is declared. -/
def recordsDeclaration : Statement :=
  .createTable false true recordTable recordTable 27
    [⟨versionColumn, "BIGINT", [.primaryKey false, .notNull]⟩, ⟨timeColumn, "TEXT", [.notNull]⟩] []

/-- The statement is the declaration of the table of records. -/
def isRecordsDeclaration : Statement → Bool
  | .createTable false true "schema_version" "schema_version" 27
      [⟨"version", "BIGINT", [.primaryKey false, .notNull]⟩, ⟨"applied_at", "TEXT", [.notNull]⟩]
      [] => true
  | _ => false

theorem eq_recordsDeclaration (h : isRecordsDeclaration stmt = true) :
    stmt = recordsDeclaration := by
  unfold isRecordsDeclaration at h
  split at h
  · rfl
  · cases h

/-- The text is the declaration of the table of records, and nothing else. -/
def declaresRecords (sql : List Char) : Bool :=
  match nextStatement sql with
  | .ok (some (stmt, n)) =>
    isRecordsDeclaration stmt &&
      match nextStatement (sql.drop n) with
      | .ok none => true
      | _ => false
  | _ => false

theorem makeRecords_read : ∃ n,
    nextStatement makeRecords.toList = .ok (some (recordsDeclaration, n)) ∧
      nextStatement (makeRecords.toList.drop n) = .ok none := by
  have h : declaresRecords makeRecords.toList = true := by decide +kernel
  generalize makeRecords.toList = sql at h ⊢
  unfold declaresRecords at h
  split at h
  · rename_i stmt n hn
    obtain ⟨hs, hend⟩ := Bool.and_eq_true_iff.mp h
    obtain rfl := eq_recordsDeclaration hs
    refine ⟨n, hn, ?_⟩
    split at hend
    · assumption
    · cases hend
  · cases h

theorem script_makeRecords (x : Site) (id : SessionId) :
    x.script id makeRecords = ((x.execute id recordsDeclaration).1,
      (x.execute id recordsDeclaration).2.mapError (·.inText makeRecords.toList)) := by
  obtain ⟨n, hn, hend⟩ := makeRecords_read
  have rest : ∀ fuel y, Site.scriptFor id fuel y (makeRecords.toList.drop n) = (y, .ok ()) := by
    intro fuel y
    cases fuel with
    | zero => rfl
    | succ fuel => simp only [Site.scriptFor, hend]
  simp only [Site.script, Site.scriptFor, hn]
  rcases x.execute id recordsDeclaration with ⟨y, f | u⟩
  · rfl
  · exact rest _ y

theorem ofDecl_records : Table.ofDecl recordTable
    [⟨versionColumn, "BIGINT", [.primaryKey false, .notNull]⟩,
      ⟨timeColumn, "TEXT", [.notNull]⟩] [] = .ok recordsTable := by
  rfl

theorem does_present (h : k.table? recordTable = some t) : k.does recordsDeclaration = some k := by
  have hr : Catalog.isReserved recordTable = false := by decide
  have hc : k.check recordsDeclaration = .ok false := by
    simp only [Catalog.check, recordsDeclaration, hr, h, Option.isSome_some, Bool.false_eq_true,
      if_false, if_true]
    rfl
  simp only [Catalog.does, hc]

theorem does_absent (h : k.table? recordTable = none) : k.does recordsDeclaration =
    if (k.index? recordTable).isSome then none
    else some { k with tables := k.tables ++ [recordsTable] } := by
  have hr : Catalog.isReserved recordTable = false := by decide
  split
  · rename_i hi
    have hc : k.check recordsDeclaration = .error ⟨.indexNamed recordTable, none⟩ := by
      simp only [Catalog.check, recordsDeclaration, hr, h, hi, Option.isSome_none,
        Bool.false_eq_true, if_false, if_true]
      rfl
    simp only [Catalog.does, hc]
  · rename_i hi
    have hc : k.check recordsDeclaration = .ok true := by
      simp only [Catalog.check, recordsDeclaration, hr, h, hi, ofDecl_records, Option.isSome_none,
        Bool.false_eq_true, if_false]
      rfl
    have hrun : k.run recordsDeclaration = .ok { k with tables := k.tables ++ [recordsTable] } := by
      have hd : ({ k with tables := k.tables ++ [recordsTable] } : Catalog).dangling false =
          k.dangling false := Catalog.dangling_made rfl rfl false
      simp only [Catalog.run, Catalog.perform, recordsDeclaration, ofDecl_records, bind,
        Except.bind, hd, Nat.lt_irrefl, if_false]
      rfl
    simp only [Catalog.does, hc, hrun, Except.toOption]

theorem sight_does_declaration :
    c.does recordsDeclaration =
      (c.database.does recordsDeclaration).map fun d => { c with database := d } := rfl

/-! ## What is recorded -/

/-- The version in a row of the table of records. -/
def rowVersion? (r : Row) : Option Int :=
  match r.cells[0]? with
  | some (Value.integer n) => some n
  | _ => none

/-- The versions in the table of records. -/
def rowVersions (t : Table) : List Int := t.rows.filterMap rowVersion?

open Classical in
/-- What is recorded, if the table of records is as it is made, and nothing else is about it. -/
noncomputable def records (c : Sight) : Records :=
  if c.temporary.table? recordTable = none ∧ c.database.Detached recordTable recordsTable then
    match c.database.table? recordTable with
    | none => .absent
    | some t =>
      if ∀ r ∈ t.rows, (rowVersion? r).isSome = true then .kept true (rowVersions t) else .other
  else .other

/-- The table of records stands in the database, as it is made, and nothing else is about it. -/
structure Kept (c : Sight) (t : Table) : Prop where
  visible : c.temporary.table? recordTable = none
  detached : c.database.Detached recordTable recordsTable
  table : c.database.table? recordTable = some t
  integers : ∀ r ∈ t.rows, (rowVersion? r).isSome = true

/-- There is no table of records, and nothing is about one. -/
structure Absent (c : Sight) : Prop where
  visible : c.temporary.table? recordTable = none
  detached : c.database.Detached recordTable recordsTable
  table : c.database.table? recordTable = none

theorem Kept.records (h : Kept c t) : records c = .kept true (rowVersions t) := by
  rw [Sql.records, if_pos ⟨h.visible, h.detached⟩, h.table]
  exact if_pos h.integers

theorem Absent.records (h : Absent c) : records c = .absent := by
  rw [Sql.records, if_pos ⟨h.visible, h.detached⟩, h.table]

/-- What is recorded tells whether the table of records is there. -/
theorem records_cases (h : records c ≠ .other) : Absent c ∨ ∃ t, Kept c t := by
  unfold records at h
  split at h
  · rename_i hc
    cases ht : c.database.table? recordTable with
    | none => exact Or.inl ⟨hc.1, hc.2, ht⟩
    | some t =>
        rw [ht] at h
        simp only at h
        split at h
        · rename_i hi
          exact Or.inr ⟨t, hc.1, hc.2, ht, hi⟩
        · exact absurd rfl h
  · exact absurd rfl h

theorem absent_of_records (h : records c = .absent) : Absent c := by
  rcases records_cases (Records.ne_other_of_absent h) with hc | ⟨t, hk⟩
  · exact hc
  · rw [hk.records] at h
    cases h

theorem kept_of_records (h : records c = .kept keyed vs) :
    keyed = true ∧ ∃ t, Kept c t ∧ vs = rowVersions t := by
  rcases records_cases (Records.ne_other_of_kept h) with hc | ⟨t, hk⟩
  · rw [hc.records] at h
    cases h
  · rw [hk.records] at h
    cases h
    exact ⟨rfl, t, hk, rfl⟩

theorem Kept.refills (h : Kept c t) : recordsTable.Refills t :=
  h.detached.own t (List.mem_of_find?_eq_some h.table) (Catalog.sameName_of_table? h.table)

theorem Kept.name (h : Kept c t) : sameName t.name recordTable = true :=
  Catalog.sameName_of_table? h.table

/-- **A statement that does not mention the table of records leaves what is recorded.** -/
theorem records_does (hr : records c ≠ .other) (hm : stmt.mentions recordTable = false)
    (hd : c.does stmt = some c') : records c' = records c := by
  have halters := Statement.alters_of_mentions hm
  have hsame : c'.temporary.table? recordTable = c.temporary.table? recordTable ∧
      c'.database.table? recordTable = c.database.table? recordTable ∧
      (c.database.Detached recordTable recordsTable →
        c'.database.Detached recordTable recordsTable) := by
    obtain ⟨-, hd, he⟩ | ⟨-, hd, he⟩ := Sight.does_cases hd
    · exact ⟨Catalog.table?_of_does hd halters, by rw [he], fun h => he ▸ h⟩
    · exact ⟨by rw [he], Catalog.table?_of_does hd halters, fun h => h.does hm hd⟩
  obtain ⟨htemp, htable, hdet⟩ := hsame
  rcases records_cases hr with h | ⟨t, h⟩
  · have h' : Absent c' := ⟨htemp.trans h.visible, hdet h.detached, htable.trans h.table⟩
    rw [h'.records, h.records]
  · have h' : Kept c' t :=
      ⟨htemp.trans h.visible, hdet h.detached, htable.trans h.table, h.integers⟩
    rw [h'.records, h.records]

/-! ## Sights without times -/

/-- What is seen but for the times of the records. -/
def timeless (c : Sight) : Sight :=
  { c with database := c.database.erase recordTable timeColumn }

theorem frees_recordsTable : recordsTable.Frees timeColumn := by
  refine ⟨rfl, fun i hi => ⟨nofun, fun u hu hiu => ?_⟩⟩
  obtain rfl := List.mem_singleton.mp hu
  obtain rfl := List.mem_singleton.mp hiu
  exact absurd hi (by decide)

theorem refills_erase {n col : String} {u : Table} : t.Refills (u.erase n col) ↔ t.Refills u := by
  constructor
  · rintro ⟨rows, lastId, h⟩
    refine ⟨u.rows, lastId, ?_⟩
    cases u
    simp only [Table.erase, Table.mk.injEq] at h ⊢
    simp only [h, and_self]
  · rintro ⟨rows, lastId, rfl⟩
    exact ⟨_, lastId, rfl⟩

theorem detached_erase {n col : String} :
    (k.erase n col).Detached n t ↔ k.Detached n t := by
  have hmem : ∀ u, u ∈ (k.erase n col).tables ↔ ∃ w ∈ k.tables, w.erase n col = u :=
    fun u => List.mem_map
  constructor
  · intro h
    refine ⟨fun u hu hn => ?_, h.indexes, fun u hu f hf => ?_⟩
    · exact refills_erase.mp (h.own _ ((hmem _).mpr ⟨u, hu, rfl⟩) hn)
    · exact h.referred _ ((hmem _).mpr ⟨u, hu, rfl⟩) f hf
  · intro h
    refine ⟨fun u hu hn => ?_, h.indexes, fun u hu f hf => ?_⟩
    · obtain ⟨w, hw, rfl⟩ := (hmem u).mp hu
      exact refills_erase.mpr (h.own w hw hn)
    · obtain ⟨w, hw, rfl⟩ := (hmem u).mp hu
      exact h.referred w hw f hf

/-- Versions are not erased. -/
theorem rowVersion?_eraseRow (h : recordsTable.Refills t) (r : Row) :
    rowVersion? (t.eraseRow timeColumn r) = rowVersion? r := by
  obtain ⟨rows, lastId, rfl⟩ := h
  have hcol : recordsTable.isColumn timeColumn 0 = false := by decide
  have hcol : ({ recordsTable with rows := rows, lastId := lastId } : Table).isColumn timeColumn 0 =
      false := hcol
  simp only [rowVersion?, Table.eraseRow, Table.eraseCells_of_not r.cells hcol]

theorem rowVersions_erase (h : recordsTable.Refills t) (hn : sameName t.name recordTable = true) :
    rowVersions (t.erase recordTable timeColumn) = rowVersions t ∧
      ((∀ r ∈ (t.erase recordTable timeColumn).rows, (rowVersion? r).isSome = true) ↔
        ∀ r ∈ t.rows, (rowVersion? r).isSome = true) := by
  constructor
  · rw [rowVersions, Table.rows_erase hn, List.filterMap_map, rowVersions]
    exact List.filterMap_congr fun r _ => rowVersion?_eraseRow h r
  · rw [Table.rows_erase hn, List.forall_mem_map]
    exact forall₂_congr fun r _ => by rw [rowVersion?_eraseRow h r]

/-- What is recorded is seen without times as well. -/
theorem records_timeless (c : Sight) : records (timeless c) = records c := by
  unfold records
  have hdet : (timeless c).database.Detached recordTable recordsTable ↔
      c.database.Detached recordTable recordsTable := detached_erase
  have htable : (timeless c).database.table? recordTable =
      (c.database.table? recordTable).map (Table.erase recordTable timeColumn) :=
    Catalog.table?_erase recordTable
  have htemp : (timeless c).temporary = c.temporary := rfl
  rw [htemp, hdet, htable]
  split
  · rename_i hc
    cases ht : c.database.table? recordTable with
    | none => rfl
    | some t =>
        have hn := Catalog.sameName_of_table? ht
        obtain ⟨hv, hi⟩ := rowVersions_erase (hc.2.own t (List.mem_of_find?_eq_some ht) hn) hn
        simp only [Option.map_some, hv, hi]
  · rfl

theorem isTemporary_timeless : (timeless c).isTemporary stmt = c.isTemporary stmt := by
  cases stmt <;> rfl

/-- What a statement does to the database without times, it does to what is seen without times. -/
theorem timeless_does_of_database {stmt' : Statement}
    (ht : (timeless c).isTemporary stmt' = c.isTemporary stmt)
    (htemp : c.temporary.does stmt' = c.temporary.does stmt)
    (hd : (c.database.erase recordTable timeColumn).does stmt' =
      (c.database.does stmt).map (Catalog.erase recordTable timeColumn)) :
    (timeless c).does stmt' = (c.does stmt).map timeless := by
  unfold Sight.does
  rw [ht]
  split
  · have htemp : (timeless c).temporary.does stmt' = c.temporary.does stmt := htemp
    rw [htemp]
    cases c.temporary.does stmt <;> rfl
  · have hd : (timeless c).database.does stmt' =
        (c.database.does stmt).map (Catalog.erase recordTable timeColumn) := hd
    rw [hd]
    cases c.database.does stmt <;> rfl

/-- A statement that does not mention the table of records cannot tell the times. -/
theorem timeless_does (h : c.database.Detached recordTable recordsTable)
    (hm : stmt.mentions recordTable = false) :
    (timeless c).does stmt = (c.does stmt).map timeless :=
  timeless_does_of_database isTemporary_timeless rfl (h.does_erase frees_recordsTable hm)

/-- Neither can the declaration of the table. -/
theorem timeless_does_declaration (c : Sight) :
    (timeless c).does recordsDeclaration = (c.does recordsDeclaration).map timeless := by
  refine timeless_does_of_database rfl rfl ?_
  have htable := @Catalog.table?_erase recordTable timeColumn c.database recordTable
  cases ht : c.database.table? recordTable with
  | some t =>
      rw [ht] at htable
      rw [does_present ht, does_present htable]
      rfl
  | none =>
      rw [ht] at htable
      rw [does_absent ht, does_absent htable]
      have hindex : (c.database.erase recordTable timeColumn).index? recordTable =
          c.database.index? recordTable := rfl
      rw [hindex]
      split
      · rfl
      · simp only [Option.map_some, Catalog.erase, List.map_append, List.map_cons, List.map_nil]
        rfl

/-! ## Recording a version -/

/-- The cells of a record. -/
theorem coerced_record (h : recordsTable.Refills t) (v : Int) (time : String) :
    t.coerced (t.cellsFor (some [versionColumn, timeColumn]) [.integer v, .text time]) =
      [.integer v, .text time] := by
  obtain ⟨rows, lastId, rfl⟩ := h
  show recordsTable.coerced
    (recordsTable.cellsFor (some [versionColumn, timeColumn]) [.integer v, .text time]) = _
  have hvv : sameName versionColumn versionColumn = true := by decide
  have hvt : sameName versionColumn timeColumn = false := by decide
  have htt : sameName timeColumn timeColumn = true := by decide
  simp [Table.cellsFor, Table.coerced, recordsTable, hvv, hvt, htt, List.zipIdx, Value.coerce,
    Value.narrowed]

theorem check_record (v v' : Int) (time time' : String) :
    (k.erase recordTable timeColumn).check (recordStatement v' time') =
      k.check (recordStatement v time) := by
  simp only [Catalog.check, recordStatement, Catalog.evenFront, Catalog.require, bind,
    Except.bind, List.head?_cons, List.tail_cons, List.takeWhile_nil, Catalog.table?_erase,
    Catalog.checkReferences_erase]
  cases k.table? recordTable with
  | none => rfl
  | some t => rfl

/-- The statement that records a version writes wherever it can be carried out. -/
theorem check_record_ne : k.check (recordStatement v time) ≠ .ok false := by
  intro h
  cases ht : k.table? recordTable with
  | none =>
      simp [Catalog.check, recordStatement, Catalog.evenFront, Catalog.require, ht, bind,
        Except.bind] at h
  | some t =>
      simp only [Catalog.check, recordStatement, Catalog.evenFront, Catalog.require, ht, bind,
        Except.bind, List.head?_cons, List.tail_cons, List.takeWhile_nil] at h
      cases hk : k.checkReferences t fun _ => true with
      | error f =>
          simp only [hk] at h
          repeat' split at h
          all_goals cases h
      | ok u =>
          simp only [hk] at h
          repeat' split at h
          all_goals cases h

theorem perform_record (ht : k.table? recordTable = some t) :
    k.perform (recordStatement v time) =
      (t.insertRow (k.uniquesOf t)
        (t.cellsFor (some [versionColumn, timeColumn]) [.integer v, .text time])).map
          k.setTable := by
  have hvalues : Expr.evalAll none [.literal (.integer v), .literal (.text time)] =
    [.integer v, .text time] := rfl
  simp only [Catalog.perform, recordStatement, ht, List.foldlM_cons, List.foldlM_nil, hvalues,
    bind_pure, bind_pure_eq_map]

/-- The table of records with one more record. -/
theorem Kept.insertRow (h : Kept c t)
    (hi : t.insertRow (c.database.uniquesOf t)
      (t.cellsFor (some [versionColumn, timeColumn]) [.integer v, .text time]) = .ok t') :
    ∃ r, r.cells = [.integer v, .text time] ∧ t'.rows = Table.place r t.rows ∧ t.Refills t' ∧
      t'.name = t.name ∧ v ∉ rowVersions t := by
  obtain ⟨r, hrow, hfree, rfl⟩ := Table.insertRow_eq hi
  have hcells : r.cells = [.integer v, .text time] := by
    have hid : t.idColumn = none := by
      obtain ⟨rows, lastId, rfl⟩ := h.refills
      rfl
    simp only [Table.rowOf, hid, coerced_record h.refills] at hrow
    rw [← Except.ok.inj hrow]
  refine ⟨r, hcells, rfl, ⟨_, _, rfl⟩, rfl, fun hv => ?_⟩
  -- The row that has the version already is in the way of the new one.
  have hkey : [0] ∈ c.database.uniquesOf t := by
    refine Catalog.mem_uniquesOf.mpr (Or.inr ?_)
    obtain ⟨rows, lastId, rfl⟩ := h.refills
    exact List.mem_singleton_self _
  obtain ⟨u, hu, huv⟩ := List.mem_filterMap.mp hv
  have hclash : Table.clash [0] r u = true := by
    unfold rowVersion? at huv
    split at huv
    · rename_i n hn
      obtain rfl := Option.some.inj huv
      simp [Table.clash, Table.pick, hcells, hn, Value.same, Value.before, Value.kindRank,
        Value.decimal?]
    · cases huv
  have hno := Table.not_clash_of_refusal hfree hkey hu
  rw [hclash] at hno
  cases hno

theorem isTemporary_record (h : c.temporary.table? recordTable = none) :
    c.isTemporary (recordStatement v time) = false := by
  simp only [Sight.isTemporary, recordStatement, Site.subject?, Option.bind_some, h,
    Option.isSome_none]

theorem perm_place (r : Row) (l : List Row) : (Table.place r l).Perm (r :: l) := by
  induction l with
  | nil => exact .refl _
  | cons u l ih =>
      unfold Table.place
      split
      · exact .refl _
      · exact (ih.cons u).trans (.swap r u l)

/-- What is in a database besides the table of records, and the temporary tables. -/
def own (c : Sight) : List Table × List Index × Catalog :=
  (c.database.tables.filter fun t => !sameName t.name recordTable, c.database.indexes, c.temporary)

theorem filter_setTable (hn : sameName t.name recordTable = true) :
    (k.setTable t).tables.filter (fun u => !sameName u.name recordTable) =
      k.tables.filter fun u => !sameName u.name recordTable := by
  unfold Catalog.setTable
  induction k.tables with
  | nil => rfl
  | cons u rest ih =>
      rw [List.map_cons]
      cases hu : sameName u.name t.name with
      | true =>
          have hun : sameName u.name recordTable = true := (sameName_congr hu).trans hn
          simp only [if_true, List.filter_cons, hn, hun, Bool.not_true, Bool.false_eq_true,
            if_false]
          exact ih
      | false =>
          simp only [Bool.false_eq_true, if_false, List.filter_cons]
          rw [ih]

/-- **A version is recorded once**, and nothing else is changed. -/
theorem record_records (h : records c = .kept keyed vs)
    (hd : c.does (recordStatement v time) = some c') :
    records c' = .kept keyed (v ::ₘ vs) ∧ own c' = own c ∧ v ∉ vs := by
  obtain ⟨rfl, t, hk, rfl⟩ := kept_of_records h
  obtain ⟨ht, -, -⟩ | ⟨-, hdoes, htemp⟩ := Sight.does_cases hd
  · rw [isTemporary_record hk.visible] at ht
    cases ht
  · obtain ⟨hc, -⟩ | ⟨-, hrun⟩ := Catalog.does_cases hdoes
    · exact absurd hc check_record_ne
    · have hperf := Catalog.perform_of_run hrun
      rw [perform_record hk.table] at hperf
      cases hi : t.insertRow (c.database.uniquesOf t)
          (t.cellsFor (some [versionColumn, timeColumn]) [.integer v, .text time]) with
      | error e =>
          rw [hi] at hperf
          cases hperf
      | ok t' =>
          rw [hi] at hperf
          have hdb : c'.database = c.database.setTable t' := (Except.ok.inj hperf).symm
          obtain ⟨r, hcells, hrows, hrefills, hname, hnew⟩ := hk.insertRow hi
          have hversion : rowVersion? r = some v := by simp only [rowVersion?, hcells]; rfl
          have hk' : Kept c' t' := by
            refine ⟨htemp ▸ hk.visible, hdb ▸ ?_, hdb ▸ ?_, fun w hw => ?_⟩
            · exact hk.detached.setTable (List.mem_of_find?_eq_some hk.table) hrefills
            · exact Catalog.table?_setTable hk.table hname
            · rw [hrows, Table.mem_place] at hw
              obtain rfl | hw := hw
              · rw [hversion]
                rfl
              · exact hk.integers w hw
          refine ⟨?_, ?_, hnew⟩
          · rw [hk'.records, rowVersions, hrows, rowVersions]
            congr 1
            refine (Multiset.coe_eq_coe.mpr ((perm_place r t.rows).filterMap rowVersion?)).trans ?_
            rw [List.filterMap_cons, hversion]
            rfl
          · simp only [own, hdb, htemp, filter_setTable (hname ▸ hk.name)]
            rfl

theorem eraseCells_record (h : recordsTable.Refills t) (v : Int) (time : String) :
    t.eraseCells timeColumn [.integer v, .text time] = [.integer v, .text ""] := by
  obtain ⟨rows, lastId, rfl⟩ := h
  have h₀ : recordsTable.isColumn timeColumn 0 = false := by decide
  have h₁ : recordsTable.isColumn timeColumn 1 = true := by decide
  show recordsTable.eraseCells timeColumn [.integer v, .text time] = _
  simp only [Table.eraseCells, List.zipIdx_cons, List.zipIdx_nil, List.map_cons, List.map_nil, h₀,
    Nat.zero_add, h₁, Bool.false_eq_true, if_false, if_true]

/-- The record of a version is made in the database without times as it is in the one with them. -/
theorem erase_record (h : Kept c t) (v : Int) (time : String) :
    (c.database.erase recordTable timeColumn).does (recordStatement v "") =
      (c.database.does (recordStatement v time)).map (Catalog.erase recordTable timeColumn) := by
  have hmem : t ∈ c.database.tables := List.mem_of_find?_eq_some h.table
  have hrow : (t.erase recordTable timeColumn).insertRow (c.database.uniquesOf t)
      (t.cellsFor (some [versionColumn, timeColumn]) [.integer v, .text ""]) =
        (t.insertRow (c.database.uniquesOf t)
          (t.cellsFor (some [versionColumn, timeColumn]) [.integer v, .text time])).map
            (Table.erase recordTable timeColumn) := by
    refine Table.insertRow_erase h.name (h.detached.spares frees_recordsTable hmem h.name) ?_ ?_
    · rw [coerced_record h.refills, coerced_record h.refills, eraseCells_record h.refills]
    · intro i _
      rw [coerced_record h.refills]
      rcases i with _ | _ | i <;> simp
  have htable : (c.database.erase recordTable timeColumn).table? recordTable =
      some (t.erase recordTable timeColumn) := by
    rw [Catalog.table?_erase, h.table, Option.map_some]
  refine h.detached.does_of_perform frees_recordsTable (check_record v v time "") ?_ fun c' hp => ?_
  · rw [perform_record htable, perform_record h.table]
    refine (congrArg (Except.map _) hrow).trans ?_
    cases t.insertRow (c.database.uniquesOf t)
        (t.cellsFor (some [versionColumn, timeColumn]) [.integer v, .text time]) with
    | error e => rfl
    | ok t' => exact congrArg Except.ok Catalog.setTable_erase
  · rw [perform_record h.table] at hp
    cases hi : t.insertRow (c.database.uniquesOf t)
        (t.cellsFor (some [versionColumn, timeColumn]) [.integer v, .text time]) with
    | error e =>
        rw [hi] at hp
        cases hp
    | ok t' =>
        rw [hi] at hp
        obtain rfl := Except.ok.inj hp
        exact h.detached.setTable hmem (Table.insertRow_refills hi)

theorem timeless_record (h : Kept c t) (v : Int) (time : String) :
    (timeless c).does (recordStatement v "") =
      (c.does (recordStatement v time)).map timeless := by
  have ht : (timeless c).isTemporary (recordStatement v "") = false :=
    isTemporary_record h.visible
  have hd : (timeless c).database.does (recordStatement v "") =
      (c.database.does (recordStatement v time)).map (Catalog.erase recordTable timeColumn) :=
    erase_record h v time
  rw [Sight.does, ht, if_neg Bool.false_ne_true, Sight.does, isTemporary_record h.visible,
    if_neg Bool.false_ne_true, hd]
  cases c.database.does (recordStatement v time) <;> rfl

/-- **A version is recorded alike at all times.** -/
theorem record_again (hs : timeless c'' = timeless c) (hr : records c = .kept keyed vs)
    (hd : c.does (recordStatement v time) = some c') (time' : String) :
    ∃ b, c''.does (recordStatement v time') = some b ∧ timeless b = timeless c' := by
  have hr'' : records c'' = .kept keyed vs := by
    rw [← records_timeless, hs, records_timeless, hr]
  obtain ⟨-, t, hk, -⟩ := kept_of_records hr
  obtain ⟨-, t'', hk'', -⟩ := kept_of_records hr''
  have heq := timeless_record hk v time
  rw [← hs, timeless_record hk'' v time', hd, Option.map_some] at heq
  exact Option.map_eq_some_iff.mp heq

/-! ## The largest version -/

theorem before_integer (m n : Int) : (Value.integer m).before (.integer n) = decide (m < n) := by
  simp [Value.before, Value.kindRank, Value.decimal?]

theorem foldl_before (l : List Int) (m : Int) :
    (l.map Value.integer).foldl (fun m v => if m.before v then v else m) (.integer m) =
      .integer (l.foldl max m) := by
  induction l generalizing m with
  | nil => rfl
  | cons n l ih =>
      have hmax : (if (Value.integer m).before (.integer n) then Value.integer n else .integer m) =
          .integer (max m n) := by
        rw [before_integer]
        by_cases h : m < n
        · rw [if_pos (by simpa using h), Int.max_eq_right (Int.le_of_lt h)]
        · rw [if_neg (by simpa using h), Int.max_eq_left (Int.not_lt.mp h)]
      rw [List.map_cons, List.foldl_cons, hmax, ih, List.foldl_cons]

theorem map_cells {rows : List Row} (h : ∀ r ∈ rows, (rowVersion? r).isSome = true) :
    rows.map (fun r => (r.cells[0]?).getD .null) =
      (rows.filterMap rowVersion?).map Value.integer := by
  induction rows with
  | nil => rfl
  | cons r rest ih =>
      obtain ⟨hr, hrest⟩ := List.forall_mem_cons.mp h
      obtain ⟨n, hn⟩ := Option.isSome_iff_exists.mp hr
      have hcell : (r.cells[0]?).getD .null = .integer n := by
        unfold rowVersion? at hn
        split at hn
        · rename_i m hm
          rw [hm, Option.getD_some, Option.some.inj hn]
        · cases hn
      rw [List.map_cons, ih hrest, hcell, List.filterMap_cons, hn, List.map_cons]

/-- **The largest of the recorded versions is told.** -/
theorem largest_of_outside (hi : x.inside = false) (hr : records x.sees = .kept keyed vs) :
    ∃ m, x.largest = .ok m ∧ Greatest vs m := by
  obtain ⟨-, t, hk, rfl⟩ := kept_of_records hr
  have hcol : t.columnIndex? versionColumn = some 0 := by
    obtain ⟨rows, lastId, rfl⟩ := hk.refills
    show recordsTable.columnIndex? versionColumn = some 0
    decide
  have htable : x.table? recordTable = some t := by
    have htemp : x.session.temporary.table? recordTable = none := hk.visible
    have hdb := hk.table
    rw [Site.sees_of_outside hi] at hdb
    simp only [Site.table?, htemp, Site.view_of_outside hi]
    exact hdb
  have hmax : x.maximum versionColumn recordTable =
      .ok (((rowVersions t).map Value.integer).foldl (fun m v => if m.before v then v else m)
        .null) := by
    simp only [Site.maximum, Site.require, htable, hcol, rowVersions, ← map_cells hk.integers,
      List.foldl_map]
  cases hv : rowVersions t with
  | nil =>
      refine ⟨none, ?_, rfl⟩
      simp only [Site.largest, hmax, hv, List.map_nil, List.foldl_nil]
  | cons n l =>
      have hfirst : (if Value.null.before (.integer n) then Value.integer n else .null) =
          .integer n := rfl
      refine ⟨some (l.foldl max n), ?_, ?_⟩
      · simp only [Site.largest, hmax, hv, List.map_cons, List.foldl_cons, hfirst, foldl_before]
      · have hlargest : (n :: l).max? = some (l.foldl max n) := List.max?_cons'
        exact List.max?_eq_some_iff.mp hlargest

/-! ## Making the table -/

/-- The declaration leaves a table of records that is there, and otherwise makes an empty one. -/
theorem records_declaration (hd : c.does recordsDeclaration = some c') :
    (∃ t, c.database.table? recordTable = some t ∧ c' = c) ∨
      (c.database.table? recordTable = none ∧
        c' = { c with database := { c.database with
          tables := c.database.tables ++ [recordsTable] } }) := by
  rw [sight_does_declaration] at hd
  cases ht : c.database.table? recordTable with
  | some t =>
      rw [does_present ht] at hd
      exact Or.inl ⟨t, rfl, (Option.some.inj hd).symm⟩
  | none =>
      rw [does_absent ht] at hd
      split at hd
      · cases hd
      · exact Or.inr ⟨rfl, (Option.some.inj hd).symm⟩

theorem records_of_declaration_kept (h : records c = .kept keyed vs)
    (hd : c.does recordsDeclaration = some c') : c' = c := by
  obtain ⟨-, t, hk, -⟩ := kept_of_records h
  obtain ⟨-, -, rfl⟩ | ⟨hnone, -⟩ := records_declaration hd
  · rfl
  · rw [hk.table] at hnone
    cases hnone

theorem records_of_declaration_absent (h : records c = .absent)
    (hd : c.does recordsDeclaration = some c') : records c' = .kept true 0 ∧ own c' = own c := by
  have ha := absent_of_records h
  obtain ⟨t, ht, -⟩ | ⟨-, rfl⟩ := records_declaration hd
  · rw [ha.table] at ht
    cases ht
  · have hname : sameName recordsTable.name recordTable = true := by decide
    refine ⟨?_, ?_⟩
    · have hk : Kept { c with database := { c.database with
          tables := c.database.tables ++ [recordsTable] } } recordsTable := by
        refine ⟨ha.visible, ⟨fun u hu hn => ?_, ha.detached.indexes, fun u hu f hf => ?_⟩, ?_,
          nofun⟩
        · rcases List.mem_append.mp hu with hu | hu
          · exact ha.detached.own u hu hn
          · rw [List.mem_singleton.mp hu]
            exact .refl _
        · rcases List.mem_append.mp hu with hu | hu
          · exact ha.detached.referred u hu f hf
          · rw [List.mem_singleton.mp hu] at hf
            cases hf
        · show Catalog.table? _ recordTable = _
          rw [Catalog.table?_append, ha.table, hname]
          rfl
      exact hk.records
    · simp only [own, List.filter_append, List.filter_singleton, hname]
      simp

end PooledStore.Sql
