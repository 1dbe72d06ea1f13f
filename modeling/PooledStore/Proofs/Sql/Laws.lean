import PooledStore.Proofs.Sql.World

/-!
# The embedded store keeps the laws

Each law of `PooledStore.Reading` for the stores that run here, besides the one about sessions:
`World.transactional`, `World.bookkeeping`, `World.shared` and `World.steady`. Every operation acts
on the site of its session, where `Site.execute_cases` tells what it does.
-/

set_option autoImplicit false

namespace PooledStore.Sql

open Config Migration

variable {id : SessionId} {x y : Site} {c : Sight} {v : Int} {time text : String}

/-! ## Scripts -/

theorem statements_makeRecords : statements makeRecords = [recordsDeclaration] := by
  obtain ⟨n, hn, hend⟩ := makeRecords_read
  have rest : ∀ fuel, statementsFor fuel (makeRecords.toList.drop n) = [] := by
    intro fuel
    cases fuel with
    | zero => rfl
    | succ fuel => simp only [statementsFor, hend]
  simp only [statements, statementsFor, hn, rest]

/-- What is in a database besides the table of records is seen without times as well. -/
theorem own_timeless (c : Sight) : own (timeless c) = own c := by
  have htables : (c.database.erase recordTable timeColumn).tables.filter
      (fun t => !sameName t.name recordTable) =
        c.database.tables.filter fun t => !sameName t.name recordTable := by
    unfold Catalog.erase
    induction c.database.tables with
    | nil => rfl
    | cons t rest ih =>
        simp only [List.map_cons, List.filter_cons]
        cases hn : sameName t.name recordTable with
        | true =>
            have hname : sameName (t.erase recordTable timeColumn).name recordTable = true := hn
            simp only [hname, Bool.not_true, Bool.false_eq_true, if_false]
            exact ih
        | false =>
            rw [Table.erase_of_ne hn]
            simp only [hn, Bool.not_false, if_true]
            rw [ih]
  simp only [own, timeless, htables]
  rfl

/-- What is recorded does not depend on temporary tables of other names. -/
theorem records_congr {c c' : Sight} (hd : c'.database = c.database)
    (ht : c'.temporary.table? recordTable = none) (h : records c ≠ .other) :
    records c' = records c := by
  rcases records_cases h with ha | ⟨t, hk⟩
  · have ha' : Absent c' := ⟨ht, hd ▸ ha.detached, hd ▸ ha.table⟩
    rw [ha'.records, ha.records]
  · have hk' : Kept c' t := ⟨ht, hd ▸ hk.detached, hd ▸ hk.table, hk.integers⟩
    rw [hk'.records, hk.records]

theorem detached_of_records (h : records c ≠ .other) :
    c.database.Detached recordTable recordsTable := by
  rcases records_cases h with ha | ⟨t, hk⟩
  · exact ha.detached
  · exact hk.detached

/-- A session without temporary tables gets none from a statement that makes none. -/
theorem Sight.bare_does {c c' : Sight} {stmt : Statement} (hb : c.temporary = .empty)
    (hm : stmt.makesTemporary = false) (h : c.does stmt = some c') : c'.temporary = .empty := by
  have ht : c.isTemporary stmt = false := by
    cases stmt with
    | createTable _ _ _ _ _ _ _ => exact hm
    | dropIndex _ _ => simp only [isTemporary, hb]; rfl
    | _ =>
        simp only [isTemporary, hb]
        cases Site.subject? _ <;> rfl
  obtain ⟨htrue, -⟩ | ⟨-, -, heq⟩ := does_cases h
  · rw [ht] at htrue
    cases htrue
  · rw [heq, hb]

namespace Site

variable {stmt : Statement}

theorem Done.bare (h : Done id stmt x y) (hb : x.session.temporary = .empty)
    (hm : stmt.makesTemporary = false) : y.session.temporary = .empty := by
  obtain hd | ⟨heq, -⟩ := h.sees
  · exact Sight.bare_does hb hm hd
  · exact (congrArg Sight.temporary heq).trans hb

/-- A script that makes no temporary tables leaves a session without them. -/
theorem bare_script (hn : ∀ stmt ∈ statements text, stmt.controls = false)
    (hm : ∀ stmt ∈ statements text, stmt.makesTemporary = false)
    (hb : x.session.temporary = .empty) : (x.script id text).1.session.temporary = .empty := by
  refine script_keep (P := fun y => y.session.temporary = .empty) (fun stmt hs {y} hy => ?_) hb
  rcases he : y.execute id stmt with ⟨z, r⟩
  obtain ⟨-, hz⟩ | ⟨-, hz⟩ := execute_cases (hn stmt hs) he
  · exact (congrArg Sight.temporary hz.sees).trans hy
  · exact hz.bare hy (hm stmt hs)

/-- A script that does not mention the table of records leaves what is recorded. -/
theorem records_script {r : Records}
    (hm : ∀ stmt ∈ statements text, stmt.mentions recordTable = false) (hr : r ≠ .other)
    (hs : records x.sees = r) (hl : records x.lasting = r) :
    records (x.script id text).1.sees = r ∧ records (x.script id text).1.lasting = r := by
  refine script_keep (P := fun y => records y.sees = r ∧ records y.lasting = r)
    (fun stmt hmem {y} ⟨hs, hl⟩ => ?_) ⟨hs, hl⟩
  cases hc : stmt.controls with
  | true =>
      -- One of the two may be put in place of the other.
      have hz := switched_execute y id hc
      constructor
      · rcases hz.sees with h | h <;> rwa [h]
      · rcases hz.lasting with h | h <;> rwa [h]
  | false =>
      rcases he : y.execute id stmt with ⟨z, r'⟩
      obtain ⟨-, hz⟩ | ⟨-, hz⟩ := execute_cases hc he
      · exact ⟨by rwa [hz.sees], by rwa [hz.lasting]⟩
      · have hsees : records z.sees = r := by
          obtain hd | ⟨heq, -⟩ := hz.sees
          · exact (records_does (hs ▸ hr) (hm stmt hmem) hd).trans hs
          · rwa [heq]
        refine ⟨hsees, ?_⟩
        cases hi : y.inside with
        | true => rwa [hz.lasting hi]
        | false => rwa [← sees_of_outside (hz.inside.trans hi)]

/-- The table of records is made, or it is found, or the session is left as it is. -/
theorem declaration_cases {r : Except Fault Unit} (hi : x.inside = false)
    (h : x.execute id recordsDeclaration = (y, r)) :
    y.inside = false ∧
      ((∃ f, r = .error f) ∧ y.sees = x.sees ∨
        r = .ok () ∧ x.sees.does recordsDeclaration = some y.sees) := by
  obtain ⟨hr, hy⟩ | ⟨hr, hy⟩ := execute_cases rfl h
  · exact ⟨hy.inside.trans hi, Or.inl ⟨hr, hy.sees⟩⟩
  · refine ⟨hy.inside.trans hi, Or.inr ⟨hr, ?_⟩⟩
    obtain hd | ⟨-, hin, -⟩ := hy.sees
    · exact hd
    · rw [hi] at hin
      cases hin

/-- A version is recorded on what the session sees. -/
theorem Done.record (h : Done id (recordStatement v time) x y) :
    x.sees.does (recordStatement v time) = some y.sees := by
  obtain hd | ⟨-, -, -, k, hk⟩ := h.sees
  · exact hd
  · exact absurd hk check_record_ne

end Site

/-! ## Scripts that are deterministic -/

/-- The statement makes a table, and fails where there is one of the name. -/
def Statement.makesTable : Statement → Bool
  | .createTable _ lenient .. => !lenient
  | _ => false

theorem check_ne_of_makesTable {stmt : Statement} {k : Catalog} (h : stmt.makesTable = true) :
    k.check stmt ≠ .ok false := by
  cases stmt with
  | createTable temporary lenient name written pos columns rules =>
      obtain rfl : lenient = false := by simpa [Statement.makesTable] using h
      intro hc
      simp only [Catalog.check, Bool.false_eq_true, if_false, bind, Except.bind] at hc
      split at hc
      · cases hc
      · split at hc
        · cases hc
        · split at hc
          · cases hc
          · split at hc <;> cases hc
  | _ => cases h

namespace Site

variable {x' : Site} {id' : SessionId}

/-- A script of statements that make tables is carried out alike where the same is seen but for the
times of records. -/
theorem scriptFor_again {fuel : Nat} {sql : List Char}
    (hp : ∀ stmt ∈ statementsFor fuel sql,
      stmt.mentions recordTable = false ∧ stmt.makesTable = true)
    (hs : timeless x'.sees = timeless x.sees) (hr : records x.sees ≠ .other)
    (hi : x'.inside = true) (hw : x'.mayWrite id' = true)
    (hok : (scriptFor id fuel x sql).2 = .ok ()) :
    (scriptFor id' fuel x' sql).2 = .ok () ∧
      timeless (scriptFor id' fuel x' sql).1.sees = timeless (scriptFor id fuel x sql).1.sees := by
  induction fuel generalizing x x' sql with
  | zero => exact ⟨rfl, hs⟩
  | succ fuel ih =>
      unfold scriptFor at hok ⊢
      rcases hn : nextStatement sql with m | _ | ⟨stmt, n⟩
      · rw [hn] at hok
        cases hok
      · exact ⟨rfl, hs⟩
      · have hall : statementsFor (fuel + 1) sql = stmt :: statementsFor fuel (sql.drop n) := by
          simp only [statementsFor, hn]
        rw [hall] at hp
        obtain ⟨⟨hm, hmake⟩, hp⟩ := List.forall_mem_cons.mp hp
        have hcontrols : stmt.controls = false := by
          cases stmt with
          | createTable _ _ _ _ _ _ _ => rfl
          | _ => cases hmake
        simp only [hn] at hok ⊢
        rcases he : x.execute id stmt with ⟨y, f | u⟩
        · rw [he] at hok
          cases hok
        · simp only [he] at hok ⊢
          obtain ⟨⟨f, hf⟩, -⟩ | ⟨-, hy⟩ := execute_cases hcontrols he
          · cases hf
          · have hdoes : x.sees.does stmt = some y.sees := by
              obtain hd | ⟨-, -, -, k, hk⟩ := hy.sees
              · exact hd
              · exact absurd hk (check_ne_of_makesTable hmake)
            -- The other session does the same without times, and so it does it with them.
            have hr' : records x'.sees ≠ .other := by
              rwa [← records_timeless, hs, records_timeless]
            have heq := timeless_does (detached_of_records hr') hm
            rw [hs, timeless_does (detached_of_records hr) hm, hdoes, Option.map_some] at heq
            obtain ⟨b, hb, hbt⟩ := Option.map_eq_some_iff.mp heq.symm
            obtain ⟨y', he', hy', hs'⟩ := exists_execute _ hcontrols hw hb fun ho => by
              rw [hi] at ho
              cases ho
            simp only [he']
            refine ih hp ?_ ?_ (hy'.inside.trans hi) (hy'.free hw) hok
            · rw [hs', hbt]
            · rwa [records_does hr hm hdoes]

end Site

namespace World

variable {c : Connection} {w w' : World} {db : DatabaseId} {k l : Sight}

theorem not_controls {p : Provider} (h : ¬ reading.controls p text) :
    ∀ stmt ∈ statements text, stmt.controls = false := by
  intro stmt hs
  rw [← Bool.not_eq_true]
  exact fun hc => h ⟨stmt, hs, hc⟩

theorem not_names {p : Provider} (h : ¬ reading.names p text) :
    ∀ stmt ∈ statements text, stmt.mentions recordTable = false := by
  intro stmt hs
  rw [← Bool.not_eq_true]
  exact fun hm => h ⟨stmt, hs, hm⟩

theorem not_temporary {p : Provider} (h : ¬ reading.temporary p text) :
    ∀ stmt ∈ statements text, stmt.makesTemporary = false := by
  intro stmt hs
  rw [← Bool.not_eq_true]
  exact fun hm => h ⟨stmt, hs, hm⟩

/-- A session that is somewhere has a site there. -/
theorem has_of_reading {s : Standing Sight} (h : reading.standing w id = some s) :
    ∃ x, w.store.Has id s.database x ∧ s.inside = x.inside ∧ s.sees = timeless x.sees ∧
      s.lasting = timeless x.lasting := by
  obtain ⟨x, hx, heq⟩ := Store.has_of_standing h
  exact ⟨x, hx, congrArg Standing.inside heq, congrArg Standing.sees heq,
    congrArg Standing.lasting heq⟩

/-- Where a session stands once it has done something. -/
theorem standing_put {s : Standing Sight} (hx : w.store.Has id db x)
    (h : reading.standing (w.put id y) id = some s) :
    s = ⟨db, y.inside, timeless y.sees, timeless y.lasting⟩ :=
  Option.some.inj (h.symm.trans (has_put hx y).standing)

/-! ## Operations that are done -/

theorem batch_of {r : Except String Unit} (hx : w.store.Has c.session db x)
    (h : Stores.batch c text w = (w', r)) : w' = w.put c.session (x.script c.session text).1 := by
  rw [batch_eq hx] at h
  exact (Prod.mk.inj h).1.symm

theorem record_of (hx : w.store.Has c.session db x)
    (h : Stores.record c v time w = (w', .ok ())) :
    ∃ y, w' = w.put c.session y ∧ Site.Done c.session (recordStatement v time) x y := by
  rw [record_eq hx] at h
  obtain ⟨rfl, hr⟩ := Prod.mk.inj h
  rcases he : x.execute c.session (recordStatement v time) with ⟨y, r⟩
  rw [he] at hr
  obtain ⟨⟨f, rfl⟩, -⟩ | ⟨-, hy⟩ := Site.execute_cases rfl he
  · cases hr
  · exact ⟨y, rfl, hy⟩

/-- Making the table of records outside of transactions. -/
theorem make_of {r : Except String Unit} (hx : w.store.Has c.session db x) (hi : x.inside = false)
    (h : Stores.batch c makeRecords w = (w', r)) :
    ∃ y, w' = w.put c.session y ∧ y.inside = false ∧
      ((∃ e, r = .error e) ∧ y.sees = x.sees ∨
        r = .ok () ∧ x.sees.does recordsDeclaration = some y.sees) := by
  rw [batch_eq hx, script_makeRecords] at h
  obtain ⟨rfl, rfl⟩ := Prod.mk.inj h
  rcases he : x.execute c.session recordsDeclaration with ⟨y, r⟩
  obtain ⟨hy, ⟨⟨f, rfl⟩, heq⟩ | ⟨rfl, hd⟩⟩ := Site.declaration_cases hi he
  · exact ⟨y, rfl, hy, Or.inl ⟨⟨_, rfl⟩, heq⟩⟩
  · exact ⟨y, rfl, hy, Or.inr ⟨rfl, hd⟩⟩

/-! ## Transactions -/

/-- **What is done in a transaction lasts once it is committed.** -/
theorem transactional : reading.Transactional where
  idle_sees h hi := by
    obtain ⟨x, -, hin, hs, hl⟩ := has_of_reading h
    rw [hs, hl, Site.sees_of_outside (hin.symm.trans hi)]
  begin_ok hk h := by
    obtain ⟨x, hx, hi, rfl⟩ := idle_iff.mp hk
    obtain ⟨y, hy, hin, hs, hl, -⟩ := Site.begin_of_outside _ hi
    rw [begin_eq hx, hy] at h
    obtain ⟨rfl, -⟩ := Prod.mk.inj h
    refine inside_iff.mpr ⟨y, has_put hx y, hin, congrArg timeless hs, ?_⟩
    rw [hl, Site.sees_of_outside hi]
  begin_error hk h := by
    obtain ⟨x, hx, hi, rfl⟩ := idle_iff.mp hk
    obtain ⟨y, hy, -⟩ := Site.begin_of_outside _ hi
    rw [begin_eq hx, hy] at h
    cases (Prod.mk.inj h).2
  make_controls p := by
    rintro ⟨stmt, hs, hc⟩
    rw [statements_makeRecords, List.mem_singleton] at hs
    rw [hs] at hc
    cases hc
  batch text hs := by
    obtain ⟨x, hx, -⟩ := has_of_reading hs
    rw [batch_eq hx]
    exact ⟨_, (has_put hx _).standing, rfl⟩
  batch_idle {c w db k text} hc hk := by
    obtain ⟨x, hx, hi, rfl⟩ := idle_iff.mp hk
    rw [batch_eq hx]
    have hin := (x.inside_script c.session (not_controls hc)).1
    exact ⟨_, idle_iff.mpr ⟨_, has_put hx _, hin.trans hi, rfl⟩⟩
  batch_ok {c w w' db k l text} hc hk h := by
    obtain ⟨x, hx, hi, rfl, rfl⟩ := inside_iff.mp hk
    obtain rfl := batch_of hx h
    obtain ⟨hin, hl⟩ := x.inside_script c.session (not_controls hc)
    exact ⟨_, inside_iff.mpr ⟨_, has_put hx _, hin.trans hi, rfl, congrArg timeless (hl hi)⟩⟩
  batch_error {c w w' db k l text e} hc hk h := by
    obtain ⟨x, hx, hi, rfl, rfl⟩ := inside_iff.mp hk
    obtain rfl := batch_of hx h
    obtain ⟨-, hl⟩ := x.inside_script c.session (not_controls hc)
    exact leaves_iff.mpr ⟨_, has_put hx _, congrArg timeless (hl hi)⟩
  record_idle hk h := by
    obtain ⟨x, hx, hi, rfl⟩ := idle_iff.mp hk
    obtain ⟨y, rfl, hy⟩ := record_of hx h
    exact ⟨_, idle_iff.mpr ⟨y, has_put hx y, hy.inside.trans hi, rfl⟩⟩
  record_ok hk h := by
    obtain ⟨x, hx, hi, rfl, rfl⟩ := inside_iff.mp hk
    obtain ⟨y, rfl, hy⟩ := record_of hx h
    exact ⟨_, inside_iff.mpr
      ⟨y, has_put hx y, hy.inside.trans hi, rfl, congrArg timeless (hy.lasting hi)⟩⟩
  record_error hl h := by
    obtain ⟨x, hx, rfl⟩ := leaves_iff.mp hl
    rw [record_eq hx] at h
    obtain ⟨rfl, hr⟩ := Prod.mk.inj h
    rcases he : x.execute _ (recordStatement _ _) with ⟨y, r⟩
    rw [he] at hr
    obtain ⟨-, hy⟩ | ⟨rfl, -⟩ := Site.execute_cases rfl he
    · exact leaves_iff.mpr ⟨y, has_put hx y, congrArg timeless hy.lasting⟩
    · cases hr
  largest c w := by
    cases ha : w.store.seat? c.session with
    | none =>
        exact congrArg
          (fun r : World × Except String (Option Int) => reading.standing r.1 c.session)
          (act_closed ha _ none)
    | some a =>
        obtain ⟨d, hx⟩ := Store.exists_has ha
        rw [largest_eq hx]
        exact (has_put hx _).standing.trans hx.standing.symm
  commit_ok {c w w' s} hs h := by
    obtain ⟨x, hx, hin, hsees, hl⟩ := has_of_reading hs
    rw [commit_eq hx] at h
    obtain ⟨rfl, hr⟩ := Prod.mk.inj h
    obtain ⟨e, hc⟩ | ⟨y, hc, hy⟩ := x.commit_cases c.session
    · rw [hc] at hr
      cases hr
    · rw [hc]
      exact idle_iff.mpr ⟨y, has_put hx y, hy.outside, by rw [hy.sees, hsees]⟩
  commit_error {c w w' db l e} hl h := by
    obtain ⟨x, hx, rfl⟩ := leaves_iff.mp hl
    rw [commit_eq hx] at h
    obtain ⟨rfl, hr⟩ := Prod.mk.inj h
    obtain ⟨e, hc⟩ | ⟨y, hc, -⟩ := x.commit_cases c.session
    · rw [hc]
      exact leaves_iff.mpr ⟨x, has_put hx x, rfl⟩
    · rw [hc] at hr
      cases hr
  abandon {c w db l} hl := by
    obtain ⟨x, hx, rfl⟩ := leaves_iff.mp hl
    rw [abandon_eq hx]
    refine idle_iff.mpr ⟨_, has_put hx _, ?_⟩
    cases hi : x.inside with
    | false =>
        rw [Site.abandon, hi, if_neg Bool.false_ne_true]
        exact ⟨hi, congrArg timeless (Site.sees_of_outside hi)⟩
    | true =>
        obtain ⟨y, hr, hy⟩ := Site.rollback_of_inside c.session hi
        rw [Site.abandon, hi, if_pos rfl, hr]
        exact ⟨hy.outside, congrArg timeless hy.sees⟩

/-! ## The table of records -/

/-- **The table of records is made where it is not there, takes records, and tells the largest
version.** -/
theorem bookkeeping : reading.Bookkeeping where
  make_absent hk hr h := by
    obtain ⟨x, hx, hi, rfl⟩ := idle_iff.mp hk
    obtain ⟨y, rfl, hy, ⟨⟨e, he⟩, -⟩ | ⟨-, hd⟩⟩ := make_of hx hi h
    · cases he
    · obtain ⟨hrec, hown⟩ := records_of_declaration_absent ((records_timeless _).symm.trans hr) hd
      exact ⟨_, idle_iff.mpr ⟨y, has_put hx y, hy, rfl⟩, (records_timeless _).trans hrec,
        (own_timeless _).trans (hown.trans (own_timeless _).symm)⟩
  make_kept hk hr h := by
    obtain ⟨x, hx, hi, rfl⟩ := idle_iff.mp hk
    obtain ⟨y, rfl, hy, ⟨⟨e, he⟩, -⟩ | ⟨-, hd⟩⟩ := make_of hx hi h
    · cases he
    · have heq := records_of_declaration_kept ((records_timeless _).symm.trans hr) hd
      exact idle_iff.mpr ⟨y, has_put hx y, hy, by rw [heq]⟩
  make_error hk h := by
    obtain ⟨x, hx, hi, rfl⟩ := idle_iff.mp hk
    obtain ⟨y, rfl, hy, ⟨-, heq⟩ | ⟨he, -⟩⟩ := make_of hx hi h
    · exact idle_iff.mpr ⟨y, has_put hx y, hy, by rw [heq]⟩
    · cases he
  record hs hr h hs' := by
    obtain ⟨x, hx, -, hsees, -⟩ := has_of_reading hs
    rw [hsees] at hr ⊢
    obtain ⟨y, rfl, hy⟩ := record_of hx h
    rw [standing_put hx hs']
    obtain ⟨hrec, hown, hnew⟩ := record_records ((records_timeless _).symm.trans hr) hy.record
    exact ⟨(records_timeless _).trans hrec,
      (own_timeless _).trans (hown.trans (own_timeless _).symm), fun _ => hnew⟩
  largest hk hr h := by
    obtain ⟨x, hx, hi, rfl⟩ := idle_iff.mp hk
    obtain ⟨m, hm, hg⟩ := largest_of_outside hi ((records_timeless _).symm.trans hr)
    rw [largest_eq hx, hm] at h
    obtain rfl := Except.ok.inj (Prod.mk.inj h).2
    exact hg
  unnamed hn hs hr hsees hlasting hs' := by
    obtain ⟨x, hx, -, he, hl⟩ := has_of_reading hs
    rw [he] at hsees
    rw [hl] at hlasting
    rw [batch_eq hx] at hs'
    rw [standing_put hx hs']
    obtain ⟨h₁, h₂⟩ := Site.records_script (not_names hn) hr
      ((records_timeless _).symm.trans hsees) ((records_timeless _).symm.trans hlasting)
    exact ⟨(records_timeless _).trans h₁, (records_timeless _).trans h₂⟩

/-! ## Sessions on one database -/

/-- **Sessions without temporary tables that are on one database share what lasts.** -/
theorem shared : reading.Shared where
  others {c w w' t j} h hj ht := by
    obtain ⟨z, hz, hin, -, hl⟩ := has_of_reading ht
    obtain ⟨-, rfl⟩ | ⟨db, x, y, hx, rfl, -⟩ := acts_cases h
    · exact ⟨t, ht, rfl, rfl, fun hb => hb⟩
    · refine ⟨_, (hx.put_other hz hj y).standing, rfl, hin.symm, fun hb => ?_⟩
      rw [hl] at hb
      exact hb
  lasting hs ht hdb hbs hbt := by
    obtain ⟨x, hx, -, -, hxl⟩ := has_of_reading hs
    obtain ⟨z, hz, -, -, hzl⟩ := has_of_reading ht
    rw [hxl] at hbs ⊢
    rw [hzl] at hbt ⊢
    have hd : x.database = z.database := (hdb ▸ hx).same_database hz
    have ht : x.lastingTemporary = z.lastingTemporary := hbs.trans hbt.symm
    simp only [Site.lasting, hd, ht]
  records hs ht hdb hbt hr := by
    obtain ⟨x, hx, -, -, hxl⟩ := has_of_reading hs
    obtain ⟨z, hz, -, -, hzl⟩ := has_of_reading ht
    rw [hzl] at hbt ⊢
    rw [hxl] at hr ⊢
    have hd : x.database = z.database := (hdb ▸ hx).same_database hz
    have hbt : z.lasting.temporary = .empty := hbt
    have hr : records x.lasting ≠ .other := (records_timeless x.lasting).symm ▸ hr
    refine (records_timeless _).trans (Eq.trans ?_ (records_timeless _).symm)
    refine records_congr ?_ (by rw [hbt]; rfl) hr
    simp only [Site.lasting, hd]
  bare_batch hc ht hs hb h hs' := by
    obtain ⟨x, hx, -, hsees, -⟩ := has_of_reading hs
    rw [hsees] at hb
    obtain rfl := batch_of hx h
    rw [standing_put hx hs']
    exact Site.bare_script (not_controls hc) (not_temporary ht) hb
  bare_record hs hb h hs' := by
    obtain ⟨x, hx, -, hsees, -⟩ := has_of_reading hs
    rw [hsees] at hb
    obtain ⟨y, rfl, hy⟩ := record_of hx h
    rw [standing_put hx hs']
    exact hy.bare hb rfl
  make_temporary p := by
    rintro ⟨stmt, hs, ht⟩
    rw [statements_makeRecords, List.mem_singleton] at hs
    rw [hs] at ht
    cases ht

/-! ## Sessions that nothing disturbs -/

/-- The declaration of the table of records leaves no foreign key leading nowhere. -/
theorem dangling_declaration {c c' : Sight} (h : c.does recordsDeclaration = some c') :
    c'.database.dangling true = c.database.dangling true := by
  obtain ⟨-, -, rfl⟩ | ⟨-, rfl⟩ := records_declaration h
  · rfl
  · exact Catalog.dangling_made rfl rfl true

/-- A session that may write makes the table of records where it can be made. -/
theorem exists_make {b : Sight} (hx : w.store.Has c.session db x) (hi : x.inside = false)
    (hw : x.mayWrite c.session = true) (hd : x.sees.does recordsDeclaration = some b) :
    ∃ y, Stores.batch c makeRecords w = (w.put c.session y, .ok ()) ∧ y.inside = false ∧
      y.sees = b := by
  obtain ⟨y, he, hy, hs⟩ := Site.exists_execute recordsDeclaration rfl hw hd fun _ => by
    rw [dangling_declaration hd]
    exact Nat.lt_irrefl _
  refine ⟨y, ?_, hy.inside.trans hi, hs⟩
  rw [batch_eq hx, script_makeRecords, he]
  rfl

theorem dangling_timeless {b : Sight} (h : records b ≠ .other) :
    (timeless b).database.dangling true = b.database.dangling true :=
  (detached_of_records h).dangling_erase frees_recordsTable true

/-- Foreign keys are counted alike in what differs in times alone. -/
theorem dangling_congr {b b' : Sight} (heq : timeless b' = timeless b)
    (hne : records (timeless b) ≠ .other) :
    b'.database.dangling true = b.database.dangling true := by
  rw [records_timeless] at hne
  have hne' : records b' ≠ .other := by
    rwa [← records_timeless b', heq, records_timeless b]
  rw [← dangling_timeless hne, ← dangling_timeless hne', heq]

/-- **What a session has done, one that sees the same does as well**, where nothing disturbs it. -/
theorem steady : reading.Steady where
  acts h hu := by
    obtain ⟨-, rfl⟩ | ⟨db, x, y, hx, rfl, hf⟩ := acts_cases h
    · exact hu
    · exact (undisturbed_iff (has_put hx y)).mpr (hf ((undisturbed_iff hx).mp hu))
  begin hk _ := by
    obtain ⟨x, hx, hi, rfl⟩ := idle_iff.mp hk
    obtain ⟨y, hy, -⟩ := Site.begin_of_outside _ hi
    rw [begin_eq hx, hy]
    rfl
  make_kept hk hu hr := by
    obtain ⟨x, hx, hi, rfl⟩ := idle_iff.mp hk
    obtain ⟨-, t, hkept, -⟩ := kept_of_records ((records_timeless _).symm.trans hr)
    have hd : x.sees.does recordsDeclaration = some x.sees := by
      rw [sight_does_declaration, does_present hkept.table]
      rfl
    obtain ⟨y, hb, -⟩ := exists_make hx hi ((undisturbed_iff hx).mp hu) hd
    rw [hb]
  largest hk _ hr := by
    obtain ⟨x, hx, hi, rfl⟩ := idle_iff.mp hk
    obtain ⟨m, hm, -⟩ := largest_of_outside hi ((records_timeless _).symm.trans hr)
    refine ⟨m, ?_⟩
    rw [largest_eq hx, hm]
    rfl
  make {c c' w w' a db db' k k'} _ hk hk' hu h ha := by
    obtain ⟨x, hx, hi, rfl⟩ := idle_iff.mp hk
    obtain ⟨x', hx', hi', heq⟩ := idle_iff.mp hk'
    obtain ⟨y, rfl, hy, ⟨⟨e, he⟩, -⟩ | ⟨-, hd⟩⟩ := make_of hx hi h
    · cases he
    · obtain ⟨-, rfl⟩ := (idle_iff.mpr ⟨y, has_put hx y, hy, rfl⟩ : reading.Idle _ _ _ _).unique ha
      -- Without times both see the same, and so they do the same.
      have hdoes := timeless_does_declaration x'.sees
      rw [heq, timeless_does_declaration, hd, Option.map_some] at hdoes
      obtain ⟨b, hb, hbt⟩ := Option.map_eq_some_iff.mp hdoes.symm
      obtain ⟨y', hbatch, hy', hs⟩ := exists_make hx' hi' ((undisturbed_iff hx').mp hu) hb
      exact ⟨_, hbatch, idle_iff.mpr ⟨y', has_put hx' y', hy', by rw [hs, hbt]⟩⟩
  record {c c' w w' a db db' k l k' keyed vs v time} time' _ hk hk' hu hr h ha := by
    obtain ⟨x, hx, hi, rfl, rfl⟩ := inside_iff.mp hk
    obtain ⟨x', hx', hi', hs, hl⟩ := inside_iff.mp hk'
    obtain ⟨y, rfl, hy⟩ := record_of hx h
    have heq := standing_put hx ha
    obtain rfl : k' = timeless y.sees := congrArg Standing.sees heq
    obtain ⟨b, hb, hbt⟩ :=
      record_again hs ((records_timeless _).symm.trans hr) hy.record time'
    obtain ⟨y', he, hy', hs'⟩ := Site.exists_execute (recordStatement v time') rfl
      ((undisturbed_iff hx').mp hu) hb fun ho => by
        rw [hi'] at ho
        cases ho
    refine ⟨w'.put c'.session y', ?_, inside_iff.mpr
      ⟨y', has_put hx' y', hy'.inside.trans hi', by rw [hs', hbt], ?_⟩⟩
    · rw [record_eq hx', he]
      rfl
    · rw [hy'.lasting hi', hl]
  commit {c c' w w' db db' k l keyed vs} _ hk hk' _ hr hl h := by
    obtain ⟨x, hx, hi, rfl, rfl⟩ := inside_iff.mp hk
    obtain ⟨x', hx', hi', hs', hl'⟩ := inside_iff.mp hk'
    have hlasting : x'.database.committed.dangling true = x.database.committed.dangling true :=
      dangling_congr hl' hl
    have hsees : x'.outcome.dangling true = x.outcome.dangling true :=
      dangling_congr hs' (Records.ne_other_of_kept hr)
    rw [commit_eq hx] at h
    obtain ⟨-, e, hc⟩ | ⟨hle, -⟩ := Site.commit_of_inside c.session hi
    · rw [hc] at h
      cases h
    · rw [commit_eq hx']
      obtain ⟨hlt, -⟩ | ⟨-, y, hc, -⟩ := Site.commit_of_inside c'.session hi'
      · exact absurd (hlasting ▸ hsees ▸ hlt) hle
      · rw [hc]
        rfl

/-! ## A database in memory -/

/-- A database with these contents and some sessions on it. -/
def sharing (k : Catalog) (sessions : Nat) : World :=
  { isolated with
    store :=
      { databases := [⟨k, 0, none⟩]
        sessions := List.replicate sessions
          (some ⟨0, .start ⟨k, 0, none⟩ "memory" firstBusyTimeout⟩)
        grounded := fun a ha => by
          obtain rfl := Option.some.inj (List.eq_of_mem_replicate ha)
          exact Nat.zero_lt_one } }

/-- A database with these contents and one session on it. -/
def inMemory (k : Catalog) : World := sharing k 1

theorem has_sharing {n i : Nat} (h : i < n) (k : Catalog) : (sharing k n).store.Has i 0
    ⟨.start ⟨k, 0, none⟩ "memory" firstBusyTimeout, ⟨k, 0, none⟩⟩ := by
  refine ⟨?_, rfl⟩
  simp only [sharing, Store.seat?, List.getElem?_replicate, h, if_true]
  rfl

theorem idle_sharing {n i : Nat} (h : i < n) (k : Catalog) :
    reading.Idle (sharing k n) i 0 (timeless ⟨k, .empty⟩) :=
  idle_iff.mpr ⟨_, has_sharing h k, rfl, rfl⟩

theorem idle_inMemory (k : Catalog) :
    reading.Idle (inMemory k) 0 0 (timeless ⟨k, .empty⟩) :=
  idle_sharing Nat.zero_lt_one k

end World

end PooledStore.Sql
