import PooledStore.Sql.Session

/-!
# The embedded store

Databases and the sessions on them. A session acts on its own site only, that is on itself and its
database.

* `Store.site?`: a session with its database.
* `Store.act`, `Store.ask`: what a session does, and what it answers.
* `Store.addDatabase`, `Store.addSession`, `Store.close`: how databases and sessions come and go.
-/

namespace PooledStore.Sql

/-- A database, by its number. -/
abbrev DatabaseId := Nat

/-- A session, and which database it is on. -/
structure Seat where
  database : DatabaseId
  session : Session

/-- All databases and sessions. A session that was closed leaves an empty place. -/
structure Store where
  databases : List Database
  sessions : List (Option Seat)
  /-- Every session is on a database. -/
  grounded : ∀ a, some a ∈ sessions → a.database < databases.length

namespace Store

/-- No databases and no sessions. -/
def empty : Store := ⟨[], [], nofun⟩

def seat? (st : Store) (id : SessionId) : Option Seat := (st.sessions[id]?).join

def database? (st : Store) (db : DatabaseId) : Option Database := st.databases[db]?

/-- The session and its database, as long as it is open. -/
def site? (st : Store) (id : SessionId) : Option Site :=
  (st.seat? id).bind fun a => (st.database? a.database).map fun d => ⟨a.session, d⟩

/-- The store with other contents of a database. -/
def setDatabase (st : Store) (db : DatabaseId) (d : Database) : Store where
  databases := st.databases.set db d
  sessions := st.sessions
  grounded a h := by
    rw [List.length_set]
    exact st.grounded a h

/-- The store with another state of an open session, on the same database. -/
def setSession (st : Store) (id : SessionId) (s : Session) : Store where
  databases := st.databases
  sessions := st.sessions.modify id (·.map fun a => { a with session := s })
  grounded a h := by
    obtain ⟨i, hi⟩ := List.mem_iff_getElem?.mp h
    rw [List.getElem?_modify] at hi
    obtain ⟨o, ho, hoa⟩ := Option.map_eq_some_iff.mp hi
    cases o with
    | none => split at hoa <;> cases hoa
    | some b =>
        have hb := st.grounded b (List.mem_of_getElem? ho)
        split at hoa
        · obtain rfl := Option.some.inj hoa
          exact hb
        · obtain rfl := Option.some.inj hoa
          exact hb

/-- The store with another site of an open session. -/
def put (st : Store) (id : SessionId) (x : Site) : Store :=
  match st.seat? id with
  | some a => (st.setSession id x.session).setDatabase a.database x.database
  | none => st

/-- What an open session does on its site. One that is closed does nothing, and gives `answer`. -/
def act {α : Type} (st : Store) (id : SessionId) (f : Site → Site × α) (answer : α) : Store × α :=
  match st.site? id with
  | some x => (st.put id (f x).1, (f x).2)
  | none => (st, answer)

/-- What an open session answers. One that is closed gives `answer`. -/
def ask {α : Type} (st : Store) (id : SessionId) (f : Site → α) (answer : α) : α :=
  ((st.site? id).map f).getD answer

/-- The number of the next session. -/
def nextSession (st : Store) : SessionId := st.sessions.length

/-- The number of the next database. -/
def nextDatabase (st : Store) : DatabaseId := st.databases.length

/-- The store with a new session on a database. There is none if there is no such database. -/
def addSession (st : Store) (db : DatabaseId) (journal : String) (busyTimeout : Nat) :
    Option Store :=
  if h : db < st.databases.length then
    some
      { databases := st.databases
        sessions := st.sessions ++ [some ⟨db, .start st.databases[db] journal busyTimeout⟩]
        grounded := fun a ha => by
          rcases List.mem_append.mp ha with ha | ha
          · exact st.grounded a ha
          · obtain rfl := Option.some.inj (List.mem_singleton.mp ha)
            exact h }
  else none

/-- The store with a new, empty database and a session on it. -/
def addDatabase (st : Store) (journal : String) (busyTimeout : Nat) : Store where
  databases := st.databases ++ [.empty]
  sessions := st.sessions ++ [some ⟨st.nextDatabase, .start .empty journal busyTimeout⟩]
  grounded a ha := by
    rw [List.length_append, List.length_singleton]
    rcases List.mem_append.mp ha with ha | ha
    · exact Nat.lt_succ_of_lt (st.grounded a ha)
    · obtain rfl := Option.some.inj (List.mem_singleton.mp ha)
      exact Nat.lt_succ_self _

/-- The store without the session; what it had not committed is undone. -/
def close (st : Store) (id : SessionId) : Store :=
  let st := (st.act id (fun x => ((x.rollback id).1, ())) ()).1
  { databases := st.databases
    sessions := st.sessions.set id none
    grounded := fun a h => by
      rcases List.mem_or_eq_of_mem_set h with h | h
      · exact st.grounded a h
      · cases h }

/-- The session has used the database to answer a query. -/
def queried (st : Store) (id : SessionId) : Store :=
  (st.act id (fun x => (x.look.learn, ())) ()).1

/-- The session has read the definitions of the tables that it sees. -/
def learn (st : Store) (id : SessionId) : Store := (st.act id (fun x => (x.learn, ())) ()).1

end Store

end PooledStore.Sql
