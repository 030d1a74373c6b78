import Morgoth.Persistor

/-!
# Storing a server

`Persistor::storeServer` with its transaction: every statement may fail, and
every exit has to end the transaction itself.

* `storeServer_refines`: with the transaction spelled out, the slot does what
  `Persistor.storeServer` says;
* `all_or_nothing_iff`: for which servers it stores all that it should, or
  nothing.
-/

namespace Morgoth

/-- A connection to the database. `saved` is what a rollback goes back to, while
a transaction is open. -/
structure Connection where
  db : Database
  saved : Option Database := none

namespace Connection

def transaction (c : Connection) : Connection := { c with saved := some c.db }

def commit (c : Connection) : Connection := { c with saved := none }

def rollback (c : Connection) : Connection := { db := c.saved.getD c.db, saved := none }

/-- A statement that may fail. -/
def exec (c : Connection) (failed : Bool) (statement : Database → Database) : Option Connection :=
  if failed then none else some { c with db := statement c.db }

/-- The loop of `storeServer` over the keys, with the connection as the loop
leaves it and whether it got to the end. -/
def storeKeys (sql : Sqlite) (fails : Nat → Bool) (id : Nat) :
    Nat → List (String × String) → Connection → Connection × Bool
  | _, [], c => (c, true)
  | n, (key, value) :: rest, c =>
    match c.exec (fails n) fun db => db.insertEntries sql [⟨some id, key, value⟩] with
    | none => (c.rollback, false)
    | some c => storeKeys sql fails id (n + 1) rest c

/-- With the connection, whether `valueChanged` of the configuration is connected
to `storeConfigurationEntry`. -/
def storeServer (env : Environment) (sql : Sqlite) (fails : Nat → Bool) (c : Connection)
    (s : Server) : Connection × Bool :=
  if 0 < querySize (c.db.selectServers sql (nameClause s.name)) then (c, false)
  else
    let c := c.transaction
    -- the id that the row is going to get is the last one that was inserted
    let id := c.db.servers.next
    match c.exec (fails 1) fun db => db.insertServer ⟨env.urlToString s.path, s.name⟩ with
    | none => (c.rollback, false)
    | some c =>
      if fails 2 then (c.rollback, false)
      else
        match storeKeys sql fails id 3 s.keyValues c with
        | (c, false) => (c, false)
        | (c, true) => (c.commit, true)

/-- The loop ends with all entries, or rolled back to where the transaction
began. -/
theorem storeKeys_refines (sql : Sqlite) (fails : Nat → Bool) (id n : Nat)
    (kvs : List (String × String)) (before db : Database) :
    storeKeys sql fails id n kvs ⟨db, some before⟩ =
      match Persistor.storeKeys sql fails id n kvs db with
      | some db => (⟨db, some before⟩, true)
      | none => (⟨before, none⟩, false) := by
  induction kvs generalizing n db with
  | nil => rfl
  | cons kv kvs ih =>
    unfold storeKeys Persistor.storeKeys exec
    cases fails n with
    | true => rfl
    | false => exact ih (n + 1) _

/-- The slot leaves no transaction open, and does to the database what
`Persistor.storeServer` says. -/
theorem storeServer_refines (env : Environment) (sql : Sqlite) (fails : Nat → Bool)
    (db : Database) (s : Server) :
    storeServer env sql fails ⟨db, none⟩ s =
      (⟨(Persistor.storeServer env sql fails db s).1, none⟩,
        (Persistor.storeServer env sql fails db s).2) := by
  unfold storeServer Persistor.storeServer
  rw [if_neg (Persistor.querySize_small _), if_neg (Persistor.querySize_small _)]
  unfold exec transaction
  cases fails 1 with
  | true => rfl
  | false =>
    cases fails 2 with
    | true => rfl
    | false =>
      simp only [Bool.false_eq_true, if_false, storeKeys_refines]
      cases Persistor.storeKeys sql fails db.servers.next 3 s.keyValues
        (db.insertServer ⟨env.urlToString s.path, s.name⟩) <;> rfl

end Connection

namespace Server

/-- A server has each key once. -/
theorem keyValues_nodup (s : Server) : (s.keyValues.map Prod.fst).Nodup := by
  unfold keyValues
  cases s.configuration with
  | none => exact List.nodup_nil
  | some c =>
    have once : c.keys.Nodup := (List.perm_insertionSort _ _).nodup_iff.mpr c.values.nodupKeys
    rw [List.map_map]
    simpa [Function.comp_def] using once

end Server

namespace Database

/-- The rows of `db`, one for the server, and one for each of its keys that says
what value it has. -/
structure Gains (env : Environment) (s : Server) (db u : Database) : Prop where
  servers : u.servers.rows =
    db.servers.rows ++ [(db.servers.next, ⟨env.urlToString s.path, s.name⟩)]
  entries : ∃ new, u.entries.rows = db.entries.rows ++ new ∧
    new.map Prod.snd = s.keyValues.map (fun kv => ⟨some db.servers.next, kv.1, kv.2⟩) ∧
    (new.map fun row => row.2.key).Nodup
  plugins : u.plugins = db.plugins

/-- A new server with its keys is there, and its changes are going to be stored;
or nothing has happened. No transaction is left open. -/
def AllOrNothing (env : Environment) (s : Server) (db : Database) (result : Connection × Bool) :
    Prop :=
  result.1.saved = none ∧
    ((Gains env s db result.1.db ∧ result.2 = true) ∨ (result.1.db = db ∧ result.2 = false))

theorem withServer_gains {env : Environment} {sql : Sqlite} {db : Database} {s : Server} :
    Gains env s db (Persistor.withServer env sql db s) ↔
      ∀ kv ∈ s.keyValues, sql.numeric kv.1 = kv.1 ∧ sql.numeric kv.2 = kv.2 := by
  let kept : List Entry := s.keyValues.map fun kv => ⟨some db.servers.next, kv.1, kv.2⟩
  have rows : (Persistor.withServer env sql db s).entries.rows = db.entries.rows ++
      ((kept.map sql.stored).zipIdx db.entries.next).map Prod.swap :=
    Table.insertAll_rows _ _
  have contents : (((kept.map sql.stored).zipIdx db.entries.next).map Prod.swap).map Prod.snd =
      kept.map sql.stored := by
    rw [List.map_map]
    exact List.zipIdx_map_fst _ _
  have unchanged : kept.map sql.stored = kept ↔
      ∀ kv ∈ s.keyValues, sql.numeric kv.1 = kv.1 ∧ sql.numeric kv.2 = kv.2 := by
    calc kept.map sql.stored = kept
      _ ↔ kept.map sql.stored = kept.map id := by rw [List.map_id]
      _ ↔ ∀ e ∈ kept, sql.stored e = e := List.map_inj_left
      _ ↔ _ := by
        rw [List.forall_mem_map]
        simp [Sqlite.stored]
  rw [← unchanged]
  constructor
  · intro gains
    obtain ⟨new, appended, values, -⟩ := gains.entries
    obtain rfl := List.append_cancel_left (rows.symm.trans appended)
    exact contents.symm.trans values
  · intro same
    refine ⟨rfl, ⟨_, rows, contents.trans same, ?_⟩, rfl⟩
    have keys : ((((kept.map sql.stored).zipIdx db.entries.next).map Prod.swap).map fun row =>
        row.2.key) = s.keyValues.map Prod.fst := by
      have split : (fun row : Nat × Entry => row.2.key) = Entry.key ∘ Prod.snd := rfl
      rw [split, ← List.map_map, contents, same, List.map_map]
      rfl
    rw [keys]
    exact s.keyValues_nodup

/-- A server is stored as a whole or not at all exactly if a statement fails, or
every key and value of it survives the affinity of its column. -/
theorem all_or_nothing_iff (env : Environment) (sql : Sqlite) (fails : Nat → Bool) (db : Database)
    (s : Server) :
    AllOrNothing env s db (Connection.storeServer env sql fails ⟨db, none⟩ s) ↔
      (Persistor.Stores fails s →
        ∀ kv ∈ s.keyValues, sql.numeric kv.1 = kv.1 ∧ sql.numeric kv.2 = kv.2) := by
  unfold AllOrNothing
  rw [Connection.storeServer_refines, Persistor.storeServer_eq]
  by_cases stores : Persistor.Stores fails s
  · rw [if_pos stores, withServer_gains]
    simp [stores]
  · rw [if_neg stores]
    simp [stores]

/-- A server with a password of digits. -/
def sevens : Server := (Server.create .ideal {} "tf2").setValue "password" "007"

/-- The password is stored as a number. -/
theorem number_stored_changed :
    (Connection.storeServer .ideal .plain (fun _ => false) ⟨{}, none⟩ sevens).2 = true ∧
    (⟨some 1, "password", "7"⟩ : Entry) ∈ (Connection.storeServer .ideal .plain (fun _ => false)
      ⟨{}, none⟩ sevens).1.db.entries.rows.map Prod.snd ∧
    ¬ AllOrNothing .ideal sevens {} (Connection.storeServer .ideal .plain (fun _ => false)
      ⟨{}, none⟩ sevens) := by
  refine ⟨rfl, by decide, ?_⟩
  rintro ⟨-, ⟨gains, -⟩ | ⟨-, refused⟩⟩
  · have stored : Gains .ideal sevens {} (Persistor.withServer .ideal .plain {} sevens) := gains
    have kept := (withServer_gains.mp stored ("password", "007") (by decide)).2
    exact absurd kept (by decide)
  · cases refused

end Database

end Morgoth
