import Mathlib.Data.List.Sort
import Morgoth.Manager
import Morgoth.Sqlite

/-!
# Persistor

`restoreServers`, and the slots of the persistor as functions on the database.
`fails n` says whether the n-th statement that a slot executes fails of itself;
one that SQLite cannot read fails anyway.

* `storeServer_eq`, `deleteServer_eq`, `storeConfigurationEntry_eq`: what
  each slot does to the tables; later modules use these and never unfold one.
-/

namespace Morgoth

namespace ServerConfiguration

/-- `QMap::keys`: in the order of the texts. -/
def keys (c : ServerConfiguration) : List String :=
  c.values.keys.insertionSort fun a b => !QString.lt b a

theorem setValue_same (c : ServerConfiguration) {key value : String} (same : c.value key = value) :
    c.setValue key value = (c, none) := if_neg (not_not.mpr same)

theorem setValue_new (c : ServerConfiguration) {key value : String} (new : c.value key ≠ value) :
    c.setValue key value = (⟨c.values.insert key value⟩, some (key, value)) := if_pos new

theorem setValue_value (c : ServerConfiguration) (key value : String) :
    (c.setValue key value).1.value = Function.update c.value key value := by
  funext k
  by_cases new : c.value key ≠ value
  · rw [setValue_new c new]
    by_cases here : k = key
    · subst here
      simp [ServerConfiguration.value]
    · simp [ServerConfiguration.value, here]
  · rw [setValue_same c (not_not.mp new)]
    obtain rfl := not_not.mp new
    rw [Function.update_eq_self]

end ServerConfiguration

namespace Server

/-- `setValue` of the server's configuration. -/
def setValue (s : Server) (key value : String) : Server :=
  { s with configuration := s.configuration.map fun c => (c.setValue key value).1 }

/-- The keys of the configuration with their values, as `storeServer` goes
through them. -/
def keyValues (s : Server) : List (String × String) :=
  match s.configuration with
  | some c => c.keys.map fun key => (key, c.value key)
  | none => []

end Server

namespace Persistor

/-! ## The start of the daemon -/

/-- The loop over the entries of one server. -/
def restoreEntries (server : ServerId) (entries : List (Nat × Entry)) (m : ServerManager) :
    ServerManager :=
  entries.foldl (fun m row => m.reach server fun s => s.setValue row.2.key row.2.value) m

/-- The loop of `restoreServers`, with the servers whose `valueChanged` has been
connected to `storeConfigurationEntry`. It is `none` where the null pointer that
`add` has returned is used. -/
def restoreServers (env : Environment) (sql : Sqlite) (db : Database) :
    List (Nat × ServerRow) → ServerManager → List ServerId →
      Option (ServerManager × List ServerId)
  | [], m, connected => some (m, connected)
  | (id, row) :: rows, m, connected =>
    match m.add env (sql.toUrl row.path) row.name with
    | (_, none) => none
    | (m, some server) =>
      restoreServers env sql db rows (restoreEntries server (db.entriesOf id) m)
        (connected ++ [server])

/-- `Persistor::initialize`, on a manager without servers. -/
def init (env : Environment) (sql : Sqlite) (db : Database) :
    Option (ServerManager × List ServerId) :=
  restoreServers env sql db db.servers.rows {} []

/-! ## The slots -/

/-- The loop of `storeServer` over the keys; `none` is the first failure. -/
def storeKeys (sql : Sqlite) (fails : Nat → Bool) (id : Nat) :
    Nat → List (String × String) → Database → Option Database
  | _, [], db => some db
  | n, (key, value) :: rest, db =>
    if fails n then none
    else storeKeys sql fails id (n + 1) rest (db.insertEntries sql [⟨some id, key, value⟩])

/-- With the database, whether `valueChanged` of the configuration is connected
to `storeConfigurationEntry`. A rollback leaves the database as it was. -/
def storeServer (env : Environment) (sql : Sqlite) (fails : Nat → Bool) (db : Database)
    (s : Server) : Database × Bool :=
  if 0 < querySize (db.selectServers sql (nameClause s.name)) then (db, false)
  else if fails 1 then (db, false)
  -- `lastInsertId` is not valid
  else if fails 2 then (db, false)
  else
    match storeKeys sql fails db.servers.next 3 s.keyValues
      (db.insertServer ⟨env.urlToString s.path, s.name⟩) with
    | some db => (db, true)
    | none => (db, false)

/-- The loop of `deleteServer` over the ids that it has found. -/
def deleteConfigurations (fails : Nat → Bool) : Nat → List Nat → Database → Database
  | _, [], db => db
  | n, id :: ids, db =>
    deleteConfigurations fails (n + 1) ids (if fails n then db else db.deleteEntries id)

def deleteServer (sql : Sqlite) (fails : Nat → Bool) (db : Database) (name : String) : Database :=
  let ids := if fails 0 then [] else db.selectServers sql (nameClause name)
  let db := deleteConfigurations fails 1 ids db
  if fails (ids.length + 1) then db
  else match sql.whereServers (nameClause name) with
    | some p => { db with servers := db.servers.deleteWhere (p db) }
    | none => db

def storeConfigurationEntry (sql : Sqlite) (fails : Nat → Bool) (db : Database)
    (name key value : String) : Database :=
  match sql.whereEntries (entryClause name key) with
  | none => db
  | some p =>
    if fails 0 then db
    else if 0 < querySize (db.entries.rows.filter (p db)) then
      -- no row has been fetched, so the id is the text of an invalid value
      if fails 1 then db
      else match sql.setEntries (entryAssignment value "") with
        | some f => { db with entries := db.entries.update (f db) }
        | none => db
    else if fails 1 then db
    else match sql.valuesEntries (entryValues name key value) with
      | some rows => db.insertEntries sql (rows db)
      | none => db

def storePluginState (sql : Sqlite) (fails : Nat → Bool) (db : Database) (pluginName : String)
    (enabled : Bool) : Database :=
  if fails 0 then db
  else match sql.valuesPlugins (pluginValues pluginName (if enabled then "1" else "0")) with
    | some rows => (rows db).foldl Database.replacePlugin db
    | none => db

/-! ## What the slots do -/

theorem querySize_small {α : Type} (l : List α) : ¬ 0 < querySize l := by
  unfold querySize
  decide

/-- The database with a new server and its configuration. -/
def withServer (env : Environment) (sql : Sqlite) (db : Database) (s : Server) : Database :=
  (db.insertServer ⟨env.urlToString s.path, s.name⟩).insertEntries sql
    (s.keyValues.map fun kv => ⟨some db.servers.next, kv.1, kv.2⟩)

theorem insertEntries_append (sql : Sqlite) (db : Database) (as bs : List Entry) :
    (db.insertEntries sql as).insertEntries sql bs = db.insertEntries sql (as ++ bs) := by
  simp [Database.insertEntries, Table.insertAll_append]

theorem storeKeys_eq (sql : Sqlite) (fails : Nat → Bool) (id n : Nat)
    (kvs : List (String × String)) (db : Database) :
    storeKeys sql fails id n kvs db =
      if ∀ i < kvs.length, fails (n + i) = false then
        some (db.insertEntries sql (kvs.map fun kv => ⟨some id, kv.1, kv.2⟩))
      else none := by
  induction kvs generalizing n db with
  | nil => simp [storeKeys, Database.insertEntries]
  | cons kv kvs ih =>
    unfold storeKeys
    cases first : fails n with
    | true =>
      rw [if_pos rfl, if_neg]
      intro none_fails
      have good := none_fails 0 (Nat.zero_lt_succ _)
      rw [Nat.add_zero, first] at good
      cases good
    | false =>
      have shift : (∀ i < kvs.length, fails (n + 1 + i) = false) ↔
          ∀ i < (kv :: kvs).length, fails (n + i) = false := by
        constructor
        · intro rest i hi
          cases i with
          | zero => exact first
          | succ i =>
            have good := rest i (Nat.lt_of_succ_lt_succ hi)
            rwa [Nat.add_assoc, Nat.add_comm 1 i] at good
        · intro all i hi
          have good := all (i + 1) (Nat.succ_lt_succ hi)
          rwa [Nat.add_assoc, Nat.add_comm 1 i]
      rw [if_neg (by simp), ih, insertEntries_append]
      simp only [shift, List.map_cons, List.singleton_append]

/-- None of the statements that store a server fails. -/
def Stores (fails : Nat → Bool) (s : Server) : Prop :=
  ∀ i < s.keyValues.length + 2, fails (i + 1) = false

instance (fails : Nat → Bool) (s : Server) : Decidable (Stores fails s) :=
  inferInstanceAs (Decidable (∀ i < _, _))

/-- A server is stored as a whole or not at all. Whether there is one of its
name already makes no difference. -/
theorem storeServer_eq (env : Environment) (sql : Sqlite) (fails : Nat → Bool) (db : Database)
    (s : Server) :
    storeServer env sql fails db s =
      if Stores fails s then (withServer env sql db s, true) else (db, false) := by
  have split : Stores fails s ↔
      fails 1 = false ∧ fails 2 = false ∧ ∀ i < s.keyValues.length, fails (3 + i) = false := by
    constructor
    · intro good
      refine ⟨good 0 (by omega), good 1 (by omega), fun i hi => ?_⟩
      have later := good (i + 2) (by omega)
      rwa [Nat.add_assoc, Nat.add_comm] at later
    · rintro ⟨first, second, rest⟩ i hi
      match i with
      | 0 => exact first
      | 1 => exact second
      | i + 2 =>
        have later := rest i (by omega)
        rwa [Nat.add_comm 3 i] at later
  unfold storeServer
  rw [if_neg (querySize_small _), storeKeys_eq]
  simp only [split]
  cases fails 1 with
  | true => simp
  | false =>
    cases fails 2 with
    | true => simp
    | false =>
      by_cases rest : ∀ i < s.keyValues.length, fails (3 + i) = false
      · simp only [if_pos rest, Bool.false_eq_true, if_false, true_and]
        rfl
      · simp only [rest, Bool.false_eq_true, if_false, true_and]

/-- The rows that SQLite reads in the INSERT of `storeConfigurationEntry`. -/
def newEntries (sql : Sqlite) (fails : Nat → Bool) (db : Database) (name key value : String) :
    List Entry :=
  match sql.whereEntries (entryClause name key), sql.valuesEntries (entryValues name key value) with
  | some _, some rows => if fails 0 || fails 1 then [] else rows db
  | _, _ => []

/-- An entry is looked for in vain, since no size is reported: a new one is
always inserted. -/
theorem storeConfigurationEntry_eq (sql : Sqlite) (fails : Nat → Bool) (db : Database)
    (name key value : String) :
    storeConfigurationEntry sql fails db name key value =
      db.insertEntries sql (newEntries sql fails db name key value) := by
  unfold storeConfigurationEntry newEntries
  cases sql.whereEntries (entryClause name key) with
  | none => rfl
  | some p =>
    simp only [querySize_small, if_false]
    cases fails 0 <;> cases fails 1 <;>
      cases sql.valuesEntries (entryValues name key value) <;> rfl

theorem newEntries_literal (sql : Sqlite) (fails : Nat → Bool) (db : Database)
    {name key value : String} (hn : Literal name) (hk : Literal key) (hv : Literal value) :
    newEntries sql fails db name key value =
      if fails 0 || fails 1 then [] else [⟨db.idOf name, key, value⟩] := by
  obtain ⟨p, read⟩ := Option.isSome_iff_exists.mp (sql.whereEntries_literal name key hn hk)
  unfold newEntries
  rw [read, sql.valuesEntries_literal name key value hn hk hv]

theorem deleteConfigurations_servers (fails : Nat → Bool) (n : Nat) (ids : List Nat)
    (db : Database) : (deleteConfigurations fails n ids db).servers = db.servers := by
  induction ids generalizing n db with
  | nil => rfl
  | cons id ids ih =>
    unfold deleteConfigurations
    rw [ih]
    cases fails n <;> rfl

theorem deleteConfigurations_plugins (fails : Nat → Bool) (n : Nat) (ids : List Nat)
    (db : Database) : (deleteConfigurations fails n ids db).plugins = db.plugins := by
  induction ids generalizing n db with
  | nil => rfl
  | cons id ids ih =>
    unfold deleteConfigurations
    rw [ih]
    cases fails n <;> rfl

theorem deleteConfigurations_entries (fails : Nat → Bool) (n : Nat) (ids : List Nat)
    (db : Database) :
    (deleteConfigurations fails n ids db).entries.rows.Sublist db.entries.rows := by
  induction ids generalizing n db with
  | nil => exact List.Sublist.refl _
  | cons id ids ih =>
    unfold deleteConfigurations
    refine (ih _ _).trans ?_
    cases fails n with
    | true => exact List.Sublist.refl _
    | false => exact List.filter_sublist

/-- The servers that `deleteServer` finds. -/
def foundIds (sql : Sqlite) (fails : Nat → Bool) (db : Database) (name : String) : List Nat :=
  if fails 0 then [] else db.selectServers sql (nameClause name)

/-- The rows of `servers` that `deleteServer` takes away. -/
def takes (sql : Sqlite) (fails : Nat → Bool) (db : Database) (name : String) :
    Nat × ServerRow → Bool :=
  let ids := foundIds sql fails db name
  match sql.whereServers (nameClause name) with
  | some p => if fails (ids.length + 1) then fun _ => false else p (deleteConfigurations fails 1 ids db)
  | none => fun _ => false

theorem deleteServer_eq (sql : Sqlite) (fails : Nat → Bool) (db : Database) (name : String) :
    deleteServer sql fails db name =
      { deleteConfigurations fails 1 (foundIds sql fails db name) db with
        servers := db.servers.deleteWhere (takes sql fails db name) } := by
  have servers := deleteConfigurations_servers fails 1 (foundIds sql fails db name) db
  have kept : deleteConfigurations fails 1 (foundIds sql fails db name) db =
      { deleteConfigurations fails 1 (foundIds sql fails db name) db with
        servers := db.servers.deleteWhere fun _ => false } := by
    rw [Table.deleteWhere_none, ← servers]
  have same : deleteServer sql fails db name =
      if fails ((foundIds sql fails db name).length + 1) then
        deleteConfigurations fails 1 (foundIds sql fails db name) db
      else match sql.whereServers (nameClause name) with
        | some p =>
          { deleteConfigurations fails 1 (foundIds sql fails db name) db with
            servers :=
              (deleteConfigurations fails 1 (foundIds sql fails db name) db).servers.deleteWhere
                (p (deleteConfigurations fails 1 (foundIds sql fails db name) db)) }
        | none => deleteConfigurations fails 1 (foundIds sql fails db name) db := rfl
  rw [same]
  cases read : sql.whereServers (nameClause name) with
  | none => simpa [takes, read] using kept
  | some p =>
    cases failed : fails ((foundIds sql fails db name).length + 1) with
    | true => simpa [takes, read, failed] using kept
    | false => simp [takes, read, failed, servers]

end Persistor

end Morgoth
