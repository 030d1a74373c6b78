import Morgoth.Mirror

/-!
# What a slot writes

`deleteServer`, `storeConfigurationEntry` and `storePluginState` each have one
server, one key or one plugin as their subject. The names come from clients and
are pasted into the statements, where a quote ends the literal.

* `deleteServer_confined`, `storeConfigurationEntry_confined`,
  `storePluginState_confined`: which rows each of them writes;
* `deletesOwn_of_keeps`, `insertsOwn_of_keeps`, `newPlugins_of_keeps`: which texts
  keep them to their subject;
* `confined_iff`: all other rows are as they were.
-/

namespace Morgoth

namespace Database

/-- The id of a row of that name. -/
def Owns (db : Database) (name : String) (id : Nat) : Prop :=
  ∃ row ∈ db.servers.rows, row.1 = id ∧ row.2.name = name

/-- All other rows of the three tables are as before. -/
structure Confined (server : Nat × ServerRow → Prop) (entry : Nat × Entry → Prop)
    (plugin : Nat × PluginRow → Prop) (db u : Database) : Prop where
  servers : Table.SameBut server db.servers u.servers
  entries : Table.SameBut entry db.entries u.entries
  plugins : Table.SameBut plugin db.plugins u.plugins

/-- A configuration row of the server. -/
def EntryOf (db : Database) (name : String) (e : Entry) : Prop :=
  ∃ id, e.serverid = some id ∧ db.Owns name id

theorem idOf_owned {db : Database} {name : String} {id : Nat} (found : db.idOf name = some id) :
    db.Owns name id := by
  obtain ⟨row, hr, rfl⟩ := Option.map_eq_some_iff.mp found
  have named := List.find?_some hr
  exact ⟨row, List.mem_of_find?_eq_some hr, rfl, beq_iff_eq.mp named⟩

theorem idOf_isSome (db : Database) (name : String) : (db.idOf name).isSome ↔ name ∈ db.names := by
  unfold idOf names
  rw [Option.isSome_map, List.find?_isSome, List.mem_map]
  simp only [beq_iff_eq]

end Database

namespace Persistor

variable (sql : Sqlite) (fails : Nat → Bool) (db : Database)

/-! ## deleteServer -/

/-- The rows that `deleteServer` takes away are of that name, and so are the
servers whose configuration it deletes, where they have one. -/
def DeletesOwn (name : String) : Prop :=
  (∀ row ∈ db.servers.rows, takes sql fails db name row = true → row.2.name = name) ∧
  ∀ i id, (foundIds sql fails db name)[i]? = some id → fails (i + 1) = false →
    ∀ e ∈ db.entries.rows, e.2.serverid = some id → db.Owns name id

/-- An entry goes if one of the deletions that succeed is for its server. -/
theorem deleteConfigurations_gone (n : Nat) (ids : List Nat) {e : Nat × Entry}
    (there : e ∈ db.entries.rows) :
    e ∉ (deleteConfigurations fails n ids db).entries.rows ↔
      ∃ i id, ids[i]? = some id ∧ fails (n + i) = false ∧ e.2.serverid = some id := by
  induction ids generalizing n db with
  | nil => simpa [deleteConfigurations] using there
  | cons id ids ih =>
    have split (gone : Nat → Prop) :
        (∃ i x, (id :: ids)[i]? = some x ∧ fails (n + i) = false ∧ gone x) ↔
          (fails n = false ∧ gone id) ∨
            ∃ i x, ids[i]? = some x ∧ fails (n + 1 + i) = false ∧ gone x := by
      constructor
      · rintro ⟨i, x, at_i, succeeds, hx⟩
        cases i with
        | zero =>
          obtain rfl := Option.some.inj at_i
          exact Or.inl ⟨succeeds, hx⟩
        | succ i =>
          refine Or.inr ⟨i, x, at_i, ?_, hx⟩
          rwa [Nat.add_assoc, Nat.add_comm 1 i]
      · rintro (⟨succeeds, hx⟩ | ⟨i, x, at_i, succeeds, hx⟩)
        · exact ⟨0, id, rfl, succeeds, hx⟩
        · refine ⟨i + 1, x, at_i, ?_, hx⟩
          rwa [Nat.add_assoc, Nat.add_comm 1 i] at succeeds
    unfold deleteConfigurations
    rw [split fun x => e.2.serverid = some x]
    cases failed : fails n with
    | true => simpa using ih db (n + 1) there
    | false =>
      by_cases here : e.2.serverid = some id
      · apply iff_of_true
        · intro kept
          have old := (deleteConfigurations_entries fails (n + 1) ids _).subset kept
          simp [Database.deleteEntries, here] at old
        · exact Or.inl ⟨rfl, here⟩
      · have kept : e ∈ (db.deleteEntries id).entries.rows := by
          simp [Database.deleteEntries, there, here]
        simpa [here] using ih (db.deleteEntries id) (n + 1) kept

theorem deleteServer_confined (name : String) :
    Database.Confined (fun row => row.2.name = name) (fun e => db.EntryOf name e.2)
        (fun _ => False) db (deleteServer sql fails db name) ↔
      DeletesOwn sql fails db name := by
  have servers := Table.sameBut_deleteWhere (fun row => row.2.name = name) db.servers
    (takes sql fails db name)
  have entries := Table.sameBut_of_sublist (fun e => db.EntryOf name e.2)
    (deleteConfigurations_entries fails 1 (foundIds sql fails db name) db)
  have plugins := deleteConfigurations_plugins fails 1 (foundIds sql fails db name) db
  have gone {e : Nat × Entry} (there : e ∈ db.entries.rows) :=
    deleteConfigurations_gone fails db 1 (foundIds sql fails db name) there
  rw [deleteServer_eq]
  constructor
  · intro confined
    refine ⟨servers.mp confined.servers, fun i id found succeeds e there here => ?_⟩
    rw [Nat.add_comm] at succeeds
    obtain ⟨id', here', owned⟩ :=
      entries.mp confined.entries e there ((gone there).mpr ⟨i, id, found, succeeds, here⟩)
    obtain rfl := Option.some.inj (here.symm.trans here')
    exact owned
  · rintro ⟨rows, configurations⟩
    refine ⟨servers.mpr rows, entries.mpr fun e there missing => ?_, ?_⟩
    · obtain ⟨i, id, found, succeeds, here⟩ := (gone there).mp missing
      rw [Nat.add_comm] at succeeds
      exact ⟨id, here, configurations i id found succeeds e there here⟩
    · simp only [plugins]
      exact Table.SameBut.rfl

/-- The name holds no quote, or it makes no statement that SQLite can read, or the
statements fail. -/
def KeepsToServer (name : String) : Prop :=
  Literal name ∨ sql.whereServers (nameClause name) = none ∨ ∀ n, fails n = true

variable {sql fails db} in
theorem foundIds_own {name : String} (keeps : KeepsToServer sql fails name) {id : Nat}
    (found : id ∈ foundIds sql fails db name) : db.Owns name id := by
  unfold foundIds Database.selectServers at found
  split at found
  · cases found
  · next succeeds =>
    rcases keeps with plain | unread | failing
    · rw [sql.whereServers_literal name plain] at found
      obtain ⟨row, hr, rfl⟩ := List.mem_map.mp found
      obtain ⟨listed, named⟩ := List.mem_filter.mp hr
      exact ⟨row, listed, rfl, beq_iff_eq.mp named⟩
    · rw [unread] at found
      cases found
    · exact absurd (failing 0) succeeds

variable {sql fails db} in
theorem takes_own {name : String} (keeps : KeepsToServer sql fails name) {row : Nat × ServerRow}
    (taken : takes sql fails db name row = true) : row.2.name = name := by
  unfold takes at taken
  rcases keeps with plain | unread | failing
  · rw [sql.whereServers_literal name plain] at taken
    dsimp only at taken
    split at taken
    · cases taken
    · exact beq_iff_eq.mp taken
  · rw [unread] at taken
    cases taken
  · cases read : sql.whereServers (nameClause name) <;> simp [read, failing] at taken

/-- Such a name is the only one that `deleteServer` reaches. -/
theorem deletesOwn_of_keeps {name : String} (keeps : KeepsToServer sql fails name) :
    DeletesOwn sql fails db name :=
  ⟨fun _ _ taken => takes_own keeps taken,
    fun _ _ found _ _ _ _ => foundIds_own keeps (List.mem_of_getElem? found)⟩

/-! ## storeConfigurationEntry -/

/-- The entries that SQLite reads in the text are of that server and key. -/
def InsertsOwn (name key value : String) : Prop :=
  ∀ e ∈ (newEntries sql fails db name key value).map sql.stored,
    db.EntryOf name e ∧ e.key = key

theorem storeConfigurationEntry_confined (name key value : String) :
    Database.Confined (fun _ => False) (fun e => db.EntryOf name e.2 ∧ e.2.key = key)
        (fun _ => False) db (storeConfigurationEntry sql fails db name key value) ↔
      InsertsOwn sql fails db name key value := by
  rw [storeConfigurationEntry_eq]
  have entries := Table.sameBut_insertAll (fun e => db.EntryOf name e ∧ e.key = key)
    db.entries ((newEntries sql fails db name key value).map sql.stored)
  constructor
  · exact fun confined => entries.mp confined.entries
  · exact fun own => ⟨Table.SameBut.rfl, entries.mpr own, Table.SameBut.rfl⟩

/-- An entry in texts without a quote goes to its server, where that has a row,
and to its key, where that is not a number that is written in another way. -/
theorem insertsOwn_plain {name key value : String} (hn : Literal name) (hk : Literal key)
    (hv : Literal value) :
    InsertsOwn sql fails db name key value ↔
      (fails 0 = false → fails 1 = false → name ∈ db.names ∧ sql.numeric key = key) := by
  unfold InsertsOwn
  rw [newEntries_literal sql fails db hn hk hv]
  cases fails 0 with
  | true => simp
  | false =>
    cases fails 1 with
    | true => simp
    | false =>
      have single : (∀ e ∈ [(⟨db.idOf name, key, value⟩ : Entry)].map sql.stored,
          db.EntryOf name e ∧ e.key = key) ↔ name ∈ db.names ∧ sql.numeric key = key := by
        rw [List.map_singleton, List.forall_mem_singleton, ← db.idOf_isSome]
        refine and_congr ?_ Iff.rfl
        constructor
        · rintro ⟨id, here, -⟩
          rw [show db.idOf name = some id from here]
          rfl
        · intro found
          obtain ⟨id, here⟩ := Option.isSome_iff_exists.mp found
          exact ⟨id, here, Database.idOf_owned here⟩
      simpa using single

/-- A statement of the slot cannot be read, or fails. -/
def StoresNothing (name key value : String) : Prop :=
  sql.whereEntries (entryClause name key) = none ∨
    sql.valuesEntries (entryValues name key value) = none ∨ fails 0 = true ∨ fails 1 = true

/-- The texts hold no quote, the server has a row, and the key is no number that is
written in another way; or nothing is stored. -/
def KeepsToEntry (name key value : String) : Prop :=
  StoresNothing sql fails name key value ∨
    (Literal name ∧ Literal key ∧ Literal value) ∧ name ∈ db.names ∧ sql.numeric key = key

theorem newEntries_nothing {name key value : String}
    (nothing : StoresNothing sql fails name key value) :
    newEntries sql fails db name key value = [] := by
  unfold newEntries
  rcases nothing with unread | unread | failed | failed
  · simp [unread]
  · cases sql.whereEntries (entryClause name key) <;> simp [unread]
  all_goals
    cases sql.whereEntries (entryClause name key) <;>
      cases sql.valuesEntries (entryValues name key value) <;> simp [failed]

theorem insertsOwn_of_keeps {name key value : String}
    (keeps : KeepsToEntry sql fails db name key value) : InsertsOwn sql fails db name key value := by
  rcases keeps with nothing | ⟨⟨hn, hk, hv⟩, row, canonical⟩
  · unfold InsertsOwn
    rw [newEntries_nothing sql fails db nothing]
    simp
  · exact (insertsOwn_plain sql fails db hn hk hv).mpr fun _ _ => ⟨row, canonical⟩

theorem keeps_of_insertsOwn {name key value : String} (hn : Literal name) (hk : Literal key)
    (hv : Literal value) (own : InsertsOwn sql fails db name key value) :
    KeepsToEntry sql fails db name key value := by
  have known := (insertsOwn_plain sql fails db hn hk hv).mp own
  cases first : fails 0 with
  | true => exact .inl (.inr (.inr (.inl first)))
  | false =>
    cases second : fails 1 with
    | true => exact .inl (.inr (.inr (.inr second)))
    | false => exact .inr ⟨⟨hn, hk, hv⟩, known first second⟩

/-! ## storePluginState -/

/-- The rows that SQLite reads in the REPLACE of `storePluginState`. -/
def newPlugins (pluginName : String) (enabled : Bool) : List PluginRow :=
  if fails 0 then []
  else match sql.valuesPlugins (pluginValues pluginName (if enabled then "1" else "0")) with
    | some rows => rows db
    | none => []

theorem storePluginState_eq (pluginName : String) (enabled : Bool) :
    storePluginState sql fails db pluginName enabled =
      { db with
        plugins := (newPlugins sql fails db pluginName enabled).foldl
          (Table.replace PluginRow.name) db.plugins } := by
  have replaced (rows : List PluginRow) (db : Database) : rows.foldl Database.replacePlugin db =
      { db with plugins := rows.foldl (Table.replace PluginRow.name) db.plugins } := by
    induction rows generalizing db with
    | nil => rfl
    | cons row rows ih => exact ih (db.replacePlugin row)
  unfold storePluginState newPlugins
  cases fails 0 with
  | true => rfl
  | false =>
    cases sql.valuesPlugins (pluginValues pluginName (if enabled then "1" else "0")) with
    | none => rfl
    | some rows => exact replaced (rows db) db

theorem storePluginState_confined (pluginName : String) (enabled : Bool) :
    Database.Confined (fun _ => False) (fun _ => False) (fun row => row.2.name = pluginName) db
        (storePluginState sql fails db pluginName enabled) ↔
      ∀ row ∈ newPlugins sql fails db pluginName enabled, row.name = pluginName := by
  have plugins := Table.sameBut_replaceAll PluginRow.name pluginName db.plugins
    (newPlugins sql fails db pluginName enabled)
  rw [storePluginState_eq]
  constructor
  · exact fun confined => plugins.mp confined.plugins
  · exact fun own => ⟨Table.SameBut.rfl, Table.SameBut.rfl, plugins.mpr own⟩

theorem newPlugins_plain {pluginName : String} (plain : Literal pluginName) (enabled : Bool) :
    ∀ row ∈ newPlugins sql fails db pluginName enabled, row.name = pluginName := by
  have digit : Literal (if enabled then "1" else "0") := by cases enabled <;> decide
  unfold newPlugins
  rw [sql.valuesPlugins_literal pluginName _ plain digit]
  cases fails 0 <;> simp

/-- The name holds no quote, or the statement cannot be read, or fails. -/
def KeepsToPlugin (pluginName : String) (enabled : Bool) : Prop :=
  Literal pluginName ∨ fails 0 = true ∨
    sql.valuesPlugins (pluginValues pluginName (if enabled then "1" else "0")) = none

theorem newPlugins_of_keeps {pluginName : String} {enabled : Bool}
    (keeps : KeepsToPlugin sql fails pluginName enabled) :
    ∀ row ∈ newPlugins sql fails db pluginName enabled, row.name = pluginName := by
  rcases keeps with plain | failed | unread
  · exact newPlugins_plain sql fails db plain enabled
  · simp [newPlugins, failed]
  · simp [newPlugins, unread]

/-! ## All three -/

/-- Each of the three slots writes to its subject only where its texts keep to it. For a
configuration entry in texts without a quote this is the exact condition; the other
two slots always meet theirs with such a text. -/
theorem confined_iff (sql : Sqlite) (fails : Nat → Bool) (db : Database) :
    (∀ name, KeepsToServer sql fails name →
      Database.Confined (fun row => row.2.name = name) (fun e => db.EntryOf name e.2)
        (fun _ => False) db (deleteServer sql fails db name)) ∧
    (∀ name key value, KeepsToEntry sql fails db name key value →
      Database.Confined (fun _ => False) (fun e => db.EntryOf name e.2 ∧ e.2.key = key)
        (fun _ => False) db (storeConfigurationEntry sql fails db name key value)) ∧
    (∀ name key value, Literal name → Literal key → Literal value →
      Database.Confined (fun _ => False) (fun e => db.EntryOf name e.2 ∧ e.2.key = key)
        (fun _ => False) db (storeConfigurationEntry sql fails db name key value) →
      KeepsToEntry sql fails db name key value) ∧
    ∀ pluginName enabled, KeepsToPlugin sql fails pluginName enabled →
      Database.Confined (fun _ => False) (fun _ => False) (fun row => row.2.name = pluginName) db
        (storePluginState sql fails db pluginName enabled) := by
  refine ⟨?_, ?_, ?_, ?_⟩
  · intro name keeps
    exact (deleteServer_confined sql fails db name).mpr (deletesOwn_of_keeps sql fails db keeps)
  · intro name key value keeps
    exact (storeConfigurationEntry_confined sql fails db name key value).mpr
      (insertsOwn_of_keeps sql fails db keeps)
  · intro name key value hn hk hv confined
    exact keeps_of_insertsOwn sql fails db hn hk hv
      ((storeConfigurationEntry_confined sql fails db name key value).mp confined)
  · intro pluginName enabled keeps
    exact (storePluginState_confined sql fails db pluginName enabled).mpr
      (newPlugins_of_keeps sql fails db keeps)

/-- Two servers, the second with a name that is a condition. -/
def guests : Database :=
  (({} : Database).insertServer ⟨"/srv/tf2", "tf2"⟩).insertServer ⟨"/srv/x", "x' OR '1'='1"⟩

/-- The deletion of the first one, and a password for it. -/
theorem confined_iff_first :
    Database.Confined (fun row => row.2.name = "tf2") (fun e => guests.EntryOf "tf2" e.2)
        (fun _ => False) guests (deleteServer .plain (fun _ => false) guests "tf2") ∧
      Database.Confined (fun _ => False) (fun e => guests.EntryOf "tf2" e.2 ∧ e.2.key = "password")
        (fun _ => False) guests
        (storeConfigurationEntry .plain (fun _ => false) guests "tf2" "password" "secret") := by
  obtain ⟨deletes, stores, -⟩ := confined_iff .plain (fun _ => false) guests
  constructor
  · exact deletes "tf2" (.inl (by decide))
  · exact stores "tf2" "password" "secret" (.inr ⟨by decide, List.mem_cons_self, rfl⟩)

/-- The deletion of the second one takes both rows. -/
theorem condition_deletes_all :
    (deleteServer .plain (fun _ => false) guests "x' OR '1'='1").servers.rows = [] ∧
    ¬ Database.Confined (fun row => row.2.name = "x' OR '1'='1")
        (fun e => guests.EntryOf "x' OR '1'='1" e.2) (fun _ => False) guests
        (deleteServer .plain (fun _ => false) guests "x' OR '1'='1") := by
  refine ⟨rfl, fun confined => ?_⟩
  have other : ((1, ⟨"/srv/tf2", "tf2"⟩) : Nat × ServerRow).2.name ≠ "x' OR '1'='1" := by decide
  have kept := (confined.servers (1, ⟨"/srv/tf2", "tf2"⟩) other).mpr List.mem_cons_self
  cases kept

end Persistor

end Morgoth
