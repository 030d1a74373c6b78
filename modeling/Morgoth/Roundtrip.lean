import Morgoth.Confinement

/-!
# The values of a configuration and their table

A changed value goes into the table as one more row, and a start takes the rows
of a server in their order, the last one for each key. The columns have NUMERIC
affinity, and name, key and value are pasted into the statement.

* `withServer_older`, `deleteServer_other`, `changed_valueOf`: what the slots do
  to the values of a row;
* `step_holds`: what a turn does to the rows of the stored servers;
* `remembers_iff`: in which runs a restart brings all values back.
-/

namespace Morgoth

theorem Table.ids_nodup {α : Type} (t : Table α) : (t.rows.map Prod.fst).Nodup := by
  rw [List.Nodup, List.pairwise_map]
  exact t.sorted.imp Nat.ne_of_lt

namespace Database

/-- What the entries make of the values of a server. -/
def amend (id : Nat) (entries : List Entry) (value : String → String) : String → String :=
  (entries.filter fun e => e.serverid == some id).foldl
    (fun value e => Function.update value e.key e.value) value

theorem amend_append (id : Nat) (as bs : List Entry) (value : String → String) :
    amend id (as ++ bs) value = amend id bs (amend id as value) := by
  unfold amend
  rw [List.filter_append, List.foldl_append]

theorem amend_own (id : Nat) (key value : String) (held : String → String) :
    amend id [⟨some id, key, value⟩] held = Function.update held key value := by
  simp [amend]

theorem amend_foreign {id : Nat} {entries : List Entry}
    (foreign : ∀ e ∈ entries, e.serverid ≠ some id) (held : String → String) :
    amend id entries held = held := by
  unfold amend
  rw [List.filter_eq_nil_iff.mpr]
  · rfl
  · intro e he
    simpa using foreign e he

theorem valueOf_amend (db : Database) (id : Nat) :
    db.valueOf id = amend id (db.entries.rows.map Prod.snd) ServerConfiguration.default.value := by
  unfold valueOf entriesOf amend
  rw [List.filter_map, List.foldl_map]
  rfl

theorem valueOf_insertEntries (sql : Sqlite) (db : Database) (entries : List Entry) (id : Nat) :
    (db.insertEntries sql entries).valueOf id =
      amend id (entries.map sql.stored) (db.valueOf id) := by
  rw [valueOf_amend, valueOf_amend, ← amend_append, ← Table.insertAll_contents]
  rfl

/-- With distinct names, the row of a name is the one that a statement finds. -/
theorem idOf_row {db : Database} (distinct : db.names.Nodup) {row : Nat × ServerRow}
    (there : row ∈ db.servers.rows) : db.idOf row.2.name = some row.1 := by
  unfold idOf
  cases found : db.servers.rows.find? fun other => other.2.name == row.2.name with
  | none => exact absurd (List.find?_eq_none.mp found row there) (by simp)
  | some other =>
    have here := List.find?_some found
    have named : other.2.name = row.2.name := beq_iff_eq.mp here
    obtain rfl := List.inj_on_of_nodup_map distinct (List.mem_of_find?_eq_some found) there named
    rfl

/-- No entry waits for a server that is still to be added. -/
def Owned (db : Database) : Prop :=
  ∀ row ∈ db.entries.rows, ∀ id, row.2.serverid = some id → id < db.servers.next

variable {sql : Sqlite} {db u : Database}

theorem valueOf_congr {id : Nat} (entries : u.entriesOf id = db.entriesOf id) :
    u.valueOf id = db.valueOf id := by
  unfold valueOf
  rw [entries]

theorem idOf_iff (distinct : db.names.Nodup) {row : Nat × ServerRow}
    (there : row ∈ db.servers.rows) (name : String) :
    db.idOf name = some row.1 ↔ row.2.name = name := by
  constructor
  · intro found
    obtain ⟨other, listed, id, named⟩ := idOf_owned found
    obtain rfl := List.inj_on_of_nodup_map db.servers.ids_nodup listed there id
    exact named
  · rintro rfl
    exact idOf_row distinct there

/-- An entry goes to the row of its name. -/
theorem insertEntries_valueOf (distinct : db.names.Nodup) (name key value : String)
    {row : Nat × ServerRow} (there : row ∈ db.servers.rows) :
    (db.insertEntries sql [⟨db.idOf name, key, value⟩]).valueOf row.1 =
      if row.2.name = name then
        Function.update (db.valueOf row.1) (sql.numeric key) (sql.numeric value)
      else db.valueOf row.1 := by
  rw [valueOf_insertEntries, List.map_singleton, Sqlite.stored]
  by_cases own : row.2.name = name
  · rw [if_pos own, (idOf_iff distinct there name).mpr own, amend_own]
  · have foreign : db.idOf name ≠ some row.1 := fun found =>
      own ((idOf_iff distinct there name).mp found)
    rw [if_neg own, amend_foreign (by simpa using foreign)]

theorem insertEntries_owned (owned : db.Owned) (name key value : String) :
    (db.insertEntries sql [⟨db.idOf name, key, value⟩]).Owned := by
  intro row there id named
  rcases Table.mem_insertAll there with old | ⟨-, new⟩
  · exact owned row old id named
  · have stored : row.2 = sql.stored ⟨db.idOf name, key, value⟩ := by simpa using new
    rw [stored] at named
    obtain ⟨other, listed, rfl, -⟩ := idOf_owned (named : db.idOf name = some id)
    exact db.servers.below other listed

end Database

namespace Persistor

variable {env : Environment} {sql : Sqlite} {fails : Nat → Bool} {db : Database}

/-! ## What the slots do to the values -/

theorem withServer_owned (owned : db.Owned) (s : Server) : (withServer env sql db s).Owned := by
  intro row there id named
  rcases Table.mem_insertAll there with old | ⟨-, new⟩
  · exact Nat.lt_succ_of_lt (owned row old id named)
  · obtain ⟨e, listed, stored⟩ := List.mem_map.mp new
    obtain ⟨kv, -, rfl⟩ := List.mem_map.mp listed
    rw [← stored] at named
    obtain rfl := Option.some.inj named
    exact Nat.lt_succ_self _

/-- A new server has entries of its own. -/
theorem withServer_older (env : Environment) (sql : Sqlite) (db : Database) (s : Server) {id : Nat}
    (older : id < db.servers.next) : (withServer env sql db s).valueOf id = db.valueOf id := by
  unfold withServer
  rw [Database.valueOf_insertEntries]
  apply Database.amend_foreign
  simp only [List.map_map, List.mem_map, Function.comp_apply, Sqlite.stored]
  rintro e ⟨kv, -, rfl⟩ own
  exact absurd (Option.some.inj own) (Nat.ne_of_gt older)

theorem deleteServer_owned (owned : db.Owned) (name : String) :
    (deleteServer sql fails db name).Owned := by
  rw [deleteServer_eq]
  intro row there id named
  exact owned row ((deleteConfigurations_entries fails 1 _ db).subset there) id named

theorem deleteConfigurations_other (n : Nat) {ids : List Nat} {id : Nat} (other : id ∉ ids)
    (db : Database) : (deleteConfigurations fails n ids db).entriesOf id = db.entriesOf id := by
  induction ids generalizing n db with
  | nil => rfl
  | cons first ids ih =>
    obtain ⟨apart, other⟩ := not_or.mp (mt List.mem_cons.mpr other)
    unfold deleteConfigurations
    rw [ih (n + 1) other]
    cases fails n with
    | true => rfl
    | false =>
      unfold Database.deleteEntries Database.entriesOf
      rw [if_neg Bool.false_ne_true, Table.deleteWhere_rows, List.filter_filter]
      apply List.filter_congr
      intro row _
      by_cases own : row.2.serverid = some id <;> simp [own, apart]

/-- A deletion leaves the servers of other names as they were. -/
theorem deleteServer_other {name : String} (keeps : KeepsToServer sql fails name)
    {row : Nat × ServerRow} (there : row ∈ db.servers.rows) (other : row.2.name ≠ name) :
    row ∈ (deleteServer sql fails db name).servers.rows ∧
      (deleteServer sql fails db name).valueOf row.1 = db.valueOf row.1 := by
  rw [deleteServer_eq]
  constructor
  · refine List.mem_filter.mpr ⟨there, ?_⟩
    cases taken : takes sql fails db name row with
    | false => rfl
    | true => exact absurd (takes_own keeps taken) other
  · refine Database.valueOf_congr (deleteConfigurations_other 1 ?_ db)
    intro found
    obtain ⟨mine, listed, same, named⟩ := foundIds_own keeps found
    obtain rfl := List.inj_on_of_nodup_map db.servers.ids_nodup listed there same
    exact other named

/-- What a change in texts without a quote makes of the values of a row. -/
theorem changed_valueOf (fails : Nat → Bool) (distinct : db.names.Nodup) {name key value : String}
    (hn : Literal name) (hk : Literal key) (hv : Literal value) {row : Nat × ServerRow}
    (there : row ∈ db.servers.rows) :
    (db.insertEntries sql (newEntries sql fails db name key value)).valueOf row.1 =
      if row.2.name = name ∧ fails 0 = false ∧ fails 1 = false then
        Function.update (db.valueOf row.1) (sql.numeric key) (sql.numeric value)
      else db.valueOf row.1 := by
  rw [newEntries_literal sql fails db hn hk hv]
  by_cases failed : (fails 0 || fails 1) = true
  · have unmet : ¬(row.2.name = name ∧ fails 0 = false ∧ fails 1 = false) := by
      rintro ⟨-, first, second⟩
      rw [first, second] at failed
      cases failed
    rw [if_pos failed, if_neg unmet]
    rfl
  · have succeed := Bool.or_eq_false_iff.mp (Bool.not_eq_true _ ▸ failed)
    rw [if_neg failed, Database.insertEntries_valueOf distinct name key value there]
    simp only [succeed, and_true]

/-- What `storeServer` finds in the configuration of a new server. -/
def defaults : List (String × String) :=
  [("org.morgoth.Server.launchArguments", "-port 27015 -secured +map cp_badlands"),
    ("org.morgoth.Server.logDirectory", "logs")]

theorem create_keyValues (h : Host) (path : QUrl) (name : String) :
    (Server.create h path name).keyValues = defaults := rfl

/-- No affinity touches them. -/
theorem defaults_stored (sql : Sqlite) (id : Nat) :
    (defaults.map fun kv => (⟨some id, kv.1, kv.2⟩ : Entry)).map sql.stored =
      defaults.map fun kv => ⟨some id, kv.1, kv.2⟩ := by
  rw [List.map_map]
  apply List.map_congr_left
  intro kv hkv
  have words : ∀ kv ∈ defaults, 'o' ∈ kv.1.toList ∧ 'o' ∈ kv.2.toList := by decide
  have kept {s : String} (letter : 'o' ∈ s.toList) : sql.numeric s = s :=
    sql.numeric_word s ⟨'o', letter, by decide⟩
  obtain ⟨key, value⟩ := words kv hkv
  simp only [Function.comp_apply, Sqlite.stored, kept key, kept value]

theorem defaults_amend (id : Nat) :
    Database.amend id (defaults.map fun kv => ⟨some id, kv.1, kv.2⟩)
      ServerConfiguration.default.value = ServerConfiguration.default.value := by
  have same : ∀ kv ∈ defaults, ServerConfiguration.default.value kv.1 = kv.2 := by decide
  have all (kvs : List (String × String))
      (same : ∀ kv ∈ kvs, ServerConfiguration.default.value kv.1 = kv.2) :
      Database.amend id (kvs.map fun kv => ⟨some id, kv.1, kv.2⟩)
        ServerConfiguration.default.value = ServerConfiguration.default.value := by
    induction kvs with
    | nil => rfl
    | cons kv kvs ih =>
      have rest := ih fun kv hkv => same kv (List.mem_cons_of_mem _ hkv)
      rw [List.map_cons, ← List.singleton_append, Database.amend_append, Database.amend_own,
        ← same kv List.mem_cons_self, Function.update_eq_self]
      exact rest
  exact all defaults same

/-- The entries of a new server read back as they are. -/
theorem withServer_valueOf (sql : Sqlite) {db : Database} {s : Server} (h : Host) (path : QUrl)
    (name : String) (made : Server.create h path name = s)
    (unused : ∀ row ∈ db.entries.rows, row.2.serverid ≠ some db.servers.next) :
    (withServer env sql db s).valueOf db.servers.next = s.record.value := by
  subst made
  have none_yet : db.valueOf db.servers.next = ServerConfiguration.default.value := by
    rw [Database.valueOf_amend]
    apply Database.amend_foreign
    intro e he
    obtain ⟨row, hr, rfl⟩ := List.mem_map.mp he
    exact unused row hr
  unfold withServer
  rw [Database.valueOf_insertEntries, create_keyValues, defaults_stored,
    show (db.insertServer _).valueOf db.servers.next = db.valueOf db.servers.next from rfl, none_yet,
    defaults_amend]
  rfl

end Persistor

namespace Daemon

open Persistor (init newEntries KeepsToServer)

variable {env : Environment} {sql : Sqlite} {d u : Daemon} {server : ServerId}

/-- A restart brings the server back with the values that it has. -/
def Remembers (env : Environment) (sql : Sqlite) (server : ServerId) (d : Daemon) : Prop :=
  ∃ m connected s t restored, init env sql d.db = some (m, connected) ∧
    d.manager.heap server = some s ∧ t ∈ m.servers ∧ m.heap t = some restored ∧
    restored.name = s.name ∧ restored.record.value = s.record.value

/-- The daemon starts again, and all its stored servers have their values then. -/
def RemembersAll (env : Environment) (sql : Sqlite) (d : Daemon) : Prop :=
  d.Starts env sql ∧
    ∀ server ∈ d.manager.servers, server ∈ d.connected → d.Remembers env sql server

/-- A row of the server's name holds its values. -/
def RowHolds (d : Daemon) (server : ServerId) : Prop :=
  ∃ s row, d.manager.heap server = some s ∧ row ∈ d.db.servers.rows ∧
    row.2.name = s.name ∧ d.db.valueOf row.1 = s.record.value

theorem remembers_iff_row :
    d.Remembers env sql server ↔ d.db.names.Nodup ∧ d.RowHolds server := by
  constructor
  · rintro ⟨m, connected, s, t, restored, start, there, listed, made, name, value⟩
    obtain ⟨distinct, -, -, records⟩ := Persistor.init_made start
    refine ⟨distinct, s, ?_⟩
    have mem : some restored.record ∈ m.records :=
      List.mem_map.mpr ⟨t, listed, by rw [made]; rfl⟩
    rw [records] at mem
    obtain ⟨record, hr, same⟩ := List.mem_map.mp mem
    obtain ⟨⟨row, i⟩, numbered, rfl⟩ := List.mem_map.mp hr
    have same := Option.some.inj same
    refine ⟨row, there, List.fst_mem_of_mem_zipIdx numbered, ?_, ?_⟩
    · exact (congrArg Record.name same).trans name
    · exact (congrArg Record.value same).trans value
  · rintro ⟨distinct, s, row, there, listed, name, value⟩
    obtain ⟨m, start, -, records⟩ := Persistor.init_some env sql distinct
    obtain ⟨i, hi⟩ := List.mem_iff_getElem?.mp listed
    have mem : some (d.db.record env sql i row) ∈ m.records := by
      rw [records]
      apply List.mem_map_of_mem
      exact List.mem_map.mpr ⟨(row, i), List.mk_mem_zipIdx_iff_getElem?.mpr hi, rfl⟩
    obtain ⟨t, ht, made⟩ := List.mem_map.mp mem
    obtain ⟨restored, found, same⟩ := Option.map_eq_some_iff.mp made
    refine ⟨m, m.servers, s, t, restored, start, there, ht, found, ?_, ?_⟩
    · exact (congrArg Record.name same).trans name
    · exact (congrArg Record.value same).trans value

/-- With distinct names it is the row of that name. -/
theorem rowHolds_iff (distinct : d.db.names.Nodup) {s : Server}
    (there : d.manager.heap server = some s) {row : Nat × ServerRow}
    (listed : row ∈ d.db.servers.rows) (named : row.2.name = s.name) :
    d.RowHolds server ↔ d.db.valueOf row.1 = s.record.value := by
  constructor
  · rintro ⟨s', row', there', listed', named', value⟩
    obtain rfl := Option.some.inj (there.symm.trans there')
    obtain rfl := List.inj_on_of_nodup_map distinct listed listed' (named.trans named'.symm)
    exact value
  · exact fun value => ⟨s, row, there, listed, named, value⟩

/-- A row that is still there, and has the values of a server that has kept its own. -/
theorem RowHolds.keep (holds : d.RowHolds server)
    (heap : ∀ s, d.manager.heap server = some s →
      ∃ s', u.manager.heap server = some s' ∧ s'.record = s.record)
    (rows : ∀ s, d.manager.heap server = some s → ∀ row ∈ d.db.servers.rows, row.2.name = s.name →
      row ∈ u.db.servers.rows ∧ u.db.valueOf row.1 = d.db.valueOf row.1) : u.RowHolds server := by
  obtain ⟨s, row, there, listed, named, value⟩ := holds
  obtain ⟨s', there', same⟩ := heap s there
  obtain ⟨listed', value'⟩ := rows s there row listed named
  refine ⟨s', row, there', listed', ?_, ?_⟩
  · exact named.trans (congrArg Record.name same).symm
  · rw [value', value, same]

theorem remembersAll_rows : d.RemembersAll env sql ↔
    d.db.names.Nodup ∧ ∀ server ∈ d.manager.servers, server ∈ d.connected → d.RowHolds server := by
  unfold RemembersAll Starts
  rw [Persistor.init_isSome]
  refine and_congr_right fun distinct => ?_
  simp only [remembers_iff_row, distinct, true_and]

/-- The database after the slots of a change: a server is connected once, if
at all. -/
theorem stored_change (hd : d.Sound) (t : ServerId) (fails : Nat → Bool) (name key value : String) :
    (fun db => Persistor.storeConfigurationEntry sql fails db name key value)^[
        d.connected.count t] d.db =
      if t ∈ d.connected then d.db.insertEntries sql (newEntries sql fails d.db name key value)
      else d.db := by
  by_cases there : t ∈ d.connected
  · rw [if_pos there, List.count_eq_one_of_mem hd.once there, Function.iterate_one,
      Persistor.storeConfigurationEntry_eq]
  · rw [if_neg there, List.count_eq_zero_of_not_mem there, Function.iterate_zero, id]

/-- A change of one server is seen in its own record only. -/
theorem heap_after_change {s changed : Server} {t : ServerId} {key value : String}
    (there : d.manager.heap server = some s) (there' : d.manager.heap t = some changed)
    (configured : changed.configuration.isSome)
    (heap : u.manager.heap =
      Function.update d.manager.heap t (some (changed.setValue key value))) :
    ∃ after, u.manager.heap server = some after ∧ after.name = s.name ∧
      after.record.value =
        if t = server then Function.update s.record.value key value else s.record.value := by
  rw [heap]
  by_cases here : t = server
  · subst here
    obtain rfl := Option.some.inj (there'.symm.trans there)
    refine ⟨_, Function.update_self _ _ _, rfl, ?_⟩
    rw [if_pos rfl, Server.setValue_record changed key value configured]
  · refine ⟨s, ?_, rfl, (if_neg here).symm⟩
    rw [Function.update_of_ne (Ne.symm here)]
    exact there

/-- A turn that leaves the records leaves the one of each server. -/
theorem heap_kept {s : Server} (listed : server ∈ d.manager.servers)
    (there : d.manager.heap server = some s) (servers : u.manager.servers = d.manager.servers)
    (records : u.manager.records = d.manager.records) :
    ∃ after, u.manager.heap server = some after ∧ after.record = s.record := by
  unfold ServerManager.records at records
  rw [servers] at records
  have same := List.map_inj_left.mp records server listed
  rw [there, Option.map_some] at same
  exact Option.map_eq_some_iff.mp same

/-- What a restart has brought back, the next one brings back again. -/
theorem restarted_remembers (hd : d.Sound) (hu : d.step env sql .restart = some u)
    (listed : server ∈ u.manager.servers) :
    server ∈ u.connected ∧ u.Remembers env sql server := by
  cases step_effect hd.manager hu with
  | restarted m connected start =>
    obtain ⟨-, manager, rfl, -⟩ := Persistor.init_made start
    obtain ⟨s, there⟩ := Option.isSome_iff_exists.mp (manager.alive server listed)
    exact ⟨listed, m, m.servers, s, server, s, start, there, listed, there, rfl, rfl⟩

/-! ## The conditions on a turn -/

/-- A call of `setValue` changes the value, and the persistor hears of it. -/
structure Changes (d : Daemon) (t : ServerId) (key value : String) (s : Server) : Prop where
  connected : t ∈ d.connected
  there : d.manager.heap t = some s
  configured : s.configuration.isSome
  new : s.record.value key ≠ value

/-- The texts of a change hold no quote. -/
def Unquoted (d : Daemon) : DaemonEvent → Prop
  | .turn (.server t (.setValue key value)) _ => ∀ s, d.Changes t key value s →
      Literal s.name ∧ Literal key ∧ Literal value
  | _ => True

/-- The name of a server that is removed keeps to that server. -/
def RemovesOwn (sql : Sqlite) (d : Daemon) : DaemonEvent → Prop
  | .turn (.remove name) fails => (d.manager.find name).isSome → KeepsToServer sql fails name
  | _ => True

/-- The statements of a change succeed, and its texts read back from their columns as
they are. -/
def ReadsBack (sql : Sqlite) (fails : Nat → Bool) (key value : String) : Prop :=
  fails 0 = false ∧ fails 1 = false ∧ sql.numeric key = key ∧ sql.numeric value = value

/-- A change of the stored server of that name reads back. If the server has been removed,
and another one has its name by now, the values of the other one stay what they are. -/
def StoresChange (sql : Sqlite) (d : Daemon) : DaemonEvent → Prop
  | .turn (.server t (.setValue key value)) fails => ∀ s, d.Changes t key value s →
      ∀ server other, d.manager.find s.name = some server → d.manager.heap server = some other →
        server ∈ d.connected →
        if server = t then ReadsBack sql fails key value
        else fails 0 = false → fails 1 = false →
          other.record.value (sql.numeric key) = sql.numeric value
  | _ => True

/-- The texts of the event hold no quote. -/
def Plain (sql : Sqlite) (d : Daemon) (e : DaemonEvent) : Prop :=
  d.Unquoted e ∧ d.RemovesOwn sql e

/-- And they survive the statements and columns that they go through. -/
def Survives (env : Environment) (sql : Sqlite) (d : Daemon) (e : DaemonEvent) : Prop :=
  d.Plain sql e ∧ d.FindsNoRow env e ∧ d.StoresChange sql e

theorem Idle.unchanged {t : ServerId} {key value : String}
    (idle : Idle env d (.server t (.setValue key value))) {s : Server} :
    ¬ d.Changes t key value s :=
  fun changes => changes.new (idle s changes.there changes.configured)

/-! ## Steps -/

/-- No entry of a plain run waits for a server. -/
theorem step_owned {e : DaemonEvent} (hd : d.Sound) (owned : d.db.Owned) (unquoted : d.Unquoted e)
    (hu : d.step env sql e = some u) : u.db.Owned := by
  cases step_effect hd.manager hu with
  | added e fails s brings free u heap servers db connected =>
    rw [db]
    split
    · exact Persistor.withServer_owned owned s
    · exact owned
  | removed name fails server found u heap servers db connected =>
    rw [db]
    exact Persistor.deleteServer_owned owned name
  | changed t key value fails s there configured new u heap servers db connected =>
    rw [db, stored_change hd]
    split
    · next connected' =>
      obtain ⟨hn, hk, hv⟩ := unquoted s ⟨connected', there, configured, new⟩
      rw [Persistor.newEntries_literal sql fails d.db hn hk hv]
      split
      · exact owned
      · exact Database.insertEntries_owned owned s.name key value
    · exact owned
  | quiet e fails u records servers db connected idle =>
    rw [db]
    exact owned
  | plugin name enabled fails =>
    rw [Persistor.storePluginState_eq]
    exact owned
  | restarted m connected start => exact owned

theorem update_own {held : String → String} {key value k v : String} (new : held key ≠ value) :
    Function.update held k v = Function.update held key value ↔ k = key ∧ v = value := by
  constructor
  · intro same
    have here := congrFun same key
    rw [Function.update_self] at here
    by_cases own : key = k
    · subst own
      rw [Function.update_self] at here
      exact ⟨rfl, here⟩
    · rw [Function.update_of_ne own] at here
      exact absurd here new
  · rintro ⟨rfl, rfl⟩
    rfl

/-- What a change writes is the change itself exactly if it reads back. -/
theorem writes_own {fails : Nat → Bool} {held : String → String} {key value : String}
    (new : held key ≠ value) :
    (if fails 0 = false ∧ fails 1 = false then
        Function.update held (sql.numeric key) (sql.numeric value) else held) =
      Function.update held key value ↔ ReadsBack sql fails key value := by
  unfold ReadsBack
  by_cases succeed : fails 0 = false ∧ fails 1 = false
  · rw [if_pos succeed, update_own new]
    simp [succeed]
  · rw [if_neg succeed]
    apply iff_of_false
    · intro unchanged
      have here := congrFun unchanged key
      rw [Function.update_self] at here
      exact new here
    · exact fun all => succeed ⟨all.1, all.2.1⟩

/-- It is nothing exactly if it is there already, or a statement fails. -/
theorem writes_nothing {fails : Nat → Bool} {held : String → String} {k v : String} :
    (if fails 0 = false ∧ fails 1 = false then Function.update held k v else held) = held ↔
      (fails 0 = false → fails 1 = false → held k = v) := by
  by_cases succeed : fails 0 = false ∧ fails 1 = false
  · rw [if_pos succeed, Function.update_eq_self_iff]
    simp [succeed, eq_comm]
  · rw [if_neg succeed]
    exact iff_of_true rfl fun first second => absurd ⟨first, second⟩ succeed

theorem forall_found {m : ServerManager} {name : String} {s : Server} {P : Server → Prop}
    (found : m.find name = some server) (there : m.heap server = some s) :
    (∀ other, m.find name = some server → m.heap server = some other → P other) ↔ P s := by
  constructor
  · exact fun all => all s found there
  · intro one other _ there'
    obtain rfl := Option.some.inj (there.symm.trans there')
    exact one

/-- A change leaves the row of a stored server with its values exactly if it meets the
condition for that server. -/
theorem changed_holds (hd : d.Sound) (distinct : d.db.names.Nodup) {t : ServerId}
    {key value : String} {s : Server} (changes : d.Changes t key value s) (fails : Nat → Bool)
    (texts : Literal s.name ∧ Literal key ∧ Literal value) (listed : server ∈ d.manager.servers)
    (holds : d.RowHolds server)
    (heap : u.manager.heap = Function.update d.manager.heap t (some (s.setValue key value)))
    (db : u.db = d.db.insertEntries sql (newEntries sql fails d.db s.name key value)) :
    u.RowHolds server ↔ ∀ other, d.manager.find s.name = some server →
      d.manager.heap server = some other →
        if server = t then ReadsBack sql fails key value
        else fails 0 = false → fails 1 = false →
          other.record.value (sql.numeric key) = sql.numeric value := by
  obtain ⟨other, row, there, listedRow, named, held⟩ := holds
  obtain ⟨after, there', name, holds⟩ :=
    heap_after_change there changes.there changes.configured heap
  have rows : u.db.servers = d.db.servers := by
    rw [db]
    rfl
  have names : u.db.names.Nodup := by
    unfold Database.names
    rw [rows]
    exact distinct
  obtain ⟨hn, hk, hv⟩ := texts
  rw [rowHolds_iff names there' (rows ▸ listedRow) (named.trans name.symm), holds, db,
    Persistor.changed_valueOf fails distinct hn hk hv listedRow, held, named]
  by_cases same : other.name = s.name
  · have found : d.manager.find s.name = some server :=
      same ▸ ServerManager.find_listed hd.distinct listed there
    rw [forall_found found there]
    simp only [same, true_and]
    by_cases own : server = t
    · subst own
      obtain rfl := Option.some.inj (there.symm.trans changes.there)
      rw [if_pos rfl, if_pos rfl]
      exact writes_own changes.new
    · rw [if_neg own, if_neg (Ne.symm own)]
      exact writes_nothing
  · have apart : t ≠ server := by
      rintro rfl
      exact same (congrArg Server.name (Option.some.inj (there.symm.trans changes.there)))
    rw [if_neg fun all => same all.1, if_neg apart]
    refine iff_of_true rfl fun other' found there' => ?_
    obtain ⟨-, s', found', named'⟩ := ServerManager.find_some found
    obtain rfl := Option.some.inj (found'.symm.trans there)
    exact absurd named' same

/-- A server more: the others keep their rows, and it has one if it is stored. -/
theorem added_holds (hd : d.Sound) (owned : d.db.Owned)
    (all : ∀ server ∈ d.manager.servers, server ∈ d.connected → d.RowHolds server)
    {e : ManagerEvent} {fails : Nat → Bool} {s : Server}
    (brings : ServerManager.brought env d.manager e = some s)
    (heap : u.manager.heap = Function.update d.manager.heap d.manager.nextServer (some s))
    (servers : u.manager.servers = d.manager.servers ++ [d.manager.nextServer])
    (db : u.db = if Persistor.Stores fails s then Persistor.withServer env sql d.db s else d.db)
    (connected : u.connected =
      if Persistor.Stores fails s then d.connected ++ [d.manager.nextServer] else d.connected) :
    ∀ server ∈ u.manager.servers, server ∈ u.connected → u.RowHolds server := by
  intro server listed stored
  have unconnected : d.manager.nextServer ∉ d.connected := fun there =>
    Nat.lt_irrefl _ (hd.made _ there)
  rw [servers] at listed
  rcases List.mem_append.mp listed with old | new
  · have apart : server ≠ d.manager.nextServer := by
      rintro rfl
      exact hd.manager.fresh old
    have stored' : server ∈ d.connected := by
      rw [connected] at stored
      split at stored
      · rcases List.mem_append.mp stored with before | last
        · exact before
        · exact absurd (List.mem_singleton.mp last) apart
      · exact stored
    refine (all server old stored').keep (fun s' there => ⟨s', ?_, rfl⟩) fun _ _ row there _ => ?_
    · rw [heap, Function.update_of_ne apart]
      exact there
    · rw [db]
      split
      · exact ⟨List.mem_append_left _ there,
          Persistor.withServer_older env sql d.db s (d.db.servers.below row there)⟩
      · exact ⟨there, rfl⟩
  · obtain rfl := List.mem_singleton.mp new
    by_cases stores : Persistor.Stores fails s
    · rw [if_pos stores] at db
      obtain ⟨path, name, made⟩ := ServerManager.brought_created brings
      have unused : ∀ row ∈ d.db.entries.rows, row.2.serverid ≠ some d.db.servers.next :=
        fun row there named => Nat.lt_irrefl _ (owned row there _ named)
      refine ⟨s, (d.db.servers.next, ⟨env.urlToString s.path, s.name⟩), ?_, ?_, rfl, ?_⟩
      · rw [heap, Function.update_self]
      · rw [db]
        exact List.mem_append_right _ List.mem_cons_self
      · rw [db]
        exact Persistor.withServer_valueOf sql _ path name made unused
    · rw [connected, if_neg stores] at stored
      exact absurd stored unconnected

/-- A server less: the others keep their rows. -/
theorem removed_holds (hd : d.Sound)
    (all : ∀ server ∈ d.manager.servers, server ∈ d.connected → d.RowHolds server)
    {name : String} {fails : Nat → Bool} {gone : ServerId} (keeps : KeepsToServer sql fails name)
    (found : d.manager.find name = some gone) (heap : u.manager.heap = d.manager.heap)
    (servers : u.manager.servers = d.manager.servers.filter (· != gone))
    (db : u.db = Persistor.deleteServer sql fails d.db name) (connected : u.connected = d.connected) :
    ∀ server ∈ u.manager.servers, server ∈ u.connected → u.RowHolds server := by
  intro server listed stored
  rw [servers] at listed
  obtain ⟨listed, apart⟩ := List.mem_filter.mp listed
  rw [connected] at stored
  refine (all server listed stored).keep (fun s there => ⟨s, heap ▸ there, rfl⟩)
    fun s there row listed' named => ?_
  rw [db]
  refine Persistor.deleteServer_other keeps listed' ?_
  intro same
  have here := ServerManager.find_listed hd.distinct listed there
  rw [← named, same, found] at here
  exact bne_iff_ne.mp apart (Option.some.inj here).symm

/-- A value less or more, of a server that is connected or not. -/
theorem changed_all (hd : d.Sound) (distinct : d.db.names.Nodup)
    (all : ∀ server ∈ d.manager.servers, server ∈ d.connected → d.RowHolds server)
    {t : ServerId} {key value : String} {fails : Nat → Bool} {s : Server}
    (unquoted : d.Unquoted (.turn (.server t (.setValue key value)) fails))
    (there : d.manager.heap t = some s) (configured : s.configuration.isSome)
    (new : s.record.value key ≠ value)
    (heap : u.manager.heap = Function.update d.manager.heap t (some (s.setValue key value)))
    (db : u.db = (fun db => Persistor.storeConfigurationEntry sql fails db s.name key value)^[
      d.connected.count t] d.db) :
    (∀ server ∈ d.manager.servers, server ∈ d.connected → u.RowHolds server) ↔
      d.StoresChange sql (.turn (.server t (.setValue key value)) fails) := by
  rw [stored_change hd] at db
  by_cases connected : t ∈ d.connected
  · have changes : d.Changes t key value s := ⟨connected, there, configured, new⟩
    rw [if_pos connected] at db
    have each {server : ServerId} (listed : server ∈ d.manager.servers)
        (stored : server ∈ d.connected) := changed_holds hd distinct changes fails
      (unquoted s changes) listed (all server listed stored) heap db
    constructor
    · intro kept s' changes' server other found there' stored
      obtain rfl := Option.some.inj (there.symm.trans changes'.there)
      have listed := ServerManager.find_mem found
      exact (each listed stored).mp (kept server listed stored) other found there'
    · intro condition server listed stored
      exact (each listed stored).mpr fun other found there' =>
        condition s changes server other found there' stored
  · refine iff_of_true (fun server listed stored => ?_) fun _ changes =>
      absurd changes.connected connected
    have apart : server ≠ t := by
      rintro rfl
      exact connected stored
    rw [if_neg connected] at db
    refine (all server listed stored).keep (fun s there => ⟨s, ?_, rfl⟩) fun _ _ row there _ => ?_
    · rw [heap, Function.update_of_ne apart]
      exact there
    · rw [db]
      exact ⟨there, rfl⟩

/-- After a turn, the rows of the stored servers hold their values exactly if what the
turn has changed reads back. -/
theorem step_holds {e : DaemonEvent} (hd : d.Sound) (owned : d.db.Owned)
    (hi : d.RemembersAll env sql) (plain : d.Plain sql e) (hu : d.step env sql e = some u) :
    (∀ server ∈ u.manager.servers, server ∈ u.connected → u.RowHolds server) ↔
      d.StoresChange sql e := by
  obtain ⟨distinct, all⟩ := remembersAll_rows.mp hi
  cases step_effect hd.manager hu with
  | added e fails s brings free u heap servers db connected =>
    refine iff_of_true (added_holds hd owned all brings heap servers db connected) ?_
    cases e with
    | add | addServer => exact trivial
    | _ => cases brings
  | removed name fails gone found u heap servers db connected =>
    have keeps := plain.2 (by rw [found]; rfl)
    exact iff_of_true (removed_holds hd all keeps found heap servers db connected) trivial
  | changed t key value fails s there configured new u heap servers db connected =>
    rw [servers, connected]
    exact changed_all hd distinct all plain.1 there configured new heap db
  | quiet e fails u records servers db connected idle =>
    refine iff_of_true (fun server listed stored => ?_) ?_
    · rw [servers] at listed
      rw [connected] at stored
      refine (all server listed stored).keep (fun s there => heap_kept listed there servers records)
        fun _ _ row there _ => ?_
      rw [db]
      exact ⟨there, rfl⟩
    · cases e with
      | server t event =>
        cases event with
        | setValue key value => exact fun s changes => absurd changes idle.unchanged
        | _ => exact trivial
      | _ => exact trivial
  | plugin name enabled fails =>
    refine iff_of_true (fun server listed stored => ?_) trivial
    refine (all server listed stored).keep (fun s there => ⟨s, there, rfl⟩) fun _ _ row there _ => ?_
    rw [Persistor.storePluginState_eq]
    exact ⟨there, rfl⟩
  | restarted m connected start =>
    refine iff_of_true (fun server listed _ => ?_) trivial
    exact (remembers_iff_row.mp (restarted_remembers hd hu listed).2).2

/-- From a state in which all stored servers are remembered, a turn in texts without a
quote leads to another one exactly if it meets the conditions. -/
theorem step_remembersAll {e : DaemonEvent} (hd : d.Sound) (owned : d.db.Owned)
    (hi : d.RemembersAll env sql) (plain : d.Plain sql e) (hu : d.step env sql e = some u) :
    u.RemembersAll env sql ↔ d.FindsNoRow env e ∧ d.StoresChange sql e := by
  have starts := step_starts hd hi.1 hu
  have holds := step_holds hd owned hi plain hu
  have distinct : u.Starts env sql ↔ u.db.names.Nodup := Persistor.init_isSome env sql u.db
  rw [remembersAll_rows, ← distinct, starts, holds]

/-! ## Runs -/

/-- In a run whose events all survive, a restart brings back every stored server with all
its values, whenever it comes. If no text of the run holds a quote, it does so only
then. -/
theorem remembers_iff (env : Environment) (sql : Sqlite) (es : List DaemonEvent) :
    (Machine.EachStep (step env sql) (Survives env sql) {} es →
      Machine.Throughout (step env sql) (RemembersAll env sql) {} es) ∧
    (Machine.EachStep (step env sql) (Plain sql) {} es →
      Machine.Throughout (step env sql) (RemembersAll env sql) {} es →
      Machine.EachStep (step env sql) (Survives env sql) {} es) := by
  apply Machine.throughout_iff_under (A := fun d => d.Sound ∧ d.db.Owned) (D := Plain sql)
  · intro d e u now plain hu
    exact ⟨step_sound now.1 hu, step_owned now.1 now.2 plain.1 hu⟩
  · intro d e u now plain hi hu
    exact step_remembersAll now.1 now.2 hi plain hu
  · exact ⟨init_sound, fun _ there => by cases there⟩
  · exact ⟨rfl, fun _ listed => by cases listed⟩

/-- One call of `ServerConfiguration::setValue`. `fails` is for the statements
of the slot. -/
structure SetValue where
  server : ServerId
  key : String
  value : String
  fails : Nat → Bool

def SetValue.event (call : SetValue) : DaemonEvent :=
  .turn (.server call.server (.setValue call.key call.value)) call.fails

/-- A daemon that has added one server. -/
def added : List DaemonEvent := [.turn (.add { path := "/srv/tf2" } "tf2") fun _ => false]

/-- The server gets a password, and the daemon is started again. -/
theorem remembers_iff_password :
    Machine.Throughout (step .ideal .plain) (RemembersAll .ideal .plain) {}
      (added ++ [SetValue.event ⟨0, "password", "secret", fun _ => false⟩, .restart]) := by
  refine (remembers_iff .ideal .plain _).1 (Machine.eachStep_cons.mpr fun d hd => ⟨?_, ?_⟩)
  · refine ⟨⟨trivial, trivial⟩, fun s brings free stores => ?_, trivial⟩
    exact List.not_mem_nil
  · obtain rfl := Option.some.inj hd
    refine Machine.eachStep_cons.mpr fun u hu => ⟨⟨⟨?_, trivial⟩, ?_, ?_⟩, ?_⟩
    · intro s changes
      obtain rfl := Option.some.inj changes.there
      decide
    · exact fun s brings => by cases brings
    · intro s changes server other found _ _
      obtain rfl := Option.some.inj changes.there
      obtain rfl : 0 = server := Option.some.inj found
      rw [if_pos rfl]
      exact ⟨rfl, rfl, by decide, by decide⟩
    · exact Machine.eachStep_cons.mpr fun _ _ =>
        ⟨⟨⟨trivial, trivial⟩, trivial, trivial⟩, Machine.eachStep_nil⟩

/-- A value that reads as a number comes back without its zeros. -/
theorem number_comes_back_changed :
    ∃ d u m, run .ideal .plain {} added = some d ∧ d.Remembers .ideal .plain 0 ∧
      d.step .ideal .plain (SetValue.event ⟨0, "password", "007", fun _ => false⟩) = some u ∧
      (u.manager.heap 0).map (fun s => s.record.value "password") = some "007" ∧
      init .ideal .plain u.db = some (m, [0]) ∧
      (m.heap 0).map (fun s => s.record.value "password") = some "7" ∧
      ¬ u.Remembers .ideal .plain 0 := by
  refine ⟨_, _, _, rfl, ?_, rfl, rfl, rfl, rfl, ?_⟩
  · exact ⟨_, _, _, 0, _, rfl, rfl, List.mem_cons_self, rfl, rfl, rfl⟩
  · rintro ⟨m, connected, s, t, restored, start, there, listed, made, name, value⟩
    obtain ⟨rfl, rfl⟩ := Prod.mk.inj (Option.some.inj start)
    obtain rfl := List.mem_singleton.mp listed
    obtain rfl := Option.some.inj there
    obtain rfl := Option.some.inj made
    have seven : "7" = "007" := congrFun value "password"
    exact absurd seven (by decide)

end Daemon

end Morgoth
