import Morgoth.Confinement
import Morgoth.Kills

/-!
# What a start brings back

The database of a daemon that may be killed in any turn, and between any two
statements, against the servers that it had.

* `step_stored`: a turn that is completed keeps the database up to date;
* `kill_stored`: a start after one that was not brings back what there was before it,
  or what there would have been after it; the values of a server that was being
  removed may be gone;
* `recovers`: the same in every run.
-/

namespace Morgoth

namespace Record

/-- The record of the name with another value. -/
def set (name key value : String) (record : Record) : Record :=
  if record.name = name then { record with value := Function.update record.value key value }
  else record

/-- The record of the name with the values that every server has at first. -/
def reset (name : String) (record : Record) : Record :=
  if record.name = name then { record with value := ServerConfiguration.default.value }
  else record

@[simp] theorem reset_name (name : String) (record : Record) :
    (record.reset name).name = record.name := by
  unfold reset
  split <;> rfl

end Record

/-! ## The servers in the database -/

namespace Database

variable {env : Environment} {sql : Sqlite} {db u : Database}

/-- The rows as records, wherever their servers are going to be. -/
def saved (env : Environment) (sql : Sqlite) (db : Database) : List Record :=
  db.servers.rows.map (db.record env sql 0)

theorem records_saved (same : env.SameFiles) (sql : Sqlite) (db : Database) :
    db.records env sql = db.saved env sql := by
  unfold records saved
  conv_rhs => rw [← List.zipIdx_map_fst 0 db.servers.rows, List.map_map]
  apply List.map_congr_left
  rintro ⟨row, server⟩ _
  simp [record, ServerManager.fixedPath, same server 0]

theorem saved_names (env : Environment) (sql : Sqlite) (db : Database) :
    (db.saved env sql).map Record.name = db.names := by
  simp [saved, names, record, Function.comp_def]

/-- Only the rows of `servers` and the values matter. -/
theorem saved_congr {f : Record → Record} (servers : u.servers = db.servers)
    (each : ∀ row ∈ db.servers.rows, u.record env sql 0 row = f (db.record env sql 0 row)) :
    u.saved env sql = (db.saved env sql).map f := by
  unfold saved
  rw [servers, List.map_map]
  exact List.map_congr_left each

/-! ### A server more -/

theorem withServer_saved {s : Server} (owned : db.Owned) (h : Host) (path : QUrl) (name : String)
    (made : Server.create h path name = s)
    (reads : ServerManager.fixedPath env 0 (sql.toUrl (env.urlToString s.path)) = s.path) :
    (Persistor.withServer env sql db s).saved env sql = db.saved env sql ++ [s.record] := by
  have unused : ∀ row ∈ db.entries.rows, row.2.serverid ≠ some db.servers.next := by
    intro row there named
    exact Nat.lt_irrefl _ (owned row there _ named)
  have last : (Persistor.withServer env sql db s).valueOf db.servers.next = s.record.value :=
    Persistor.withServer_valueOf sql h path name made unused
  have rows : (Persistor.withServer env sql db s).servers.rows =
      db.servers.rows ++ [(db.servers.next, ⟨env.urlToString s.path, s.name⟩)] := rfl
  unfold saved
  rw [rows, List.map_append, List.map_singleton]
  congr 1
  · apply List.map_congr_left
    intro row there
    simp [record, Persistor.withServer_older env sql db s (db.servers.below row there)]
  · simp [record, last, reads, Server.record]

/-! ### A value more -/

theorem insertEntries_saved (distinct : db.names.Nodup) (name : String) {key value : String}
    (readKey : sql.numeric key = key) (readValue : sql.numeric value = value) :
    (db.insertEntries sql [⟨db.idOf name, key, value⟩]).saved env sql =
      (db.saved env sql).map (Record.set name key value) := by
  refine saved_congr rfl fun row there => ?_
  unfold record Record.set
  rw [insertEntries_valueOf distinct name key value there, readKey, readValue]
  by_cases own : row.2.name = name
  · simp [own]
  · simp [own]

/-! ### A server fewer -/

section
variable {fails : Nat → Bool} {name : String}

/-- A server of another name keeps its entries. -/
theorem emptied_other (literal : Literal name)
    (emptied : Emptied (Persistor.foundIds sql fails db name) db u) {row : Nat × ServerRow}
    (there : row ∈ db.servers.rows) (other : row.2.name ≠ name) :
    u.entriesOf row.1 = db.entriesOf row.1 := by
  rcases emptied.entries row.1 with kept | ⟨found, -⟩
  · exact kept
  · obtain ⟨mine, listed, id, named⟩ := Persistor.foundIds_own (.inl literal) found
    obtain rfl := List.inj_on_of_nodup_map db.servers.ids_nodup listed there id
    exact absurd named other

/-- The server of the name has kept its entries, or has lost all of them. -/
theorem emptied_saved (env : Environment) (distinct : db.names.Nodup) (literal : Literal name)
    (emptied : Emptied (Persistor.foundIds sql fails db name) db u) :
    u.saved env sql = db.saved env sql ∨
      u.saved env sql = (db.saved env sql).map (Record.reset name) := by
  by_cases lost : ∃ row ∈ db.servers.rows, row.2.name = name ∧ u.entriesOf row.1 = []
  · obtain ⟨mine, listed, named, empty⟩ := lost
    refine .inr (saved_congr emptied.servers fun row there => ?_)
    by_cases own : row.2.name = name
    · obtain rfl := List.inj_on_of_nodup_map distinct there listed (own.trans named.symm)
      simp [record, Record.reset, own, valueOf, empty]
    · simp [record, Record.reset, own, valueOf_congr (emptied_other literal emptied there own)]
  · refine .inl ((saved_congr emptied.servers fun row there => ?_).trans (List.map_id _))
    have kept : u.entriesOf row.1 = db.entriesOf row.1 := by
      by_cases own : row.2.name = name
      · rcases emptied.entries row.1 with kept | ⟨-, empty⟩
        · exact kept
        · exact absurd ⟨row, there, own, empty⟩ lost
      · exact emptied_other literal emptied there own
    simp [record, valueOf_congr kept]

theorem emptied_owned {ids : List Nat} (owned : db.Owned) (emptied : Emptied ids db u) :
    u.Owned := by
  intro row there id named
  rw [emptied.servers]
  exact owned row (emptied.rows.subset there) id named

/-- A server is deleted, or the last statement has failed. -/
theorem deleteServer_saved (env : Environment) (sql : Sqlite) (fails : Nat → Bool) (db : Database)
    {name : String} (literal : Literal name) :
    if fails ((Persistor.foundIds sql fails db name).length + 1) then
      Emptied (Persistor.foundIds sql fails db name) db (Persistor.deleteServer sql fails db name)
    else (Persistor.deleteServer sql fails db name).saved env sql =
        (db.saved env sql).filter fun record => record.name != name := by
  have emptied := Connection.Slot.deleteConfigurations_emptied fails 1
    (Persistor.foundIds sql fails db name) db
  by_cases last : fails ((Persistor.foundIds sql fails db name).length + 1) = true
  · have kept : Persistor.takes sql fails db name = fun _ => false := by
      simp [Persistor.takes, sql.whereServers_literal name literal, last]
    rw [if_pos last, Persistor.deleteServer_eq, kept, Table.deleteWhere_none]
    exact ⟨rfl, emptied.rows, emptied.entries⟩
  · have taken : Persistor.takes sql fails db name = fun row => row.2.name == name := by
      simp [Persistor.takes, sql.whereServers_literal name literal, last]
    rw [if_neg last, Persistor.deleteServer_eq, taken]
    unfold saved
    rw [Table.deleteWhere_rows, List.filter_map]
    refine List.map_congr_left fun row there => ?_
    obtain ⟨listed, kept⟩ := List.mem_filter.mp there
    have other : row.2.name ≠ name := by simpa using kept
    have value := valueOf_congr (emptied_other literal emptied listed other)
    simp only [record, ← value]
    rfl

end

end Database

/-! ## The servers of the manager -/

theorem ServerManager.setValue_records {m u : ServerManager} {server : ServerId} {s : Server}
    (distinct : m.names.Nodup) (there : m.heap server = some s)
    (configured : s.configuration.isSome) {key value : String}
    (heap : u.heap = Function.update m.heap server (some (s.setValue key value)))
    (servers : u.servers = m.servers)
    (own : server ∈ m.servers ∨ m.find s.name = none) :
    u.records = m.records.map (Option.map (Record.set s.name key value)) := by
  unfold records
  rw [servers, heap, List.map_map]
  refine List.map_congr_left fun t listed => ?_
  by_cases here : t = server
  · subst here
    simp only [Function.update_self, there, Function.comp_apply, Option.map_some,
      Server.setValue_record s key value configured]
    exact congrArg some (if_pos rfl).symm
  · rw [Function.update_of_ne here, Function.comp_apply]
    cases found : m.heap t with
    | none => rfl
    | some other =>
      have apart : other.name ≠ s.name := by
        intro same
        rcases own with also | missing
        · have twice : ((m.heap t).map Server.record).map Record.name =
              ((m.heap server).map Server.record).map Record.name := by
            simp [found, there, Server.record, same]
          rw [names, records, List.map_map] at distinct
          exact here (List.inj_on_of_nodup_map distinct listed also twice)
        · refine (find_none_iff s.name).mp missing ?_
          rw [← same]
          exact List.mem_map.mpr ⟨_, List.mem_map_of_mem listed, by rw [found]; rfl⟩
      simp [Record.set, Server.record, apart]

namespace Daemon

variable {env : Environment} {sql : Sqlite} {d u : Daemon}

/-- The database is up to date: a start brings back the servers that there are, with
their paths and all their values. -/
structure Stored (env : Environment) (sql : Sqlite) (d : Daemon) : Prop where
  records : (d.db.saved env sql).map some = d.manager.records
  owned : d.db.Owned
  connected : ∀ server ∈ d.manager.servers, server ∈ d.connected

/-- The texts of an event survive the statements and columns that they go through. A
server that was removed and is about to be deleted has its name for itself. -/
def Legible (env : Environment) (sql : Sqlite) (d : Daemon) : DaemonEvent → Prop
  | .turn (.remove name) _ => Literal name
  | .turn (.server server (.setValue key value)) _ => ∀ s, d.manager.heap server = some s →
      (server ∈ d.manager.servers ∨ d.manager.find s.name = none) ∧ Literal s.name ∧
        Literal key ∧ Literal value ∧ sql.numeric key = key ∧ sql.numeric value = value
  | .turn e _ => ∀ s, ServerManager.brought env d.manager e = some s →
      d.manager.find s.name = none →
      ServerManager.fixedPath env 0 (sql.toUrl (env.urlToString s.path)) = s.path
  | _ => True

/-- No statement fails. -/
def Executed : DaemonEvent → Prop
  | .turn _ fails => ∀ n, fails n = false
  | _ => True

theorem Stored.distinct (hi : d.Stored env sql) (hd : d.Sound) : d.db.names.Nodup := by
  refine List.Nodup.of_map some ?_
  have names : d.db.names.map some = d.manager.names := by
    rw [ServerManager.names, ← hi.records, ← Database.saved_names env sql, List.map_map,
      List.map_map]
    rfl
  rw [names]
  exact hd.distinct

/-- What an event makes of the database: what is going to be restored is what there is
after the event, or what there was before it, or lacks the values of a server that was
to be removed. If no statement fails it is the first. -/
theorem step_saved (same : env.SameFiles) {e : DaemonEvent} (hd : d.Sound)
    (hi : d.Stored env sql) (legible : d.Legible env sql e) (hu : d.step env sql e = some u) :
    u.db.Owned ∧
    ((u.db.saved env sql).map some = u.manager.records ∨ ¬ Executed e ∧
      (u.db.saved env sql = d.db.saved env sql ∨
        ∃ name fails, e = .turn (.remove name) fails ∧
          u.db.saved env sql = (d.db.saved env sql).map (Record.reset name))) := by
  cases step_effect hd.manager hu with
  | added e fails s brings free u heap servers db connected =>
    obtain ⟨path, name, made⟩ := ServerManager.brought_created brings
    have reads : ServerManager.fixedPath env 0 (sql.toUrl (env.urlToString s.path)) = s.path := by
      cases e with
      | add | addServer => exact legible s brings free
      | _ => cases brings
    rw [db]
    by_cases stores : Persistor.Stores fails s
    · rw [if_pos stores, Database.withServer_saved hi.owned _ path name made reads,
        ServerManager.added_records hd.manager.fresh heap servers, ← hi.records]
      exact ⟨Persistor.withServer_owned hi.owned s, .inl (by simp)⟩
    · rw [if_neg stores]
      exact ⟨hi.owned, .inr ⟨fun all => stores fun i _ => all (i + 1), .inl rfl⟩⟩
  | removed name fails server found u heap servers db connected =>
    have result := Database.deleteServer_saved env sql fails d.db legible
    rw [db]
    refine ⟨Persistor.deleteServer_owned hi.owned _, ?_⟩
    split at result
    · next failed =>
      refine .inr ⟨fun all => ?_, ?_⟩
      · rw [all] at failed
        cases failed
      · exact (Database.emptied_saved env (hi.distinct hd) legible result).imp_right
          fun reset => ⟨name, fails, rfl, reset⟩
    · left
      rw [result, ServerManager.removed_records hd.distinct found heap servers, ← hi.records,
        List.filter_map]
      congr 1
  | changed server key value fails s there configured new u heap servers db connected =>
    obtain ⟨own, hn, hk, hv, readKey, readValue⟩ := legible s there
    have records := ServerManager.setValue_records hd.distinct there configured heap servers own
    rw [stored_change hd, Persistor.newEntries_literal sql fails d.db hn hk hv] at db
    rw [db]
    by_cases listed : server ∈ d.connected
    · rw [if_pos listed]
      by_cases failed : (fails 0 || fails 1) = true
      · rw [if_pos failed]
        refine ⟨hi.owned, .inr ⟨fun all => ?_, .inl rfl⟩⟩
        rw [all, all] at failed
        cases failed
      · rw [if_neg failed]
        refine ⟨Database.insertEntries_owned hi.owned _ _ _, .inl ?_⟩
        rw [Database.insertEntries_saved (hi.distinct hd) _ readKey readValue, records, ← hi.records]
        simp
    · -- a server that has been removed already
      rw [if_neg listed]
      refine ⟨hi.owned, .inl (hi.records.trans ?_)⟩
      refine (ServerManager.records_congr servers fun t there' => ?_).symm
      have other : t ≠ server := fun here => listed (here ▸ hi.connected t there')
      rw [heap, Function.update_of_ne other]
  | quiet e fails u records servers db connected idle =>
    rw [db, records]
    exact ⟨hi.owned, .inl hi.records⟩
  | plugin name enabled fails =>
    dsimp only
    rw [Persistor.storePluginState_eq]
    exact ⟨hi.owned, .inl hi.records⟩
  | restarted m connected start =>
    obtain ⟨-, -, -, records⟩ := Persistor.init_made start
    refine ⟨hi.owned, .inl ?_⟩
    rw [records, Database.records_saved same]

theorem step_connected {e : DaemonEvent} (hd : d.Sound) (hi : d.Stored env sql)
    (executed : Executed e) (hu : d.step env sql e = some u) :
    ∀ server ∈ u.manager.servers, server ∈ u.connected := by
  intro server there
  cases step_effect hd.manager hu with
  | added e fails s brings free u heap servers db connected =>
    have stores : Persistor.Stores fails s := fun i _ => executed (i + 1)
    rw [servers] at there
    rw [connected, if_pos stores]
    simpa using (List.mem_append.mp there).imp_left (hi.connected server)
  | removed name fails removed found u heap servers db connected =>
    rw [servers] at there
    rw [connected]
    exact hi.connected server (List.mem_of_mem_filter there)
  | changed _ key value fails s _ configured new u heap servers db connected =>
    rw [connected]
    exact hi.connected server (servers ▸ there)
  | quiet e fails u records servers db connected idle =>
    rw [connected]
    exact hi.connected server (servers ▸ there)
  | plugin name enabled fails => exact hi.connected server there
  | restarted m connected start =>
    obtain ⟨-, -, rfl, -⟩ := Persistor.init_made start
    exact there

/-- A turn whose statements are executed keeps the database up to date. -/
theorem step_stored (same : env.SameFiles) {e : DaemonEvent} (hd : d.Sound)
    (hi : d.Stored env sql) (legible : d.Legible env sql e) (executed : Executed e)
    (hu : d.step env sql e = some u) : u.Stored env sql := by
  obtain ⟨owned, records⟩ := step_saved same hd hi legible hu
  refine ⟨records.resolve_right fun failed => failed.1 executed, owned, ?_⟩
  exact step_connected hd hi executed hu

/-! ## The daemon is killed -/

/-- What there was before the event, what there is after it, or what there was before a
removal, with the values of the server that was to be removed as they are at first. -/
def BroughtBack (d : Daemon) (e : DaemonEvent) (u : Daemon) (records : List (Option Record)) :
    Prop :=
  records = d.manager.records ∨ records = u.manager.records ∨
    ∃ name fails, e = .turn (.remove name) fails ∧
      records = d.manager.records.map (Option.map (Record.reset name))

theorem killed_saved (same : env.SameFiles) {e : DaemonEvent} (hd : d.Sound)
    (hi : d.Stored env sql) (legible : d.Legible env sql e) (hu : d.step env sql e = some u)
    {script : Script Connection Unit} (statements : d.script env sql e = some script) (n : Nat) :
    (script.killed n ⟨d.db, none⟩).durable.Owned ∧
      BroughtBack d e u (((script.killed n ⟨d.db, none⟩).durable.saved env sql).map some) := by
  have reset (name : String) : ((d.db.saved env sql).map (Record.reset name)).map some =
      d.manager.records.map (Option.map (Record.reset name)) := by
    rw [← hi.records]
    simp
  rcases killed_disk hd hu statements n with before | after | ⟨name, fails, rfl, emptied⟩
  · rw [before]
    exact ⟨hi.owned, .inl hi.records⟩
  · rw [after]
    obtain ⟨owned, now | ⟨-, before | ⟨name, fails, rfl, lost⟩⟩⟩ := step_saved same hd hi legible hu
    · exact ⟨owned, .inr (.inl now)⟩
    · exact ⟨owned, .inl (before ▸ hi.records)⟩
    · exact ⟨owned, .inr (.inr ⟨name, fails, rfl, lost ▸ reset name⟩)⟩
  · refine ⟨Database.emptied_owned hi.owned emptied, ?_⟩
    rcases Database.emptied_saved env (hi.distinct hd) legible emptied with kept | lost
    · exact .inl (kept ▸ hi.records)
    · exact .inr (.inr ⟨name, fails, rfl, lost ▸ reset name⟩)

/-- All of these have distinct names. -/
theorem BroughtBack.distinct {e : DaemonEvent} {records : List (Option Record)} (hd : d.Sound)
    (hu : u.Sound) (back : BroughtBack d e u records) :
    (records.map (Option.map Record.name)).Nodup := by
  rcases back with rfl | rfl | ⟨name, fails, -, rfl⟩
  · exact hd.distinct
  · exact hu.distinct
  · have names : (d.manager.records.map (Option.map (Record.reset name))).map
        (Option.map Record.name) = d.manager.names := by
      simp [ServerManager.names, Function.comp_def]
    rw [names]
    exact hd.distinct

/-- The next start succeeds. -/
theorem kill_stored (same : env.SameFiles) {e : DaemonEvent} (hd : d.Sound)
    (hi : d.Stored env sql) (legible : d.Legible env sql e) (hu : d.step env sql e = some u)
    (n : Nat) :
    ∃ w, d.kill env sql e n = some w ∧ w.Sound ∧ w.Stored env sql ∧
      BroughtBack d e u w.manager.records := by
  obtain ⟨script, statements, -⟩ := script_run hu
  obtain ⟨owned, back⟩ := killed_saved same hd hi legible hu statements n
  unfold kill
  rw [statements, Option.bind_some]
  generalize (script.killed n ⟨d.db, none⟩).durable = db at owned back ⊢
  have distinct : db.names.Nodup := by
    have names := back.distinct hd (step_sound hd hu)
    refine List.Nodup.of_map some ?_
    rw [← Database.saved_names env sql, List.map_map]
    simpa [Function.comp_def] using names
  obtain ⟨m, start, manager, records⟩ := Persistor.init_some env sql distinct
  rw [Database.records_saved same] at records
  have restarts : step env sql { d with db := db } .restart =
      some { manager := m, db := db, connected := m.servers } := by
    simp [step, start]
  have unchanged : Sound { d with db := db } := hd.congr rfl rfl
  refine ⟨_, restarts, step_sound unchanged restarts, ⟨records.symm, owned, ?_⟩, ?_⟩
  · exact fun server there => there
  · exact records ▸ back

/-! ## Runs -/

inductive PowerEvent
  | event (e : DaemonEvent)
  | killed (e : DaemonEvent) (n : Nat)

def power (env : Environment) (sql : Sqlite) (d : Daemon) : PowerEvent → Option Daemon
  | .event e => d.step env sql e
  | .killed e n => d.kill env sql e n

/-- What is completed has been executed; what is killed may have failed as well. -/
def Careful (env : Environment) (sql : Sqlite) (d : Daemon) : PowerEvent → Prop
  | .event e => d.Legible env sql e ∧ Executed e
  | .killed e _ => d.Legible env sql e

/-- Only what can happen can be killed. -/
theorem kill_possible {e : DaemonEvent} {n : Nat} (hw : d.kill env sql e n = some u) :
    ∃ v, d.step env sql e = some v := by
  obtain ⟨script, statements, started⟩ := Option.bind_eq_some_iff.mp hw
  cases e with
  | turn event fails =>
    obtain ⟨m, moves, -⟩ := Option.map_eq_some_iff.mp statements
    exact ⟨_, congrArg (Option.map _) moves⟩
  | pluginStatusChanged name enabled fails => exact ⟨_, rfl⟩
  | restart =>
    obtain rfl := Option.some.inj statements
    rw [Script.killed_done] at started
    exact ⟨u, started⟩

theorem power_stored (same : env.SameFiles) {e : PowerEvent} (hi : d.Sound ∧ d.Stored env sql)
    (careful : d.Careful env sql e) (hu : d.power env sql e = some u) :
    u.Sound ∧ u.Stored env sql := by
  cases e with
  | event e => exact ⟨step_sound hi.1 hu, step_stored same hi.1 hi.2 careful.1 careful.2 hu⟩
  | killed e n =>
    obtain ⟨v, hv⟩ := kill_possible hu
    obtain ⟨w, hw, sound, stored, -⟩ := kill_stored same hi.1 hi.2 careful hv n
    obtain rfl := Option.some.inj (hu.symm.trans hw)
    exact ⟨sound, stored⟩

/-- However often the daemon has been killed, and between which statements: a start
brings back exactly the servers that it has; and if it is killed once more, a start
succeeds and brings back what there was, or what there would have been. A server that
was being removed may be back without its values. -/
theorem recovers (sql : Sqlite) (same : env.SameFiles) {es : List PowerEvent}
    (reached : Machine.run (power env sql) {} es = some d)
    (careful : Machine.EachStep (power env sql) (Careful env sql) {} es) :
    (∃ m connected, Persistor.init env sql d.db = some (m, connected) ∧
      m.records = d.manager.records) ∧
    ∀ e u n, d.Legible env sql e → d.step env sql e = some u →
      ∃ w, d.kill env sql e n = some w ∧ BroughtBack d e u w.manager.records := by
  have start : Sound {} ∧ Stored env sql {} :=
    ⟨init_sound, rfl, nofun, nofun⟩
  obtain ⟨sound, stored⟩ := careful.throughout
    (fun _ _ _ hi careful hu => power_stored same hi careful hu) start es d List.prefix_rfl reached
  constructor
  · obtain ⟨m, init, -, records⟩ := Persistor.init_some env sql (stored.distinct sound)
    refine ⟨m, m.servers, init, records.trans ?_⟩
    rw [Database.records_saved same]
    exact stored.records
  · intro e u n legible hu
    obtain ⟨w, hw, -, -, back⟩ := kill_stored same sound stored legible hu n
    exact ⟨w, hw, back⟩

/-- A server gets a password, and the daemon is killed while it removes the server: the
server comes back without the password. -/
theorem recovers_reset :
    let es : List PowerEvent := [.event (.turn (.add { path := "/srv/tf2" } "tf2") fun _ => false),
      .killed (.turn (.server 0 (.setValue "password" "secret")) fun _ => false) 2]
    let removal : DaemonEvent := .turn (.remove "tf2") fun _ => false
    ∃ d u w, Machine.run (power .ideal .plain) {} es = some d ∧
      d.manager.records.map (Option.map fun r => (r.name, r.value "password")) =
        [some ("tf2", "secret")] ∧
      d.step .ideal .plain removal = some u ∧ d.kill .ideal .plain removal 2 = some w ∧
      w.manager.records.map (Option.map fun r => (r.name, r.value "password")) =
        [some ("tf2", "")] ∧ BroughtBack d removal u w.manager.records := by
  intro es removal
  let shown (d : Daemon) := d.manager.records.map (Option.map fun r => (r.name, r.value "password"))
  have told : (Machine.run (power .ideal .plain) {} es).map shown = some [some ("tf2", "secret")] := by
    decide +kernel
  obtain ⟨d, reached, has⟩ := Option.map_eq_some_iff.mp told
  have lost : (Machine.run (power .ideal .plain) {} (es ++ [.killed removal 2])).map shown =
      some [some ("tf2", "")] := by decide +kernel
  rw [Machine.run_snoc reached] at lost
  obtain ⟨w, killed, left⟩ := Option.map_eq_some_iff.mp lost
  obtain ⟨u, hu⟩ := kill_possible killed
  have careful : Machine.EachStep (power .ideal .plain) (Careful .ideal .plain) {} es := by
    refine Machine.eachStep_cons.mpr fun added hadded => ⟨⟨?_, fun _ => rfl⟩, ?_⟩
    · rintro s brings -
      obtain rfl := Option.some.inj brings
      decide
    · refine Machine.eachStep_cons.mpr fun _ _ => ⟨?_, Machine.eachStep_nil⟩
      obtain rfl := Option.some.inj hadded
      rintro s there
      obtain rfl := Option.some.inj there
      decide
  obtain ⟨w', killed', back⟩ := (recovers .plain (fun _ _ => rfl) reached careful).2 removal u 2
    (show Literal "tf2" by decide) hu
  obtain rfl := Option.some.inj (killed.symm.trans killed')
  exact ⟨d, u, w, reached, has, hu, killed, left, back⟩

end Daemon

end Morgoth
