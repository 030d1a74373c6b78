import Morgoth.Daemon

/-!
# The table of servers and the list of servers

`serverAdded` and `serverAboutToBeRemoved` should keep the table in step with
the list. A name is bound to the statement that stores it, but pasted into the
ones that look for it and delete it; and no slot tells the manager that it has
failed.

* `mirrors_iff`: which runs keep names and paths in step, so that a restart
  brings back what there was;
* `starts_iff`: which runs leave a database that the daemon starts on.
-/

namespace Morgoth

/-! ## What the slots do to the table of servers -/

namespace Persistor

variable (sql : Sqlite) (fails : Nat → Bool) (db : Database)

theorem storeConfigurationEntry_servers (name key value : String) :
    (storeConfigurationEntry sql fails db name key value).servers = db.servers := by
  rw [storeConfigurationEntry_eq]
  rfl

theorem storeEntries_servers (name key value : String) (n : Nat) :
    ((fun db => storeConfigurationEntry sql fails db name key value)^[n] db).servers =
      db.servers := by
  induction n generalizing db with
  | zero => rfl
  | succ n ih =>
    rw [Function.iterate_succ_apply, ih]
    exact storeConfigurationEntry_servers sql fails db name key value

theorem storePluginState_servers (name : String) (enabled : Bool) :
    (storePluginState sql fails db name enabled).servers = db.servers := by
  unfold storePluginState
  cases fails 0 with
  | true => rfl
  | false =>
    cases sql.valuesPlugins (pluginValues name (if enabled then "1" else "0")) with
    | none => rfl
    | some rows =>
      have kept (new : List PluginRow) (db : Database) :
          (new.foldl Database.replacePlugin db).servers = db.servers := by
        induction new generalizing db with
        | nil => rfl
        | cons row new ih => exact ih (db.replacePlugin row)
      exact kept (rows db) db

theorem deleteServer_servers (name : String) :
    (deleteServer sql fails db name).servers =
      db.servers.deleteWhere (takes sql fails db name) := by
  rw [deleteServer_eq]

end Persistor

namespace Database

/-- The names and paths that a start brings back. -/
def places (env : Environment) (sql : Sqlite) (db : Database) : List (String × QUrl) :=
  db.servers.rows.map fun row =>
    (row.2.name, ServerManager.fixedPath env 0 (sql.toUrl row.2.path))

theorem places_names (env : Environment) (sql : Sqlite) (db : Database) :
    (db.places env sql).map Prod.fst = db.names := by
  unfold places names
  rw [List.map_map]
  rfl

theorem records_places {env : Environment} (same : env.SameFiles) (sql : Sqlite) (db : Database) :
    (db.records env sql).map Record.place = db.places env sql := by
  unfold records places
  rw [List.map_map]
  conv_rhs => rw [← List.zipIdx_map_fst 0 db.servers.rows, List.map_map]
  apply List.map_congr_left
  rintro ⟨row, server⟩ _
  have fixed : ServerManager.fixedPath env server = ServerManager.fixedPath env 0 := by
    funext path
    unfold ServerManager.fixedPath
    rw [same server 0]
  simp only [Function.comp_apply, Record.place, record, fixed]

end Database

namespace Daemon

open Persistor (init takes Stores)

variable {env : Environment} {sql : Sqlite} {d u : Daemon}

/-! ## Names and paths -/

/-- A restart brings back the servers of the manager: the same names in the
same order, each with the same path. -/
def Mirrors (env : Environment) (sql : Sqlite) (d : Daemon) : Prop :=
  ∃ m connected, init env sql d.db = some (m, connected) ∧ m.places = d.manager.places

/-- A server that is added is stored, and its path reads back as it was; the
statement that deletes a server takes the rows of its name and no others. -/
def InStep (env : Environment) (sql : Sqlite) (d : Daemon) : DaemonEvent → Prop
  | .turn (.remove name) fails => ∀ server, d.manager.find name = some server →
      ∀ row ∈ d.db.servers.rows, takes sql fails d.db name row = (row.2.name == name)
  | .turn e fails => ∀ s, ServerManager.brought env d.manager e = some s →
      d.manager.find s.name = none →
      Stores fails s ∧ ServerManager.fixedPath env 0 (sql.toUrl (env.urlToString s.path)) = s.path
  | _ => True

theorem mirrors_iff_places (same : env.SameFiles) (hd : d.Sound) :
    d.Mirrors env sql ↔ (d.db.places env sql).map some = d.manager.places := by
  have brought {m : ServerManager} (records : m.records = (d.db.records env sql).map some) :
      m.places = (d.db.places env sql).map some := by
    rw [ServerManager.places, records, List.map_map, ← Database.records_places same, List.map_map]
    rfl
  constructor
  · rintro ⟨m, connected, start, places⟩
    obtain ⟨-, -, -, records⟩ := Persistor.init_made start
    rw [← brought records, places]
  · intro places
    have distinct : d.db.names.Nodup := by
      have listed : d.manager.names = d.db.names.map some := by
        rw [ServerManager.names_places, ← places, ← Database.places_names env sql, List.map_map,
          List.map_map]
        rfl
      exact List.Nodup.of_map some (listed ▸ hd.distinct)
    obtain ⟨m, start, -, records⟩ := Persistor.init_some env sql distinct
    exact ⟨m, m.servers, start, (brought records).trans places⟩

/-- An event adds one server at most. -/
theorem forall_added {e : ManagerEvent} {s : Server}
    (brings : ServerManager.brought env d.manager e = some s)
    (free : d.manager.find s.name = none) (condition : Server → Prop) :
    (∀ s, ServerManager.brought env d.manager e = some s → d.manager.find s.name = none →
      condition s) ↔ condition s := by
  rw [brings]
  constructor
  · exact fun all => all s rfl free
  · rintro good s' ⟨⟩ _
    exact good

theorem inStep_added {e : ManagerEvent} {fails : Nat → Bool} {s : Server}
    (brings : ServerManager.brought env d.manager e = some s)
    (free : d.manager.find s.name = none) :
    d.InStep env sql (.turn e fails) ↔ Stores fails s ∧
      ServerManager.fixedPath env 0 (sql.toUrl (env.urlToString s.path)) = s.path := by
  cases e with
  | add | addServer => exact forall_added brings free _
  | _ => cases brings

theorem inStep_idle {e : ManagerEvent} (fails : Nat → Bool) (idle : Idle env d e) :
    d.InStep env sql (.turn e fails) := by
  cases e with
  | remove name =>
    intro server found
    rw [show d.manager.find name = none from idle] at found
    cases found
  | _ => exact fun s brings free => absurd free (idle.not_added brings)

/-- A row more on both sides. -/
theorem added_in_step {s : Server} {rows : List (Option (String × QUrl))}
    (hi : (d.db.places env sql).map some = rows) (fails : Nat → Bool) :
    ((if Stores fails s then Persistor.withServer env sql d.db s else d.db).places env sql).map some
        = rows ++ [some (s.name, s.path)] ↔
      Stores fails s ∧
        ServerManager.fixedPath env 0 (sql.toUrl (env.urlToString s.path)) = s.path := by
  by_cases stores : Stores fails s
  · have row : (Persistor.withServer env sql d.db s).places env sql = d.db.places env sql ++
        [(s.name, ServerManager.fixedPath env 0 (sql.toUrl (env.urlToString s.path)))] :=
      List.map_append
    rw [if_pos stores, row, List.map_append, hi, List.append_right_inj]
    simp [stores]
  · rw [if_neg stores, hi]
    apply iff_of_false
    · intro same
      simpa using congrArg List.length same
    · exact fun good => stores good.1

/-- The same rows fewer on both sides. -/
theorem removed_in_step {rows : List (Option (String × QUrl))}
    (hi : (d.db.places env sql).map some = rows) (distinct : d.db.names.Nodup) (name : String)
    (fails : Nat → Bool) :
    ((Persistor.deleteServer sql fails d.db name).places env sql).map some =
        rows.filter (fun place => place.map Prod.fst != some name) ↔
      ∀ row ∈ d.db.servers.rows, takes sql fails d.db name row = (row.2.name == name) := by
  subst hi
  let place (row : Nat × ServerRow) : Option (String × QUrl) :=
    some (row.2.name, ServerManager.fixedPath env 0 (sql.toUrl row.2.path))
  have left : ((Persistor.deleteServer sql fails d.db name).places env sql).map some =
      (d.db.servers.rows.filter fun row => !takes sql fails d.db name row).map place := by
    unfold Database.places
    rw [Persistor.deleteServer_servers, List.map_map]
    rfl
  have right : ((d.db.places env sql).map some).filter
        (fun place => place.map Prod.fst != some name) =
      (d.db.servers.rows.filter fun row => row.2.name != name).map place := by
    unfold Database.places
    rw [List.map_map, List.filter_map]
    rfl
  have places : (d.db.servers.rows.map place).Nodup := by
    apply List.Nodup.of_map (Option.map Prod.fst)
    have named : (d.db.servers.rows.map place).map (Option.map Prod.fst) = d.db.names.map some := by
      unfold Database.names
      rw [List.map_map, List.map_map]
      rfl
    rw [named]
    exact distinct.map (Option.some_injective _)
  rw [left, right, Table.map_filter_inj places]
  simp only [bne, Bool.not_inj_iff]

/-- From a daemon whose table is in step, a step leads to another one exactly
if it meets the condition. -/
theorem step_mirrors (same : env.SameFiles) {e : DaemonEvent} (hd : d.Sound)
    (hi : d.Mirrors env sql) (hu : d.step env sql e = some u) :
    u.Mirrors env sql ↔ d.InStep env sql e := by
  have hu' := step_sound hd hu
  have distinct : d.db.names.Nodup := by
    obtain ⟨m, connected, start, -⟩ := hi
    exact (Persistor.init_made start).1
  rw [mirrors_iff_places same hd] at hi
  rw [mirrors_iff_places same hu']
  cases step_effect hd.manager hu with
  | added e fails s brings free u heap servers db connected =>
    have places : u.manager.places = d.manager.places ++ [some (s.name, s.path)] := by
      rw [ServerManager.places, ServerManager.added_records hd.manager.fresh heap servers,
        List.map_append]
      rfl
    rw [inStep_added brings free, places, db]
    exact added_in_step hi fails
  | removed name fails server found u heap servers db connected =>
    have places : u.manager.places =
        d.manager.places.filter fun place => place.map Prod.fst != some name := by
      rw [ServerManager.places, ServerManager.removed_records hd.distinct found heap servers,
        ServerManager.places, List.filter_map]
      congr 1
      apply List.filter_congr
      intro record _
      cases record <;> rfl
    rw [places, db, removed_in_step hi distinct]
    exact ⟨fun good _ _ => good, fun good => good server found⟩
  | changed server key value fails s there configured new u heap servers db connected =>
    refine iff_of_true ?_ (fun _ brings => by cases brings)
    rw [ServerManager.setValue_places there heap servers, db, Database.places,
      Persistor.storeEntries_servers]
    exact hi
  | quiet e fails u records servers db connected idle =>
    refine iff_of_true ?_ (inStep_idle fails idle)
    rw [ServerManager.places, records, db]
    exact hi
  | plugin name enabled fails =>
    refine iff_of_true ?_ trivial
    rw [Database.places, Persistor.storePluginState_servers]
    exact hi
  | restarted m connected start =>
    refine iff_of_true ?_ trivial
    exact (mirrors_iff_places same hu').mp ⟨m, connected, start, rfl⟩

/-- A restart brings back exactly the servers of the manager, in every state
that a run reaches, exactly if each of its steps keeps the table in step with
the list. -/
theorem mirrors_iff (sql : Sqlite) (same : env.SameFiles) (es : List DaemonEvent) :
    Machine.Throughout (step env sql) (Mirrors env sql) {} es ↔
      Machine.EachStep (step env sql) (InStep env sql) {} es := by
  apply Machine.throughout_iff_eachStep (A := Sound)
  · intro d e _ u hd hu
    exact step_sound hd hu
  · intro d e _ u hd hi hu
    exact step_mirrors same hd hi hu
  · exact init_sound
  · exact ⟨{}, [], rfl, rfl⟩

/-- A name with a quote. -/
def obrien : List DaemonEvent :=
  [.turn (.add { path := "/srv/tf2" } "o'brien") fun _ => false,
    .turn (.remove "o'brien") fun _ => false]

theorem mirrors_iff_quoted :
    Machine.Throughout (step .ideal .plain) (Mirrors .ideal .plain) {} obrien ↔
      Machine.EachStep (step .ideal .plain) (InStep .ideal .plain) {} obrien :=
  mirrors_iff .plain (fun _ _ => rfl) obrien

/-- The row stays behind, and the server with it. -/
theorem quoted_name_comes_back :
    Environment.ideal.SameFiles ∧
    ∃ d m, run .ideal .plain {} obrien = some d ∧ d.manager.servers = [] ∧
      init .ideal .plain d.db = some (m, [0]) ∧ m.names = [some "o'brien"] ∧
      ¬ d.Mirrors .ideal .plain := by
  refine ⟨fun _ _ => rfl, _, _, rfl, rfl, rfl, rfl, ?_⟩
  rintro ⟨m, connected, start, places⟩
  obtain ⟨rfl, rfl⟩ := Prod.mk.inj (Option.some.inj start)
  cases places

/-! ## Distinct names -/

/-- The next start does not use the null pointer. -/
def Starts (env : Environment) (sql : Sqlite) (d : Daemon) : Prop :=
  (init env sql d.db).isSome

/-- A server that is stored finds no row of its name. -/
def FindsNoRow (env : Environment) (d : Daemon) : DaemonEvent → Prop
  | .turn e fails => ∀ s, ServerManager.brought env d.manager e = some s →
      d.manager.find s.name = none → Stores fails s → s.name ∉ d.db.names
  | _ => True

/-- From a database that the daemon starts on, a step leads to another one
exactly if it meets the condition. -/
theorem step_starts {e : DaemonEvent} (hd : d.Sound) (hi : d.Starts env sql)
    (hu : d.step env sql e = some u) : u.Starts env sql ↔ d.FindsNoRow env e := by
  unfold Starts at hi ⊢
  rw [Persistor.init_isSome] at hi ⊢
  cases step_effect hd.manager hu with
  | added e fails s brings free u heap servers db connected =>
    have condition : d.FindsNoRow env (.turn e fails) ↔ (Stores fails s → s.name ∉ d.db.names) :=
      forall_added brings free _
    rw [condition, db]
    by_cases stores : Stores fails s
    · have names : (Persistor.withServer env sql d.db s).names = d.db.names ++ [s.name] :=
        List.map_append
      rw [if_pos stores, names, List.nodup_append]
      constructor
      · rintro ⟨-, -, apart⟩ _ there
        exact apart s.name there s.name List.mem_cons_self rfl
      · intro new
        refine ⟨hi, List.nodup_singleton _, fun name there other last => ?_⟩
        rw [List.mem_singleton.mp last]
        rintro rfl
        exact new stores there
    · rw [if_neg stores]
      exact iff_of_true hi fun good => absurd good stores
  | removed name fails server found u heap servers db connected =>
    refine iff_of_true ?_ (fun s brings => by cases brings)
    rw [db, Database.names, Persistor.deleteServer_servers]
    exact hi.sublist (List.filter_sublist.map _)
  | changed server key value fails s there configured new u heap servers db connected =>
    refine iff_of_true ?_ (fun s brings => by cases brings)
    rw [db, Database.names, Persistor.storeEntries_servers]
    exact hi
  | quiet e fails u records servers db connected idle =>
    refine iff_of_true ?_ (fun s brings free => absurd free (idle.not_added brings))
    rw [db]
    exact hi
  | plugin name enabled fails =>
    refine iff_of_true ?_ trivial
    rw [Database.names, Persistor.storePluginState_servers]
    exact hi
  | restarted m connected start => exact iff_of_true hi trivial

/-- The daemon starts on the database of every state that a run reaches,
exactly if no server is stored whose name is in the table already. -/
theorem starts_iff (env : Environment) (sql : Sqlite) (es : List DaemonEvent) :
    Machine.Throughout (step env sql) (Starts env sql) {} es ↔
      Machine.EachStep (step env sql) (FindsNoRow env) {} es := by
  apply Machine.throughout_iff_eachStep (A := Sound)
  · intro d e _ u hd hu
    exact step_sound hd hu
  · intro d e _ u hd hi hu
    exact step_starts hd hi hu
  · exact init_sound
  · rfl

/-- The DELETE of the row fails once; the server is added again, since the
manager does not know the row, and neither does the SELECT that looks for it. -/
theorem second_row_stops_daemon :
    ∃ d, run .ideal .plain {} [
        .turn (.add { path := "/srv/tf2" } "tf2") fun _ => false,
        .turn (.remove "tf2") fun n => n == 2,
        .turn (.add { path := "/srv/tf2" } "tf2") fun _ => false] = some d ∧
      d.db.names = ["tf2", "tf2"] ∧ init .ideal .plain d.db = none ∧
      ¬ d.Starts .ideal .plain := by
  refine ⟨_, rfl, rfl, rfl, ?_⟩
  intro starts
  cases starts

end Daemon

end Morgoth
