import Morgoth.Roundtrip
import Morgoth.Script
import Morgoth.Transaction

/-!
# The daemon is killed

The slots of the persistor, statement by statement. The process may be killed
between any two of them; the next start finds what was on the disk by then.

* `storeServer_run`, `deleteServer_run`, ...: to the end, the slots do what
  `Persistor` says;
* `storeServer_always`, `deleteServer_always`, ...: what a slot that is killed
  leaves on the disk;
* `killed_disk`: the same for a whole turn of the event loop.
-/

namespace Morgoth

namespace Connection

/-- What is on the disk: an open transaction is not. -/
def durable (c : Connection) : Database := c.saved.getD c.db

/-- A statement on its own. -/
def attempt (failed : Bool) (statement : Database → Database) (c : Connection) : Connection :=
  (c.exec failed statement).getD c

@[simp] theorem attempt_failed (statement : Database → Database) (c : Connection) :
    c.attempt true statement = c := rfl

@[simp] theorem attempt_executed (statement : Database → Database) (c : Connection) :
    c.attempt false statement = { c with db := statement c.db } := rfl

/-! ## The slots -/

namespace Slot

/-- `rollback`, and the end of the slot. -/
def rolledBack : Script Connection Bool := .exec rollback fun _ => .done false

/-- The loop of `storeServer` over the keys, with whether it got to the end. -/
def storeKeys (sql : Sqlite) (fails : Nat → Bool) (id : Nat) :
    Nat → List (String × String) → Script Connection Bool
  | _, [] => .done true
  | n, (key, value) :: rest =>
    .exec (attempt (fails n) fun db => db.insertEntries sql [⟨some id, key, value⟩]) fun _ =>
      if fails n then rolledBack else storeKeys sql fails id (n + 1) rest

def storeServer (env : Environment) (sql : Sqlite) (fails : Nat → Bool) (s : Server) :
    Script Connection Bool :=
  .exec id fun c =>
    if 0 < querySize (c.db.selectServers sql (nameClause s.name)) then .done false
    else .exec transaction fun c =>
      let id := c.db.servers.next
      .exec (attempt (fails 1) fun db => db.insertServer ⟨env.urlToString s.path, s.name⟩) fun _ =>
        if fails 1 then rolledBack
        else if fails 2 then rolledBack
        else (storeKeys sql fails id 3 s.keyValues).bind fun stored =>
          if stored then .exec commit fun _ => .done true else .done false

/-- The loop of `deleteServer` over the ids. -/
def deleteConfigurations (fails : Nat → Bool) : Nat → List Nat → Script Connection Unit
  | _, [] => .done ()
  | n, id :: ids =>
    .exec (attempt (fails n) fun db => db.deleteEntries id) fun _ =>
      deleteConfigurations fails (n + 1) ids

/-- `DELETE FROM servers WHERE` -/
def deleteServers (sql : Sqlite) (name : String) (db : Database) : Database :=
  match sql.whereServers (nameClause name) with
  | some p => { db with servers := db.servers.deleteWhere (p db) }
  | none => db

def deleteServer (sql : Sqlite) (fails : Nat → Bool) (name : String) : Script Connection Unit :=
  .exec id fun c =>
    let ids := if fails 0 then [] else c.db.selectServers sql (nameClause name)
    (deleteConfigurations fails 1 ids).bind fun _ =>
      .exec (attempt (fails (ids.length + 1)) (deleteServers sql name)) fun _ => .done ()

def storeConfigurationEntry (sql : Sqlite) (fails : Nat → Bool) (name key value : String) :
    Script Connection Unit :=
  .exec id fun c =>
    match sql.whereEntries (entryClause name key) with
    | none => .done ()
    | some p =>
      if fails 0 then .done ()
      else if 0 < querySize (c.db.entries.rows.filter (p c.db)) then
        .exec (attempt (fails 1) fun db =>
          match sql.setEntries (entryAssignment value "") with
          | some f => { db with entries := db.entries.update (f db) }
          | none => db) fun _ => .done ()
      else
        .exec (attempt (fails 1) fun db =>
          match sql.valuesEntries (entryValues name key value) with
          | some rows => db.insertEntries sql (rows db)
          | none => db) fun _ => .done ()

def storePluginState (sql : Sqlite) (fails : Nat → Bool) (pluginName : String) (enabled : Bool) :
    Script Connection Unit :=
  .exec (attempt (fails 0) fun db =>
    match sql.valuesPlugins (pluginValues pluginName (if enabled then "1" else "0")) with
    | some rows => (rows db).foldl Database.replacePlugin db
    | none => db) fun _ => .done ()

/-! ## What the slots do to the end -/

variable {sql : Sqlite} {fails : Nat → Bool}

theorem storeKeys_run (id n : Nat) (kvs : List (String × String)) (c : Connection) :
    (storeKeys sql fails id n kvs).run c = Connection.storeKeys sql fails id n kvs c := by
  induction kvs generalizing n c with
  | nil => rfl
  | cons kv kvs ih =>
    unfold storeKeys Connection.storeKeys exec
    cases failed : fails n with
    | true => simp [Script.run, rolledBack]
    | false => simpa [Script.run] using ih (n + 1) _

theorem storeServer_run (env : Environment) (db : Database) (s : Server) :
    (storeServer env sql fails s).run ⟨db, none⟩ =
      (⟨(Persistor.storeServer env sql fails db s).1, none⟩,
        (Persistor.storeServer env sql fails db s).2) := by
  rw [← storeServer_refines]
  unfold storeServer Connection.storeServer
  simp only [Script.run, id, if_neg (Persistor.querySize_small _)]
  unfold exec
  cases fails 1 with
  | true => simp [Script.run, rolledBack]
  | false =>
    cases fails 2 with
    | true => simp [Script.run, rolledBack]
    | false =>
      simp only [attempt_executed, Bool.false_eq_true, if_false, Script.run_bind, storeKeys_run]
      generalize Connection.storeKeys sql fails _ _ _ _ = result
      obtain ⟨c, stored⟩ := result
      cases stored <;> rfl

theorem deleteConfigurations_run (n : Nat) (ids : List Nat) (db : Database) :
    (deleteConfigurations fails n ids).run ⟨db, none⟩ =
      (⟨Persistor.deleteConfigurations fails n ids db, none⟩, ()) := by
  induction ids generalizing n db with
  | nil => rfl
  | cons id ids ih =>
    unfold deleteConfigurations Persistor.deleteConfigurations
    cases fails n with
    | true => simpa [Script.run] using ih (n + 1) db
    | false => simpa [Script.run] using ih (n + 1) _

theorem deleteServer_run (db : Database) (name : String) :
    (deleteServer sql fails name).run ⟨db, none⟩ =
      (⟨Persistor.deleteServer sql fails db name, none⟩, ()) := by
  unfold deleteServer Persistor.deleteServer
  simp only [Script.run, id, Script.run_bind, deleteConfigurations_run]
  generalize (if fails 0 then [] else db.selectServers sql (nameClause name)) = ids
  cases fails (ids.length + 1) with
  | true => simp
  | false =>
    unfold deleteServers
    cases sql.whereServers (nameClause name) <;> simp

theorem storeConfigurationEntry_run (db : Database) (name key value : String) :
    (storeConfigurationEntry sql fails name key value).run ⟨db, none⟩ =
      (⟨Persistor.storeConfigurationEntry sql fails db name key value, none⟩, ()) := by
  unfold storeConfigurationEntry Persistor.storeConfigurationEntry
  cases sql.whereEntries (entryClause name key) with
  | none => rfl
  | some p =>
    simp only [Script.run, id, if_neg (Persistor.querySize_small _)]
    cases fails 0 with
    | true => rfl
    | false =>
      cases fails 1 with
      | true => rfl
      | false => cases sql.valuesEntries (entryValues name key value) <;> rfl

theorem storePluginState_run (db : Database) (pluginName : String) (enabled : Bool) :
    (storePluginState sql fails pluginName enabled).run ⟨db, none⟩ =
      (⟨Persistor.storePluginState sql fails db pluginName enabled, none⟩, ()) := by
  unfold storePluginState Persistor.storePluginState
  cases fails 0 with
  | true => rfl
  | false => cases sql.valuesPlugins _ <;> rfl

/-! ## What they leave on the disk when they are killed -/

theorem storeKeys_always (id n : Nat) (kvs : List (String × String)) (db before : Database) :
    Script.Always (fun c => c.durable = before) (storeKeys sql fails id n kvs)
      ⟨db, some before⟩ := by
  induction kvs generalizing n db with
  | nil => simp [storeKeys, durable]
  | cons kv kvs ih =>
    unfold storeKeys
    rw [Script.always_exec]
    refine ⟨rfl, ?_⟩
    cases fails n with
    | true => simp [rolledBack, Script.always_exec, rollback, durable]
    | false => simpa using ih (n + 1) _

/-- Nothing of the server is on the disk until the transaction is committed. -/
theorem storeServer_always (env : Environment) (sql : Sqlite) (fails : Nat → Bool) (db : Database)
    (s : Server) :
    Script.Always
      (fun c => c.durable = db ∨ c.durable = (Persistor.storeServer env sql fails db s).1)
      (storeServer env sql fails s) ⟨db, none⟩ := by
  unfold storeServer Persistor.storeServer
  rw [Script.always_exec]
  dsimp only [id]
  rw [if_neg (Persistor.querySize_small _), if_neg (Persistor.querySize_small _)]
  rw [Script.always_exec, Script.always_exec]
  refine ⟨.inl rfl, .inl rfl, .inl rfl, ?_⟩
  cases fails 1 with
  | true => simp [rolledBack, Script.always_exec, rollback, durable, transaction]
  | false =>
    cases fails 2 with
    | true => simp [rolledBack, Script.always_exec, rollback, durable, transaction]
    | false =>
      simp only [Bool.false_eq_true, if_false, attempt_executed, transaction]
      rw [Script.always_bind, storeKeys_run, storeKeys_refines]
      refine ⟨(storeKeys_always _ _ _ _ db).mono fun _ => .inl, ?_⟩
      cases Persistor.storeKeys sql fails db.servers.next 3 s.keyValues _ with
      | none => simp [durable]
      | some u => simp [Script.always_exec, durable, commit]

end Slot

end Connection

/-- `u` is `db` without the entries of some of the servers. -/
structure Database.Emptied (ids : List Nat) (db u : Database) : Prop where
  servers : u.servers = db.servers
  rows : u.entries.rows.Sublist db.entries.rows
  entries : ∀ id, u.entriesOf id = db.entriesOf id ∨ id ∈ ids ∧ u.entriesOf id = []

namespace Connection.Slot

open Database (Emptied)

variable {sql : Sqlite} {fails : Nat → Bool} {db u : Database} {ids : List Nat}

theorem emptied_delete (emptied : Emptied ids db u) {id : Nat} (there : id ∈ ids) :
    Emptied ids db (u.deleteEntries id) where
  servers := emptied.servers
  rows := List.filter_sublist.trans emptied.rows
  entries other := by
    have left : (u.deleteEntries id).entriesOf other =
        if other = id then [] else u.entriesOf other := by
      unfold Database.deleteEntries Database.entriesOf
      rw [Table.deleteWhere_rows, List.filter_filter]
      split
      · simp_all
      · apply List.filter_congr
        intro row _
        by_cases own : row.2.serverid = some other <;> simp_all
    rw [left]
    split
    · next here => exact .inr ⟨here ▸ there, rfl⟩
    · exact emptied.entries other

theorem deleteConfigurations_always (fails : Nat → Bool) (n : Nat) {rest : List Nat} (part : rest ⊆ ids)
    (emptied : Emptied ids db u) :
    Script.Always (fun c => c.saved = none ∧ Emptied ids db c.db) (deleteConfigurations fails n rest)
      ⟨u, none⟩ := by
  induction rest generalizing n u with
  | nil => simpa [deleteConfigurations] using emptied
  | cons id rest ih =>
    obtain ⟨there, later⟩ := List.cons_subset.mp part
    unfold deleteConfigurations
    rw [Script.always_exec]
    refine ⟨⟨rfl, emptied⟩, ?_⟩
    cases fails n with
    | true => exact ih (n + 1) later emptied
    | false => exact ih (n + 1) later (emptied_delete emptied there)

theorem deleteConfigurations_emptied (fails : Nat → Bool) (n : Nat) (ids : List Nat) (db : Database) :
    Emptied ids db (Persistor.deleteConfigurations fails n ids db) := by
  have start : Emptied ids db db := ⟨rfl, List.Sublist.refl _, fun _ => .inl rfl⟩
  have loop := deleteConfigurations_always fails n (fun _ there => there) start
  simpa only [deleteConfigurations_run] using loop.run.2

/-- There is no transaction: the entries of a server may be gone and its row not. -/
theorem deleteServer_always (sql : Sqlite) (fails : Nat → Bool) (db : Database) (name : String) :
    Script.Always
      (fun c => Emptied (Persistor.foundIds sql fails db name) db c.durable ∨
        c.durable = Persistor.deleteServer sql fails db name)
      (deleteServer sql fails name) ⟨db, none⟩ := by
  obtain ⟨ids, found⟩ : ∃ ids, Persistor.foundIds sql fails db name = ids := ⟨_, rfl⟩
  have start : Emptied ids db db := ⟨rfl, List.Sublist.refl _, fun _ => .inl rfl⟩
  have loop := deleteConfigurations_always fails 1 (fun _ there => there) start
  rw [found]
  unfold deleteServer Persistor.deleteServer
  rw [Script.always_exec]
  refine ⟨.inl start, ?_⟩
  dsimp only [id]
  unfold Persistor.foundIds at found
  rw [found, Script.always_bind, deleteConfigurations_run, Script.always_exec, Script.always_done]
  refine ⟨loop.mono fun c holds => .inl ?_, .inl (deleteConfigurations_emptied fails 1 ids db), .inr ?_⟩
  · rw [durable, holds.1]
    exact holds.2
  · cases fails (ids.length + 1) with
    | true => simp [durable]
    | false =>
      unfold deleteServers
      cases sql.whereServers (nameClause name) <;> simp [durable]

/-- A slot of one statement. -/
theorem storeConfigurationEntry_always (sql : Sqlite) (fails : Nat → Bool) (db : Database)
    (name key value : String) :
    Script.Always
      (fun c => c.durable = db ∨
        c.durable = Persistor.storeConfigurationEntry sql fails db name key value)
      (storeConfigurationEntry sql fails name key value) ⟨db, none⟩ := by
  unfold storeConfigurationEntry Persistor.storeConfigurationEntry
  rw [Script.always_exec]
  refine ⟨.inl rfl, ?_⟩
  cases sql.whereEntries (entryClause name key) with
  | none => simp [durable]
  | some p =>
    simp only [id, if_neg (Persistor.querySize_small _)]
    cases fails 0 with
    | true => simp [durable]
    | false =>
      cases fails 1 with
      | true => simp [Script.always_exec, durable]
      | false =>
        cases sql.valuesEntries (entryValues name key value) <;>
          simp [Script.always_exec, durable]

theorem storePluginState_always (pluginName : String) (enabled : Bool) :
    Script.Always
      (fun c => c.durable = db ∨
        c.durable = Persistor.storePluginState sql fails db pluginName enabled)
      (storePluginState sql fails pluginName enabled) ⟨db, none⟩ := by
  unfold storePluginState Persistor.storePluginState
  rw [Script.always_exec, Script.always_done]
  refine ⟨.inl rfl, .inr ?_⟩
  cases fails 0 with
  | true => rfl
  | false => cases sql.valuesPlugins _ <;> rfl

end Connection.Slot

/-! ## Turns of the event loop -/

namespace Daemon

open Connection (Slot.storeServer Slot.deleteServer Slot.storeConfigurationEntry
  Slot.storePluginState)

section
variable (env : Environment) (sql : Sqlite) (d : Daemon)

/-- The slot of a signal, where `m` is the manager that emits it. -/
def signalScript (fails : Nat → Bool) (m : ServerManager) :
    ManagerSignal → Script Connection Unit
  | .serverAdded server =>
    match m.heap server with
    | some s => (Slot.storeServer env sql fails s).bind fun _ => .done ()
    | none => .done ()
  | .serverAboutToBeRemoved server =>
    match m.heap server with
    | some s => Slot.deleteServer sql fails s.name
    | none => .done ()

/-- The slots of the connections to a server whose value has changed. -/
def changeScripts (fails : Nat → Bool) :
    Option (ServerId × String × String × String) → List (Script Connection Unit)
  | some (server, name, key, value) => (d.connected.filter (· == server)).map fun _ =>
      Slot.storeConfigurationEntry sql fails name key value
  | none => []

/-- The statements of an event. A start reads only. -/
def script : DaemonEvent → Option (Script Connection Unit)
  | .turn event fails => (d.manager.step env event).map fun m =>
    .all ((m.signals.drop d.manager.signals.length).map (signalScript env sql fails m) ++
      changeScripts sql d fails (valueChanged d.manager event))
  | .pluginStatusChanged name enabled fails => some (Slot.storePluginState sql fails name enabled)
  | .restart => some (.done ())

/-- The daemon is killed after the first statements of an event, and started again. -/
def kill (e : DaemonEvent) (n : Nat) : Option Daemon :=
  (d.script env sql e).bind fun script =>
    step env sql { d with db := (script.killed n ⟨d.db, none⟩).durable } .restart

end

variable {env : Environment} {sql : Sqlite} {d u : Daemon}

/-- The slots of a list of signals, as functions and as scripts. -/
theorem emit_run {α : Type} (slot : α → Daemon → Daemon) {script : α → Script Connection Unit}
    {m : ServerManager}
    (each : ∀ a d, d.manager = m →
      ((script a).run ⟨d.db, none⟩).1 = ⟨(slot a d).db, none⟩ ∧ (slot a d).manager = m)
    (as : List α) {d : Daemon} (here : d.manager = m) :
    ((Script.all (as.map script)).run ⟨d.db, none⟩).1 = ⟨(Signal.emit (as.map slot) d).db, none⟩ ∧
      (Signal.emit (as.map slot) d).manager = m := by
  induction as generalizing d with
  | nil => exact ⟨rfl, here⟩
  | cons a as ih =>
    obtain ⟨first, kept⟩ := each a d here
    simp only [List.map_cons, Script.all, Script.run_bind, Signal.emit_cons, first]
    exact ih kept

theorem signalScript_run {fails : Nat → Bool} {m : ServerManager} (signal : ManagerSignal)
    (d : Daemon) (here : d.manager = m) :
    ((signalScript env sql fails m signal).run ⟨d.db, none⟩).1 =
        ⟨(handleSignal env sql fails signal d).db, none⟩ ∧
      (handleSignal env sql fails signal d).manager = m := by
  refine ⟨?_, (handleSignal_manager fails signal d).trans here⟩
  cases signal with
  | serverAdded server =>
    simp only [signalScript, handleSignal, here]
    cases m.heap server with
    | none => rfl
    | some s => simp [Script.run_bind, Connection.Slot.storeServer_run, Script.run]
  | serverAboutToBeRemoved server =>
    simp only [signalScript, handleSignal, here]
    cases m.heap server with
    | none => rfl
    | some s => simp [Connection.Slot.deleteServer_run]

/-- To the end, the statements of an event do what its slots do. -/
theorem script_run {e : DaemonEvent} (hu : d.step env sql e = some u) :
    ∃ script, d.script env sql e = some script ∧
      (script.run ⟨d.db, none⟩).1 = ⟨u.db, none⟩ := by
  cases e with
  | restart =>
    obtain ⟨made, -, rfl⟩ := Option.map_eq_some_iff.mp hu
    exact ⟨_, rfl, rfl⟩
  | pluginStatusChanged name enabled fails =>
    obtain rfl := Option.some.inj hu
    exact ⟨_, rfl, congrArg Prod.fst (Connection.Slot.storePluginState_run d.db name enabled)⟩
  | turn event fails =>
    obtain ⟨m, moves, rfl⟩ := Option.map_eq_some_iff.mp hu
    refine ⟨_, congrArg (Option.map _) moves, ?_⟩
    obtain ⟨first, kept⟩ := emit_run (handleSignal env sql fails) signalScript_run
      (m.signals.drop d.manager.signals.length) (d := { d with manager := m }) rfl
    unfold slots
    rw [Script.run_all_append, Signal.emit_append, first]
    cases valueChanged d.manager event with
    | none => rfl
    | some change =>
      obtain ⟨server, name, key, value⟩ := change
      refine (emit_run (fun _ d => { d with
        db := Persistor.storeConfigurationEntry sql fails d.db name key value }) ?_ _ kept).1
      intro _ d here
      exact ⟨congrArg Prod.fst (Connection.Slot.storeConfigurationEntry_run d.db name key value), here⟩

/-- One slot that is run, or none. -/
theorem all_single (script : Script Connection Unit) (P : Connection → Prop) (c : Connection) :
    Script.Always P (.all [script]) c ↔ Script.Always P script c := by
  unfold Script.all Script.all
  rw [Script.always_bind, Script.always_done]
  exact and_iff_left_of_imp Script.Always.run

/-- The signals of an event: at most one. -/
theorem signals_cases {e : ManagerEvent} {m u : ServerManager} (hm : m.Sound)
    (moves : m.step env e = some u) :
    u.signals.drop m.signals.length = [] ∨
    (∃ s, u.signals.drop m.signals.length = [.serverAdded m.nextServer] ∧
      u.heap m.nextServer = some s ∧ (ServerManager.brought env m e).isSome) ∨
    ∃ server s, u.signals.drop m.signals.length = [.serverAboutToBeRemoved server] ∧
      u.heap server = some s ∧ e = .remove s.name := by
  cases ServerManager.step_effect hm.fresh moves with
  | added e s brings free =>
    exact .inr (.inl ⟨s, List.drop_left, Function.update_self .., by rw [brings]; rfl⟩)
  | removed name server found =>
    obtain ⟨-, s, there, rfl⟩ := ServerManager.find_some found
    exact .inr (.inr ⟨server, s, List.drop_left, there, rfl⟩)
  | _ => exact .inl List.drop_length

/-- A server is connected once, if at all. -/
theorem changeScripts_cases (hd : d.Sound) (fails : Nat → Bool)
    (change : Option (ServerId × String × String × String)) :
    changeScripts sql d fails change = [] ∨
      ∃ name key value, changeScripts sql d fails change =
        [Slot.storeConfigurationEntry sql fails name key value] := by
  cases change with
  | none => exact .inl rfl
  | some change =>
    obtain ⟨server, name, key, value⟩ := change
    have once := List.nodup_iff_count_le_one.mp hd.once server
    unfold changeScripts
    dsimp only
    rw [List.filter_beq, List.map_replicate]
    rcases Nat.le_one_iff_eq_zero_or_eq_one.mp once with absent | there
    · exact .inl (by rw [absent]; rfl)
    · exact .inr ⟨name, key, value, by rw [there]; rfl⟩

/-- What is on the disk after an event that was killed: what was there before, or what
the whole event makes of it. Only a removal may be found half done. -/
theorem killed_disk (hd : d.Sound) {e : DaemonEvent} (hu : d.step env sql e = some u)
    {script : Script Connection Unit} (statements : d.script env sql e = some script) (n : Nat) :
    (script.killed n ⟨d.db, none⟩).durable = d.db ∨
    (script.killed n ⟨d.db, none⟩).durable = u.db ∨
    ∃ name fails, e = .turn (.remove name) fails ∧
      Database.Emptied (Persistor.foundIds sql fails d.db name) d.db
        (script.killed n ⟨d.db, none⟩).durable := by
  obtain ⟨script', statements', last⟩ := script_run hu
  obtain rfl := Option.some.inj (statements.symm.trans statements')
  cases e with
  | restart =>
    obtain rfl := Option.some.inj statements
    simp [Connection.durable]
  | pluginStatusChanged name enabled fails =>
    obtain rfl := Option.some.inj statements
    obtain rfl := Option.some.inj hu
    refine (Connection.Slot.storePluginState_always name enabled n).imp_right fun whole => .inl ?_
    exact whole
  | turn event fails =>
    obtain ⟨m, moves, rfl⟩ := Option.map_eq_some_iff.mp statements
    rcases signals_cases hd.manager moves with silent | ⟨s, added, there, brings⟩ |
      ⟨server, s, removed, there, rfl⟩
    · rw [silent, List.map_nil, List.nil_append] at last ⊢
      rcases changeScripts_cases hd fails (valueChanged d.manager event) with
        none_run | ⟨name, key, value, one⟩
      · rw [none_run]
        exact .inl (by simp [Script.all, Connection.durable])
      · rw [one] at last ⊢
        have stored := (all_single _ _ _).mpr
          (Connection.Slot.storeConfigurationEntry_always sql fails d.db name key value) n
        have whole : Persistor.storeConfigurationEntry sql fails d.db name key value = u.db := by
          simpa [Script.all, Script.run_bind, Connection.Slot.storeConfigurationEntry_run, Script.run]
            using last
        rw [whole] at stored
        exact stored.imp_right .inl
    · obtain ⟨s', brought⟩ := Option.isSome_iff_exists.mp brings
      rw [added, brought_unchanged brought] at last ⊢
      simp only [List.map_cons, List.map_nil, changeScripts, List.append_nil, signalScript,
        there] at last ⊢
      have stored := (all_single _ _ _).mpr ((Script.always_bind _ fun _ => .done ()).mpr
        ⟨Connection.Slot.storeServer_always env sql fails d.db s, by
          rw [Connection.Slot.storeServer_run, Script.always_done]
          exact .inr rfl⟩) n
      have whole : (Persistor.storeServer env sql fails d.db s).1 = u.db := by
        simpa [Script.all, Script.run_bind, Connection.Slot.storeServer_run, Script.run] using last
      rw [whole] at stored
      exact stored.imp_right .inl
    · rw [removed] at last ⊢
      simp only [List.map_cons, List.map_nil, changeScripts, List.append_nil, signalScript,
        there, valueChanged] at last ⊢
      have deleted := (all_single _ _ _).mpr
        (Connection.Slot.deleteServer_always sql fails d.db s.name) n
      have whole : Persistor.deleteServer sql fails d.db s.name = u.db := by
        simpa [Script.all, Script.run_bind, Connection.Slot.deleteServer_run, Script.run] using last
      rw [whole] at deleted
      rcases deleted with emptied | whole
      · exact .inr (.inr ⟨s.name, fails, rfl, emptied⟩)
      · exact .inr (.inl whole)

end Daemon

end Morgoth
