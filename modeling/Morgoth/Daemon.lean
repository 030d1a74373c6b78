import Morgoth.Restore

/-!
# The daemon and its database

The manager, the persistor's database, and the connections between them: one
event is one turn of the event loop with the slots of the persistor that it
runs, or the end of the daemon and its next start on the same database.

* `step_effect`: what each event does to manager and database, guards included;
  later modules use this and never unfold a slot.
-/

namespace Morgoth

structure Daemon where
  manager : ServerManager := {}
  db : Database := {}
  connected : List ServerId := []

/-- `fails` is for the statements of the slots that the event runs. -/
inductive DaemonEvent
  | turn (event : ManagerEvent) (fails : Nat → Bool)
  | pluginStatusChanged (name : String) (enabled : Bool) (fails : Nat → Bool)
  | restart

namespace Daemon

/-- The slots of `serverAdded` and `serverAboutToBeRemoved`. -/
def handleSignal (env : Environment) (sql : Sqlite) (fails : Nat → Bool) (signal : ManagerSignal)
    (d : Daemon) : Daemon :=
  match signal with
  | .serverAdded server =>
    match d.manager.heap server with
    | some s =>
      let stored := Persistor.storeServer env sql fails d.db s
      { d with
        db := stored.1
        connected := if stored.2 then d.connected ++ [server] else d.connected }
    | none => d
  | .serverAboutToBeRemoved server =>
    match d.manager.heap server with
    | some s => { d with db := Persistor.deleteServer sql fails d.db s.name }
    | none => d

/-- The `valueChanged` that an event emits, with the name of its server. -/
def valueChanged (m : ServerManager) : ManagerEvent → Option (ServerId × String × String × String)
  | .server server (.setValue key value) =>
    (m.heap server).bind fun s => s.configuration.bind fun c =>
      (c.setValue key value).2.map fun change => (server, s.name, change)
  | _ => none

/-- The slots that an event runs, with the manager as it is after it. -/
def slots (env : Environment) (sql : Sqlite) (d : Daemon) (event : ManagerEvent)
    (fails : Nat → Bool) (m : ServerManager) : List (Daemon → Daemon) :=
  ((m.signals.drop d.manager.signals.length).map (handleSignal env sql fails)) ++
  match valueChanged d.manager event with
  | some (server, name, key, value) =>
    (d.connected.filter (· == server)).map fun _ d =>
      { d with db := Persistor.storeConfigurationEntry sql fails d.db name key value }
  | none => []

def step (env : Environment) (sql : Sqlite) (d : Daemon) : DaemonEvent → Option Daemon
  | .turn event fails => (d.manager.step env event).map fun m =>
    Signal.emit (slots env sql d event fails m) { d with manager := m }
  | .pluginStatusChanged name enabled fails =>
    some { d with db := Persistor.storePluginState sql fails d.db name enabled }
  | .restart => (Persistor.init env sql d.db).map fun (m, connected) =>
    { manager := m, db := d.db, connected := connected }

abbrev run (env : Environment) (sql : Sqlite) : Daemon → List DaemonEvent → Option Daemon :=
  Machine.run (step env sql)

/-! ## What an event does -/

/-- Nothing that is stored is changed. -/
def Idle (env : Environment) (d : Daemon) : ManagerEvent → Prop
  | .remove name => d.manager.find name = none
  | .server server (.setValue key value) => ∀ s, d.manager.heap server = some s →
      s.configuration.isSome → s.record.value key = value
  | e => ∀ s, ServerManager.brought env d.manager e = some s → (d.manager.find s.name).isSome

inductive Effect (env : Environment) (sql : Sqlite) (d : Daemon) : DaemonEvent → Daemon → Prop
  | added (e : ManagerEvent) (fails : Nat → Bool) (s : Server)
      (brings : ServerManager.brought env d.manager e = some s)
      (free : d.manager.find s.name = none) (u : Daemon)
      (heap : u.manager.heap = Function.update d.manager.heap d.manager.nextServer (some s))
      (servers : u.manager.servers = d.manager.servers ++ [d.manager.nextServer])
      (db : u.db = if Persistor.Stores fails s then Persistor.withServer env sql d.db s else d.db)
      (connected : u.connected =
        if Persistor.Stores fails s then d.connected ++ [d.manager.nextServer] else d.connected) :
      Effect env sql d (.turn e fails) u
  | removed (name : String) (fails : Nat → Bool) (server : ServerId)
      (found : d.manager.find name = some server) (u : Daemon)
      (heap : u.manager.heap = d.manager.heap)
      (servers : u.manager.servers = d.manager.servers.filter (· != server))
      (db : u.db = Persistor.deleteServer sql fails d.db name)
      (connected : u.connected = d.connected) :
      Effect env sql d (.turn (.remove name) fails) u
  | changed (server : ServerId) (key value : String) (fails : Nat → Bool) (s : Server)
      (there : d.manager.heap server = some s) (configured : s.configuration.isSome)
      (new : s.record.value key ≠ value) (u : Daemon)
      (heap : u.manager.heap =
        Function.update d.manager.heap server (some (s.setValue key value)))
      (servers : u.manager.servers = d.manager.servers)
      (db : u.db = (fun db => Persistor.storeConfigurationEntry sql fails db s.name key value)^[
        d.connected.count server] d.db)
      (connected : u.connected = d.connected) :
      Effect env sql d (.turn (.server server (.setValue key value)) fails) u
  | quiet (e : ManagerEvent) (fails : Nat → Bool) (u : Daemon)
      (records : u.manager.records = d.manager.records)
      (servers : u.manager.servers = d.manager.servers)
      (db : u.db = d.db) (connected : u.connected = d.connected)
      (idle : Idle env d e) :
      Effect env sql d (.turn e fails) u
  | plugin (name : String) (enabled : Bool) (fails : Nat → Bool) :
      Effect env sql d (.pluginStatusChanged name enabled fails)
        { d with db := Persistor.storePluginState sql fails d.db name enabled }
  | restarted (m : ServerManager) (connected : List ServerId)
      (start : Persistor.init env sql d.db = some (m, connected)) :
      Effect env sql d .restart { manager := m, db := d.db, connected := connected }

variable {env : Environment} {sql : Sqlite} {d u : Daemon}

theorem Idle.not_added {e : ManagerEvent} (idle : Idle env d e) {s : Server}
    (brings : ServerManager.brought env d.manager e = some s) : d.manager.find s.name ≠ none := by
  cases e with
  | add | addServer => exact Option.isSome_iff_ne_none.mp (idle s brings)
  | _ => cases brings

theorem handleSignal_manager (fails : Nat → Bool) (signal : ManagerSignal) (d : Daemon) :
    (handleSignal env sql fails signal d).manager = d.manager := by
  cases signal with
  | serverAdded server =>
    simp only [handleSignal]
    cases d.manager.heap server <;> rfl
  | serverAboutToBeRemoved server =>
    simp only [handleSignal]
    cases d.manager.heap server <;> rfl

/-- The slots of the persistor do not touch the manager. -/
theorem turn_manager {e : ManagerEvent} {fails : Nat → Bool}
    (hu : d.step env sql (.turn e fails) = some u) : d.manager.step env e = some u.manager := by
  obtain ⟨m, hm, rfl⟩ := Option.map_eq_some_iff.mp hu
  rw [hm]
  refine congrArg some (Eq.symm ?_)
  refine Signal.emit_frame (f := Daemon.manager) ?_ _
  intro slot hslot t
  rcases List.mem_append.mp hslot with hs | hs
  · obtain ⟨signal, -, rfl⟩ := List.mem_map.mp hs
    exact handleSignal_manager fails signal t
  · cases changed : valueChanged d.manager e with
    | none =>
      rw [changed] at hs
      cases hs
    | some change =>
      rw [changed] at hs
      obtain ⟨_, -, rfl⟩ := List.mem_map.mp hs
      rfl

/-- The slots of an event that changes no value. -/
theorem slots_signals {e : ManagerEvent} {m : ServerManager} {new : List ManagerSignal}
    (fails : Nat → Bool) (unchanged : valueChanged d.manager e = none)
    (signals : m.signals = d.manager.signals ++ new) :
    slots env sql d e fails m = new.map (handleSignal env sql fails) := by
  unfold slots
  rw [unchanged, signals, List.drop_left, List.append_nil]

theorem brought_unchanged {m : ServerManager} {e : ManagerEvent} {s : Server}
    (brings : ServerManager.brought env m e = some s) : valueChanged m e = none := by
  cases e with
  | add | addServer => rfl
  | _ => cases brings

/-- A turn that runs no slot. -/
theorem quietly (e : ManagerEvent) (fails : Nat → Bool) {m : ServerManager}
    (signals : m.signals = d.manager.signals) (silent : valueChanged d.manager e = none)
    (records : m.records = d.manager.records) (servers : m.servers = d.manager.servers)
    (idle : Idle env d e) :
    Effect env sql d (.turn e fails)
      (Signal.emit (slots env sql d e fails m) { d with manager := m }) := by
  have none_run : slots env sql d e fails m = [] :=
    slots_signals fails silent (signals.trans (List.append_nil _).symm)
  rw [none_run]
  exact .quiet e fails _ records servers rfl rfl idle

theorem alone_records {server : ServerId} {s t : Server} (there : d.manager.heap server = some s)
    (same : t.record = s.record) :
    ServerManager.records
      { d.manager with heap := Function.update d.manager.heap server (some t) } =
      d.manager.records := by
  refine ServerManager.records_congr rfl fun other _ => ?_
  dsimp only
  by_cases here : other = server
  · subst here
    rw [Function.update_self, there, Option.map_some, Option.map_some, same]
  · rw [Function.update_of_ne here]

/-- A slot that is connected several times stores as often. -/
theorem iterate_db (store : Database → Database) (n : Nat) (d : Daemon) :
    (fun d : Daemon => { d with db := store d.db })^[n] d = { d with db := store^[n] d.db } := by
  induction n generalizing d with
  | zero => rfl
  | succ n ih => exact ih _

/-- A call of `setValue`, with the slots of the connections to the server. -/
theorem setValue_effect {server : ServerId} {key value : String} (fails : Nat → Bool) {s : Server}
    (there : d.manager.heap server = some s) {m : ServerManager}
    (moved : m = { d.manager with
      heap := Function.update d.manager.heap server (some (s.setValue key value)) }) :
    Effect env sql d (.turn (.server server (.setValue key value)) fails)
      (Signal.emit (slots env sql d (.server server (.setValue key value)) fails m)
        { d with manager := m }) := by
  subst moved
  have emitted : valueChanged d.manager (.server server (.setValue key value)) =
      s.configuration.bind fun c =>
        (c.setValue key value).2.map fun change => (server, s.name, change) := by
    simp only [valueChanged, there, Option.bind_some]
  cases configured : s.configuration with
  | none =>
    have kept : (s.setValue key value).record = s.record := by
      simp only [Server.record, Server.setValue, configured, Option.map_none]
    rw [configured] at emitted
    refine quietly _ fails rfl emitted (alone_records there kept) rfl fun s' there' has => ?_
    obtain rfl := Option.some.inj (there.symm.trans there')
    rw [configured] at has
    cases has
  | some c =>
    have held : s.record.value key = c.value key := by
      simp only [Server.record, configured, Option.map_some, Option.getD_some]
    rw [configured, Option.bind_some] at emitted
    by_cases unchanged : c.value key = value
    · have kept : (s.setValue key value).record = s.record := by
        rw [Server.setValue_record s key value (by rw [configured]; rfl), ← unchanged, ← held,
          Function.update_eq_self]
      rw [c.setValue_same unchanged] at emitted
      refine quietly _ fails rfl emitted (alone_records there kept) rfl fun s' there' _ => ?_
      obtain rfl := Option.some.inj (there.symm.trans there')
      exact held.trans unchanged
    · rw [c.setValue_new unchanged] at emitted
      have run : slots env sql d (.server server (.setValue key value)) fails
          { d.manager with
            heap := Function.update d.manager.heap server (some (s.setValue key value)) } =
          (d.connected.filter (· == server)).map fun _ d =>
            { d with db := Persistor.storeConfigurationEntry sql fails d.db s.name key value } := by
        unfold slots
        rw [emitted]
        simp
      rw [run, Signal.emit_same, iterate_db fun db =>
        Persistor.storeConfigurationEntry sql fails db s.name key value]
      refine .changed server key value fails s there (by rw [configured]; rfl) ?_ _ rfl rfl ?_ rfl
      · rw [held]
        exact unchanged
      · rw [List.count_eq_length_filter]

theorem step_effect {e : DaemonEvent} (hm : d.manager.Sound) (hu : d.step env sql e = some u) :
    Effect env sql d e u := by
  cases e with
  | pluginStatusChanged name enabled fails =>
    obtain rfl := Option.some.inj hu
    exact .plugin name enabled fails
  | restart =>
    obtain ⟨⟨m, connected⟩, start, rfl⟩ := Option.map_eq_some_iff.mp hu
    exact .restarted m connected start
  | turn e fails =>
    obtain ⟨m, happens, rfl⟩ := Option.map_eq_some_iff.mp hu
    cases ServerManager.step_effect hm.fresh happens with
    | added e s brings free =>
      rw [slots_signals fails (brought_unchanged brings) rfl]
      have there : Function.update d.manager.heap d.manager.nextServer (some s)
          d.manager.nextServer = some s := Function.update_self ..
      simp only [List.map_cons, List.map_nil, Signal.emit_cons, Signal.emit_nil, handleSignal, there,
        Persistor.storeServer_eq]
      apply Effect.added e fails s brings free
      · rfl
      · rfl
      · split <;> rfl
      · split <;> rfl
    | removed name server found =>
      obtain ⟨-, s, there, rfl⟩ := ServerManager.find_some found
      rw [slots_signals fails rfl rfl]
      simp only [List.map_cons, List.map_nil, Signal.emit_cons, Signal.emit_nil, handleSignal, there]
      exact .removed s.name fails server found _ rfl rfl rfl rfl
    | refused e s brings taken =>
      refine quietly e fails rfl (brought_unchanged brings) rfl rfl ?_
      cases e with
      | add | addServer =>
        intro s' brings'
        obtain rfl := Option.some.inj (brings.symm.trans brings')
        exact taken
      | _ => cases brings
    | unknown name missing => exact quietly _ fails rfl rfl rfl rfl missing
    | alone server event s t unmanaged there moves =>
      cases event with
      | setValue key value =>
        have changed := Option.some.inj moves
        subst changed
        exact setValue_effect fails there rfl
      | _ =>
        have same : t.record = s.record :=
          Server.step_record (fun _ _ other => by cases other) moves
        exact quietly _ fails rfl rfl (alone_records there same) rfl fun _ brings => by cases brings
    | registered gameServer server matched =>
      refine quietly _ fails rfl rfl ?_ rfl fun _ brings => by cases brings
      exact ServerManager.reach_records fun s _ => Server.gameServerOnline_record _ _ _ s
    | unmatched | pinged | answered | lostAgain =>
      exact quietly _ fails rfl rfl rfl rfl fun _ brings => by cases brings
    | lost gameServer round error server =>
      refine quietly _ fails rfl rfl ?_ rfl fun _ brings => by cases brings
      exact ServerManager.reach_records fun s _ => Server.gameServerTimedOut_record _ s
    | quit iface server =>
      refine quietly _ fails rfl rfl ?_ rfl fun _ brings => by cases brings
      exact ServerManager.reach_records fun s _ => Server.aboutToQuit_record _ iface s
    | dropped iface server =>
      refine quietly _ fails rfl rfl ?_ rfl fun _ brings => by cases brings
      exact ServerManager.reach_records fun _ _ => rfl
    | destroyed server scheduled =>
      refine quietly _ fails rfl rfl ?_ rfl fun _ brings => by cases brings
      refine ServerManager.records_congr rfl fun t listed => ?_
      have other : t ≠ server := by
        rintro rfl
        exact (hm.doomed t scheduled).2 listed
      rw [show (d.manager.deleteServer server).heap t = d.manager.heap t from
        Function.update_of_ne other _ _]

/-! ## What every run keeps -/

structure Sound (d : Daemon) : Prop where
  manager : d.manager.Sound
  distinct : d.manager.names.Nodup
  once : d.connected.Nodup
  made : ∀ server ∈ d.connected, server < d.manager.nextServer

theorem init_sound : Sound {} where
  manager := ServerManager.init_sound
  distinct := List.nodup_nil
  once := List.nodup_nil
  made := nofun

/-- The database has no part in it. -/
theorem Sound.congr (hd : d.Sound) (manager : u.manager = d.manager)
    (connected : u.connected = d.connected) : u.Sound where
  manager := by
    rw [manager]
    exact hd.manager
  distinct := by
    rw [manager]
    exact hd.distinct
  once := by
    rw [connected]
    exact hd.once
  made := by
    rw [manager, connected]
    exact hd.made

/-- What a turn makes of the manager and its numbers. -/
theorem turn_sound {e : ManagerEvent} {fails : Nat → Bool} (hm : d.manager.Sound)
    (hu : d.step env sql (.turn e fails) = some u) :
    u.manager.Sound ∧ d.manager.nextServer ≤ u.manager.nextServer ∧
    ((ServerManager.brought env d.manager e).isSome →
      d.manager.nextServer < u.manager.nextServer) := by
  have moves := turn_manager hu
  obtain ⟨servers, -, more⟩ := ServerManager.effect_next (ServerManager.step_effect hm.fresh moves)
  exact ⟨ServerManager.step_sound hm moves, servers, more⟩

/-- One more server is connected, and was the next one to be created. -/
theorem made_append {connected : List ServerId} {next later : ServerId}
    (made : ∀ server ∈ connected, server < next) (older : next < later) :
    ∀ server ∈ connected ++ [next], server < later := by
  intro server there
  rcases List.mem_append.mp there with old | new
  · exact Nat.lt_trans (made server old) older
  · rw [List.mem_singleton.mp new]
    exact older

/-- A turn that connects no server leaves the names to be checked. -/
theorem Sound.turn {e : ManagerEvent} {fails : Nat → Bool} (hd : d.Sound)
    (hu : d.step env sql (.turn e fails) = some u) (connected : u.connected = d.connected)
    (distinct : u.manager.names.Nodup) : u.Sound := by
  obtain ⟨manager, next, -⟩ := turn_sound hd.manager hu
  refine ⟨manager, distinct, ?_, ?_⟩
  · rw [connected]
    exact hd.once
  · rw [connected]
    exact fun server there => Nat.lt_of_lt_of_le (hd.made server there) next

theorem step_sound {e : DaemonEvent} (hd : d.Sound) (hu : d.step env sql e = some u) :
    u.Sound := by
  cases step_effect hd.manager hu with
  | added e fails s brings free u heap servers db connected =>
    obtain ⟨manager, next, more⟩ := turn_sound hd.manager hu
    have later := more (by rw [brings]; rfl)
    have records := ServerManager.added_records hd.manager.fresh heap servers
    refine ⟨manager, ?_, ?_, ?_⟩
    · rw [ServerManager.names, records, List.map_append]
      apply List.Nodup.append hd.distinct (List.nodup_singleton _)
      intro name old new
      obtain rfl := List.mem_singleton.mp new
      exact (ServerManager.find_none_iff s.name).mp free old
    · rw [connected]
      split
      · apply List.Nodup.append hd.once (List.nodup_singleton _)
        intro server old new
        obtain rfl := List.mem_singleton.mp new
        exact Nat.lt_irrefl _ (hd.made _ old)
      · exact hd.once
    · intro server there
      rw [connected] at there
      split at there
      · exact made_append hd.made later server there
      · exact Nat.lt_trans (hd.made server there) later
  | removed name fails server found u heap servers db connected =>
    apply hd.turn hu connected
    rw [ServerManager.names, ServerManager.removed_records hd.distinct found heap servers]
    exact hd.distinct.sublist (List.filter_sublist.map _)
  | changed server key value fails s there configured new u heap servers db connected =>
    apply hd.turn hu connected
    rw [ServerManager.names_places, ServerManager.setValue_places there heap servers,
      ← ServerManager.names_places]
    exact hd.distinct
  | quiet e fails u records servers db connected idle =>
    apply hd.turn hu connected
    rw [ServerManager.names, records]
    exact hd.distinct
  | plugin name enabled fails => exact hd.congr rfl rfl
  | restarted m connected start =>
    obtain ⟨distinct, manager, rfl, records⟩ := Persistor.init_made start
    refine ⟨manager, ?_, manager.distinct, fun server there => manager.listed there⟩
    rw [ServerManager.names, records, List.map_map]
    have names : (d.db.records env sql).map (Option.map Record.name ∘ some) =
        d.db.names.map some := by
      rw [← Database.records_names env sql, List.map_map]
      rfl
    rw [names]
    exact distinct.map (Option.some_injective _)

end Daemon

end Morgoth
