import Morgoth.Daemon
import Morgoth.Plugins

/-!
# The connections of the persistor

`Persistor::initialize` brings everything back by the operations whose signals
its own slots store, and connects the slots on the way. Here the connections
are part of the state, and each signal runs its slot once for each of them.

* `init_eq`: restoring runs no slot, and does what `Persistor.init` says;
* `turn_wired`: with one connection each, an event is one of the daemon;
* `restore_wires_once`: what is restored, and what a change of a value runs
  from then on.
-/

namespace Morgoth

/-- The daemon with its plugins, and how often `storeServer`, `deleteServer` and
`storePluginState` are connected. `daemon.connected` has one entry for each
connection of a `valueChanged` to `storeConfigurationEntry`. -/
structure Wiring where
  daemon : Daemon := {}
  plugins : PluginManager := {}
  serverAdded : Nat := 0
  serverAboutToBeRemoved : Nat := 0
  pluginStatusChanged : Nat := 0

inductive WiringEvent
  | turn (event : ManagerEvent) (fails : Nat → Bool)
  | setPluginStatus (name : String) (enabled : Bool) (result : InstanceResult) (unloads : Bool)
      (fails : Nat → Bool)

namespace Wiring

def onManager (m : ServerManager) (w : Wiring) : Wiring :=
  { w with daemon := { w.daemon with manager := m } }

/-- `connect(configuration, &ServerConfiguration::valueChanged, ...)`. -/
def connect (server : ServerId) (w : Wiring) : Wiring :=
  { w with daemon := { w.daemon with connected := w.daemon.connected ++ [server] } }

section
variable (env : Environment) (sql : Sqlite)

def connections (w : Wiring) : ManagerSignal → Nat
  | .serverAdded _ => w.serverAdded
  | .serverAboutToBeRemoved _ => w.serverAboutToBeRemoved

/-- The slots that an event runs, with the manager as it is after it. -/
def slots (w : Wiring) (event : ManagerEvent) (fails : Nat → Bool) (m : ServerManager) :
    List (Daemon → Daemon) :=
  ((m.signals.drop w.daemon.manager.signals.length).flatMap fun signal =>
    List.replicate (w.connections signal) (Daemon.handleSignal env sql fails signal)) ++
  match Daemon.valueChanged w.daemon.manager event with
  | some (server, name, key, value) =>
    (w.daemon.connected.filter (· == server)).map fun _ d =>
      { d with db := Persistor.storeConfigurationEntry sql fails d.db name key value }
  | none => []

def turn (w : Wiring) (event : ManagerEvent) (fails : Nat → Bool) : Option Wiring :=
  (w.daemon.manager.step env event).map fun m =>
    { w with daemon := Signal.emit (w.slots env sql event fails m) { w.daemon with manager := m } }

/-- The slots that the signals of the plugins run. -/
def pluginSlots (w : Wiring) (fails : Nat → Bool) (u : PluginManager) : List (Daemon → Daemon) :=
  (u.signals.drop w.plugins.signals.length).flatMap fun signal =>
    List.replicate w.pluginStatusChanged fun d =>
      { d with db := Persistor.storePluginState sql fails d.db signal.1 signal.2 }

def setPluginStatus (w : Wiring) (name : String) (enabled : Bool) (result : InstanceResult)
    (unloads : Bool) (fails : Nat → Bool) : Wiring :=
  let u := w.plugins.setPluginStatus name enabled result unloads
  { w with plugins := u, daemon := Signal.emit (w.pluginSlots sql fails u) w.daemon }

def step (w : Wiring) : WiringEvent → Option Wiring
  | .turn event fails => w.turn env sql event fails
  | .setPluginStatus name enabled result unloads fails =>
    some (w.setPluginStatus sql name enabled result unloads fails)

/-! ## initialize -/

/-- `fails` is for the statements of slots, should one run. -/
def restoreEntries (fails : Nat → Bool) (server : ServerId) :
    List (Nat × Entry) → Wiring → Option Wiring
  | [], w => some w
  | row :: rows, w =>
    (w.turn env sql (.server server (.setValue row.2.key row.2.value)) fails).bind
      (restoreEntries fails server rows)

/-- `none` is where the null pointer that `add` has returned is used. -/
def restoreServers (fails : Nat → Bool) : List (Nat × ServerRow) → Wiring → Option Wiring
  | [], w => some w
  | (id, row) :: rows, w =>
    match (w.daemon.manager.add env (sql.toUrl row.path) row.name).2 with
    | none => none
    | some server =>
      (w.turn env sql (.add (sql.toUrl row.path) row.name) fails).bind fun w =>
        (restoreEntries env sql fails server (w.daemon.db.entriesOf id) w).bind fun w =>
          restoreServers fails rows (w.connect server)

/-- `outcomes` says what becomes of the n-th library that is to be loaded. -/
def restorePlugins (fails : Nat → Bool) (outcomes : Nat → InstanceResult × Bool) :
    Nat → List String → Wiring → Wiring
  | _, [], w => w
  | n, name :: names, w =>
    restorePlugins fails outcomes (n + 1) names
      (w.setPluginStatus sql name true (outcomes n).1 (outcomes n).2 fails)

/-- `SELECT name FROM plugins WHERE enabled=1` -/
def enabledPlugins (db : Database) : List String :=
  (db.plugins.rows.filter fun row => row.2.enabled == "1").map fun row => row.2.name

/-- `Persistor::initialize`, once the database is open. -/
def init (fails : Nat → Bool) (outcomes : Nat → InstanceResult × Bool) (w : Wiring) :
    Option Wiring :=
  (restoreServers env sql fails w.daemon.db.servers.rows w).map fun w =>
    let w := { w with
      serverAdded := w.serverAdded + 1
      serverAboutToBeRemoved := w.serverAboutToBeRemoved + 1 }
    let w := restorePlugins sql fails outcomes 0 (enabledPlugins w.daemon.db) w
    { w with pluginStatusChanged := w.pluginStatusChanged + 1 }

end

variable {env : Environment} {sql : Sqlite} {w u : Wiring}

/-! ## Signals that nobody is connected to -/

/-- Neither `storeServer` nor `deleteServer` is connected. -/
def Unwired (w : Wiring) : Prop := w.serverAdded = 0 ∧ w.serverAboutToBeRemoved = 0

/-- Without connections, an event does what it does to the manager, and no
more. -/
theorem turn_unwired (unwired : w.Unwired) {event : ManagerEvent} (fails : Nat → Bool)
    (unconnected : ∀ change, Daemon.valueChanged w.daemon.manager event = some change →
      change.1 ∉ w.daemon.connected) :
    w.turn env sql event fails =
      (w.daemon.manager.step env event).map fun m => w.onManager m := by
  have silent (m : ServerManager) : w.slots env sql event fails m = [] := by
    have none_added : (m.signals.drop w.daemon.manager.signals.length).flatMap (fun signal =>
        List.replicate (w.connections signal) (Daemon.handleSignal env sql fails signal)) = [] := by
      apply List.flatMap_eq_nil_iff.mpr
      intro signal _
      have disconnected : w.connections signal = 0 := by
        cases signal
        · exact unwired.1
        · exact unwired.2
      rw [disconnected]
      rfl
    unfold slots
    rw [none_added, List.nil_append]
    cases changed : Daemon.valueChanged w.daemon.manager event with
    | none => rfl
    | some change =>
      have none_there : w.daemon.connected.filter (· == change.1) = [] := by
        apply List.filter_eq_nil_iff.mpr
        intro server there same
        exact unconnected change changed (beq_iff_eq.mp same ▸ there)
      obtain ⟨server, name, key, value⟩ := change
      dsimp only at none_there ⊢
      rw [none_there, List.map_nil]
  unfold turn
  simp only [silent, Signal.emit_nil]
  rfl

theorem setValue_step {m : ServerManager} {server : ServerId} {s : Server}
    (there : m.heap server = some s) (key value : String) :
    m.step env (.server server (.setValue key value)) =
      some (m.reach server fun s => s.setValue key value) := by
  simp [ServerManager.step, ServerEvent.managed, Server.step, ServerManager.reach, there,
    Server.setValue]

/-- The entries of a server that is not connected yet. -/
theorem restoreEntries_unwired (fails : Nat → Bool) {server : ServerId} {s : Server}
    (entries : List (Nat × Entry)) (unwired : w.Unwired)
    (there : w.daemon.manager.heap server = some s) (unconnected : server ∉ w.daemon.connected) :
    restoreEntries env sql fails server entries w =
      some (w.onManager (Persistor.restoreEntries server entries w.daemon.manager)) := by
  induction entries generalizing w s with
  | nil => rfl
  | cons row entries ih =>
    unfold restoreEntries
    have only (change : ServerId × String × String × String)
        (changed : Daemon.valueChanged w.daemon.manager
          (.server server (.setValue row.2.key row.2.value)) = some change) :
        change.1 ∉ w.daemon.connected := by
      simp only [Daemon.valueChanged] at changed
      obtain ⟨s, -, changed⟩ := Option.bind_eq_some_iff.mp changed
      obtain ⟨c, -, changed⟩ := Option.bind_eq_some_iff.mp changed
      obtain ⟨value, -, rfl⟩ := Option.map_eq_some_iff.mp changed
      exact unconnected
    rw [turn_unwired unwired fails only, setValue_step there, Option.map_some, Option.bind_some]
    exact ih unwired (ServerManager.reach_there there _) unconnected

/-- What a server that is accepted finds in the manager. -/
theorem add_accepted (env : Environment) {m : ServerManager} (hm : m.Sound) {name : String}
    (free : m.find name = none) (path : QUrl) :
    ∃ u s, m.add env path name = (u, some m.nextServer) ∧
      m.step env (.add path name) = some u ∧ u.Sound ∧ u.heap m.nextServer = some s ∧
      u.nextServer = m.nextServer + 1 := by
  have added := ServerManager.add_free env hm.fresh free path
  have moves : m.step env (.add path name) = some (m.add env path name).1 := rfl
  have sound := ServerManager.step_sound hm moves
  rw [added] at moves sound
  exact ⟨_, _, added, moves, sound, Function.update_self .., rfl⟩

/-- The loop of `restoreServers` runs no slot: no server is connected before its
entries are restored. -/
theorem restoreServers_unwired (fails : Nat → Bool) (rows : List (Nat × ServerRow))
    (unwired : w.Unwired) (hm : w.daemon.manager.Sound)
    (made : ∀ server ∈ w.daemon.connected, server < w.daemon.manager.nextServer) :
    restoreServers env sql fails rows w =
      (Persistor.restoreServers env sql w.daemon.db rows w.daemon.manager w.daemon.connected).map
        fun restored => { w with daemon := ⟨restored.1, w.daemon.db, restored.2⟩ } := by
  induction rows generalizing w with
  | nil => rfl
  | cons row rows ih =>
    cases found : w.daemon.manager.find row.2.name with
    | some server =>
      have taken : (w.daemon.manager.find row.2.name).isSome := by
        rw [found]
        rfl
      rw [Persistor.restoreServers_taken sql _ taken]
      obtain ⟨id, row⟩ := row
      unfold restoreServers
      rw [ServerManager.add_taken env taken (sql.toUrl row.path)]
      rfl
    | none =>
      obtain ⟨id, row⟩ := row
      unfold restoreServers Persistor.restoreServers
      obtain ⟨m, s, added, moves, sound, there, next⟩ :=
        add_accepted env hm found (sql.toUrl row.path)
      have unconnected : w.daemon.manager.nextServer ∉ w.daemon.connected :=
        fun there => Nat.lt_irrefl _ (made _ there)
      have unchanged (change : ServerId × String × String × String)
          (changed : Daemon.valueChanged w.daemon.manager (.add (sql.toUrl row.path) row.name) =
            some change) : change.1 ∉ w.daemon.connected := by cases changed
      let entries := w.daemon.db.entriesOf id
      let restored := Persistor.restoreEntries w.daemon.manager.nextServer entries m
      have filled : restoreEntries env sql fails w.daemon.manager.nextServer entries
          (w.onManager m) = some ((w.onManager m).onManager restored) :=
        restoreEntries_unwired fails entries (by exact unwired) there unconnected
      have later : w.daemon.manager.nextServer < restored.nextServer := by
        rw [Persistor.restoreEntries_nextServer, next]
        exact Nat.lt_succ_self _
      let filledIn := (w.onManager m).onManager restored
      have rest := ih (w := filledIn.connect w.daemon.manager.nextServer) unwired
        (Persistor.restoreEntries_sound _ entries sound) (Daemon.made_append made later)
      rw [turn_unwired unwired fails unchanged, moves, added]
      dsimp only
      rw [Option.map_some, Option.bind_some]
      exact (congrArg (Option.bind · _) filled).trans rest

/-- Plugins are loaded before anybody hears of it. -/
theorem restorePlugins_unwired (fails : Nat → Bool) (outcomes : Nat → InstanceResult × Bool)
    (n : Nat) (names : List String) (unwired : w.pluginStatusChanged = 0) :
    ∃ plugins, restorePlugins sql fails outcomes n names w = { w with plugins := plugins } := by
  induction names generalizing n w with
  | nil => exact ⟨w.plugins, rfl⟩
  | cons name names ih =>
    have silent (u : PluginManager) : w.pluginSlots sql fails u = [] := by
      unfold pluginSlots
      rw [unwired]
      exact List.flatMap_eq_nil_iff.mpr fun _ _ => rfl
    have first : w.setPluginStatus sql name true (outcomes n).1 (outcomes n).2 fails =
        { w with plugins :=
            w.plugins.setPluginStatus name true (outcomes n).1 (outcomes n).2 } := by
      unfold setPluginStatus
      simp only [silent, Signal.emit_nil]
    unfold restorePlugins
    rw [first]
    exact ih (n + 1) unwired

/-- On new managers, `initialize` runs no slot: the database is as it was, and the
servers are those that `Persistor.init` brings back. -/
theorem init_eq (env : Environment) (sql : Sqlite) (fails : Nat → Bool)
    (outcomes : Nat → InstanceResult × Bool) (db : Database) (plugins : PluginManager) :
    ∃ restored, init env sql fails outcomes { daemon := { db := db }, plugins := plugins } =
      (Persistor.init env sql db).map fun made =>
        { daemon := ⟨made.1, db, made.2⟩
          plugins := restored
          serverAdded := 1
          serverAboutToBeRemoved := 1
          pluginStatusChanged := 1 } := by
  let new : Wiring := { daemon := { db := db }, plugins := plugins }
  have servers : restoreServers env sql fails db.servers.rows new =
      (Persistor.init env sql db).map fun made => { new with daemon := ⟨made.1, db, made.2⟩ } :=
    restoreServers_unwired (w := new) fails db.servers.rows ⟨rfl, rfl⟩ ServerManager.init_sound
      fun _ there => nomatch there
  unfold init
  rw [servers]
  cases Persistor.init env sql db with
  | none => exact ⟨plugins, rfl⟩
  | some made =>
    let loaded : Wiring :=
      { new with daemon := ⟨made.1, db, made.2⟩, serverAdded := 1, serverAboutToBeRemoved := 1 }
    obtain ⟨restored, same⟩ : ∃ plugins, restorePlugins sql fails outcomes 0 (enabledPlugins db)
        loaded = { loaded with plugins := plugins } := restorePlugins_unwired fails outcomes 0 _ rfl
    let connected (w : Wiring) : Wiring :=
      { w with pluginStatusChanged := w.pluginStatusChanged + 1 }
    refine ⟨restored, ?_⟩
    calc some (connected (restorePlugins sql fails outcomes 0 (enabledPlugins db) loaded))
      _ = some (connected { loaded with plugins := restored }) := by rw [same]

/-! ## Everything connected once -/

/-- Each slot is connected once, and the changes of every server in `servers()` are
stored. -/
structure Wired (w : Wiring) : Prop where
  serverAdded : w.serverAdded = 1
  serverAboutToBeRemoved : w.serverAboutToBeRemoved = 1
  pluginStatusChanged : w.pluginStatusChanged = 1
  sound : w.daemon.Sound
  connected : ∀ server ∈ w.daemon.manager.servers, server ∈ w.daemon.connected

/-- A server that the event adds is stored. -/
def StoresAdded (env : Environment) (w : Wiring) : WiringEvent → Prop
  | .turn event fails => ∀ s, ServerManager.brought env w.daemon.manager event = some s →
      w.daemon.manager.find s.name = none → Persistor.Stores fails s
  | .setPluginStatus .. => True

/-- With one connection each, an event is one of the daemon. -/
theorem turn_wired (hw : w.Wired) (event : ManagerEvent) (fails : Nat → Bool) :
    w.turn env sql event fails =
      (w.daemon.step env sql (.turn event fails)).map fun d => { w with daemon := d } := by
  have once (signal : ManagerSignal) : w.connections signal = 1 := by
    cases signal
    · exact hw.serverAdded
    · exact hw.serverAboutToBeRemoved
  have same (m : ServerManager) :
      w.slots env sql event fails m = Daemon.slots env sql w.daemon event fails m := by
    have signals : (m.signals.drop w.daemon.manager.signals.length).flatMap (fun signal =>
        List.replicate (w.connections signal) (Daemon.handleSignal env sql fails signal)) =
        (m.signals.drop w.daemon.manager.signals.length).map
          (Daemon.handleSignal env sql fails) := by
      simp only [once, List.replicate_one, List.map_eq_flatMap]
    unfold slots
    rw [signals]
    rfl
  unfold turn Daemon.step
  simp only [same, Option.map_map]
  rfl

/-- Storing the state of a plugin concerns no server. -/
theorem setPluginStatus_daemon (sql : Sqlite) (w : Wiring) (name : String) (enabled : Bool)
    (result : InstanceResult) (unloads : Bool) (fails : Nat → Bool) :
    (w.setPluginStatus sql name enabled result unloads fails).daemon.manager = w.daemon.manager ∧
    (w.setPluginStatus sql name enabled result unloads fails).daemon.connected =
      w.daemon.connected := by
  have stores (u : PluginManager) (slot : Daemon → Daemon)
      (there : slot ∈ w.pluginSlots sql fails u) (d : Daemon) :
      (slot d).manager = d.manager ∧ (slot d).connected = d.connected := by
    obtain ⟨signal, -, connected⟩ := List.mem_flatMap.mp there
    rw [List.eq_of_mem_replicate connected]
    exact ⟨rfl, rfl⟩
  exact ⟨Signal.emit_frame (f := Daemon.manager) (fun slot there d => (stores _ slot there d).1) _,
    Signal.emit_frame (f := Daemon.connected) (fun slot there d => (stores _ slot there d).2) _⟩

theorem step_wired {e : WiringEvent} (hw : w.Wired) (stored : w.StoresAdded env e)
    (hu : w.step env sql e = some u) : u.Wired := by
  cases e with
  | setPluginStatus name enabled result unloads fails =>
    obtain rfl := Option.some.inj hu
    obtain ⟨manager, connected⟩ := setPluginStatus_daemon sql w name enabled result unloads fails
    refine ⟨hw.serverAdded, hw.serverAboutToBeRemoved, hw.pluginStatusChanged,
      hw.sound.congr manager connected, ?_⟩
    rw [manager, connected]
    exact hw.connected
  | turn event fails =>
    have moves : w.turn env sql event fails = some u := hu
    rw [turn_wired hw] at moves
    obtain ⟨d, hd, rfl⟩ := Option.map_eq_some_iff.mp moves
    refine ⟨hw.serverAdded, hw.serverAboutToBeRemoved, hw.pluginStatusChanged,
      Daemon.step_sound hw.sound hd, ?_⟩
    cases Daemon.step_effect hw.sound.manager hd with
    | added _ _ s brings free _ heap servers db connected =>
      rw [if_pos (stored s brings free)] at connected
      intro server there
      dsimp only at there ⊢
      rw [servers] at there
      rw [connected]
      rcases List.mem_append.mp there with old | new
      · exact List.mem_append_left _ (hw.connected server old)
      · exact List.mem_append_right _ new
    | removed _ _ gone found _ heap servers db connected =>
      intro server there
      dsimp only at there ⊢
      rw [servers] at there
      rw [connected]
      exact hw.connected server (List.mem_of_mem_filter there)
    | changed _ _ _ _ _ _ _ _ _ heap servers db connected =>
      dsimp only
      rw [servers, connected]
      exact hw.connected
    | quiet _ _ _ records servers db connected =>
      dsimp only
      rw [servers, connected]
      exact hw.connected

/-- A change of a value runs `storeConfigurationEntry` once. -/
theorem setValue_once (hw : w.Wired) {server : ServerId}
    (listed : server ∈ w.daemon.manager.servers) {s : Server}
    (there : w.daemon.manager.heap server = some s) {c : ServerConfiguration}
    (configured : s.configuration = some c) {key value : String} (new : c.value key ≠ value)
    (fails : Nat → Bool) :
    ∃ m, w.daemon.manager.step env (.server server (.setValue key value)) = some m ∧
      w.slots env sql (.server server (.setValue key value)) fails m =
        [fun d =>
          { d with db := Persistor.storeConfigurationEntry sql fails d.db s.name key value }] := by
  refine ⟨_, setValue_step there key value, ?_⟩
  have emitted : Daemon.valueChanged w.daemon.manager (.server server (.setValue key value)) =
      some (server, s.name, key, value) := by
    simp [Daemon.valueChanged, there, configured, c.setValue_new new]
  have once : w.daemon.connected.filter (· == server) = [server] := by
    rw [List.filter_beq, List.count_eq_one_of_mem hw.sound.once (hw.connected server listed)]
    rfl
  unfold slots
  rw [emitted]
  dsimp only
  rw [once]
  simp [ServerManager.reach]

/-- A daemon that has just started has everything connected. -/
theorem init_wired {db : Database} {m : ServerManager} {connected : List ServerId}
    (start : Persistor.init env sql db = some (m, connected)) (plugins : PluginManager) :
    Wired {
      daemon := ⟨m, db, connected⟩
      plugins := plugins
      serverAdded := 1
      serverAboutToBeRemoved := 1
      pluginStatusChanged := 1 } := by
  have before : Daemon.Sound { db := db } :=
    ⟨ServerManager.init_sound, List.nodup_nil, List.nodup_nil, nofun⟩
  have restarted : Daemon.step env sql { db := db } .restart = some ⟨m, db, connected⟩ := by
    unfold Daemon.step
    rw [start]
    rfl
  obtain ⟨-, -, all, -⟩ := Persistor.init_made start
  exact ⟨rfl, rfl, rfl, Daemon.step_sound before restarted, fun _ there => all ▸ there⟩

/-- A start on a database with distinct names brings back its servers and writes
nothing, so the next start finds the same. After any run in which the servers that
are added are stored, a changed value of any server in `servers()` runs
`storeConfigurationEntry` once. -/
theorem restore_wires_once (env : Environment) (sql : Sqlite) (fails : Nat → Bool)
    (outcomes : Nat → InstanceResult × Bool) {db : Database} (distinct : db.names.Nodup)
    (plugins : PluginManager) :
    ∃ w, init env sql fails outcomes { daemon := { db := db }, plugins := plugins } = some w ∧
      w.daemon.db = db ∧ w.daemon.manager.records = (db.records env sql).map some ∧
      init env sql fails outcomes { daemon := { db := w.daemon.db }, plugins := plugins } = some w ∧
      ∀ es t, Machine.run (step env sql) w es = some t →
        Machine.EachStep (step env sql) (StoresAdded env) w es →
        ∀ server ∈ t.daemon.manager.servers, ∀ s c key value fails,
          t.daemon.manager.heap server = some s → s.configuration = some c → c.value key ≠ value →
          ∃ m, t.daemon.manager.step env (.server server (.setValue key value)) = some m ∧
            t.slots env sql (.server server (.setValue key value)) fails m = [fun d =>
              { d with db := Persistor.storeConfigurationEntry sql fails d.db s.name key value }] := by
  obtain ⟨m, start, -, records⟩ := Persistor.init_some env sql distinct
  obtain ⟨restored, result⟩ := init_eq env sql fails outcomes db plugins
  rw [start, Option.map_some] at result
  refine ⟨_, result, rfl, records, result, ?_⟩
  intro es t reached stored server listed s c key value fails there configured new
  have wired : Machine.Throughout (step env sql) Wired _ es :=
    stored.throughout (fun _ _ _ hw meets hu => step_wired hw meets hu) (init_wired start restored)
  exact setValue_once (wired es t List.prefix_rfl reached) listed there configured new fails

/-- A database with two servers, one of them configured, and an enabled plugin. -/
def stocked : Database where
  servers := Table.empty.insertAll [⟨"/srv/tf2", "tf2"⟩, ⟨"/srv/dods", "dods"⟩]
  entries := Table.empty.insertAll [⟨some 1, "password", "secret"⟩]
  plugins := Table.empty.insertAll [⟨"motd", "1"⟩]

/-- A third server is added, and its password is set. -/
theorem restore_wires_once_stocked :
    ∃ w t, init .ideal .plain (fun _ => false) (fun _ => (.morgothPlugin, true))
        { daemon := { db := stocked }, plugins := ⟨[⟨"motd", {}⟩], []⟩ } = some w ∧
      w.daemon.db = stocked ∧ w.daemon.manager.servers = [0, 1] ∧ w.plugins.loaded "motd" = true ∧
      Machine.run (step .ideal .plain) w [.turn (.add { path := "/srv/css" } "css") fun _ => false] =
        some t ∧
      ∃ m, t.daemon.manager.step .ideal (.server 2 (.setValue "password" "secret")) = some m ∧
        t.slots .ideal .plain (.server 2 (.setValue "password" "secret")) (fun _ => false) m =
          [fun d => { d with
            db := Persistor.storeConfigurationEntry .plain (fun _ => false) d.db "css" "password"
              "secret" }] := by
  obtain ⟨w, result, same, -, -, once⟩ := restore_wires_once .ideal .plain (fun _ => false)
    (fun _ => (.morgothPlugin, true)) (by decide : stocked.names.Nodup) ⟨[⟨"motd", {}⟩], []⟩
  obtain rfl := Option.some.inj (result.symm.trans rfl)
  refine ⟨_, _, rfl, rfl, rfl, rfl, rfl, ?_⟩
  refine once [.turn (.add { path := "/srv/css" } "css") fun _ => false] _ rfl ?_ 2 (by decide) _ _
    "password" "secret" (fun _ => false) rfl rfl (by decide)
  rw [Machine.eachStep_cons]
  refine fun u _ => ⟨?_, Machine.eachStep_nil⟩
  intro s brings _
  obtain rfl := Option.some.inj brings
  decide

end Wiring

end Morgoth
