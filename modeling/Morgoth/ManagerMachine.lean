import Morgoth.Manager
import Morgoth.ServerMachine

/-!
# ServerManager as a machine

* `step_effect`: what each event does, guards included; later modules use this
  and never unfold an operation.
-/

namespace Morgoth

/-- A call that arrives on D-Bus, a new connection of a game server, a tick of
the timer, the end of a ping, a signal of a game server, a deferred deletion,
or what happens to one server alone. -/
inductive ManagerEvent
  | add (path : QUrl) (name : String)
  | addServer (path : QUrl) (name : String)
  | remove (serverName : String)
  | registerGameServer (gameServer : GameServer)
  | timeout
  | pingFinished (gameServer : GameServerId) (round : Nat) (error : Option DBusError)
  | aboutToQuit (iface : GameServerId)
  | deleteGameServer (iface : GameServerId)
  | deleteServer (server : ServerId)
  | server (server : ServerId) (event : ServerEvent)

/-- The events of a server that the manager takes part in. -/
def ServerEvent.managed : ServerEvent → Bool
  | .gameServerOnline .. | .gameServerTimedOut | .aboutToQuit _ | .deleteGameServer _ => true
  | _ => false

/-- The game server that an event takes for lost. -/
def ManagerEvent.loses : ManagerEvent → Option GameServerId
  | .aboutToQuit iface => some iface
  | .pingFinished gameServer _ error =>
    if error.any DBusError.isLoss then some gameServer else none
  | _ => none

namespace ServerManager

/-- A ping finishes once. A game server quits while its object exists, and the
object is deleted some time after `deleteLater`, as a server is. -/
def step (env : Environment) (m : ServerManager) : ManagerEvent → Option ServerManager
  | .add path name => some (m.add env path name).1
  | .addServer path name =>
    some (m.newServer (.create (env.host m.nextServer) path name)).1
  | .remove serverName => some (m.remove serverName).1
  | .registerGameServer gameServer => some (m.registerGameServer env gameServer)
  | .timeout => some m.pingAllServers
  | .pingFinished gameServer round error =>
    if (gameServer, round) ∈ m.calls then
      some (pingFinished env { m with calls := m.calls.erase (gameServer, round) } gameServer error)
    else none
  | .aboutToQuit iface => if iface ∈ m.interfaces then some (m.aboutToQuit env iface) else none
  | .deleteGameServer iface =>
    if iface ∈ m.interfaces ∧ iface ∈ m.deletions then some (m.deleteGameServer iface) else none
  | .deleteServer server => if server ∈ m.doomed then some (m.deleteServer server) else none
  | .server server event =>
    if event.managed then none
    else (m.heap server).bind fun s => (s.step (env.host server) event).map fun s =>
      { m with heap := Function.update m.heap server (some s) }

abbrev run (env : Environment) : ServerManager → List ManagerEvent → Option ServerManager :=
  Machine.run (step env)

/-! ## What an event does -/

/-- The server that an event brings to the manager. -/
def brought (env : Environment) (m : ServerManager) : ManagerEvent → Option Server
  | .add path name =>
    some (.create (env.host m.nextServer) (fixedPath env m.nextServer path) name)
  | .addServer path name => some (.create (env.host m.nextServer) path name)
  | _ => none

theorem brought_created {env : Environment} {m : ServerManager} {e : ManagerEvent} {s : Server}
    (brings : brought env m e = some s) :
    ∃ path name, Server.create (env.host m.nextServer) path name = s := by
  cases e with
  | add path name => exact ⟨_, name, Option.some.inj brings⟩
  | addServer path name => exact ⟨path, name, Option.some.inj brings⟩
  | _ => cases brings

inductive Effect (env : Environment) (m : ServerManager) : ManagerEvent → ServerManager → Prop
  | added (e : ManagerEvent) (s : Server) (brings : brought env m e = some s)
      (free : m.find s.name = none) :
      Effect env m e { m with
        heap := Function.update m.heap m.nextServer (some s)
        nextServer := m.nextServer + 1
        servers := m.servers ++ [m.nextServer]
        signals := m.signals ++ [.serverAdded m.nextServer] }
  | refused (e : ManagerEvent) (s : Server) (brings : brought env m e = some s)
      (taken : (m.find s.name).isSome) :
      Effect env m e { m with nextServer := m.nextServer + 1 }
  | removed (serverName : String) (server : ServerId) (found : m.find serverName = some server) :
      Effect env m (.remove serverName) { m with
        servers := m.servers.filter (· != server)
        doomed := m.doomed ++ [server]
        signals := m.signals ++ [.serverAboutToBeRemoved server] }
  | unknown (serverName : String) (missing : m.find serverName = none) :
      Effect env m (.remove serverName) m
  | registered (gameServer : GameServer) (server : ServerId)
      (matched : m.matching env gameServer = some server) :
      Effect env m (.registerGameServer gameServer)
        { m.emitOn server
            (Server.gameServerOnline (env.host server) m.nextGameServer gameServer) with
          nextGameServer := m.nextGameServer + 1
          interfaces := m.interfaces.insert m.nextGameServer server
          gameServers := m.gameServers.insert m.nextGameServer server }
  | unmatched (gameServer : GameServer) (stray : m.matching env gameServer = none) :
      Effect env m (.registerGameServer gameServer)
        { m with nextGameServer := m.nextGameServer + 1 }
  | pinged : Effect env m .timeout m.pingAllServers
  | answered (gameServer : GameServerId) (round : Nat) (error : Option DBusError)
      (pending : (gameServer, round) ∈ m.calls) (alive : error.any DBusError.isLoss = false) :
      Effect env m (.pingFinished gameServer round error)
        { m with calls := m.calls.erase (gameServer, round) }
  | lost (gameServer : GameServerId) (round : Nat) (error : Option DBusError) (server : ServerId)
      (pending : (gameServer, round) ∈ m.calls) (loss : error.any DBusError.isLoss = true)
      (known : m.gameServers.lookup gameServer = some server) :
      Effect env m (.pingFinished gameServer round error)
        { (m.emitOn server (Server.gameServerTimedOut (env.host server))).retire gameServer with
          calls := m.calls.erase (gameServer, round) }
  | lostAgain (gameServer : GameServerId) (round : Nat) (error : Option DBusError)
      (pending : (gameServer, round) ∈ m.calls) (loss : error.any DBusError.isLoss = true)
      (forgotten : m.gameServers.lookup gameServer = none) :
      Effect env m (.pingFinished gameServer round error)
        { m.retire gameServer with
          calls := m.calls.erase (gameServer, round)
          faults := m.faults ++ [.nullServer gameServer] }
  | quit (iface : GameServerId) (server : ServerId)
      (announced : m.interfaces.lookup iface = some server) :
      Effect env m (.aboutToQuit iface)
        { (m.retire iface).reach server (Server.aboutToQuit (env.host server) iface) with
          faults := if iface ∈ m.gameServers then m.faults
            else m.faults ++ [.notRegistered iface] }
  | dropped (iface : GameServerId) (server : ServerId)
      (announced : m.interfaces.lookup iface = some server) (scheduled : iface ∈ m.deletions) :
      Effect env m (.deleteGameServer iface)
        { m.reach server (Server.deleteGameServer iface) with
          interfaces := m.interfaces.erase iface }
  | destroyed (server : ServerId) (scheduled : server ∈ m.doomed) :
      Effect env m (.deleteServer server) (m.deleteServer server)
  | alone (server : ServerId) (event : ServerEvent) (s t : Server)
      (unmanaged : event.managed = false) (there : m.heap server = some s)
      (moves : s.step (env.host server) event = some t) :
      Effect env m (.server server event)
        { m with heap := Function.update m.heap server (some t) }

theorem newServer_effect {env : Environment} {m : ServerManager} {e : ManagerEvent} {s : Server}
    (fresh : m.nextServer ∉ m.servers) (brings : brought env m e = some s) :
    Effect env m e (m.newServer s).1 := by
  unfold newServer addServer
  rw [if_neg fresh]
  by_cases taken : (m.find s.name).isSome
  · have taken' : (find { m with nextServer := m.nextServer + 1 } s.name).isSome := taken
    rw [if_pos taken']
    exact .refused e s brings taken
  · have free' : ¬ (find { m with nextServer := m.nextServer + 1 } s.name).isSome := taken
    rw [if_neg free']
    exact .added e s brings (Option.not_isSome_iff_eq_none.mp taken)

theorem add_newServer (env : Environment) (m : ServerManager) (path : QUrl) (name : String) :
    (m.add env path name).1 =
      (m.newServer (.create (env.host m.nextServer) (fixedPath env m.nextServer path) name)).1 := by
  simp only [add]
  rcases m.newServer _ with ⟨m', accepted⟩
  cases accepted <;> rfl

theorem remove_effect (env : Environment) (m : ServerManager) (serverName : String) :
    Effect env m (.remove serverName) (m.remove serverName).1 := by
  unfold remove
  cases found : m.find serverName with
  | none => exact .unknown serverName found
  | some server => exact .removed serverName server found

theorem registerGameServer_effect (env : Environment) (m : ServerManager)
    (gameServer : GameServer) :
    Effect env m (.registerGameServer gameServer) (m.registerGameServer env gameServer) := by
  unfold registerGameServer
  have same : matching env { m with nextGameServer := m.nextGameServer + 1 } gameServer =
      m.matching env gameServer := rfl
  simp only [same]
  cases matched : m.matching env gameServer with
  | none => exact .unmatched gameServer matched
  | some server => exact .registered gameServer server matched

theorem pingFinished_effect (env : Environment) {m : ServerManager} {gameServer : GameServerId}
    {round : Nat} (pending : (gameServer, round) ∈ m.calls) (error : Option DBusError) :
    Effect env m (.pingFinished gameServer round error)
      (pingFinished env { m with calls := m.calls.erase (gameServer, round) } gameServer error) := by
  unfold pingFinished
  cases loss : error.any DBusError.isLoss with
  | false => exact .answered gameServer round error pending loss
  | true =>
    cases known : m.gameServers.lookup gameServer with
    | none =>
      simp only
      exact .lostAgain gameServer round error pending loss known
    | some server =>
      simp only
      exact .lost gameServer round error server pending loss known

theorem aboutToQuit_announced (env : Environment) {m : ServerManager} {iface : GameServerId}
    {server : ServerId} (announced : m.interfaces.lookup iface = some server) :
    m.aboutToQuit env iface =
      { (m.retire iface).reach server (Server.aboutToQuit (env.host server) iface) with
        faults := if iface ∈ m.gameServers then m.faults
          else m.faults ++ [.notRegistered iface] } := by
  unfold aboutToQuit
  by_cases known : iface ∈ m.gameServers
  · simp only [if_pos known, retire, announced]
    rfl
  · simp only [if_neg known, retire, announced]
    rfl

/-- Every step is one of the above. -/
theorem step_effect {env : Environment} {m u : ServerManager} {e : ManagerEvent}
    (fresh : m.nextServer ∉ m.servers) (hu : m.step env e = some u) : Effect env m e u := by
  cases e with
  | add path name =>
    obtain rfl := Option.some.inj hu
    rw [add_newServer]
    exact newServer_effect fresh rfl
  | addServer path name =>
    obtain rfl := Option.some.inj hu
    exact newServer_effect fresh rfl
  | remove serverName =>
    obtain rfl := Option.some.inj hu
    exact remove_effect env m serverName
  | registerGameServer gameServer =>
    obtain rfl := Option.some.inj hu
    exact registerGameServer_effect env m gameServer
  | timeout =>
    obtain rfl := Option.some.inj hu
    exact .pinged
  | pingFinished gameServer round error =>
    obtain ⟨pending, rfl⟩ := Machine.some_of_ite hu
    exact pingFinished_effect env pending error
  | aboutToQuit iface =>
    obtain ⟨there, rfl⟩ := Machine.some_of_ite hu
    obtain ⟨server, announced⟩ := Option.isSome_iff_exists.mp (AList.lookup_isSome.mpr there)
    rw [aboutToQuit_announced env announced]
    exact .quit iface server announced
  | deleteGameServer iface =>
    obtain ⟨⟨there, scheduled⟩, rfl⟩ := Machine.some_of_ite hu
    obtain ⟨server, announced⟩ := Option.isSome_iff_exists.mp (AList.lookup_isSome.mpr there)
    unfold deleteGameServer
    rw [announced]
    exact .dropped iface server announced scheduled
  | deleteServer server =>
    obtain ⟨scheduled, rfl⟩ := Machine.some_of_ite hu
    exact .destroyed server scheduled
  | server server event =>
    cases managed : event.managed with
    | true => simp [step, managed] at hu
    | false =>
      simp only [step, managed, Bool.false_eq_true, if_false, Option.bind_eq_some_iff,
        Option.map_eq_some_iff] at hu
      obtain ⟨s, there, t, moves, rfl⟩ := hu
      exact .alone server event s t managed there moves

/-! ## What becomes of a new server -/

/-- A server whose name nobody has is added behind all others. -/
theorem step_adds {env : Environment} {m u : ServerManager} {e : ManagerEvent} {s : Server}
    (fresh : m.nextServer ∉ m.servers) (brings : brought env m e = some s)
    (free : m.find s.name = none) (hu : m.step env e = some u) :
    u.servers = m.servers ++ [m.nextServer] ∧
      u.heap = Function.update m.heap m.nextServer (some s) := by
  cases step_effect fresh hu with
  | added e s' brings' =>
    obtain rfl := Option.some.inj (brings.symm.trans brings')
    exact ⟨rfl, rfl⟩
  | refused e s' brings' taken =>
    obtain rfl := Option.some.inj (brings.symm.trans brings')
    rw [free] at taken
    cases taken
  | _ => cases brings

/-- The list then has the new server and the old ones, each as it was. -/
theorem listed_added {m u : ServerManager} {s t : Server} {server : ServerId}
    (fresh : m.nextServer ∉ m.servers) (servers : u.servers = m.servers ++ [m.nextServer])
    (heap : u.heap = Function.update m.heap m.nextServer (some s)) :
    (server ∈ u.servers ∧ u.heap server = some t) ↔
      (server ∈ m.servers ∧ m.heap server = some t) ∨ (server = m.nextServer ∧ t = s) := by
  rw [servers, heap, List.mem_append, List.mem_singleton]
  by_cases here : server = m.nextServer
  · subst here
    rw [Function.update_self, Option.some.injEq]
    simp [fresh, eq_comm]
  · rw [Function.update_of_ne here]
    simp [here]

theorem newServer_free {m : ServerManager} (fresh : m.nextServer ∉ m.servers) {s : Server}
    (free : m.find s.name = none) :
    m.newServer s =
      ({ m with
        heap := Function.update m.heap m.nextServer (some s)
        nextServer := m.nextServer + 1
        servers := m.servers ++ [m.nextServer]
        signals := m.signals ++ [.serverAdded m.nextServer] }, true) := by
  have free' : ¬ (find { m with nextServer := m.nextServer + 1 } s.name).isSome := by
    have same : find { m with nextServer := m.nextServer + 1 } s.name = m.find s.name := rfl
    simp [same, free]
  unfold newServer addServer
  rw [if_neg fresh, if_neg free']

theorem newServer_taken {m : ServerManager} {s : Server} (taken : (m.find s.name).isSome) :
    (m.newServer s).2 = false := by
  have taken' : (find { m with nextServer := m.nextServer + 1 } s.name).isSome := taken
  unfold newServer addServer
  by_cases listed : m.nextServer ∈ m.servers
  · rw [if_pos listed]
  · rw [if_neg listed, if_pos taken']

theorem add_free (env : Environment) {m : ServerManager} (fresh : m.nextServer ∉ m.servers)
    {name : String} (free : m.find name = none) (path : QUrl) :
    m.add env path name =
      ({ m with
        heap := Function.update m.heap m.nextServer
          (some (.create (env.host m.nextServer) (fixedPath env m.nextServer path) name))
        nextServer := m.nextServer + 1
        servers := m.servers ++ [m.nextServer]
        signals := m.signals ++ [.serverAdded m.nextServer] }, some m.nextServer) := by
  have accepted := newServer_free fresh
    (s := .create (env.host m.nextServer) (fixedPath env m.nextServer path) name) free
  simp only [add, accepted]

theorem add_taken (env : Environment) {m : ServerManager} {name : String}
    (taken : (m.find name).isSome) (path : QUrl) : (m.add env path name).2 = none := by
  have refused : (m.newServer (.create (env.host m.nextServer) (fixedPath env m.nextServer path)
    name)).2 = false := newServer_taken taken
  simp only [add]
  cases result : m.newServer (.create (env.host m.nextServer) (fixedPath env m.nextServer path)
      name) with
  | mk u accepted =>
    rw [result] at refused
    obtain rfl : accepted = false := refused
    rfl

end ServerManager

end Morgoth
