import Mathlib.Logic.Function.Basic
import Morgoth.Server

/-!
# ServerManager

The servers, and the game servers that have registered for one of them. A
`ServerId` and a `GameServerId` stand for the address of an object and are
never used twice. Where the source goes through a pointer to an object that is
gone, the model notes a `Fault` and goes on without the object.
-/

namespace Morgoth

abbrev ServerId := Nat

/-- What is outside the sources and not the business of one server alone. Each
server sees a host of its own; `dir` is the normalised directory of a path,
which is what `QDir` compares. -/
structure Environment where
  host : ServerId → Host
  dir : String → String
  urlToString : QUrl → String
  fromLocalFile : String → QUrl

/-- Every server on the ideal host, paths taken literally. -/
def Environment.ideal : Environment where
  host _ := .ideal
  dir path := path
  urlToString url := url.path
  fromLocalFile path := { scheme := "file", path := path }

/-- `QDBusError::ErrorType`, as far as the sources tell the errors apart. -/
inductive DBusError
  | noReply
  | timeout
  | disconnected
  | timedOut
  | other
  deriving DecidableEq, Repr

/-- The errors that the handler of a ping takes for the loss of the game
server. -/
def DBusError.isLoss : DBusError → Bool
  | .noReply | .timeout | .disconnected | .timedOut => true
  | .other => false

inductive ManagerSignal
  | serverAdded (server : ServerId)
  | serverAboutToBeRemoved (server : ServerId)
  deriving DecidableEq, Repr

/-- `nullServer`: a signal emitted on the null pointer that `gameServers.value`
returns for this game server. `deletedServer`: a signal emitted on a server
that is gone. `notRegistered`: `Q_ASSERT(gameServers.contains(iface))` fails. -/
inductive Fault
  | nullServer (gameServer : GameServerId)
  | deletedServer (server : ServerId)
  | notRegistered (gameServer : GameServerId)
  deriving DecidableEq, Repr

/-- `heap` are the server objects that exist, `doomed` those of them that
`deleteLater` was called on. `interfaces` are the matched game server objects
that exist, each with the server it was announced to. `calls` are the pings in
flight, `rounds` numbers them. `removals` and `deletions` note every call of
`gameServers.remove` and of `deleteLater` on a game server. -/
structure ServerManager where
  heap : ServerId → Option Server := fun _ => none
  doomed : List ServerId := []
  nextServer : ServerId := 0
  servers : List ServerId := []
  gameServers : AList (fun _ : GameServerId => ServerId) := ∅
  signals : List ManagerSignal := []
  nextGameServer : GameServerId := 0
  interfaces : AList (fun _ : GameServerId => ServerId) := ∅
  calls : List (GameServerId × Nat) := []
  rounds : Nat := 0
  removals : List GameServerId := []
  deletions : List GameServerId := []
  faults : List Fault := []

namespace ServerManager

/-! ## Servers -/

def find (m : ServerManager) (name : String) : Option ServerId :=
  m.servers.find? fun server => (m.heap server).any fun s => s.name == name

/-- `add(Server*)`. -/
def addServer (m : ServerManager) (server : ServerId) (s : Server) : ServerManager × Bool :=
  if server ∈ m.servers then (m, false)
  else if (m.find s.name).isSome then (m, false)
  else
    ({ m with
      heap := Function.update m.heap server (some s)
      servers := m.servers ++ [server]
      signals := m.signals ++ [.serverAdded server] }, true)

/-- `add` of an object that has just been made. -/
def newServer (m : ServerManager) (s : Server) : ServerManager × Bool :=
  { m with nextServer := m.nextServer + 1 }.addServer m.nextServer s

/-- The path of a directory that exists, as a URL. -/
def fixedPath (env : Environment) (server : ServerId) (path : QUrl) : QUrl :=
  if (env.host server).fileExists (env.urlToString path) then
    env.fromLocalFile (env.urlToString path)
  else path

/-- `add(const QUrl&, const QString&)`. A server that is not accepted is
deleted at once. -/
def add (env : Environment) (m : ServerManager) (path : QUrl) (name : String) :
    ServerManager × Option ServerId :=
  let server := m.nextServer
  match m.newServer (.create (env.host server) (fixedPath env server path) name) with
  | (m, true) => (m, some server)
  | (m, false) => (m, none)

def remove (m : ServerManager) (serverName : String) : ServerManager × Bool :=
  match m.find serverName with
  | none => (m, false)
  | some server =>
    let m : ServerManager :=
      { m with signals := m.signals ++ [.serverAboutToBeRemoved server] }
    ({ m with
      servers := m.servers.filter (· != server)
      doomed := m.doomed ++ [server] }, true)

/-- The deferred deletion of a server, with all it owns. -/
def deleteServer (m : ServerManager) (server : ServerId) : ServerManager :=
  { m with
    heap := Function.update m.heap server none
    doomed := m.doomed.filter (· != server) }

/-- A signal that reaches a server, if it still exists. -/
def reach (m : ServerManager) (server : ServerId) (signal : Server → Server) : ServerManager :=
  { m with heap := Function.update m.heap server ((m.heap server).map signal) }

/-- `emit server->signal()`. -/
def emitOn (m : ServerManager) (server : ServerId) (signal : Server → Server) : ServerManager :=
  { m.reach server signal with
    faults := if (m.heap server).isSome then m.faults else m.faults ++ [.deletedServer server] }

/-! ## Game servers -/

/-- The server a game server belongs to: the first one at its location. -/
def matching (env : Environment) (m : ServerManager) (gameServer : GameServer) : Option ServerId :=
  m.servers.find? fun server => (m.heap server).any fun s =>
    env.dir s.path.toLocalFile == env.dir gameServer.gameLocation

/-- `gameServers.remove(iface); iface->deleteLater()`. -/
def retire (m : ServerManager) (iface : GameServerId) : ServerManager :=
  { m with
    gameServers := m.gameServers.erase iface
    removals := m.removals ++ [iface]
    deletions := m.deletions ++ [iface] }

/-- A game server that matches no server is only logged. -/
def registerGameServer (env : Environment) (m : ServerManager) (gameServer : GameServer) :
    ServerManager :=
  let iface := m.nextGameServer
  let m := { m with nextGameServer := iface + 1 }
  match m.matching env gameServer with
  | some server =>
    let m := { m with interfaces := m.interfaces.insert iface server }
    let m := m.emitOn server (Server.gameServerOnline (env.host server) iface gameServer)
    { m with gameServers := m.gameServers.insert iface server }
  | none => m

/-- What `aboutToQuit` is connected to: the manager, and behind it the
coordinator of the server, where that still exists. -/
def aboutToQuit (env : Environment) (m : ServerManager) (iface : GameServerId) : ServerManager :=
  let m : ServerManager :=
    if iface ∈ m.gameServers then m else { m with faults := m.faults ++ [.notRegistered iface] }
  let m := m.retire iface
  match m.interfaces.lookup iface with
  | some server => m.reach server (Server.aboutToQuit (env.host server) iface)
  | none => m

/-- The deferred deletion of a game server object. -/
def deleteGameServer (m : ServerManager) (iface : GameServerId) : ServerManager :=
  match m.interfaces.lookup iface with
  | some server =>
    { m.reach server (Server.deleteGameServer iface) with
      interfaces := m.interfaces.erase iface }
  | none => m

/-- On every tick of the timer, whether or not earlier pings are answered. -/
def pingAllServers (m : ServerManager) : ServerManager :=
  { m with
    calls := m.calls ++ m.gameServers.keys.map fun gameServer => (gameServer, m.rounds)
    rounds := m.rounds + 1 }

/-- The handler of a finished ping, of the game server it captured. -/
def pingFinished (env : Environment) (m : ServerManager) (gameServer : GameServerId)
    (error : Option DBusError) : ServerManager :=
  if error.any DBusError.isLoss then
    let m : ServerManager := match m.gameServers.lookup gameServer with
      | some server => m.emitOn server (Server.gameServerTimedOut (env.host server))
      | none => { m with faults := m.faults ++ [.nullServer gameServer] }
    m.retire gameServer
  else m

end ServerManager

end Morgoth
