import Mathlib.Data.List.AList
import Morgoth.Signal
import Morgoth.Status
import Morgoth.Tmux

/-!
# A server and what belongs to it

A `Server` owns its configuration, its coordinator, its status and the
`ServerStarter`s that have not been deleted yet, in the order of their
creation. Every handler is a function on the whole `Server`, because a signal
of one of these objects runs slots of the others before it returns.
-/

namespace Morgoth

/-- `ServerCoordinator::State`. -/
inductive State
  | offline
  | starting
  | running
  | shuttingDown
  | crashed
  deriving DecidableEq, Repr

/-- The server is booting up, up, or has not exited yet. -/
def State.live : State → Bool
  | .starting | .running | .shuttingDown => true
  | .offline | .crashed => false

/-- `ServerError::ErrorType`. -/
inductive ServerError
  | noError
  | invalidInstallation
  | invalidConfiguration
  | unableToCreateTmuxSession
  | unableToResolveUser
  | unableToRedirectTmuxOutput
  | serverExecutableFailed
  | serverNotRegisteredOnTime
  deriving DecidableEq, Repr

structure ServerConfiguration where
  values : AList (fun _ : String => String) := ∅

namespace ServerConfiguration

/-- `QMap::value`: the empty string for a missing key. -/
def value (c : ServerConfiguration) (key : String) : String :=
  (c.values.lookup key).getD ""

/-- The configuration after the call, and the `valueChanged` it emits. -/
def setValue (c : ServerConfiguration) (key value : String) :
    ServerConfiguration × Option (String × String) :=
  if c.value key ≠ value then (⟨c.values.insert key value⟩, some (key, value)) else (c, none)

/-- What a new server starts with. -/
def default : ServerConfiguration :=
  let c : ServerConfiguration := {}
  let c := (c.setValue "org.morgoth.Server.launchArguments"
    "-port 27015 -secured +map cp_badlands").1
  (c.setValue "org.morgoth.Server.logDirectory" "logs").1

end ServerConfiguration

inductive StarterSignal
  | starting
  | started (gameServer : GameServerId)
  | failed (error : ServerError)
  deriving DecidableEq, Repr

/-- `connected` is the connection to `Server::gameServerOnline`. -/
structure ServerStarter where
  connected : Bool := false
  timerActive : Bool := false
  deleteLater : Bool := false
  signals : List StarterSignal := []
  deriving DecidableEq, Repr

/-- `signals` are the emissions of `stateChanged`, each with what `error()`
returned at that moment. `quitSlots` has one entry for each connection of a
game server's `aboutToQuit` to `onGameServerStopped`. -/
structure ServerCoordinator where
  state : State := .offline
  error : ServerError := .noError
  tmux : TmuxSessionWrapper
  signals : List (State × ServerError) := []
  quitSlots : List GameServerId := []
  deriving DecidableEq, Repr

inductive ServerSignal
  | gameServerOnline (gameServer : GameServerId)
  | gameServerTimedOut
  deriving DecidableEq, Repr

/-- The coordinator and the status are those of a valid server; the source has
null pointers there for an invalid one, and connects none of their slots. -/
structure Server where
  name : String
  path : QUrl
  valid : Bool
  srcdsExec : String
  configuration : Option ServerConfiguration
  coordinator : ServerCoordinator
  status : ServerStatus := {}
  starters : List ServerStarter := []
  signals : List ServerSignal := []

namespace Server

/-- `ServerPrivate::discover`: whether the server is valid, and `srcdsExec`. -/
def discover (h : Host) (path : QUrl) : Bool × String :=
  if path.isLocalFile then
    let srcdsExec := path.toLocalFile ++ "/" ++ "srcds_run"
    (h.fileExists srcdsExec, srcdsExec)
  else (false, "")

def create (h : Host) (path : QUrl) (name : String) : Server :=
  { name := name
    path := path
    valid := (discover h path).1
    srcdsExec := (discover h path).2
    configuration := some .default
    coordinator := { tmux := { name := h.sessionName } } }

abbrev state (s : Server) : State := s.coordinator.state

abbrev tmux (s : Server) : TmuxSessionWrapper := s.coordinator.tmux

def withTmux (s : Server) (tmux : TmuxSessionWrapper) : Server :=
  { s with coordinator := { s.coordinator with tmux := tmux } }

/-! ## ServerCoordinator -/

/-- `stateChanged` is connected to `ServerStatusPrivate::handleStateChange`,
which resets the status whatever the new state is. -/
def setState (state : State) (s : Server) : Server :=
  { s with
    coordinator :=
      { s.coordinator with
        state := state
        signals := s.coordinator.signals ++ [(state, s.coordinator.error)] }
    status := s.status.reset }

def stop (h : Host) (s : Server) : Server :=
  if s.state = .running ∨ s.state = .starting then
    let s := s.setState .shuttingDown
    s.withTmux (s.tmux.sendKeys h "quit").2
  else s

def sendCommand (h : Host) (command : String) (s : Server) : Server :=
  if s.state = .running then s.withTmux (s.tmux.sendKeys h command).2 else s

/-- A state other than `starting` is only logged. -/
def onGameServerStarted (gameServer : GameServerId) (s : Server) : Server :=
  let s := { s with
    coordinator := { s.coordinator with quitSlots := s.coordinator.quitSlots ++ [gameServer] } }
  s.setState .running

def onGameServerStopped (h : Host) (s : Server) : Server :=
  let s := s.setState .offline
  s.withTmux (s.tmux.kill h).2

def onGameServerTimedOut (h : Host) (s : Server) : Server :=
  let s := s.setState .crashed
  s.withTmux (s.tmux.kill h).2

def onServerFailed (error : ServerError) (s : Server) : Server :=
  let s := { s with coordinator := { s.coordinator with error := error } }
  s.setState .crashed

/-! ## ServerStarter -/

def modifyStarter (i : Nat) (f : ServerStarter → ServerStarter) (s : Server) : Server :=
  { s with starters := s.starters.modify i f }

def noteStarter (i : Nat) (signal : StarterSignal) (s : Server) : Server :=
  s.modifyStarter i fun st => { st with signals := st.signals ++ [signal] }

/-- The slot `QObject::deleteLater` of a starter. -/
def deleteStarterLater (i : Nat) (s : Server) : Server :=
  s.modifyStarter i fun st => { st with deleteLater := true }

/-- `emit starting()`. -/
def emitStarting (i : Nat) (s : Server) : Server :=
  Signal.emit [setState .starting] (s.noteStarter i .starting)

/-- `emit started(gameServer)`. -/
def emitStarted (i : Nat) (gameServer : GameServerId) (s : Server) : Server :=
  Signal.emit [onGameServerStarted gameServer, deleteStarterLater i]
    (s.noteStarter i (.started gameServer))

/-- `emit failed(error)`. -/
def emitFailed (i : Nat) (error : ServerError) (s : Server) : Server :=
  Signal.emit [onServerFailed error, deleteStarterLater i] (s.noteStarter i (.failed error))

/-- The user the session is to run as: the server's own setting, else the
daemon's. -/
def startUser (h : Host) (s : Server) (configuration : ServerConfiguration) : String :=
  let user := configuration.value "org.morgoth.Server.user"
  if user.isEmpty then (h.daemonUser s.tmux.spawned.length).getD user else user

def logFileName (s : Server) (configuration : ServerConfiguration) : String :=
  let logDirectory := configuration.value "org.morgoth.Server.logDirectory"
  let logDirectory :=
    if isRelativePath logDirectory then s.path.toLocalFile ++ logDirectory else logDirectory
  logDirectory ++ "/gameserver.log"

def launchCommand (s : Server) (configuration : ServerConfiguration) : String :=
  s.path.toLocalFile ++ "/srcds_run " ++ configuration.value "org.morgoth.Server.launchArguments"

/-- `getpwnam` finds no entry for the user the session is to run as. -/
def userUnresolved (h : Host) (s : Server) (configuration : ServerConfiguration) : Bool :=
  let user := s.startUser h configuration
  !user.isEmpty && (h.getpwnam (.serverStarter s.tmux.spawned.length) user).isNone

/-- The last part of `ServerStarter::start`, in the session it has created. -/
def launch (h : Host) (s : Server) (configuration : ServerConfiguration)
    (tmux : TmuxSessionWrapper) : TmuxSessionWrapper × Option ServerError :=
  match tmux.redirectOutput h (s.logFileName configuration) with
  | (false, tmux) => ((tmux.kill h).2, some .unableToRedirectTmuxOutput)
  | (true, tmux) =>
    match tmux.sendKeys h (s.launchCommand configuration) with
    | (false, tmux) => ((tmux.kill h).2, some .serverExecutableFailed)
    | (true, tmux) => (tmux, none)

/-- What `ServerStarter::start` does between `starting` and its outcome: the
tmux session it leaves behind, and the error it fails with. `chown` of the log
file has no effect on either. -/
def bringUp (h : Host) (s : Server) : TmuxSessionWrapper × Option ServerError :=
  if !s.valid then (s.tmux, some .invalidInstallation)
  else match s.configuration with
    | none => (s.tmux, some .invalidConfiguration)
    | some configuration =>
      match (s.tmux.setUser h (s.startUser h configuration)).create h with
      | (false, tmux) => (tmux, some .unableToCreateTmuxSession)
      | (true, tmux) =>
        if s.userUnresolved h configuration then (tmux, some .unableToResolveUser)
        else s.launch h configuration tmux

/-- `ServerStarter::start` of the i-th starter. -/
def startStarter (h : Host) (i : Nat) (s : Server) : Server :=
  let s := s.emitStarting i
  let outcome := s.bringUp h
  let s := s.withTmux outcome.1
  match outcome.2 with
  | some error => s.emitFailed i error
  | none => s.modifyStarter i fun st => { st with connected := true, timerActive := true }

/-- `ServerCoordinator::start`, with its result. -/
def start (h : Host) (s : Server) : Server × Bool :=
  let i := s.starters.length
  let s := { s with starters := s.starters ++ [({} : ServerStarter)] }
  (s.startStarter h i, true)

/-- `ServerStarter::timeoutStart`, on the expiry of a single-shot timer. -/
def timeoutStart (i : Nat) (s : Server) : Server :=
  (s.modifyStarter i fun st => { st with timerActive := false }).emitFailed i
    .serverNotRegisteredOnTime

def handleGameServerRegistered (i : Nat) (gameServer : GameServerId) (s : Server) : Server :=
  (s.modifyStarter i fun st => { st with timerActive := false }).emitStarted i gameServer

/-! ## The signals of the server -/

/-- The starters connected to `gameServerOnline`, in the order of their
connection. -/
def listening (s : Server) : List Nat :=
  (List.range s.starters.length).filter fun i => (s.starters[i]?).any (·.connected)

/-- The status was connected when the server was built, each starter when its
`start` succeeded. -/
def gameServerOnlineSlots (h : Host) (iface : GameServerId) (gameServer : GameServer)
    (s : Server) : List (Server → Server) :=
  (if s.valid then
    [fun s => { s with status := s.status.trackGameServer h iface gameServer }] else []) ++
  s.listening.map fun i => handleGameServerRegistered i iface

def gameServerOnline (h : Host) (iface : GameServerId) (gameServer : GameServer) (s : Server) :
    Server :=
  Signal.emit (s.gameServerOnlineSlots h iface gameServer)
    { s with signals := s.signals ++ [.gameServerOnline iface] }

def gameServerTimedOut (h : Host) (s : Server) : Server :=
  Signal.emit (if s.valid then [onGameServerTimedOut h] else [])
    { s with signals := s.signals ++ [.gameServerTimedOut] }

/-- The coordinator's part of a game server's `aboutToQuit`. -/
def aboutToQuit (h : Host) (iface : GameServerId) (s : Server) : Server :=
  Signal.emit ((s.coordinator.quitSlots.filter (· == iface)).map fun _ => onGameServerStopped h) s

/-- A game server object that is deleted takes its connections with it. -/
def deleteGameServer (iface : GameServerId) (s : Server) : Server :=
  { s with
    coordinator := { s.coordinator with
      quitSlots := s.coordinator.quitSlots.filter (· != iface) }
    status := { s.status with tracked := s.status.tracked.filter (· != iface) } }

end Server

end Morgoth
