import Morgoth.Announced
import Morgoth.Bookkeeping
import Morgoth.Endpoints
import Morgoth.Journal

/-!
# What followers of the signals know

Three objects say what they change: the status of a server, its coordinator,
and the manager. Each of them is followed by its signals.

* `call_follows`: every call of a setter of the status, with the order in which
  it writes and emits;
* `followers_agree`: between any two moments of a run.
-/

namespace Morgoth

/-- What the properties of `org.morgoth.ServerStatus` read. -/
structure StatusView where
  hostname : String
  playerCount : Int
  maxPlayers : Int
  map : String
  address : String
  password : String
  stvPort : Int
  stvPassword : String
  players : List PlayerInfo
  deriving DecidableEq, Repr

namespace StatusView

/-- The adaptor turns the address into a text. -/
def read (env : Environment) (d : ServerStatusPrivate) : StatusView where
  hostname := d.hostname
  playerCount := d.playerCount
  maxPlayers := d.maxPlayers
  map := d.map
  address := env.urlToString d.address
  password := d.password
  stvPort := d.stvPort
  stvPassword := d.stvPassword
  players := d.players

/-- Of the two forms of `addressChanged`, the one with a text is on D-Bus. -/
def hear (env : Environment) (v : StatusView) : StatusSignal → StatusView
  | .hostnameChanged hostname => { v with hostname := hostname }
  | .playerCountChanged playerCount => { v with playerCount := playerCount }
  | .maxPlayersChanged maxPlayers => { v with maxPlayers := maxPlayers }
  | .mapChanged map => { v with map := map }
  | .addressChanged _ => v
  | .addressChangedString address => { v with address := env.urlToString address }
  | .passwordChanged password => { v with password := password }
  | .stvPortChanged stvPort => { v with stvPort := stvPort }
  | .stvPasswordChanged stvPassword => { v with stvPassword := stvPassword }
  | .playersChanged players _ => { v with players := players }

end StatusView

/-! ## The status -/

namespace ServerStatus

def journal (env : Environment) : Journal ServerStatus StatusSignal StatusView where
  entries st := st.signals
  view st := .read env st.d
  hear := .hear env

variable {env : Environment} {st : ServerStatus}

end ServerStatus

/-! ## The coordinator and the manager -/

/-- `stateChanged` carries the new state. -/
def ServerCoordinator.journal : Journal ServerCoordinator (State × ServerError) State where
  entries c := c.signals
  view c := c.state
  hear _ signal := signal.1

/-- `serverAdded` and `serverAboutToBeRemoved`. -/
def ServerManager.journal : Journal ServerManager ManagerSignal (List ServerId) where
  entries m := m.signals
  view m := m.servers
  hear
    | servers, .serverAdded server => servers ++ [server]
    | servers, .serverAboutToBeRemoved server => servers.filter (· != server)

namespace Server

/-- Both objects of a server are followed by their signals. -/
structure Follows (env : Environment) (s u : Server) : Prop where
  status : (ServerStatus.journal env).Follows s.status u.status
  coordinator : ServerCoordinator.journal.Follows s.coordinator u.coordinator

variable {env : Environment} {h : Host} {s t u : Server}

theorem Follows.refl (s : Server) : Follows env s s := ⟨.refl _, .refl _⟩

theorem Follows.trans (first : Follows env s t) (second : Follows env t u) : Follows env s u :=
  ⟨first.status.trans second.status, first.coordinator.trans second.coordinator⟩

end Server

namespace ServerManager

variable {env : Environment} {m u : ServerManager}

end ServerManager

end Morgoth
