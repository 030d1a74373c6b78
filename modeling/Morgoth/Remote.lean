import Morgoth.Columns
import Morgoth.Dialogue
import Morgoth.NameMap
import Morgoth.Persistor
import Morgoth.StartProtocol

/-!
# The objects of the daemon, as clients see them

What the generated D-Bus interfaces ask and the adaptors answer. A client names an
object by its path. Where there is no such object, the interface hands out the first
value of the type.
-/

namespace Morgoth

/-- The requests of the commands, by the interface they belong to. A path that is added
has become a URL on its way. -/
inductive Request
  | servers
  | serverPath (serverName : String)
  | add (path : QUrl) (name : String)
  | remove (serverName : String)
  | name (server : String)
  | path (server : String)
  | valid (server : String)
  | configurationPath (server : String)
  | coordinatorPath (server : String)
  | statusPath (server : String)
  | state (coordinator : String)
  | sessionName (coordinator : String)
  | keys (configuration : String)
  | value (configuration key : String)
  | setValue (configuration key value : String)
  | hostname (status : String)
  | map (status : String)
  | playerCount (status : String)
  | maxPlayers (status : String)
  | players (status : String)

abbrev Request.Answer : Request → Type
  | .servers | .keys _ => List String
  | .add .. | .remove _ | .valid _ => Bool
  | .state _ => State
  | .setValue .. => Unit
  | .playerCount _ | .maxPlayers _ => Int
  | .players _ => List PlayerInfo
  | _ => String

namespace Bus

/-- The server at a path. -/
def serverAt (b : Bus) (path : String) : Option Server :=
  match b.objects path with
  | some (.server server) => b.manager.heap server
  | _ => none

/-- The server whose configuration is at a path. -/
def configured (b : Bus) (path : String) : Option ServerId :=
  match b.objects path with
  | some (.configuration server) => some server
  | _ => none

def configurationAt (b : Bus) (path : String) : Option ServerConfiguration :=
  ((b.configured path).bind b.manager.heap).bind Server.configuration

def coordinatorAt (b : Bus) (path : String) : Option Server :=
  (b.coordinator path).bind b.manager.heap

def statusAt (b : Bus) (path : String) : Option ServerStatusPrivate :=
  match b.objects path with
  | some (.status server) => (b.manager.heap server).map fun s => s.status.d
  | _ => none

/-- A call that arrives, and what it is answered. -/
def serve (env : Environment) : (r : Request) → Bus → r.Answer × Bus
  | .servers, b => (b.manager.serverNames, b)
  | .serverPath serverName, b => (b.manager.serverPath serverName, b)
  | .add path name, b =>
    ((b.manager.add env path name).2.isSome, (b.step env (.add path name)).getD b)
  | .remove serverName, b =>
    ((b.manager.remove serverName).2, (b.step env (.remove serverName)).getD b)
  | .name server, b => (((b.serverAt server).map Server.name).getD "", b)
  | .path server, b => (((b.serverAt server).map fun s => env.urlToString s.path).getD "", b)
  | .valid server, b => ((b.serverAt server).any Server.valid, b)
  | .configurationPath server, b => (((b.serverAt server).map Server.configurationPath).getD "", b)
  | .coordinatorPath server, b =>
    (((b.serverAt server).filter Server.valid |>.map Server.coordinatorPath).getD "", b)
  | .statusPath server, b =>
    (((b.serverAt server).filter Server.valid |>.map Server.statusPath).getD "", b)
  | .state coordinator, b => (b.readState coordinator, b)
  | .sessionName coordinator, b =>
    (((b.coordinatorAt coordinator).map fun s => s.tmux.name).getD "", b)
  | .keys configuration, b => (((b.configurationAt configuration).map (·.keys)).getD [], b)
  | .value configuration key, b =>
    (((b.configurationAt configuration).map (·.value key)).getD "", b)
  | .setValue configuration key value, b =>
    ((), ((b.configured configuration).bind fun server =>
      b.step env (.server server (.setValue key value))).getD b)
  | .hostname status, b => (((b.statusAt status).map (·.hostname)).getD "", b)
  | .map status, b => (((b.statusAt status).map (·.map)).getD "", b)
  | .playerCount status, b => (((b.statusAt status).map (·.playerCount)).getD 0, b)
  | .maxPlayers status, b => (((b.statusAt status).map (·.maxPlayers)).getD 0, b)
  | .players status, b => (((b.statusAt status).map (·.players)).getD [], b)

end Bus

end Morgoth
