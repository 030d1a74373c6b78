import Morgoth.Host

/-!
# ServerStatus

What morgoth publishes about a game server. `d` are the published fields and
`signals` the change signals emitted so far, oldest first. `tracked` are the
game servers whose own signals are connected to this object. `erasedEnd`
records that `players.erase` was applied to `end()`, which is undefined; the
model then goes on as the text does.
-/

namespace Morgoth

abbrev GameServerId := Nat

structure SteamId where
  toSteamId64 : BitVec 64 := 0
  deriving DecidableEq, Repr

structure PlayerInfo where
  id : Int := 0
  name : String := ""
  steamId : SteamId := {}
  deriving DecidableEq, Repr

/-- What a game server answers to the calls `trackGameServer` and
`registerGameServer` make on it. -/
structure GameServer where
  gameLocation : String
  maxPlayers : Int
  address : String
  map : String
  getConVarValue : String → String

/-- A game server at `/srv/tf2` that has started its first map. -/
def GameServer.sample : GameServer where
  gameLocation := "/srv/tf2"
  maxPlayers := 24
  address := "127.0.0.1:27015"
  map := "cp_badlands"
  getConVarValue conVarName := if conVarName = "tv_port" then "27020" else ""

structure ServerStatusPrivate where
  hostname : String := ""
  playerCount : Int := 0
  maxPlayers : Int := 0
  map : String := ""
  address : QUrl := {}
  password : String := ""
  stvPort : Int := 0
  stvPassword : String := ""
  players : List PlayerInfo := []
  deriving DecidableEq, Repr

/-- `addressChanged` has a second form for D-Bus, which carries the URL as a
string. `playersChanged` is noted with the count a reader finds at that
moment. -/
inductive StatusSignal
  | hostnameChanged (hostname : String)
  | playerCountChanged (playerCount : Int)
  | maxPlayersChanged (maxPlayers : Int)
  | mapChanged (map : String)
  | addressChanged (address : QUrl)
  | addressChangedString (address : QUrl)
  | passwordChanged (password : String)
  | stvPortChanged (stvPort : Int)
  | stvPasswordChanged (stvPassword : String)
  | playersChanged (players : List PlayerInfo) (playerCount : Int)
  deriving DecidableEq, Repr

structure ServerStatus where
  d : ServerStatusPrivate := {}
  signals : List StatusSignal := []
  tracked : List GameServerId := []
  erasedEnd : Bool := false
  deriving DecidableEq, Repr

namespace ServerStatus

/-- Write the fields, then emit. -/
def publish (st : ServerStatus) (d : ServerStatusPrivate) (signals : List StatusSignal) :
    ServerStatus :=
  { st with d := d, signals := st.signals ++ signals }

def setHostname (st : ServerStatus) (hostname : String) : ServerStatus :=
  st.publish { st.d with hostname := hostname } [.hostnameChanged hostname]

def setPlayerCount (st : ServerStatus) (playerCount : Int) : ServerStatus :=
  st.publish { st.d with playerCount := playerCount } [.playerCountChanged playerCount]

def setMaxPlayers (st : ServerStatus) (maxPlayers : Int) : ServerStatus :=
  st.publish { st.d with maxPlayers := maxPlayers } [.maxPlayersChanged maxPlayers]

def setMap (st : ServerStatus) (map : String) : ServerStatus :=
  st.publish { st.d with map := map } [.mapChanged map]

def setAddress (st : ServerStatus) (address : QUrl) : ServerStatus :=
  st.publish { st.d with address := address } [.addressChanged address, .addressChangedString address]

/-- The URL of an address `host:port`. A text of any other shape has none, and
a port that is not a number counts as 0. -/
def addressUrl (h : Host) (addressString : String) : Option QUrl :=
  match splitAt ':' addressString with
  | [host, port] =>
    let address : QUrl := { scheme := "steam", host := h.urlHost host }
    some (address.setPort ((toInt port).getD 0))
  | _ => none

def setAddressFromString (h : Host) (st : ServerStatus) (addressString : String) : ServerStatus :=
  match addressUrl h addressString with
  | some address => st.setAddress address
  | none => st

def setPassword (st : ServerStatus) (password : String) : ServerStatus :=
  st.publish { st.d with password := password } [.passwordChanged password]

def setStvPort (st : ServerStatus) (stvPort : Int) : ServerStatus :=
  st.publish { st.d with stvPort := stvPort } [.stvPortChanged stvPort]

def setStvPortFromString (st : ServerStatus) (stvPortString : String) : ServerStatus :=
  match toInt stvPortString with
  | some stvPort => st.setStvPort stvPort
  | none => st

def setStvPassword (st : ServerStatus) (stvPassword : String) : ServerStatus :=
  st.publish { st.d with stvPassword := stvPassword } [.stvPasswordChanged stvPassword]

def emitPlayersChanged (st : ServerStatus) : ServerStatus :=
  st.publish st.d [.playersChanged st.d.players st.d.playerCount]

def addPlayer (st : ServerStatus) (player : PlayerInfo) : ServerStatus :=
  let st := { st with d := { st.d with players := st.d.players ++ [player] } }
  (st.setPlayerCount (st.d.playerCount + 1)).emitPlayersChanged

def removePlayer (st : ServerStatus) (id : Int) : ServerStatus :=
  let st :=
    match st.d.players.find? (fun p => p.id == id) with
    | some _ => { st with d := { st.d with players := st.d.players.eraseP (fun p => p.id == id) } }
    | none => { st with erasedEnd := true }
  (st.setPlayerCount (st.d.playerCount - 1)).emitPlayersChanged

def clearPlayers (st : ServerStatus) : ServerStatus :=
  let st := { st with d := { st.d with players := [] } }
  (st.setPlayerCount 0).emitPlayersChanged

def reset (st : ServerStatus) : ServerStatus :=
  (((((((((st.setHostname "").setPlayerCount 0).setMaxPlayers 0).setMap "").setAddress {}).setPassword
    "").setStvPort 0).setStvPassword "").clearPlayers)

def handleConVarChange (st : ServerStatus) (conVarName newValue : String) : ServerStatus :=
  if conVarName = "hostname" then st.setHostname newValue
  else if conVarName = "sv_password" then st.setPassword newValue
  else if conVarName = "tv_port" then st.setStvPortFromString newValue
  else if conVarName = "tv_password" then st.setStvPassword newValue
  else st

/-- The calls block, so no other event is handled in between. Connecting the
game server's signals is the entry in `tracked`. -/
def trackGameServer (h : Host) (st : ServerStatus) (iface : GameServerId) (gameServer : GameServer) :
    ServerStatus :=
  let st := (st.setMaxPlayers gameServer.maxPlayers).setAddressFromString h gameServer.address
  let st := { st with tracked := st.tracked ++ [iface] }
  let st := st.setMap gameServer.map
  let st := st.setHostname (gameServer.getConVarValue "hostname")
  let st := st.setPassword (gameServer.getConVarValue "sv_password")
  let st := st.setStvPassword (gameServer.getConVarValue "tv_password")
  st.setStvPortFromString (gameServer.getConVarValue "tv_port")

theorem setAddressFromString_d (h : Host) (st : ServerStatus) (addressString : String) :
    (st.setAddressFromString h addressString).d =
      { st.d with address := (addressUrl h addressString).getD st.d.address } := by
  unfold setAddressFromString
  cases addressUrl h addressString <;> rfl

theorem setStvPortFromString_d (st : ServerStatus) (stvPortString : String) :
    (st.setStvPortFromString stvPortString).d =
      { st.d with stvPort := (toInt stvPortString).getD st.d.stvPort } := by
  unfold setStvPortFromString
  cases toInt stvPortString <;> rfl

/-- What is published of a game server that has just registered. -/
theorem trackGameServer_d (h : Host) (st : ServerStatus) (iface : GameServerId)
    (gameServer : GameServer) :
    (st.trackGameServer h iface gameServer).d =
      { st.d with
        maxPlayers := gameServer.maxPlayers
        address := (addressUrl h gameServer.address).getD st.d.address
        map := gameServer.map
        hostname := gameServer.getConVarValue "hostname"
        password := gameServer.getConVarValue "sv_password"
        stvPassword := gameServer.getConVarValue "tv_password"
        stvPort := (toInt (gameServer.getConVarValue "tv_port")).getD st.d.stvPort } := by
  simp only [trackGameServer, setStvPortFromString_d, setStvPassword, setPassword, setHostname,
    setMap, setMaxPlayers, setAddressFromString_d, publish]

end ServerStatus

end Morgoth
