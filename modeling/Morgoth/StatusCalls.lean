import Mathlib.Data.List.Induction
import Morgoth.Handlers

/-!
# The calls on a status

What happens to a `ServerStatus` is a sequence of calls of its setters.

* `trackGameServer_calls`, `handleConVarChange_call`: the calls of the two
  handlers;
* `Field.read_calls`: what a published field holds after any calls is what the
  last call that wrote it put there.
-/

namespace Morgoth

/-- `connect` and `disconnect` stand for the connections to the signals of a
game server. -/
inductive StatusCall
  | setMaxPlayers (maxPlayers : Int)
  | setAddressFromString (addressString : String)
  | setMap (map : String)
  | setHostname (hostname : String)
  | setPassword (password : String)
  | setStvPassword (stvPassword : String)
  | setStvPortFromString (stvPortString : String)
  | addPlayer (player : PlayerInfo)
  | removePlayer (id : Int)
  | reset
  | connect (iface : GameServerId)
  | disconnect (iface : GameServerId)
  deriving DecidableEq, Repr

namespace ServerStatus

def call (h : Host) (st : ServerStatus) : StatusCall → ServerStatus
  | .setMaxPlayers maxPlayers => st.setMaxPlayers maxPlayers
  | .setAddressFromString addressString => st.setAddressFromString h addressString
  | .setMap map => st.setMap map
  | .setHostname hostname => st.setHostname hostname
  | .setPassword password => st.setPassword password
  | .setStvPassword stvPassword => st.setStvPassword stvPassword
  | .setStvPortFromString stvPortString => st.setStvPortFromString stvPortString
  | .addPlayer player => st.addPlayer player
  | .removePlayer id => st.removePlayer id
  | .reset => st.reset
  | .connect iface => { st with tracked := st.tracked ++ [iface] }
  | .disconnect iface => { st with tracked := st.tracked.filter (· != iface) }

def callAll (h : Host) (st : ServerStatus) (calls : List StatusCall) : ServerStatus :=
  calls.foldl (call h) st

theorem callAll_append (h : Host) (st : ServerStatus) (xs ys : List StatusCall) :
    st.callAll h (xs ++ ys) = (st.callAll h xs).callAll h ys := List.foldl_append

/-! ## The handlers -/

def trackCalls (iface : GameServerId) (gameServer : GameServer) : List StatusCall :=
  [.setMaxPlayers gameServer.maxPlayers, .setAddressFromString gameServer.address,
    .connect iface, .setMap gameServer.map,
    .setHostname (gameServer.getConVarValue "hostname"),
    .setPassword (gameServer.getConVarValue "sv_password"),
    .setStvPassword (gameServer.getConVarValue "tv_password"),
    .setStvPortFromString (gameServer.getConVarValue "tv_port")]

def conVarCall (conVarName newValue : String) : Option StatusCall :=
  if conVarName = "hostname" then some (.setHostname newValue)
  else if conVarName = "sv_password" then some (.setPassword newValue)
  else if conVarName = "tv_port" then some (.setStvPortFromString newValue)
  else if conVarName = "tv_password" then some (.setStvPassword newValue)
  else none

theorem trackGameServer_calls (h : Host) (st : ServerStatus) (iface : GameServerId)
    (gameServer : GameServer) :
    st.trackGameServer h iface gameServer = st.callAll h (trackCalls iface gameServer) := rfl

theorem handleConVarChange_call (h : Host) (st : ServerStatus) (conVarName newValue : String) :
    st.handleConVarChange conVarName newValue =
      st.callAll h (conVarCall conVarName newValue).toList := by
  unfold handleConVarChange conVarCall
  split_ifs <;> rfl

/-! ## Fields -/

/-- A published field, with what a call writes there. -/
structure Field (h : Host) (α : Type) where
  read : ServerStatus → α
  writes : StatusCall → Option α
  read_call : ∀ st call, read (st.call h call) = (writes call).getD (read st)

theorem Field.read_calls {h : Host} {α : Type} (field : Field h α) (st : ServerStatus)
    (calls : List StatusCall) :
    field.read (st.callAll h calls) =
      ((calls.filterMap field.writes).getLast?).getD (field.read st) := by
  induction calls using List.reverseRecOn with
  | nil => rfl
  | append_singleton calls call ih =>
    have last : st.callAll h (calls ++ [call]) = (st.callAll h calls).call h call :=
      callAll_append h st calls [call]
    rw [last, field.read_call, ih, List.filterMap_append]
    cases written : field.writes call <;> simp [written]

theorem removePlayer_d (st : ServerStatus) (id : Int) :
    (st.removePlayer id).d =
      { st.d with
        players := (st.removePlayer id).d.players
        playerCount := (st.removePlayer id).d.playerCount } := by
  unfold removePlayer
  cases st.d.players.find? fun p => p.id == id <;> rfl

/-- The published texts that a game server may change. -/
inductive TextField
  | map
  | hostname
  | password
  | stvPassword
  deriving DecidableEq, Repr

def TextField.read : TextField → ServerStatus → String
  | .map, st => st.d.map
  | .hostname, st => st.d.hostname
  | .password, st => st.d.password
  | .stvPassword, st => st.d.stvPassword

def TextField.writes : TextField → StatusCall → Option String
  | .map, .setMap text | .hostname, .setHostname text | .password, .setPassword text
  | .stvPassword, .setStvPassword text => some text
  | _, .reset => some ""
  | _, _ => none

def Field.text (h : Host) (x : TextField) : Field h String where
  read := x.read
  writes := x.writes
  read_call st call := by
    cases call with
    | setAddressFromString addressString =>
      cases x <;> simp only [ServerStatus.call, TextField.read, setAddressFromString_d] <;> rfl
    | setStvPortFromString stvPortString =>
      cases x <;> simp only [ServerStatus.call, TextField.read, setStvPortFromString_d] <;> rfl
    | removePlayer id =>
      cases x <;> simp only [ServerStatus.call, TextField.read] <;> rw [removePlayer_d] <;> rfl
    | _ => cases x <;> rfl

def Field.stvPort (h : Host) : Field h Int where
  read st := st.d.stvPort
  writes
    | .setStvPortFromString stvPortString => toInt stvPortString
    | .reset => some 0
    | _ => none
  read_call st call := by
    cases call with
    | setAddressFromString addressString =>
      simp only [ServerStatus.call, setAddressFromString_d]
      rfl
    | setStvPortFromString stvPortString =>
      simp only [ServerStatus.call, setStvPortFromString_d]
    | removePlayer id =>
      simp only [ServerStatus.call]
      rw [removePlayer_d]
      rfl
    | _ => rfl

def Field.address (h : Host) : Field h QUrl where
  read st := st.d.address
  writes
    | .setAddressFromString addressString => addressUrl h addressString
    | .reset => some {}
    | _ => none
  read_call st call := by
    cases call with
    | setAddressFromString addressString =>
      simp only [ServerStatus.call, setAddressFromString_d]
    | setStvPortFromString stvPortString =>
      simp only [ServerStatus.call, setStvPortFromString_d]
      rfl
    | removePlayer id =>
      simp only [ServerStatus.call]
      rw [removePlayer_d]
      rfl
    | _ => rfl

end ServerStatus

end Morgoth
