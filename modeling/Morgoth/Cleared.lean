import Morgoth.ServerMachine

/-!
# What is published of a server that is down

Every change of the state resets the status. Between two changes it is filled
by the signals of game servers, whose connections last as long as the objects
do, and by registrations, which no one who could change the state may hear.

* `cleared_iff`: which runs never publish anything of a server that is offline
  or crashed.
-/

namespace Morgoth

open ServerStatus

/-- What the game server answers are the initial values. -/
structure GameServer.Blank (h : Host) (gameServer : GameServer) : Prop where
  maxPlayers : gameServer.maxPlayers = 0
  address : addressUrl h gameServer.address = none
  map : gameServer.map = ""
  hostname : gameServer.getConVarValue "hostname" = ""
  password : gameServer.getConVarValue "sv_password" = ""
  stvPassword : gameServer.getConVarValue "tv_password" = ""
  stvPort : (toInt (gameServer.getConVarValue "tv_port")).getD 0 = 0

/-- The variable is none that is published, or gets its initial value. -/
def BlankConVar (conVarName newValue : String) : Prop :=
  (conVarName ∈ ["hostname", "sv_password", "tv_password"] → newValue = "") ∧
  (conVarName = "tv_port" → (toInt newValue).getD 0 = 0)

namespace ServerStatus

/-- An address that can be read is not the initial one. -/
theorem addressUrl_ne {h : Host} {addressString : String} {address : QUrl}
    (read : addressUrl h addressString = some address) : address ≠ {} := by
  unfold addressUrl at read
  split at read
  · obtain rfl := Option.some.inj read
    intro blank
    have scheme : "steam" = "" := congrArg QUrl.scheme blank
    exact absurd scheme (by decide)
  · cases read

theorem trackGameServer_blank {h : Host} {st : ServerStatus} (blank : st.d = {})
    (iface : GameServerId) (gameServer : GameServer) :
    (st.trackGameServer h iface gameServer).d = {} ↔ gameServer.Blank h := by
  have unread : (addressUrl h gameServer.address).getD {} = {} ↔
      addressUrl h gameServer.address = none := by
    cases read : addressUrl h gameServer.address with
    | none => simp
    | some address => simpa using addressUrl_ne read
  rw [trackGameServer_d, blank, ServerStatusPrivate.mk.injEq]
  constructor
  · rintro ⟨hostname, -, maxPlayers, map, address, password, stvPort, stvPassword, -⟩
    exact ⟨maxPlayers, unread.mp address, map, hostname, password, stvPassword, stvPort⟩
  · rintro ⟨maxPlayers, address, map, hostname, password, stvPassword, stvPort⟩
    exact ⟨hostname, rfl, maxPlayers, map, unread.mpr address, password, stvPort, stvPassword, rfl⟩

theorem handleConVarChange_blank {st : ServerStatus} (blank : st.d = {})
    (conVarName newValue : String) :
    (st.handleConVarChange conVarName newValue).d = {} ↔ BlankConVar conVarName newValue := by
  unfold handleConVarChange BlankConVar
  split_ifs with hostname password port stvPassword
  · subst hostname
    simp [setHostname, publish, blank]
  · subst password
    simp [setPassword, publish, blank]
  · subst port
    simp [setStvPortFromString_d, blank]
  · subst stvPassword
    simp [setStvPassword, publish, blank]
  · simp [hostname, password, port, stvPassword, blank]

theorem addPlayer_d_ne (st : ServerStatus) (player : PlayerInfo) : (st.addPlayer player).d ≠ {} := by
  intro blank
  have players : st.d.players ++ [player] = [] := congrArg ServerStatusPrivate.players blank
  simp at players

/-- The player is not there, but counted away. -/
theorem removePlayer_d_ne {st : ServerStatus} (blank : st.d = {}) (id : Int) :
    (st.removePlayer id).d ≠ {} := by
  unfold removePlayer
  rw [blank]
  intro same
  have counted := congrArg ServerStatusPrivate.playerCount same
  simp [emitPlayersChanged, setPlayerCount, publish] at counted

end ServerStatus

namespace Server

/-- Offline or crashed, the status has its initial values. -/
def Cleared (s : Server) : Prop := s.state.live = false → s.status.d = {}

/-- While the server is down, no game server says anything but the initial
values, and no player comes or goes. -/
def StaysCleared (h : Host) (s : Server) : ServerEvent → Prop
  | .gameServerOnline _ gameServer =>
    s.state.live = false → s.listening = [] → gameServer.Blank h
  | .mapChanged _ map => s.state.live = false → map = ""
  | .conVarChanged _ conVarName newValue => s.state.live = false → BlankConVar conVarName newValue
  | .playerConnected .. | .playerDisconnected .. => s.state.live = true
  | _ => True

/-- From a state that is cleared, a step leads to another one exactly if it
meets the condition. -/
theorem step_cleared {h : Host} {s u : Server} {e : ServerEvent} (valid : s.valid = true)
    (hi : s.Cleared) (hu : s.step h e = some u) : u.Cleared ↔ s.StaysCleared h e := by
  have clear (d : u.status.d = {}) : u.Cleared := fun _ => d
  have filled {st : ServerStatus} (ne : s.state.live = false → st.d ≠ {}) :
      ({ s with status := st } : Server).Cleared ↔ s.state.live = true := by
    cases live : s.state.live with
    | true => exact iff_of_true (fun down => absurd (live.symm.trans down) (by decide)) rfl
    | false => exact iff_of_false (fun cleared => ne live (cleared live)) (by decide)
  cases step_effect hu with
  | start => exact iff_of_true (clear (start_frame h s).2.2.2.2.1) trivial
  | stop | startTimeout => exact iff_of_true (clear rfl) trivial
  | gameServerTimedOut =>
    rw [gameServerTimedOut_valid valid]
    exact iff_of_true (fun _ => rfl) trivial
  | aboutToQuit iface connected =>
    exact iff_of_true (clear (aboutToQuit_connected connected).2.1) trivial
  | gameServerOnline iface gameServer new =>
    by_cases silent : s.listening = []
    · rw [gameServerOnline_unheard silent, valid]
      simp only [Cleared, StaysCleared, if_true, silent, forall_const]
      refine forall_congr' fun down => ?_
      exact trackGameServer_blank (hi down) iface gameServer
    · apply iff_of_true
      · exact clear (gameServerOnline_heard silent h iface gameServer).2.1
      · exact fun _ none_listening => absurd none_listening silent
  | mapChanged iface map tracked =>
    refine forall_congr' fun down => ?_
    simp [setMap, publish, hi down]
  | conVarChanged iface conVarName newValue tracked =>
    refine forall_congr' fun down => ?_
    exact handleConVarChange_blank (hi down) conVarName newValue
  | playerConnected iface player tracked =>
    exact filled fun _ => addPlayer_d_ne s.status player
  | playerDisconnected iface id tracked =>
    exact filled fun down => removePlayer_d_ne (hi down) id
  | _ => exact iff_of_true hi trivial

/-- In every state of a run in which it is offline or crashed, a valid server
publishes the initial values, exactly if each step meets the condition. -/
theorem cleared_iff (h : Host) (path : QUrl) (name : String)
    (valid : (create h path name).valid = true) (es : List ServerEvent) :
    Machine.Throughout (step h) Cleared (create h path name) es ↔
      Machine.EachStep (step h) (StaysCleared h) (create h path name) es := by
  apply Machine.throughout_iff_eachStep (A := fun s => s.valid = true)
  · intro s e _ u valid hu
    exact (step_frame hu).1.trans valid
  · intro s e _ u valid hi hu
    exact step_cleared valid hi hu
  · exact valid
  · exact fun _ => rfl

/-- A game server that registers after its start has timed out, and after the
starter that waited for it is gone. -/
def late : List ServerEvent :=
  [.start, .startTimeout 0, .deleteStarter 0, .gameServerOnline 0 .sample]

theorem cleared_iff_late :
    Machine.Throughout (step .ideal) Cleared sample late ↔
      Machine.EachStep (step .ideal) (StaysCleared .ideal) sample late :=
  cleared_iff .ideal _ _ rfl late

/-- The server counts as crashed, and publishes a map and an address. -/
theorem late_registration_fills_status :
    sample.valid = true ∧
    ∃ s, run .ideal sample late = some s ∧ s.state = .crashed ∧ s.status.d.map = "cp_badlands" ∧
      s.status.d.maxPlayers = 24 ∧ ¬ s.Cleared := by
  refine ⟨rfl, _, rfl, rfl, rfl, rfl, fun cleared => ?_⟩
  have map : "cp_badlands" = "" := congrArg ServerStatusPrivate.map (cleared rfl)
  exact absurd map (by decide)

end Server

end Morgoth
