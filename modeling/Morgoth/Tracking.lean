import Morgoth.ServerMachine

/-!
# What the status shows of a registered game server

A registration first reaches `ServerStatus`, which fetches the values of the
game server, then the pending `ServerStarter`, then through it the coordinator,
whose `stateChanged` comes back to `ServerStatus` and resets it.

* `online_shows`: the values survive their own registration exactly if the
  coordinator was running already and no starter hears of it;
* `step_shows`: what a later step may say without disturbing them;
* `shows_while_running_iff`: both together, until the game server reports a
  change.
-/

namespace Morgoth

/-- The game server answers in the form `ServerStatus` can use: an address
`host:port` with a port number, and a number for the SourceTV port. -/
structure GameServer.WellFormed (gameServer : GameServer) (host portText : String)
    (port stvPort : Int) : Prop where
  address : gameServer.address = host ++ ":" ++ portText
  host : ':' ∉ host.toList
  port : ':' ∉ portText.toList ∧ toInt portText = some port ∧ 0 ≤ port ∧ port ≤ 65535
  stvPort : toInt (gameServer.getConVarValue "tv_port") = some stvPort

namespace ServerStatus

/-- The URL of a well-formed address. -/
def steamUrl (h : Host) (host : String) (port : Int) : QUrl :=
  { scheme := "steam", host := h.urlHost host, port := port }

/-- The status holds exactly the values of the game server. -/
def Shows (h : Host) (gameServer : GameServer) (host : String) (port stvPort : Int)
    (st : ServerStatus) : Prop :=
  st.d.maxPlayers = gameServer.maxPlayers ∧ st.d.address = steamUrl h host port ∧
  st.d.map = gameServer.map ∧ st.d.hostname = gameServer.getConVarValue "hostname" ∧
  st.d.password = gameServer.getConVarValue "sv_password" ∧
  st.d.stvPassword = gameServer.getConVarValue "tv_password" ∧ st.d.stvPort = stvPort

/-- What another game server answers, as far as the status can read it, are
the same values. -/
def AnswersAlike (h : Host) (gameServer : GameServer) (host : String) (port stvPort : Int)
    (other : GameServer) : Prop :=
  other.maxPlayers = gameServer.maxPlayers ∧
  (∀ url, addressUrl h other.address = some url → url = steamUrl h host port) ∧
  other.map = gameServer.map ∧
  other.getConVarValue "hostname" = gameServer.getConVarValue "hostname" ∧
  other.getConVarValue "sv_password" = gameServer.getConVarValue "sv_password" ∧
  other.getConVarValue "tv_password" = gameServer.getConVarValue "tv_password" ∧
  (∀ p, toInt (other.getConVarValue "tv_port") = some p → p = stvPort)

/-- The new value of a convar, as far as the status can read it, is the one it
had. -/
def ConVarAlike (gameServer : GameServer) (stvPort : Int) (conVarName newValue : String) : Prop :=
  (conVarName ∈ ["hostname", "sv_password", "tv_password"] →
    newValue = gameServer.getConVarValue conVarName) ∧
  (conVarName = "tv_port" → ∀ p, toInt newValue = some p → p = stvPort)

variable {h : Host} {gameServer : GameServer} {host portText : String} {port stvPort : Int}

theorem addressUrl_wellFormed (h : Host)
    (wf : gameServer.WellFormed host portText port stvPort) :
    addressUrl h gameServer.address = some (steamUrl h host port) := by
  have parts : splitAt ':' gameServer.address = [host, portText] := by
    rw [wf.address]
    exact splitAt_two wf.host wf.port.1
  obtain ⟨-, number, low, high⟩ := wf.port
  have inRange : ¬(port < -1 ∨ 65535 < port) := by omega
  simp [addressUrl, parts, number, QUrl.setPort, inRange, steamUrl]

theorem track_shows (wf : gameServer.WellFormed host portText port stvPort)
    (st : ServerStatus) (iface : GameServerId) :
    Shows h gameServer host port stvPort (st.trackGameServer h iface gameServer) := by
  unfold Shows
  rw [trackGameServer_d, addressUrl_wellFormed h wf, wf.stvPort]
  exact ⟨rfl, rfl, rfl, rfl, rfl, rfl, rfl⟩

/-- Tracking another game server leaves the values exactly if it answers
alike. -/
theorem track_other_shows {st : ServerStatus} (hs : Shows h gameServer host port stvPort st)
    (iface : GameServerId) (other : GameServer) :
    Shows h gameServer host port stvPort (st.trackGameServer h iface other) ↔
      AnswersAlike h gameServer host port stvPort other := by
  obtain ⟨-, address, -, -, -, -, stv⟩ := hs
  have urls : (addressUrl h other.address).getD st.d.address = steamUrl h host port ↔
      ∀ url, addressUrl h other.address = some url → url = steamUrl h host port := by
    cases addressUrl h other.address <;> simp [address]
  have ports : (toInt (other.getConVarValue "tv_port")).getD st.d.stvPort = stvPort ↔
      ∀ p, toInt (other.getConVarValue "tv_port") = some p → p = stvPort := by
    cases toInt (other.getConVarValue "tv_port") <;> simp [stv]
  unfold Shows AnswersAlike
  rw [trackGameServer_d]
  simp only [urls, ports]

theorem reset_shows_nothing (st : ServerStatus) (blank : st.d = {}) :
    ¬ Shows h gameServer host port stvPort st := by
  rintro ⟨-, address, -⟩
  rw [blank] at address
  have scheme : "" = "steam" := congrArg QUrl.scheme address
  exact absurd scheme (by decide)

theorem setMap_shows {st : ServerStatus} (hs : Shows h gameServer host port stvPort st)
    (map : String) :
    Shows h gameServer host port stvPort (st.setMap map) ↔ map = gameServer.map := by
  obtain ⟨maxPlayers, address, -, rest⟩ := hs
  exact ⟨fun shows => shows.2.2.1, fun same => ⟨maxPlayers, address, same, rest⟩⟩

/-- A change of a convar leaves the values exactly if it is none. -/
theorem handleConVarChange_shows {st : ServerStatus}
    (hs : Shows h gameServer host port stvPort st) (conVarName newValue : String) :
    Shows h gameServer host port stvPort (st.handleConVarChange conVarName newValue) ↔
      ConVarAlike gameServer stvPort conVarName newValue := by
  obtain ⟨maxPlayers, address, map, hostname, password, stvPassword, stv⟩ := hs
  unfold handleConVarChange ConVarAlike
  by_cases hn : conVarName = "hostname"
  · subst hn
    simp [Shows, setHostname, publish, maxPlayers, address, map, password, stvPassword, stv]
  by_cases pw : conVarName = "sv_password"
  · subst pw
    simp [Shows, setPassword, publish, maxPlayers, address, map, hostname, stvPassword, stv]
  by_cases tp : conVarName = "tv_port"
  · subst tp
    cases hp : toInt newValue <;>
      simp [Shows, setStvPortFromString_d, hp, maxPlayers, address, map, hostname, password,
        stvPassword, stv]
  by_cases sp : conVarName = "tv_password"
  · subst sp
    simp [Shows, setStvPassword, publish, maxPlayers, address, map, hostname, password, stv]
  · simp [hn, pw, tp, sp, Shows, maxPlayers, address, map, hostname, password, stvPassword, stv]

theorem removePlayer_shows {st : ServerStatus} (id : Int)
    (hs : Shows h gameServer host port stvPort st) :
    Shows h gameServer host port stvPort (st.removePlayer id) := by
  unfold removePlayer
  cases st.d.players.find? fun p => p.id == id <;> exact hs

end ServerStatus

theorem GameServer.sample_wellFormed :
    GameServer.sample.WellFormed "127.0.0.1" "27015" 27015 27020 :=
  ⟨by decide, by decide, by decide, by decide⟩

/-- The game server of the interface reports a change. -/
def ServerEvent.reportsChange (iface : GameServerId) : ServerEvent → Bool
  | .mapChanged other _ | .conVarChanged other _ _ => other == iface
  | _ => false

namespace Server

open ServerStatus

/-- No other game server says anything new, and no starter hears of another
registration. -/
def SaysTheSame (h : Host) (gameServer : GameServer) (host : String) (port stvPort : Int)
    (s : Server) : ServerEvent → Prop
  | .gameServerOnline _ other =>
    s.listening = [] ∧ AnswersAlike h gameServer host port stvPort other
  | .mapChanged _ map => map = gameServer.map
  | .conVarChanged _ conVarName newValue => ConVarAlike gameServer stvPort conVarName newValue
  | _ => True

variable {h : Host} {gameServer : GameServer} {host portText : String} {port stvPort : Int}

/-- Running, and showing the values. -/
def RunsAndShows (h : Host) (gameServer : GameServer) (host : String) (port stvPort : Int)
    (s : Server) : Prop :=
  s.state = .running ∧ s.status.Shows h gameServer host port stvPort

/-- Handling the registration completely leaves the coordinator running and
the values in place exactly if it was running before and no starter heard. -/
theorem online_shows (wf : gameServer.WellFormed host portText port stvPort) {s : Server}
    (valid : s.valid = true) (iface : GameServerId) :
    RunsAndShows h gameServer host port stvPort (s.gameServerOnline h iface gameServer) ↔
      s.state = .running ∧ s.listening = [] := by
  unfold RunsAndShows
  by_cases silent : s.listening = []
  · rw [gameServerOnline_unheard silent]
    have shows := track_shows (h := h) wf s.status iface
    rw [valid, if_pos rfl]
    exact ⟨fun up => ⟨up.1, silent⟩, fun up => ⟨up.1, shows⟩⟩
  · obtain ⟨-, blank, -⟩ := gameServerOnline_heard silent h iface gameServer
    exact iff_of_false (fun up => reset_shows_nothing _ blank up.2) fun up => silent up.2

/-- While the coordinator stays running, a step leaves the values in place
exactly if it says the same. -/
theorem step_shows {s u : Server} {e : ServerEvent} (valid : s.valid = true)
    (hs : s.status.Shows h gameServer host port stvPort) (hu : s.step h e = some u)
    (up : u.state = .running) :
    u.status.Shows h gameServer host port stvPort ↔
      s.SaysTheSame h gameServer host port stvPort e := by
  cases step_effect hu with
  | start =>
    obtain ⟨-, -, -, -, -, -, down | down⟩ := start_frame h s
    · rw [down] at up
      cases up
    · rw [down] at up
      cases up
  | stop => cases up
  | startTimeout i => cases up
  | gameServerOnline iface other =>
    by_cases silent : s.listening = []
    · rw [gameServerOnline_unheard silent, valid, if_pos rfl]
      exact (track_other_shows hs iface other).trans ⟨fun alike => ⟨silent, alike⟩, And.right⟩
    · obtain ⟨-, blank, -⟩ := gameServerOnline_heard silent h iface other
      apply iff_of_false (reset_shows_nothing _ blank)
      intro same
      exact silent same.1
  | gameServerTimedOut =>
    rw [gameServerTimedOut_valid valid] at up
    cases up
  | aboutToQuit iface connected =>
    rw [(aboutToQuit_connected (h := h) connected).1] at up
    cases up
  | mapChanged iface map => exact setMap_shows hs map
  | conVarChanged iface conVarName newValue => exact handleConVarChange_shows hs conVarName newValue
  | playerDisconnected iface id => exact iff_of_true (removePlayer_shows id hs) trivial
  | _ => exact iff_of_true hs trivial

/-- The game server has reported no change so far, and the coordinator has not left
`running`. -/
def RunsUnchanged (h : Host) (iface : GameServerId) (r : Server) (es : List ServerEvent) : Prop :=
  (∀ e ∈ es, e.reportsChange iface = false) ∧
    Machine.Throughout (step h) (fun t => t.state = .running) r es

/-- Running and showing the values, and showing them until the game server reports a
change or the coordinator leaves `running`. -/
def ShowsUntil (h : Host) (gameServer : GameServer) (host : String) (port stvPort : Int)
    (iface : GameServerId) (r : Server) (es : List ServerEvent) : Prop :=
  RunsAndShows h gameServer host port stvPort r ∧
    ∀ pre t, pre <+: es → run h r pre = some t → RunsUnchanged h iface r pre →
      t.status.Shows h gameServer host port stvPort

/-- Until then, nothing else is said about the server. -/
def SaidTheSame (h : Host) (gameServer : GameServer) (host : String) (port stvPort : Int)
    (iface : GameServerId) (r : Server) (es : List ServerEvent) : Prop :=
  ∀ pre e t u, pre ++ [e] <+: es → run h r pre = some t → t.step h e = some u →
    RunsUnchanged h iface r (pre ++ [e]) → t.SaysTheSame h gameServer host port stvPort e

theorem RunsUnchanged.before {iface : GameServerId} {r : Server} {es : List ServerEvent}
    {e : ServerEvent} (unchanged : RunsUnchanged h iface r (es ++ [e])) :
    RunsUnchanged h iface r es :=
  ⟨fun e there => unchanged.1 e (List.mem_append_left _ there),
    fun pre t before => unchanged.2 pre t (before.trans (List.prefix_append es [e]))⟩

/-- A game server registers. Its values are shown from then on, until it reports a change
or the coordinator leaves `running`, exactly if the coordinator was running before, no
starter heard the registration, and nothing else is said about the server meanwhile. In
particular the registration that a start waits for shows nothing: a starter hears it. -/
theorem shows_while_running_iff (wf : gameServer.WellFormed host portText port stvPort)
    {s : Server} (valid : s.valid = true) (iface : GameServerId) (es : List ServerEvent) :
    ShowsUntil h gameServer host port stvPort iface (s.gameServerOnline h iface gameServer) es ↔
      s.state = .running ∧ s.listening = [] ∧
        SaidTheSame h gameServer host port stvPort iface (s.gameServerOnline h iface gameServer)
          es := by
  have registered := online_shows (h := h) wf valid iface
  have validThen {pre : List ServerEvent} {t : Server}
      (reached : run h (s.gameServerOnline h iface gameServer) pre = some t) : t.valid = true :=
    Machine.run_invariant (P := fun t => t.valid = true)
      (fun _ _ _ hv hu => (step_frame hu).1.trans hv)
      ((gameServerOnline_frame h iface gameServer s).1.trans valid) reached
  constructor
  · rintro ⟨first, shown⟩
    obtain ⟨up, silent⟩ := registered.mp first
    refine ⟨up, silent, fun pre e t u before reached hu unchanged => ?_⟩
    have now := shown pre t ((List.prefix_append pre [e]).trans before) reached unchanged.before
    have reached' : run h (s.gameServerOnline h iface gameServer) (pre ++ [e]) = some u :=
      (Machine.run_snoc reached e).trans hu
    have up := unchanged.2 (pre ++ [e]) u List.prefix_rfl reached'
    exact (step_shows (validThen reached) now hu up).mp (shown _ u before reached' unchanged)
  · rintro ⟨up, silent, same⟩
    have first := registered.mpr ⟨up, silent⟩
    refine ⟨first, fun pre => ?_⟩
    induction pre using List.reverseRecOn with
    | nil =>
      intro t _ reached _
      obtain rfl := Option.some.inj reached
      exact first.2
    | append_singleton pre e ih =>
      intro u before reached unchanged
      obtain ⟨t, reached', hu⟩ := Machine.run_last reached
      have shown := ih t ((List.prefix_append pre [e]).trans before) reached' unchanged.before
      have up := unchanged.2 (pre ++ [e]) u List.prefix_rfl reached
      exact (step_shows (validThen reached') shown hu up).mpr
        (same pre e t u before reached' hu unchanged)

/-- The server is running and its starter is gone when another game server registers.
Then a command is sent, and the game server changes its map. -/
theorem shows_while_running_iff_again :
    ∃ s, run .ideal sample [.start, .gameServerOnline 0 .sample, .deleteStarter 0] = some s ∧
      s.state = .running ∧
      ShowsUntil .ideal .sample "127.0.0.1" 27015 27020 1 (s.gameServerOnline .ideal 1 .sample)
        [.sendCommand "status", .mapChanged 1 "cp_dustbowl"] := by
  refine ⟨_, rfl, rfl, (shows_while_running_iff GameServer.sample_wellFormed rfl 1 _).mpr
    ⟨rfl, rfl, ?_⟩⟩
  intro pre e t u before reached hu unchanged
  have quiet := unchanged.1 e (List.mem_append_right pre (List.mem_singleton_self e))
  have among := before.subset (List.mem_append_right pre (List.mem_singleton_self e))
  rcases List.mem_pair.mp among with rfl | rfl
  · exact trivial
  · exact absurd quiet (by decide)

/-- A start, and its game server registers: the coordinator is running, and
the status is as empty as before. -/
theorem started_server_shows_nothing :
    sample.valid = true ∧ GameServer.sample.WellFormed "127.0.0.1" "27015" 27015 27020 ∧
    ∃ s t, run .ideal sample [.start] = some s ∧ s.state = .starting ∧
      run .ideal s [.gameServerOnline 0 .sample] = some t ∧ t.state = .running ∧
      t.status.d = {} ∧ ¬ t.status.Shows .ideal .sample "127.0.0.1" 27015 27020 := by
  refine ⟨rfl, GameServer.sample_wellFormed, _, _, rfl, rfl, rfl, rfl, rfl, ?_⟩
  exact reset_shows_nothing _ rfl

end Server

end Morgoth
