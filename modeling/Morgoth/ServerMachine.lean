import Morgoth.Handlers
import Morgoth.Machine

/-!
# A server as a machine

One event is one turn of the event loop: a call that arrives on D-Bus, the
expiry of a timer, a deferred deletion, a signal of a game server, or a signal
the `ServerManager` emits on the server. An event that cannot happen, such as
the expiry of a timer that is not active, has no step.

* `step_effect`: what each event does, guards included; later modules use this
  and never unfold a handler;
* `step_frame`, `quiet_effect`: what no event changes, and what quiet ones do
  not.
-/

namespace Morgoth

inductive ServerEvent
  | start
  | stop
  | sendCommand (command : String)
  | setValue (key value : String)
  | startTimeout (i : Nat)
  | deleteStarter (i : Nat)
  | gameServerOnline (iface : GameServerId) (gameServer : GameServer)
  | gameServerTimedOut
  | aboutToQuit (iface : GameServerId)
  | deleteGameServer (iface : GameServerId)
  | mapChanged (iface : GameServerId) (map : String)
  | conVarChanged (iface : GameServerId) (conVarName newValue : String)
  | playerConnected (iface : GameServerId) (player : PlayerInfo)
  | playerDisconnected (iface : GameServerId) (id : Int)

namespace Server

/-- An invalid server has no coordinator to call, and a game server registers
once. -/
def step (h : Host) (s : Server) : ServerEvent → Option Server
  | .start => if s.valid then some (s.start h).1 else none
  | .stop => if s.valid then some (s.stop h) else none
  | .sendCommand command => if s.valid then some (s.sendCommand h command) else none
  | .setValue key value =>
    some { s with configuration := s.configuration.map fun c => (c.setValue key value).1 }
  | .startTimeout i =>
    if (s.starters[i]?).any (·.timerActive) then some (s.timeoutStart i) else none
  | .deleteStarter i =>
    if (s.starters[i]?).any (·.deleteLater) then some { s with starters := s.starters.eraseIdx i }
    else none
  | .gameServerOnline iface gameServer =>
    if iface ∉ s.status.tracked then some (s.gameServerOnline h iface gameServer) else none
  | .gameServerTimedOut => some (s.gameServerTimedOut h)
  | .aboutToQuit iface => some (s.aboutToQuit h iface)
  | .deleteGameServer iface => some (s.deleteGameServer iface)
  | .mapChanged iface map =>
    if iface ∈ s.status.tracked then some { s with status := s.status.setMap map } else none
  | .conVarChanged iface conVarName newValue =>
    if iface ∈ s.status.tracked then
      some { s with status := s.status.handleConVarChange conVarName newValue } else none
  | .playerConnected iface player =>
    if iface ∈ s.status.tracked then some { s with status := s.status.addPlayer player } else none
  | .playerDisconnected iface id =>
    if iface ∈ s.status.tracked then some { s with status := s.status.removePlayer id } else none

abbrev run (h : Host) : Server → List ServerEvent → Option Server := Machine.run (step h)

/-- A valid server, just created. -/
def sample : Server := create .ideal { scheme := "file", path := "/srv/tf2" } "tf2"

end Server

/-- The events that no coordinator slot handles. -/
def ServerEvent.quiet : ServerEvent → Bool
  | .sendCommand _ | .setValue .. | .deleteStarter _ | .deleteGameServer _ | .mapChanged ..
  | .conVarChanged .. | .playerConnected .. | .playerDisconnected .. => true
  | _ => false

namespace Server

/-! ## What an event does -/

inductive Effect (h : Host) (s : Server) : ServerEvent → Server → Prop
  | start (valid : s.valid = true) : Effect h s .start (s.start h).1
  | stop (valid : s.valid = true) (up : s.state = .running ∨ s.state = .starting) :
      Effect h s .stop ((s.setState .shuttingDown).withTmux (s.tmux.sendKeys h "quit").2)
  | stopIgnored (valid : s.valid = true) (down : ¬(s.state = .running ∨ s.state = .starting)) :
      Effect h s .stop s
  | sendCommand (command : String) (valid : s.valid = true) (up : s.state = .running) :
      Effect h s (.sendCommand command) (s.withTmux (s.tmux.sendKeys h command).2)
  | sendCommandIgnored (command : String) (valid : s.valid = true) (down : s.state ≠ .running) :
      Effect h s (.sendCommand command) s
  | setValue (key value : String) :
      Effect h s (.setValue key value)
        { s with configuration := s.configuration.map fun c => (c.setValue key value).1 }
  | startTimeout (i : Nat) (active : (s.starters[i]?).any (·.timerActive)) :
      Effect h s (.startTimeout i) (s.timeoutStart i)
  | deleteStarter (i : Nat) (scheduled : (s.starters[i]?).any (·.deleteLater)) :
      Effect h s (.deleteStarter i) { s with starters := s.starters.eraseIdx i }
  | gameServerOnline (iface : GameServerId) (gameServer : GameServer)
      (new : iface ∉ s.status.tracked) :
      Effect h s (.gameServerOnline iface gameServer) (s.gameServerOnline h iface gameServer)
  | gameServerTimedOut : Effect h s .gameServerTimedOut (s.gameServerTimedOut h)
  | aboutToQuit (iface : GameServerId) (connected : iface ∈ s.coordinator.quitSlots) :
      Effect h s (.aboutToQuit iface) (s.aboutToQuit h iface)
  | aboutToQuitIgnored (iface : GameServerId) (unconnected : iface ∉ s.coordinator.quitSlots) :
      Effect h s (.aboutToQuit iface) s
  | deleteGameServer (iface : GameServerId) :
      Effect h s (.deleteGameServer iface) (s.deleteGameServer iface)
  | mapChanged (iface : GameServerId) (map : String) (tracked : iface ∈ s.status.tracked) :
      Effect h s (.mapChanged iface map) { s with status := s.status.setMap map }
  | conVarChanged (iface : GameServerId) (conVarName newValue : String)
      (tracked : iface ∈ s.status.tracked) :
      Effect h s (.conVarChanged iface conVarName newValue)
        { s with status := s.status.handleConVarChange conVarName newValue }
  | playerConnected (iface : GameServerId) (player : PlayerInfo)
      (tracked : iface ∈ s.status.tracked) :
      Effect h s (.playerConnected iface player) { s with status := s.status.addPlayer player }
  | playerDisconnected (iface : GameServerId) (id : Int) (tracked : iface ∈ s.status.tracked) :
      Effect h s (.playerDisconnected iface id) { s with status := s.status.removePlayer id }

/-- Every step is one of the above. -/
theorem step_effect {h : Host} {s u : Server} {e : ServerEvent} (hu : s.step h e = some u) :
    Effect h s e u := by
  cases e with
  | start =>
    obtain ⟨valid, rfl⟩ := Machine.some_of_ite hu
    exact .start valid
  | stop =>
    obtain ⟨valid, rfl⟩ := Machine.some_of_ite hu
    unfold Server.stop
    by_cases up : s.state = .running ∨ s.state = .starting
    · rw [if_pos up]
      exact .stop valid up
    · rw [if_neg up]
      exact .stopIgnored valid up
  | sendCommand command =>
    obtain ⟨valid, rfl⟩ := Machine.some_of_ite hu
    unfold Server.sendCommand
    by_cases up : s.state = .running
    · rw [if_pos up]
      exact .sendCommand command valid up
    · rw [if_neg up]
      exact .sendCommandIgnored command valid up
  | setValue key value =>
    obtain rfl := Option.some.inj hu
    exact .setValue key value
  | startTimeout i =>
    obtain ⟨active, rfl⟩ := Machine.some_of_ite hu
    exact .startTimeout i active
  | deleteStarter i =>
    obtain ⟨scheduled, rfl⟩ := Machine.some_of_ite hu
    exact .deleteStarter i scheduled
  | gameServerOnline iface gameServer =>
    obtain ⟨new, rfl⟩ := Machine.some_of_ite hu
    exact .gameServerOnline iface gameServer new
  | gameServerTimedOut =>
    obtain rfl := Option.some.inj hu
    exact .gameServerTimedOut
  | aboutToQuit iface =>
    obtain rfl := Option.some.inj hu
    by_cases connected : iface ∈ s.coordinator.quitSlots
    · exact .aboutToQuit iface connected
    · rw [aboutToQuit_unconnected connected]
      exact .aboutToQuitIgnored iface connected
  | deleteGameServer iface =>
    obtain rfl := Option.some.inj hu
    exact .deleteGameServer iface
  | mapChanged iface map =>
    obtain ⟨tracked, rfl⟩ := Machine.some_of_ite hu
    exact .mapChanged iface map tracked
  | conVarChanged iface conVarName newValue =>
    obtain ⟨tracked, rfl⟩ := Machine.some_of_ite hu
    exact .conVarChanged iface conVarName newValue tracked
  | playerConnected iface player =>
    obtain ⟨tracked, rfl⟩ := Machine.some_of_ite hu
    exact .playerConnected iface player tracked
  | playerDisconnected iface id =>
    obtain ⟨tracked, rfl⟩ := Machine.some_of_ite hu
    exact .playerDisconnected iface id tracked

/-! ## What no event changes -/

/-- A quiet event changes no state, emits no `stateChanged` and keeps the
session. -/
theorem quiet_effect {h : Host} {s u : Server} {e : ServerEvent} (quiet : e.quiet = true)
    (he : Effect h s e u) :
    u.state = s.state ∧ u.coordinator.signals = s.coordinator.signals ∧
    u.tmux.session = s.tmux.session := by
  cases he with
  | sendCommand command =>
    exact ⟨rfl, rfl, TmuxSessionWrapper.sendKeys_session h command s.tmux⟩
  | start | stop | stopIgnored | startTimeout | gameServerOnline | gameServerTimedOut | aboutToQuit
  | aboutToQuitIgnored => cases quiet
  | _ => exact ⟨rfl, rfl, rfl⟩

/-- A step never changes whether the server is valid, nor takes its
configuration away. -/
theorem step_frame {h : Host} {s u : Server} {e : ServerEvent} (hu : s.step h e = some u) :
    u.valid = s.valid ∧ u.path = s.path ∧ u.name = s.name ∧
    u.configuration.isSome = s.configuration.isSome := by
  cases step_effect hu with
  | start =>
    cases outcome : (s.bringUp h).2 with
    | none => rw [start_pending outcome]; exact ⟨rfl, rfl, rfl, rfl⟩
    | some error => rw [start_failed outcome]; exact ⟨rfl, rfl, rfl, rfl⟩
  | setValue key value => exact ⟨rfl, rfl, rfl, Option.isSome_map⟩
  | startTimeout i => rw [timeoutStart_eq]; exact ⟨rfl, rfl, rfl, rfl⟩
  | gameServerOnline iface gameServer =>
    obtain ⟨valid, path, name, configuration, -⟩ := gameServerOnline_frame h iface gameServer s
    exact ⟨valid, path, name, by rw [configuration]⟩
  | gameServerTimedOut =>
    refine gameServerTimedOut_keeps (P := fun t : Server => t.valid = s.valid ∧ t.path = s.path ∧
      t.name = s.name ∧ t.configuration.isSome = s.configuration.isSome) ?_ fun _ kept => kept
    exact ⟨rfl, rfl, rfl, rfl⟩
  | aboutToQuit iface =>
    exact ⟨aboutToQuit_frame (f := valid) (fun _ => rfl) s,
      aboutToQuit_frame (f := path) (fun _ => rfl) s,
      aboutToQuit_frame (f := name) (fun _ => rfl) s,
      aboutToQuit_frame (f := fun t : Server => t.configuration.isSome) (fun _ => rfl) s⟩
  | _ => exact ⟨rfl, rfl, rfl, rfl⟩

theorem gameServerOnline_tracked (h : Host) (iface : GameServerId) (gameServer : GameServer)
    (s : Server) {g : GameServerId}
    (hg : g ∈ (s.gameServerOnline h iface gameServer).status.tracked) :
    g ∈ s.status.tracked ∨ g = iface := by
  revert hg
  refine onlineSlots_keeps
    (P := fun t : Server => g ∈ t.status.tracked → g ∈ s.status.tracked ∨ g = iface) ?_ ?_ Or.inl
  · intro t ht hg
    rw [ServerStatus.trackGameServer_tracked] at hg
    rcases List.mem_append.mp hg with hg | hg
    · exact ht hg
    · exact Or.inr (List.mem_singleton.mp hg)
  · intro i t ht hg
    rw [handleGameServerRegistered_eq] at hg
    exact ht hg

/-- Only a registration makes the status track another game server. -/
theorem step_tracked {h : Host} {s u : Server} {e : ServerEvent} (hu : s.step h e = some u)
    {g : GameServerId} (hg : g ∈ u.status.tracked) :
    g ∈ s.status.tracked ∨ ∃ gameServer, e = .gameServerOnline g gameServer := by
  cases step_effect hu with
  | gameServerOnline iface gameServer =>
    obtain old | rfl := gameServerOnline_tracked h iface gameServer s hg
    · exact Or.inl old
    · exact Or.inr ⟨gameServer, rfl⟩
  | start =>
    obtain ⟨-, -, -, -, -, tracked, -⟩ := start_frame h s
    exact Or.inl (tracked ▸ hg)
  | startTimeout i =>
    rw [timeoutStart_eq] at hg
    exact Or.inl hg
  | gameServerTimedOut =>
    have kept : (s.gameServerTimedOut h).status.tracked = s.status.tracked :=
      gameServerTimedOut_keeps (P := fun t => t.status.tracked = s.status.tracked) rfl
        fun _ kept => kept
    exact Or.inl (kept ▸ hg)
  | aboutToQuit iface =>
    have kept : (s.aboutToQuit h iface).status.tracked = s.status.tracked :=
      aboutToQuit_frame (f := fun t : Server => t.status.tracked) (fun _ => rfl) s
    exact Or.inl (kept ▸ hg)
  | deleteGameServer iface => exact Or.inl (List.mem_of_mem_filter hg)
  | conVarChanged iface conVarName newValue =>
    exact Or.inl (ServerStatus.handleConVarChange_tracked s.status conVarName newValue ▸ hg)
  | playerDisconnected iface id =>
    exact Or.inl (ServerStatus.removePlayer_tracked s.status id ▸ hg)
  | _ => exact Or.inl hg

end Server

end Morgoth
