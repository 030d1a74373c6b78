import Morgoth.ServerMachine

/-!
# What a coordinator announces

* `step_announces`: the state is always the one that was announced last.
-/

namespace Morgoth.Server

/-- The emissions of `stateChanged` between two states. -/
def emitted (s u : Server) : List (State × ServerError) :=
  u.coordinator.signals.drop s.coordinator.signals.length

theorem emitted_append {s u : Server} {new : List (State × ServerError)}
    (signals : u.coordinator.signals = s.coordinator.signals ++ new) : emitted s u = new := by
  rw [emitted, signals, List.drop_left]

/-- The state is the last one announced, or the old one. -/
def Announces (s u : Server) : Prop :=
  ∃ new, u.coordinator.signals = s.coordinator.signals ++ new ∧
    u.state = (new.getLast?.map Prod.fst).getD s.state

variable {h : Host} {s t u : Server}

theorem Announces.refl (s : Server) : Announces s s := ⟨[], (List.append_nil _).symm, rfl⟩

theorem Announces.trans (first : Announces s t) (second : Announces t u) : Announces s u := by
  obtain ⟨new, signals, state⟩ := first
  obtain ⟨new', signals', state'⟩ := second
  refine ⟨new ++ new', ?_, ?_⟩
  · rw [signals', signals, List.append_assoc]
  · rw [state', state, List.getLast?_append]
    cases new'.getLast? <;> rfl

/-- One emission, of the new state. -/
theorem announces_one {error : ServerError}
    (signals : u.coordinator.signals = s.coordinator.signals ++ [(u.state, error)]) :
    Announces s u := ⟨_, signals, rfl⟩

theorem announces_none (signals : u.coordinator.signals = s.coordinator.signals)
    (state : u.state = s.state) : Announces s u :=
  ⟨[], by rw [signals, List.append_nil], state⟩

theorem start_announces (h : Host) (s : Server) : Announces s (s.start h).1 := by
  cases outcome : (s.bringUp h).2 with
  | none =>
    rw [start_pending outcome]
    exact announces_one rfl
  | some error =>
    rw [start_failed outcome]
    exact ⟨[(.starting, s.coordinator.error), (.crashed, error)], by simp, rfl⟩

theorem stop_announces (h : Host) (s : Server) : Announces s (s.stop h) := by
  obtain ⟨-, stopping⟩ | ⟨-, ignored⟩ := stop_cases h s
  · rw [stopping]
    exact announces_one rfl
  · rw [ignored]
    exact .refl s

theorem gameServerOnline_announces (h : Host) (iface : GameServerId) (gameServer : GameServer)
    (s : Server) : Announces s (s.gameServerOnline h iface gameServer) := by
  refine onlineSlots_keeps (P := Announces s) ?_ ?_ (announces_none rfl rfl)
  · exact fun t ht => ht.trans (announces_none rfl rfl)
  · intro i t ht
    refine ht.trans ?_
    rw [handleGameServerRegistered_eq]
    exact announces_one rfl

theorem gameServerTimedOut_announces (h : Host) (s : Server) :
    Announces s (s.gameServerTimedOut h) :=
  gameServerTimedOut_keeps (announces_none rfl rfl) fun _ ht => ht.trans (announces_one rfl)

theorem aboutToQuit_announces (h : Host) (iface : GameServerId) (s : Server) :
    Announces s (s.aboutToQuit h iface) :=
  aboutToQuit_keeps (fun _ ht => ht.trans (announces_one rfl)) (.refl s)

/-- No event changes the state in silence. -/
theorem step_announces {e : ServerEvent} (hu : s.step h e = some u) : Announces s u := by
  have he := step_effect hu
  have quietly (quiet : e.quiet = true) : Announces s u := by
    obtain ⟨state, signals, -⟩ := quiet_effect quiet he
    exact announces_none signals state
  cases he with
  | start => exact start_announces h s
  | stop => exact announces_one rfl
  | stopIgnored | sendCommandIgnored | aboutToQuitIgnored => exact .refl s
  | startTimeout i =>
    rw [timeoutStart_eq]
    exact announces_one rfl
  | gameServerOnline iface gameServer => exact gameServerOnline_announces h iface gameServer s
  | gameServerTimedOut => exact gameServerTimedOut_announces h s
  | aboutToQuit iface => exact aboutToQuit_announces h iface s
  | _ => exact quietly rfl

end Morgoth.Server
