import Morgoth.Server

/-!
# What the handlers of a server do

One description of each handler, guards included; later modules use these and
never unfold a handler.
-/

namespace Morgoth

namespace ServerStatus

@[simp] theorem reset_d (st : ServerStatus) : st.reset.d = {} := rfl

@[simp] theorem reset_tracked (st : ServerStatus) : st.reset.tracked = st.tracked := rfl

@[simp] theorem reset_erasedEnd (st : ServerStatus) : st.reset.erasedEnd = st.erasedEnd := rfl

theorem setAddressFromString_tracked (h : Host) (st : ServerStatus) (addressString : String) :
    (st.setAddressFromString h addressString).tracked = st.tracked := by
  unfold setAddressFromString
  cases addressUrl h addressString <;> rfl

theorem setStvPortFromString_tracked (st : ServerStatus) (stvPortString : String) :
    (st.setStvPortFromString stvPortString).tracked = st.tracked := by
  unfold setStvPortFromString
  cases toInt stvPortString <;> rfl

theorem trackGameServer_tracked (h : Host) (st : ServerStatus) (iface : GameServerId)
    (gameServer : GameServer) :
    (st.trackGameServer h iface gameServer).tracked = st.tracked ++ [iface] := by
  simp only [trackGameServer, setStvPortFromString_tracked, setStvPassword, setPassword,
    setHostname, setMap, publish, setAddressFromString_tracked, setMaxPlayers]

theorem handleConVarChange_tracked (st : ServerStatus) (conVarName newValue : String) :
    (st.handleConVarChange conVarName newValue).tracked = st.tracked := by
  unfold handleConVarChange
  split_ifs
  · rfl
  · rfl
  · exact setStvPortFromString_tracked st newValue
  · rfl
  · rfl

theorem removePlayer_tracked (st : ServerStatus) (id : Int) :
    (st.removePlayer id).tracked = st.tracked := by
  unfold removePlayer
  cases st.d.players.find? fun p => p.id == id <;> rfl

end ServerStatus

namespace Server

/-! ## Small steps -/

theorem handleGameServerRegistered_eq (i : Nat) (gameServer : GameServerId) (s : Server) :
    s.handleGameServerRegistered i gameServer =
      { s with
        coordinator := { s.coordinator with
          state := .running
          signals := s.coordinator.signals ++ [(.running, s.coordinator.error)]
          quitSlots := s.coordinator.quitSlots ++ [gameServer] }
        status := s.status.reset
        starters := (s.handleGameServerRegistered i gameServer).starters } := rfl

theorem timeoutStart_eq (i : Nat) (s : Server) :
    s.timeoutStart i =
      { s with
        coordinator := { s.coordinator with
          state := .crashed, error := .serverNotRegisteredOnTime
          signals := s.coordinator.signals ++ [(.crashed, .serverNotRegisteredOnTime)] }
        status := s.status.reset
        starters := (s.timeoutStart i).starters } := rfl

/-! ## start and stop -/

theorem bringUp_emitStarting (h : Host) (i : Nat) (sts : List ServerStarter) (s : Server) :
    (emitStarting i { s with starters := sts }).bringUp h = s.bringUp h := rfl

/-- A start that fails passes through `starting` and ends in `crashed`. -/
theorem start_failed {h : Host} {s : Server} {error : ServerError}
    (failed : (s.bringUp h).2 = some error) :
    (s.start h).1 =
      { s with
        coordinator := { s.coordinator with
          state := .crashed, error := error, tmux := (s.bringUp h).1
          signals := s.coordinator.signals ++ [(.starting, s.coordinator.error)] ++
            [(.crashed, error)] }
        status := s.status.reset.reset
        starters := (s.start h).1.starters } := by
  unfold start startStarter
  simp only [bringUp_emitStarting, failed]
  rfl

/-- A start that does not fail leaves its starter waiting. -/
theorem start_pending {h : Host} {s : Server} (pending : (s.bringUp h).2 = none) :
    (s.start h).1 =
      { s with
        coordinator := { s.coordinator with
          state := .starting, tmux := (s.bringUp h).1
          signals := s.coordinator.signals ++ [(.starting, s.coordinator.error)] }
        status := s.status.reset
        starters := (s.start h).1.starters } := by
  unfold start startStarter
  simp only [bringUp_emitStarting, pending]
  rfl

/-- What is common to both outcomes of a start. -/
theorem start_frame (h : Host) (s : Server) :
    (s.start h).1.valid = s.valid ∧ (s.start h).1.configuration = s.configuration ∧
    (s.start h).1.coordinator.quitSlots = s.coordinator.quitSlots ∧
    (s.start h).1.tmux = (s.bringUp h).1 ∧ (s.start h).1.status.d = {} ∧
    (s.start h).1.status.tracked = s.status.tracked ∧
    ((s.start h).1.state = .starting ∨ (s.start h).1.state = .crashed) := by
  cases outcome : (s.bringUp h).2 with
  | none => rw [start_pending outcome]; simp
  | some error => rw [start_failed outcome]; simp

/-- In a live session, a launch succeeds, or fails and kills the session. -/
theorem launch_session {h : Host} (hr : h.Reliable) (s : Server)
    (configuration : ServerConfiguration) {tmux : TmuxSessionWrapper}
    (live : tmux.session = true) :
    ((s.launch h configuration tmux).1.session = true ∧
      (s.launch h configuration tmux).2 = none) ∨
    ((s.launch h configuration tmux).1.session = false ∧
      ∃ error, (s.launch h configuration tmux).2 = some error) := by
  unfold launch
  have piped := TmuxSessionWrapper.redirectOutput_session h (s.logFileName configuration) tmux
  cases ho : tmux.redirectOutput h (s.logFileName configuration) with
  | mk redirected tmux' =>
    rw [ho] at piped
    cases redirected with
    | false => exact Or.inr ⟨(TmuxSessionWrapper.kill_reliable hr tmux').2, _, rfl⟩
    | true =>
      have sent := TmuxSessionWrapper.sendKeys_session h (s.launchCommand configuration) tmux'
      simp only
      cases hk : tmux'.sendKeys h (s.launchCommand configuration) with
      | mk typed tmux'' =>
        rw [hk] at sent
        cases typed with
        | false => exact Or.inr ⟨(TmuxSessionWrapper.kill_reliable hr tmux'').2, _, rfl⟩
        | true => exact Or.inl ⟨(sent.trans piped).trans live, rfl⟩

/-- The session `start` tries to create, with its user set. -/
theorem bringUp_configured (h : Host) {s : Server} (valid : s.valid = true)
    {configuration : ServerConfiguration} (configured : s.configuration = some configuration) :
    s.bringUp h =
      match (s.tmux.setUser h (s.startUser h configuration)).create h with
      | (false, tmux) => (tmux, some .unableToCreateTmuxSession)
      | (true, tmux) =>
        if s.userUnresolved h configuration then (tmux, some .unableToResolveUser)
        else s.launch h configuration tmux := by
  unfold bringUp
  rw [valid, configured]
  rfl

/-- With a session already there, every start is refused. -/
theorem bringUp_live {h : Host} (hr : h.Reliable) {s : Server} (live : s.tmux.session = true) :
    (s.bringUp h).1.session = true ∧ ∃ error, (s.bringUp h).2 = some error := by
  cases valid : s.valid with
  | false =>
    unfold bringUp
    rw [valid]
    exact ⟨live, _, rfl⟩
  | true =>
    cases configured : s.configuration with
    | none =>
      unfold bringUp
      rw [valid, configured]
      exact ⟨live, _, rfl⟩
    | some configuration =>
      have there : (s.tmux.setUser h (s.startUser h configuration)).session = true :=
        (TmuxSessionWrapper.setUser_session h _ _).trans live
      obtain ⟨refused, kept⟩ := TmuxSessionWrapper.create_reliable hr
        (s.tmux.setUser h (s.startUser h configuration))
      rw [bringUp_configured h valid configured]
      cases hc : (s.tmux.setUser h (s.startUser h configuration)).create h with
      | mk created tmux =>
        rw [hc] at refused kept
        rw [there] at refused
        cases created with
        | true => cases refused
        | false => exact ⟨kept, _, rfl⟩

/-- Without a session, a start creates one. It is still there afterwards
exactly if the start did not fail, or failed to resolve the user. -/
theorem bringUp_fresh {h : Host} (hr : h.Reliable) {s : Server} (gone : s.tmux.session = false)
    (valid : s.valid = true) {configuration : ServerConfiguration}
    (configured : s.configuration = some configuration) :
    (s.userUnresolved h configuration = true →
      (s.bringUp h).1.session = true ∧ ∃ error, (s.bringUp h).2 = some error) ∧
    (s.userUnresolved h configuration = false →
      ((s.bringUp h).1.session = true ∧ (s.bringUp h).2 = none) ∨
      ((s.bringUp h).1.session = false ∧ ∃ error, (s.bringUp h).2 = some error)) := by
  have none_there : (s.tmux.setUser h (s.startUser h configuration)).session = false :=
    (TmuxSessionWrapper.setUser_session h _ _).trans gone
  obtain ⟨granted, made⟩ := TmuxSessionWrapper.create_reliable hr
    (s.tmux.setUser h (s.startUser h configuration))
  rw [none_there] at granted
  rw [bringUp_configured h valid configured]
  cases hc : (s.tmux.setUser h (s.startUser h configuration)).create h with
  | mk created tmux =>
    rw [hc] at granted made
    obtain rfl : created = true := granted
    constructor
    · intro unresolved
      simp only [unresolved, if_true]
      exact ⟨made, _, rfl⟩
    · intro resolved
      simp only [resolved, Bool.false_eq_true, if_false]
      exact launch_session hr s configuration made

theorem stop_cases (h : Host) (s : Server) :
    ((s.state = .running ∨ s.state = .starting) ∧
      s.stop h = (s.setState .shuttingDown).withTmux (s.tmux.sendKeys h "quit").2) ∨
    (¬(s.state = .running ∨ s.state = .starting) ∧ s.stop h = s) := by
  unfold stop
  by_cases up : s.state = .running ∨ s.state = .starting
  · exact Or.inl ⟨up, if_pos up⟩
  · exact Or.inr ⟨up, if_neg up⟩

/-! ## The signals of the server -/

/-- What the status and every starter that hears of a game server keep. -/
theorem onlineSlots_keeps {P : Server → Prop} {h : Host} {iface : GameServerId}
    {gameServer : GameServer} {s : Server}
    (status : ∀ t, P t → P { t with status := t.status.trackGameServer h iface gameServer })
    (starter : ∀ i t, P t → P (handleGameServerRegistered i iface t))
    (hs : P { s with signals := s.signals ++ [.gameServerOnline iface] }) :
    P (s.gameServerOnline h iface gameServer) := by
  refine Signal.emit_keeps ?_ hs
  intro slot hslot t ht
  rcases List.mem_append.mp hslot with hs | hs
  · split at hs
    · rw [List.mem_singleton.mp hs]
      exact status t ht
    · cases hs
  · obtain ⟨i, _, rfl⟩ := List.mem_map.mp hs
    exact starter i t ht

theorem onlineSlots_frame {α : Type} {f : Server → α} (h : Host) (iface : GameServerId)
    (gameServer : GameServer) (s : Server)
    (status : ∀ t st, f { t with status := st } = f t)
    (signals : ∀ t ss, f { t with signals := ss } = f t)
    (starter : ∀ i t, f (handleGameServerRegistered i iface t) = f t) :
    f (s.gameServerOnline h iface gameServer) = f s :=
  onlineSlots_keeps (P := fun t => f t = f s) (fun t ht => (status t _).trans ht)
    (fun i t ht => (starter i t).trans ht) (signals s _)

theorem gameServerOnline_frame (h : Host) (iface : GameServerId) (gameServer : GameServer)
    (s : Server) :
    (s.gameServerOnline h iface gameServer).valid = s.valid ∧
    (s.gameServerOnline h iface gameServer).path = s.path ∧
    (s.gameServerOnline h iface gameServer).name = s.name ∧
    (s.gameServerOnline h iface gameServer).configuration = s.configuration ∧
    (s.gameServerOnline h iface gameServer).tmux = s.tmux :=
  ⟨onlineSlots_frame (f := valid) _ _ _ s (fun _ _ => rfl) (fun _ _ => rfl) fun _ _ => rfl,
    onlineSlots_frame (f := path) _ _ _ s (fun _ _ => rfl) (fun _ _ => rfl) fun _ _ => rfl,
    onlineSlots_frame (f := name) _ _ _ s (fun _ _ => rfl) (fun _ _ => rfl) fun _ _ => rfl,
    onlineSlots_frame (f := configuration) _ _ _ s (fun _ _ => rfl) (fun _ _ => rfl) fun _ _ => rfl,
    onlineSlots_frame (f := tmux) _ _ _ s (fun _ _ => rfl) (fun _ _ => rfl) fun _ _ => rfl⟩

/-- With no starter waiting, a registration only reaches the status. -/
theorem gameServerOnline_unheard {s : Server} (silent : s.listening = []) (h : Host)
    (iface : GameServerId) (gameServer : GameServer) :
    s.gameServerOnline h iface gameServer =
      { s with
        signals := s.signals ++ [.gameServerOnline iface]
        status := if s.valid then s.status.trackGameServer h iface gameServer else s.status } := by
  unfold gameServerOnline gameServerOnlineSlots
  cases s.valid <;> simp [silent]

/-- With a starter waiting, it ends in `running`, and with the status reset. -/
theorem gameServerOnline_heard {s : Server} (heard : s.listening ≠ []) (h : Host)
    (iface : GameServerId) (gameServer : GameServer) :
    (s.gameServerOnline h iface gameServer).state = .running ∧
    (s.gameServerOnline h iface gameServer).status.d = {} ∧
    iface ∈ (s.gameServerOnline h iface gameServer).coordinator.quitSlots := by
  unfold gameServerOnline gameServerOnlineSlots
  rw [Signal.emit_append]
  refine Signal.emit_establishes
    (P := fun t : Server =>
      t.state = .running ∧ t.status.d = {} ∧ iface ∈ t.coordinator.quitSlots)
    ?_ (by simpa using heard) _
  intro slot hslot t
  obtain ⟨i, _, rfl⟩ := List.mem_map.mp hslot
  rw [handleGameServerRegistered_eq]
  exact ⟨rfl, rfl, List.mem_append_right _ List.mem_cons_self⟩

theorem gameServerTimedOut_valid {s : Server} (valid : s.valid = true) (h : Host) :
    s.gameServerTimedOut h =
      onGameServerTimedOut h { s with signals := s.signals ++ [.gameServerTimedOut] } := by
  simp [gameServerTimedOut, valid]

theorem gameServerTimedOut_invalid {s : Server} (invalid : s.valid = false) (h : Host) :
    s.gameServerTimedOut h = { s with signals := s.signals ++ [.gameServerTimedOut] } := by
  simp [gameServerTimedOut, invalid]

/-- What the coordinator keeps of a game server that times out. -/
theorem gameServerTimedOut_keeps {P : Server → Prop} {h : Host} {s : Server}
    (signalled : P { s with signals := s.signals ++ [.gameServerTimedOut] })
    (timedOut : ∀ t, P t → P (onGameServerTimedOut h t)) : P (s.gameServerTimedOut h) := by
  cases valid : s.valid with
  | true =>
    rw [gameServerTimedOut_valid valid]
    exact timedOut _ signalled
  | false =>
    rw [gameServerTimedOut_invalid valid]
    exact signalled

theorem aboutToQuit_unconnected {s : Server} {iface : GameServerId}
    (unconnected : iface ∉ s.coordinator.quitSlots) (h : Host) : s.aboutToQuit h iface = s := by
  have none_left : s.coordinator.quitSlots.filter (· == iface) = [] := by
    apply List.filter_eq_nil_iff.mpr
    intro g hg hb
    exact unconnected ((beq_iff_eq.mp hb) ▸ hg)
  simp [aboutToQuit, none_left]

theorem aboutToQuit_connected {s : Server} {iface : GameServerId}
    (connected : iface ∈ s.coordinator.quitSlots) {h : Host} :
    (s.aboutToQuit h iface).state = .offline ∧ (s.aboutToQuit h iface).status.d = {} ∧
    (h.Reliable → (s.aboutToQuit h iface).tmux.session = false) := by
  refine Signal.emit_establishes
    (P := fun t : Server =>
      t.state = .offline ∧ t.status.d = {} ∧ (h.Reliable → t.tmux.session = false))
    ?_ ?_ s
  · intro slot hslot t
    obtain ⟨_, _, rfl⟩ := List.mem_map.mp hslot
    exact ⟨rfl, rfl, fun hr => (TmuxSessionWrapper.kill_reliable hr _).2⟩
  · have there : iface ∈ s.coordinator.quitSlots.filter (· == iface) := by simp [connected]
    simpa using List.ne_nil_of_mem there

/-- What the coordinator keeps of a game server that quits. -/
theorem aboutToQuit_keeps {P : Server → Prop} {h : Host} {iface : GameServerId} {s : Server}
    (stopped : ∀ t, P t → P (onGameServerStopped h t)) (hs : P s) : P (s.aboutToQuit h iface) := by
  refine Signal.emit_keeps ?_ hs
  intro slot hslot t ht
  obtain ⟨_, _, rfl⟩ := List.mem_map.mp hslot
  exact stopped t ht

theorem aboutToQuit_frame {α : Type} {f : Server → α} {h : Host} {iface : GameServerId}
    (stopped : ∀ t, f (onGameServerStopped h t) = f t) (s : Server) :
    f (s.aboutToQuit h iface) = f s :=
  aboutToQuit_keeps (P := fun t => f t = f s) (fun t ht => (stopped t).trans ht) rfl

end Server

end Morgoth
