import Morgoth.ServerMachine

/-!
# The players of a tracked game server

Three states speak of the connected players: the list and the count in
`ServerStatus`, and the game server's own idea. A reset of the status, which
every `stateChanged` brings about, empties the first two only.

* `players_right_iff`: in which runs `removePlayer` finds every player it is
  asked to remove, and list and count agree whenever they are published.
-/

namespace Morgoth

namespace ServerStatus

/-- List and count agree, the ids are distinct, and so they were at every
emission of `playersChanged`. -/
def Counted (st : ServerStatus) : Prop :=
  st.d.playerCount = st.d.players.length ∧ (st.d.players.map PlayerInfo.id).Nodup ∧
  ∀ players count, .playersChanged players count ∈ st.signals →
    count = players.length ∧ (players.map PlayerInfo.id).Nodup

/-- Nothing about the players has been written or published. -/
structure PlayersKept (st st' : ServerStatus) : Prop where
  players : st'.d.players = st.d.players
  playerCount : st'.d.playerCount = st.d.playerCount
  erasedEnd : st'.erasedEnd = st.erasedEnd
  reports : ∀ players count, .playersChanged players count ∈ st'.signals →
    .playersChanged players count ∈ st.signals

theorem PlayersKept.refl (st : ServerStatus) : PlayersKept st st := ⟨rfl, rfl, rfl, fun _ _ => id⟩

theorem PlayersKept.trans {a b c : ServerStatus} (ab : PlayersKept a b) (bc : PlayersKept b c) :
    PlayersKept a c :=
  ⟨bc.players.trans ab.players, bc.playerCount.trans ab.playerCount,
    bc.erasedEnd.trans ab.erasedEnd, fun ps n h => ab.reports ps n (bc.reports ps n h)⟩

theorem PlayersKept.counted {st st' : ServerStatus} (kept : PlayersKept st st')
    (hc : st.Counted) : st'.Counted := by
  obtain ⟨count, distinct, reports⟩ := hc
  refine ⟨?_, ?_, fun ps n h => reports ps n (kept.reports ps n h)⟩
  · rw [kept.players, kept.playerCount, count]
  · rw [kept.players]
    exact distinct

theorem publish_kept (st : ServerStatus) {d : ServerStatusPrivate} {signals : List StatusSignal}
    (players : d.players = st.d.players) (playerCount : d.playerCount = st.d.playerCount)
    (silent : ∀ players count, .playersChanged players count ∉ signals) :
    PlayersKept st (st.publish d signals) := by
  refine ⟨players, playerCount, rfl, fun ps n h => ?_⟩
  rcases List.mem_append.mp h with h | h
  · exact h
  · exact absurd h (silent ps n)

theorem setMap_kept (st : ServerStatus) (map : String) : PlayersKept st (st.setMap map) :=
  publish_kept st rfl rfl (by simp)

theorem setAddressFromString_kept (h : Host) (st : ServerStatus) (addressString : String) :
    PlayersKept st (st.setAddressFromString h addressString) := by
  unfold setAddressFromString
  cases addressUrl h addressString with
  | none => exact .refl st
  | some url => exact publish_kept st rfl rfl (by simp)

theorem setStvPortFromString_kept (st : ServerStatus) (stvPortString : String) :
    PlayersKept st (st.setStvPortFromString stvPortString) := by
  unfold setStvPortFromString
  cases toInt stvPortString with
  | none => exact .refl st
  | some port => exact publish_kept st rfl rfl (by simp)

theorem handleConVarChange_kept (st : ServerStatus) (conVarName newValue : String) :
    PlayersKept st (st.handleConVarChange conVarName newValue) := by
  unfold handleConVarChange
  split_ifs
  · exact publish_kept st rfl rfl (by simp)
  · exact publish_kept st rfl rfl (by simp)
  · exact setStvPortFromString_kept st newValue
  · exact publish_kept st rfl rfl (by simp)
  · exact .refl st

theorem setStvPassword_kept (st : ServerStatus) (stvPassword : String) :
    PlayersKept st (st.setStvPassword stvPassword) :=
  publish_kept st rfl rfl (by simp)

theorem setPassword_kept (st : ServerStatus) (password : String) :
    PlayersKept st (st.setPassword password) :=
  publish_kept st rfl rfl (by simp)

theorem setHostname_kept (st : ServerStatus) (hostname : String) :
    PlayersKept st (st.setHostname hostname) :=
  publish_kept st rfl rfl (by simp)

theorem setMaxPlayers_kept (st : ServerStatus) (maxPlayers : Int) :
    PlayersKept st (st.setMaxPlayers maxPlayers) :=
  publish_kept st rfl rfl (by simp)

theorem tracked_kept (st : ServerStatus) (tracked : List GameServerId) :
    PlayersKept st { st with tracked := tracked } :=
  ⟨rfl, rfl, rfl, fun _ _ => id⟩

theorem trackGameServer_kept (h : Host) (st : ServerStatus) (iface : GameServerId)
    (gameServer : GameServer) : PlayersKept st (st.trackGameServer h iface gameServer) := by
  unfold trackGameServer
  refine .trans ?_ (setStvPortFromString_kept _ _)
  refine .trans ?_ (setStvPassword_kept _ _)
  refine .trans ?_ (setPassword_kept _ _)
  refine .trans ?_ (setHostname_kept _ _)
  refine .trans ?_ (setMap_kept _ _)
  refine .trans ?_ (tracked_kept _ _)
  refine .trans ?_ (setAddressFromString_kept h _ _)
  exact setMaxPlayers_kept st _

theorem reset_counted {st : ServerStatus} (hc : st.Counted) : st.reset.Counted := by
  refine ⟨rfl, List.nodup_nil, fun players count h => ?_⟩
  simp only [reset, clearPlayers, emitPlayersChanged, setPlayerCount, setStvPassword, setStvPort,
    setPassword, setAddress, setMap, setMaxPlayers, setHostname, publish, List.mem_append,
    List.mem_cons, List.not_mem_nil, or_false, reduceCtorEq, StatusSignal.playersChanged.injEq] at h
  rcases h with h | ⟨rfl, rfl⟩
  · exact hc.2.2 players count h
  · exact ⟨rfl, List.nodup_nil⟩

theorem emitPlayersChanged_counted {st : ServerStatus}
    (count : st.d.playerCount = st.d.players.length)
    (distinct : (st.d.players.map PlayerInfo.id).Nodup)
    (reports : ∀ players count, .playersChanged players count ∈ st.signals →
      count = players.length ∧ (players.map PlayerInfo.id).Nodup) :
    st.emitPlayersChanged.Counted := by
  refine ⟨count, distinct, fun players n h => ?_⟩
  rcases List.mem_append.mp h with h | h
  · exact reports players n h
  · obtain ⟨rfl, rfl⟩ := StatusSignal.playersChanged.inj (List.mem_singleton.mp h)
    exact ⟨count, distinct⟩

theorem addPlayer_counted {st : ServerStatus} (hc : st.Counted) {player : PlayerInfo}
    (new : player.id ∉ st.d.players.map PlayerInfo.id) : (st.addPlayer player).Counted := by
  obtain ⟨count, distinct, reports⟩ := hc
  apply emitPlayersChanged_counted
  · simp [setPlayerCount, publish, count]
  · simp only [setPlayerCount, publish, List.map_append, List.map_cons, List.map_nil]
    rw [← List.concat_eq_append]
    exact distinct.concat new
  · intro players n h
    exact reports players n (by simpa [setPlayerCount, publish] using h)

theorem removePlayer_players (st : ServerStatus) (id : Int) :
    (st.removePlayer id).d.players = st.d.players.eraseP fun p => p.id == id := by
  unfold removePlayer
  cases found : st.d.players.find? fun p => p.id == id with
  | some player => rfl
  | none =>
    have missing := List.find?_eq_none.mp found
    exact (List.eraseP_of_forall_not missing).symm

theorem removePlayer_ids {st : ServerStatus} (distinct : (st.d.players.map PlayerInfo.id).Nodup)
    (id : Int) :
    (st.removePlayer id).d.players.map PlayerInfo.id =
      (st.d.players.map PlayerInfo.id).filter (· != id) := by
  have erased : (st.d.players.eraseP fun p => p.id == id).map PlayerInfo.id =
      (st.d.players.map PlayerInfo.id).eraseP (· == id) := by
    rw [List.eraseP_map]
    rfl
  rw [removePlayer_players, erased, ← List.erase_eq_eraseP', distinct.erase_eq_filter]

/-- A player that is in the list is found and removed. -/
theorem removePlayer_found {st : ServerStatus} (hc : st.Counted) {id : Int}
    (known : id ∈ st.d.players.map PlayerInfo.id) :
    (st.removePlayer id).Counted ∧ (st.removePlayer id).erasedEnd = st.erasedEnd := by
  obtain ⟨count, distinct, reports⟩ := hc
  obtain ⟨player, there, hid⟩ := List.mem_map.mp known
  have matched : (player.id == id) = true := beq_iff_eq.mpr hid
  obtain ⟨first, found⟩ : ∃ first, st.d.players.find? (fun p => p.id == id) = some first :=
    Option.isSome_iff_exists.mp (List.find?_isSome.mpr ⟨player, there, matched⟩)
  unfold removePlayer
  rw [found]
  refine ⟨emitPlayersChanged_counted ?_ ?_ ?_, rfl⟩
  · have len := List.length_eraseP_of_mem there (p := fun p => p.id == id) matched
    have pos := List.length_pos_of_mem there
    simp only [setPlayerCount, publish, count, len]
    omega
  · exact (List.eraseP_sublist.map PlayerInfo.id).nodup distinct
  · intro players n h
    exact reports players n (by simpa [setPlayerCount, publish] using h)

/-- A player that is not in the list makes `find_if` return `end()`. -/
theorem removePlayer_missing {st : ServerStatus} {id : Int}
    (unknown : id ∉ st.d.players.map PlayerInfo.id) :
    (st.removePlayer id).erasedEnd = true := by
  have missing : st.d.players.find? (fun p => p.id == id) = none := by
    apply List.find?_eq_none.mpr
    intro p hp hid
    exact unknown (List.mem_map.mpr ⟨p, hp, beq_iff_eq.mp hid⟩)
  unfold removePlayer
  rw [missing]
  rfl

end ServerStatus

namespace Server

/-- Every `stateChanged` between the two states has emptied the list; with
none, it is as it was. -/
structure KeepsCount (s u : Server) : Prop where
  later : s.coordinator.signals.length ≤ u.coordinator.signals.length
  same : u.coordinator.signals.length = s.coordinator.signals.length →
    u.status.d.players = s.status.d.players
  emptied : s.coordinator.signals.length < u.coordinator.signals.length →
    u.status.d.players = []
  erasedEnd : u.status.erasedEnd = s.status.erasedEnd
  counted : s.status.Counted → u.status.Counted

theorem KeepsCount.trans {s t u : Server} (st : KeepsCount s t) (tu : KeepsCount t u) :
    KeepsCount s u where
  later := st.later.trans tu.later
  same even := by
    have left := st.later
    have right := tu.later
    rw [tu.same (by omega), st.same (by omega)]
  emptied more := by
    have left := st.later
    by_cases here : t.coordinator.signals.length < u.coordinator.signals.length
    · exact tu.emptied here
    · have right := tu.later
      rw [tu.same (by omega)]
      exact st.emptied (by omega)
  erasedEnd := tu.erasedEnd.trans st.erasedEnd
  counted hc := tu.counted (st.counted hc)

/-- A step that emits no `stateChanged` and says nothing about players. -/
theorem keepsCount_of_kept {s u : Server} (signals : u.coordinator.signals = s.coordinator.signals)
    (kept : s.status.PlayersKept u.status) : KeepsCount s u where
  later := by rw [signals]
  same _ := kept.players
  emptied more := by
    rw [signals] at more
    omega
  erasedEnd := kept.erasedEnd
  counted := kept.counted

/-- One `stateChanged`, and the reset that it causes. -/
theorem keepsCount_of_reset {s u : Server} {change : State × ServerError}
    (signals : u.coordinator.signals = s.coordinator.signals ++ [change])
    (reset : u.status = s.status.reset) : KeepsCount s u where
  later := by simp [signals]
  same even := by simp [signals] at even
  emptied _ := by rw [reset, ServerStatus.reset_d]
  erasedEnd := by rw [reset, ServerStatus.reset_erasedEnd]
  counted hc := by
    rw [reset]
    exact ServerStatus.reset_counted hc

theorem gameServerOnline_keepsCount (h : Host) (iface : GameServerId) (gameServer : GameServer)
    (s : Server) : KeepsCount s (s.gameServerOnline h iface gameServer) := by
  refine onlineSlots_keeps (P := KeepsCount s) ?_ ?_ (keepsCount_of_kept rfl (.refl _))
  · intro t ht
    have tracked := ServerStatus.trackGameServer_kept h t.status iface gameServer
    exact ht.trans (keepsCount_of_kept rfl tracked)
  · intro i t ht
    refine ht.trans ?_
    rw [handleGameServerRegistered_eq]
    exact keepsCount_of_reset rfl rfl

theorem aboutToQuit_keepsCount (h : Host) (iface : GameServerId) (s : Server) :
    KeepsCount s (s.aboutToQuit h iface) :=
  aboutToQuit_keeps (fun _ ht => ht.trans (keepsCount_of_reset rfl rfl))
    (keepsCount_of_kept rfl (.refl s.status))

theorem start_keepsCount (h : Host) (s : Server) : KeepsCount s (s.start h).1 := by
  have starting : KeepsCount s (s.setState .starting) := keepsCount_of_reset rfl rfl
  cases outcome : (s.bringUp h).2 with
  | none =>
    rw [start_pending outcome]
    exact starting.trans (keepsCount_of_kept rfl (.refl _))
  | some error =>
    rw [start_failed outcome]
    exact starting.trans (keepsCount_of_reset rfl rfl)

/-- Whatever does not come from the players themselves empties the list with
each `stateChanged` and otherwise leaves it alone. -/
theorem step_keepsCount {h : Host} {s u : Server} {e : ServerEvent} (hu : s.step h e = some u)
    (not_connected : ∀ iface player, e ≠ .playerConnected iface player)
    (not_disconnected : ∀ iface id, e ≠ .playerDisconnected iface id) : KeepsCount s u := by
  cases step_effect hu with
  | start => exact start_keepsCount h s
  | stop => exact keepsCount_of_reset rfl rfl
  | startTimeout i =>
    rw [timeoutStart_eq]
    exact keepsCount_of_reset rfl rfl
  | gameServerOnline iface gameServer => exact gameServerOnline_keepsCount h iface gameServer s
  | gameServerTimedOut =>
    refine gameServerTimedOut_keeps (keepsCount_of_kept rfl (.refl s.status)) fun t ht => ?_
    exact ht.trans (keepsCount_of_reset rfl rfl)
  | aboutToQuit iface => exact aboutToQuit_keepsCount h iface s
  | deleteGameServer iface => exact keepsCount_of_kept rfl (ServerStatus.tracked_kept s.status _)
  | mapChanged iface map => exact keepsCount_of_kept rfl (ServerStatus.setMap_kept s.status map)
  | conVarChanged iface conVarName newValue =>
    exact keepsCount_of_kept rfl (ServerStatus.handleConVarChange_kept s.status conVarName newValue)
  | playerConnected iface player => exact absurd rfl (not_connected iface player)
  | playerDisconnected iface id => exact absurd rfl (not_disconnected iface id)
  | _ => exact keepsCount_of_kept rfl (.refl s.status)

end Server

/-- A server together with what its game server has reported: the players
that are connected, each with the number of `stateChanged` the coordinator
had emitted when it was told of them. -/
structure Watched where
  server : Server
  connected : List (Int × Nat)

namespace Watched

def now (w : Watched) : Nat := w.server.coordinator.signals.length

/-- One game server speaks of its players. It never reports one twice, and
disconnects only those it has reported. -/
def step (h : Host) (gameServer : GameServerId) (w : Watched) : ServerEvent → Option Watched
  | .playerConnected iface player =>
    if iface = gameServer ∧ player.id ∉ w.connected.map Prod.fst then
      (w.server.step h (.playerConnected iface player)).map fun s =>
        ⟨s, w.connected ++ [(player.id, w.now)]⟩
    else none
  | .playerDisconnected iface id =>
    if iface = gameServer ∧ id ∈ w.connected.map Prod.fst then
      (w.server.step h (.playerDisconnected iface id)).map fun s =>
        ⟨s, w.connected.filter fun c => c.1 != id⟩
    else none
  | e => (w.server.step h e).map fun s => ⟨s, w.connected⟩

/-- Nothing has been erased at `end()`, and list and count agree. -/
def Right (w : Watched) : Prop := w.server.status.erasedEnd = false ∧ w.server.status.Counted

/-- A player is disconnected in the state of the coordinator in which it has
been connected. -/
def StillListed (w : Watched) : ServerEvent → Prop
  | .playerDisconnected _ id => (id, w.now) ∈ w.connected
  | _ => True

/-- The list has the players connected since the last `stateChanged`. -/
structure Recorded (w : Watched) : Prop where
  listed : w.server.status.d.players.map PlayerInfo.id =
    (w.connected.filter fun c => c.2 == w.now).map Prod.fst
  distinct : (w.connected.map Prod.fst).Nodup
  past : ∀ c ∈ w.connected, c.2 ≤ w.now

theorem Recorded.mem_iff {w : Watched} (hr : w.Recorded) (id : Int) :
    id ∈ w.server.status.d.players.map PlayerInfo.id ↔ (id, w.now) ∈ w.connected := by
  rw [hr.listed]
  simp

/-- What a step can do: add a player, remove one, or neither. -/
theorem step_cases {h : Host} {gameServer : GameServerId} {w u : Watched} {e : ServerEvent}
    (hu : w.step h gameServer e = some u) :
    (∃ player, e = .playerConnected gameServer player ∧
      player.id ∉ w.connected.map Prod.fst ∧
      u = ⟨{ w.server with status := w.server.status.addPlayer player },
        w.connected ++ [(player.id, w.now)]⟩) ∨
    (∃ id, e = .playerDisconnected gameServer id ∧ id ∈ w.connected.map Prod.fst ∧
      u = ⟨{ w.server with status := w.server.status.removePlayer id },
        w.connected.filter fun c => c.1 != id⟩) ∨
    (Server.KeepsCount w.server u.server ∧ u.connected = w.connected ∧ w.StillListed e) := by
  cases e with
  | playerConnected iface player =>
    simp only [step] at hu
    split at hu
    · obtain ⟨rfl, new⟩ := ‹_ ∧ _›
      obtain ⟨s, hs, rfl⟩ := Option.map_eq_some_iff.mp hu
      obtain ⟨-, rfl⟩ := Machine.some_of_ite hs
      exact Or.inl ⟨player, rfl, new, rfl⟩
    · cases hu
  | playerDisconnected iface id =>
    simp only [step] at hu
    split at hu
    · obtain ⟨rfl, known⟩ := ‹_ ∧ _›
      obtain ⟨s, hs, rfl⟩ := Option.map_eq_some_iff.mp hu
      obtain ⟨-, rfl⟩ := Machine.some_of_ite hs
      exact Or.inr (Or.inl ⟨id, rfl, known, rfl⟩)
    · cases hu
  | _ =>
    simp only [step, Option.map_eq_some_iff] at hu
    obtain ⟨s, hs, rfl⟩ := hu
    refine Or.inr (Or.inr ⟨Server.step_keepsCount hs ?_ ?_, rfl, trivial⟩)
    · intro _ _ he
      cases he
    · intro _ _ he
      cases he

theorem connect_recorded {w : Watched} (hr : w.Recorded) {player : PlayerInfo}
    (new : player.id ∉ w.connected.map Prod.fst) :
    Recorded ⟨{ w.server with status := w.server.status.addPlayer player },
      w.connected ++ [(player.id, w.now)]⟩ where
  listed := by
    have listed := hr.listed
    simp only [now] at listed
    simp [ServerStatus.addPlayer, ServerStatus.emitPlayersChanged, ServerStatus.setPlayerCount,
      ServerStatus.publish, now, listed]
  distinct := by
    simp only [List.map_append, List.map_cons, List.map_nil]
    rw [← List.concat_eq_append]
    exact hr.distinct.concat new
  past c hc := by
    rcases List.mem_append.mp hc with hc | hc
    · exact hr.past c hc
    · rw [List.mem_singleton.mp hc]
      exact Nat.le_refl _

theorem disconnect_recorded {w : Watched} (hr : w.Recorded) (id : Int) :
    Recorded ⟨{ w.server with status := w.server.status.removePlayer id },
      w.connected.filter fun c => c.1 != id⟩ where
  listed := by
    have distinct : (w.server.status.d.players.map PlayerInfo.id).Nodup := by
      rw [hr.listed]
      exact (List.filter_sublist.map Prod.fst).nodup hr.distinct
    have swapped : (w.connected.filter fun c => c.1 != id).filter (fun c => c.2 == w.now) =
        (w.connected.filter fun c => c.2 == w.now).filter fun c => c.1 != id := by
      rw [List.filter_filter, List.filter_filter]
      exact List.filter_congr fun c _ => Bool.and_comm _ _
    calc (w.server.status.removePlayer id).d.players.map PlayerInfo.id
        = (w.server.status.d.players.map PlayerInfo.id).filter (· != id) :=
          ServerStatus.removePlayer_ids distinct id
      _ = ((w.connected.filter fun c => c.2 == w.now).map Prod.fst).filter (· != id) := by
          rw [hr.listed]
      _ = ((w.connected.filter fun c => c.1 != id).filter fun c => c.2 == w.now).map Prod.fst := by
          rw [swapped, List.filter_map]
          rfl
  distinct := (List.filter_sublist.map Prod.fst).nodup hr.distinct
  past c hc := hr.past c (List.mem_of_mem_filter hc)

/-- Each `stateChanged` makes all that has been reported so far a thing of the
past. -/
theorem keepsCount_recorded {w u : Watched} (hr : w.Recorded)
    (kept : Server.KeepsCount w.server u.server) (same : u.connected = w.connected) :
    u.Recorded where
  listed := by
    rw [same]
    by_cases even : u.now = w.now
    · rw [even, kept.same even]
      exact hr.listed
    · have later : w.now < u.now := lt_of_le_of_ne kept.later (Ne.symm even)
      have forgotten : (w.connected.filter fun c => c.2 == u.now) = [] := by
        apply List.filter_eq_nil_iff.mpr
        intro c hc hs
        have past := hr.past c hc
        have stamp : c.2 = u.now := beq_iff_eq.mp hs
        omega
      rw [forgotten, kept.emptied later]
      rfl
  distinct := by
    rw [same]
    exact hr.distinct
  past c hc := by
    rw [same] at hc
    exact (hr.past c hc).trans kept.later

theorem step_recorded {h : Host} {gameServer : GameServerId} {w u : Watched} {e : ServerEvent}
    (hr : w.Recorded) (hu : w.step h gameServer e = some u) : u.Recorded := by
  obtain ⟨player, rfl, new, rfl⟩ | ⟨id, rfl, -, rfl⟩ | ⟨kept, same, -⟩ := step_cases hu
  · exact connect_recorded hr new
  · exact disconnect_recorded hr id
  · exact keepsCount_recorded hr kept same

/-- A step keeps things right exactly if a player that it disconnects is still
listed. -/
theorem step_right {h : Host} {gameServer : GameServerId} {w u : Watched} {e : ServerEvent}
    (hr : w.Recorded) (hi : w.Right) (hu : w.step h gameServer e = some u) :
    u.Right ↔ w.StillListed e := by
  obtain ⟨player, rfl, new, rfl⟩ | ⟨id, rfl, -, rfl⟩ | ⟨kept, -, listed⟩ := step_cases hu
  · refine iff_of_true ⟨hi.1, ServerStatus.addPlayer_counted hi.2 fun old => ?_⟩ trivial
    exact new (List.mem_map.mpr ⟨_, (hr.mem_iff player.id).mp old, rfl⟩)
  · by_cases known : id ∈ w.server.status.d.players.map PlayerInfo.id
    · obtain ⟨counted, erasedEnd⟩ := ServerStatus.removePlayer_found hi.2 known
      exact iff_of_true ⟨erasedEnd.trans hi.1, counted⟩ ((hr.mem_iff id).mp known)
    · refine iff_of_false (fun right => ?_) fun listed => known ((hr.mem_iff id).mpr listed)
      have erased := ServerStatus.removePlayer_missing known
      exact absurd (right.1.symm.trans erased) (by decide)
  · exact iff_of_true ⟨kept.erasedEnd.trans hi.1, kept.counted hi.2⟩ listed

/-- `removePlayer` finds every player, and list and count agree whenever they
are read or published, exactly if no player is disconnected that was connected
before the last `stateChanged`. -/
theorem players_right_iff (h : Host) (path : QUrl) (name : String) (gameServer : GameServerId)
    (es : List ServerEvent) :
    Machine.Throughout (step h gameServer) Right ⟨.create h path name, []⟩ es ↔
      Machine.EachStep (step h gameServer) StillListed ⟨.create h path name, []⟩ es := by
  apply Machine.throughout_iff_eachStep (A := Recorded)
  · intro w e _ u hr hu
    exact step_recorded hr hu
  · intro w e _ u hr hi hu
    exact step_right hr hi hu
  · exact ⟨rfl, List.nodup_nil, fun c hc => absurd hc List.not_mem_nil⟩
  · exact ⟨rfl, rfl, List.nodup_nil, fun _ _ hs => absurd hs List.not_mem_nil⟩

/-- A player connects, the server is told to stop, and the player leaves. -/
theorem stopped_server_erases_end :
    ∃ w, Machine.run (step .ideal 0) ⟨Server.sample, []⟩
        [.start, .gameServerOnline 0 .sample, .playerConnected 0 { id := 2 }, .stop] = some w ∧
      (2, 2) ∈ w.connected ∧
      ∃ u, w.step .ideal 0 (.playerDisconnected 0 2) = some u ∧
        u.server.status.erasedEnd = true ∧ u.server.status.d.playerCount = -1 ∧
        u.server.status.d.players = [] ∧ ¬ u.Right := by
  refine ⟨_, rfl, by decide, _, rfl, rfl, rfl, rfl, fun right => ?_⟩
  exact absurd right.1 (by decide)

end Watched

end Morgoth
