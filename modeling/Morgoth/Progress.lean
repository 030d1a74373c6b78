import Morgoth.Bookkeeping
import Morgoth.Fairness
import Morgoth.Starters

/-!
# Ways out of a busy state

A coordinator that is starting, running or shutting down waits for something: a
timer, the `aboutToQuit` of a game server, or the loss of one. Nothing else gets
it out of such a state.

* `effect_leads`: what each event does to that which a server waits for;
* `busy_ends`: in every reachable state, what a busy server waits for can still
  happen;
* `busy_leaves`: and if timers expire and calls are answered or time out, it does.
-/

namespace Morgoth

namespace Server

/-- The timer of some starter is running. -/
def Waiting (s : Server) : Prop := ∃ st ∈ s.starters, st.timerActive = true

/-- `registered` are the game servers that the manager pings for this server. -/
structure WayOut (registered : GameServerId → Prop) (s : Server) : Prop where
  starting : s.state = .starting → s.Waiting
  running : s.state = .running → ∃ iface ∈ s.coordinator.quitSlots, registered iface
  shuttingDown : s.state = .shuttingDown →
    s.Waiting ∨ ∃ iface ∈ s.coordinator.quitSlots, registered iface

/-- What a server waits for is still there, or it is no longer busy; and it becomes
busy only with something to wait for. -/
structure Leads (r r' : GameServerId → Prop) (s t : Server) : Prop where
  connected : (∀ iface ∈ s.coordinator.quitSlots, r iface →
    iface ∈ t.coordinator.quitSlots ∧ r' iface) ∨ t.state.live = false
  waiting : s.Waiting → t.Waiting ∨ t.state = .running ∨ t.state.live = false
  starting : t.state = .starting → s.state = .starting ∨ t.Waiting
  running : t.state = .running → s.state = .running ∨ ∃ iface ∈ t.coordinator.quitSlots, r' iface
  shuttingDown : t.state = .shuttingDown → s.state.live = true

variable {r r' : GameServerId → Prop} {s t : Server} {h : Host}

theorem Leads.down (down : t.state.live = false) : Leads r r' s t := by
  refine ⟨.inr down, fun _ => .inr (.inr down), ?_, ?_, ?_⟩ <;>
  · intro up
    rw [up] at down
    cases down

/-- Nothing changes but the registered game servers. -/
theorem Leads.still (state : t.state = s.state) (waiting : s.Waiting → t.Waiting)
    (connected : ∀ iface ∈ s.coordinator.quitSlots, r iface →
      iface ∈ t.coordinator.quitSlots ∧ r' iface) : Leads r r' s t where
  connected := .inl connected
  waiting there := .inl (waiting there)
  starting up := .inl (state ▸ up)
  running up := .inl (state ▸ up)
  shuttingDown up := by rw [← state, up]; rfl

theorem WayOut.leads (hs : s.WayOut r) (leads : Leads r r' s t) : t.WayOut r' := by
  have connected (up : t.state.live = true)
      (there : ∃ iface ∈ s.coordinator.quitSlots, r iface) :
      ∃ iface ∈ t.coordinator.quitSlots, r' iface := by
    obtain ⟨iface, slot, known⟩ := there
    rcases leads.connected with kept | down
    · exact ⟨iface, kept iface slot known⟩
    · rw [up] at down
      cases down
  refine ⟨fun up => ?_, fun up => ?_, fun up => ?_⟩
  · rcases leads.starting up with before | waits
    · rcases leads.waiting (hs.starting before) with waits | other | down
      · exact waits
      · rw [up] at other
        cases other
      · rw [up] at down
        cases down
    · exact waits
  · rcases leads.running up with before | there
    · exact connected (by rw [up]; rfl) (hs.running before)
    · exact there
  · have live : t.state.live = true := by rw [up]; rfl
    have before : s.Waiting ∨ ∃ iface ∈ s.coordinator.quitSlots, r iface := by
      have busy := leads.shuttingDown up
      cases state : s.state with
      | starting => exact .inl (hs.starting state)
      | running => exact .inr (hs.running state)
      | shuttingDown => exact hs.shuttingDown state
      | offline | crashed =>
        rw [state] at busy
        cases busy
    rcases before with waits | there
    · rcases leads.waiting waits with waits | other | down
      · exact .inl waits
      · rw [up] at other
        cases other
      · rw [up] at down
        cases down
    · exact .inr (connected live there)

/-- What happens to a server alone. -/
theorem alone_leads {e : ServerEvent} (unmanaged : e.managed = false) (settled : s.Settled)
    (hu : s.step h e = some t) : Leads r r s t := by
  cases step_effect hu with
  | start =>
    cases outcome : (s.bringUp h).2 with
    | some error =>
      apply Leads.down
      rw [start_failed outcome]
      rfl
    | none =>
      have waits : (s.start h).1.Waiting := by
        refine ⟨_, ?_, (rfl : (ServerStarter.launched none).timerActive = true)⟩
        rw [start_starters, outcome]
        exact List.mem_append_right _ List.mem_cons_self
      have state : (s.start h).1.state = .starting := by rw [start_pending outcome]
      have slots : (s.start h).1.coordinator.quitSlots = s.coordinator.quitSlots :=
        (start_frame h s).2.2.1
      refine ⟨.inl ?_, fun _ => .inl waits, fun _ => .inr waits, ?_, ?_⟩
      · rw [slots]
        exact fun iface there known => ⟨there, known⟩
      · rw [state]
        nofun
      · rw [state]
        nofun
  | stop valid up =>
    refine ⟨.inl fun iface there known => ⟨there, known⟩, fun waits => .inl waits, nofun, nofun, ?_⟩
    intro _
    rcases up with up | up <;> rw [up] <;> rfl
  | startTimeout i =>
    apply Leads.down
    rw [timeoutStart_eq]
    rfl
  | deleteStarter i scheduled =>
    refine .still rfl ?_ fun iface there known => ⟨there, known⟩
    rintro ⟨st, there, active⟩
    obtain ⟨j, found⟩ := List.mem_iff_getElem?.mp there
    refine ⟨st, List.mem_eraseIdx_iff_getElem?.mpr ⟨j, ?_, found⟩, active⟩
    rintro rfl
    -- the one that goes has no timer left
    have kept := (settled st there).2 active
    rw [found, Option.any_some, kept] at scheduled
    cases scheduled
  | gameServerOnline | gameServerTimedOut | aboutToQuit | aboutToQuitIgnored | deleteGameServer =>
    cases unmanaged
  | _ => exact .still rfl id fun iface there known => ⟨there, known⟩

theorem onlineSlots_quitSlots (iface : GameServerId) (gameServer : GameServer) (s : Server)
    {other : GameServerId} (there : other ∈ s.coordinator.quitSlots) :
    other ∈ (s.gameServerOnline h iface gameServer).coordinator.quitSlots :=
  onlineSlots_keeps (P := fun t => other ∈ t.coordinator.quitSlots) (fun _ kept => kept)
    (fun _ _ kept => List.mem_append_left _ kept) there

/-- A game server registers for the server. -/
theorem online_leads {iface : GameServerId} (gameServer : GameServer) (new : r' iface)
    (mono : ∀ other, r other → r' other) :
    Leads r r' s (s.gameServerOnline h iface gameServer) := by
  have kept (other : GameServerId) (there : other ∈ s.coordinator.quitSlots) (known : r other) :
      other ∈ (s.gameServerOnline h iface gameServer).coordinator.quitSlots ∧ r' other :=
    ⟨onlineSlots_quitSlots iface gameServer s there, mono other known⟩
  by_cases silent : s.listening = []
  · rw [gameServerOnline_unheard silent] at kept ⊢
    exact .still rfl id kept
  · obtain ⟨state, -, slot⟩ := gameServerOnline_heard silent h iface gameServer
    refine ⟨.inl kept, fun _ => .inr (.inl state), ?_, fun _ => .inr ⟨iface, slot, new⟩, ?_⟩
    · rw [state]
      nofun
    · rw [state]
      nofun

end Server

namespace ServerManager

variable {env : Environment} {m u : ServerManager} {e : ManagerEvent}

/-- The game servers that are registered for a server. -/
def RegisteredFor (m : ServerManager) (server : ServerId) (iface : GameServerId) : Prop :=
  m.gameServers.lookup iface = some server

/-- A game server that is forgotten is not the one in question. -/
theorem erase_registered {iface other : GameServerId} {server : ServerId}
    (known : m.RegisteredFor server other) (apart : other ≠ iface) :
    (m.gameServers.erase iface).lookup other = some server :=
  (AList.lookup_erase_ne apart).trans known

theorem effect_leads (hm : m.Sound) (he : Effect env m e u) {server : ServerId} {s t : Server}
    (settled : s.Settled) (valid : s.valid = true) (there : m.heap server = some s)
    (after : u.heap server = some t) :
    Server.Leads (m.RegisteredFor server) (u.RegisteredFor server) s t := by
  have unchanged (same : u.heap server = m.heap server)
      (kept : ∀ iface ∈ s.coordinator.quitSlots, m.RegisteredFor server iface →
        u.RegisteredFor server iface) :
      Server.Leads (m.RegisteredFor server) (u.RegisteredFor server) s t := by
    obtain rfl : s = t := Option.some.inj (there.symm.trans (same.symm.trans after))
    exact .still rfl id fun iface slot known => ⟨slot, kept iface slot known⟩
  cases he with
  | added e new brings =>
    have used := hm.used server (by rw [there]; rfl)
    exact unchanged (Function.update_of_ne (Nat.ne_of_lt used) _ _) fun _ _ known => known
  | refused | removed | unknown | unmatched | pinged | answered =>
    exact unchanged rfl fun _ _ known => known
  | registered gameServer target matched =>
    have mono (other : GameServerId) (known : m.RegisteredFor server other) :
        (m.gameServers.insert m.nextGameServer target).lookup other = some server := by
      have apart : other ≠ m.nextGameServer := by
        rintro rfl
        exact hm.unregistered (lookup_mem known)
      exact (AList.lookup_insert_ne apart).trans known
    by_cases here : server = target
    · subst here
      obtain rfl := Option.some.inj ((reach_there there _).symm.trans after)
      exact Server.online_leads gameServer (AList.lookup_insert _) mono
    · exact unchanged (reach_elsewhere here _) fun other _ known => mono other known
  | lost gameServer round error target pending loss known =>
    by_cases here : server = target
    · subst here
      obtain rfl := Option.some.inj ((reach_there there _).symm.trans after)
      apply Server.Leads.down
      rw [Server.gameServerTimedOut_valid valid]
      rfl
    · refine unchanged (reach_elsewhere here _) fun other _ registered => ?_
      apply erase_registered registered
      rintro rfl
      exact here (Option.some.inj (registered.symm.trans known))
  | lostAgain gameServer round error pending loss forgotten =>
    refine unchanged rfl fun other _ registered => erase_registered registered ?_
    rintro rfl
    exact nomatch forgotten.symm.trans registered
  | quit iface target announced =>
    have apart {other : GameServerId} (registered : m.RegisteredFor server other)
        (elsewhere : server ≠ target) : other ≠ iface := by
      rintro rfl
      have same := (hm.announced other server registered).symm.trans announced
      exact elsewhere (Option.some.inj same)
    by_cases here : server = target
    · subst here
      obtain rfl := Option.some.inj ((reach_there (m := m.retire iface) there _).symm.trans after)
      by_cases connected : iface ∈ s.coordinator.quitSlots
      · apply Server.Leads.down
        rw [(Server.aboutToQuit_connected connected).1]
        rfl
      · rw [Server.aboutToQuit_unconnected connected]
        refine .still rfl id fun other slot registered => ⟨slot, erase_registered registered ?_⟩
        rintro rfl
        exact connected slot
    · exact unchanged (reach_elsewhere here _) fun other _ registered =>
        erase_registered registered (apart registered here)
  | dropped iface target announced scheduled =>
    by_cases here : server = target
    · subst here
      obtain rfl := Option.some.inj ((reach_there there _).symm.trans after)
      refine .still rfl id fun other slot registered => ⟨List.mem_filter.mpr ⟨slot, ?_⟩, registered⟩
      apply bne_iff_ne.mpr
      rintro rfl
      exact (hm.retired other scheduled).2 (lookup_mem registered)
    · exact unchanged (reach_elsewhere here _) fun _ _ known => known
  | destroyed target scheduled =>
    by_cases here : server = target
    · subst here
      exact nomatch after.symm.trans (Function.update_self ..)
    · exact unchanged (Function.update_of_ne here _ _) fun _ _ known => known
  | alone target event before t' unmanaged here' moves =>
    by_cases here : server = target
    · subst here
      obtain rfl := Option.some.inj (there.symm.trans here')
      obtain ⟨-, new⟩ | ⟨elsewhere, -⟩ := update_some after
      · obtain rfl := Option.some.inj new
        exact Server.alone_leads unmanaged settled moves
      · exact absurd rfl elsewhere
    · exact unchanged (Function.update_of_ne here _ _) fun _ _ known => known

/-! ## Every reachable state -/

/-- Every busy server has something to wait for. -/
structure Waits (m : ServerManager) : Prop where
  sound : m.Sound
  settled : ∀ server s, m.heap server = some s → s.Settled
  wayOut : ∀ server s, m.heap server = some s → s.valid = true → s.WayOut (m.RegisteredFor server)

theorem init_waits : Waits {} where
  sound := init_sound
  settled := by simp
  wayOut := by simp

theorem step_waits (hm : m.Waits) (hu : m.step env e = some u) : u.Waits := by
  have effect := step_effect hm.sound.fresh hu
  have heap {server : ServerId} {t : Server} (after : u.heap server = some t) :
      (∃ s, m.heap server = some s ∧ (s = t ∨ ∃ event, s.step (env.host server) event = some t)) ∨
        m.heap server = none ∧ ∃ path name, Server.create (env.host server) path name = t := by
    obtain old | ⟨s, event, there, moves, -⟩ | ⟨rfl, brings⟩ := effect_heap hm.sound effect after
    · exact .inl ⟨t, old, .inl rfl⟩
    · exact .inl ⟨s, there, .inr ⟨event, moves⟩⟩
    · refine .inr ⟨?_, brought_created brings⟩
      by_contra used
      exact Nat.lt_irrefl _ (hm.sound.used _ (Option.isSome_iff_ne_none.mpr used))
  refine ⟨effect_sound hm.sound effect, ?_, ?_⟩
  · intro server t after
    obtain ⟨s, there, rfl | ⟨event, moves⟩⟩ | ⟨-, path, name, rfl⟩ := heap after
    · exact hm.settled server s there
    · exact Server.step_settled (hm.settled server s there) moves
    · exact fun st there => nomatch there
  · intro server t after valid
    obtain ⟨s, there, before⟩ | ⟨-, path, name, rfl⟩ := heap after
    · have valid' : s.valid = true := by
        rcases before with rfl | ⟨event, moves⟩
        · exact valid
        · exact (Server.step_frame moves).1.symm.trans valid
      exact (hm.wayOut server s there valid').leads
        (effect_leads hm.sound effect (hm.settled server s there) valid' there after)
    · exact ⟨nofun, nofun, nofun⟩

/-- The timer of a starter of the server can expire, and the server has then not come
up in time. -/
def CanTimeOut (env : Environment) (m : ServerManager) (server : ServerId) : Prop :=
  ∃ i u t, m.step env (.server server (.startTimeout i)) = some u ∧ u.heap server = some t ∧
    t.state = .crashed ∧ t.coordinator.error = .serverNotRegisteredOnTime

/-- A game server of the server can quit, and is pinged until it does or is lost. -/
def CanLose (env : Environment) (m : ServerManager) (server : ServerId) : Prop :=
  ∃ iface, (∃ u t, m.step env (.aboutToQuit iface) = some u ∧ u.heap server = some t ∧
      t.state = .offline) ∧
    ∀ error : DBusError, error.isLoss = true → ∃ u v t, m.step env .timeout = some u ∧
      u.step env (.pingFinished iface m.rounds (some error)) = some v ∧
      v.heap server = some t ∧ t.state = .crashed

theorem waiting_canTimeOut {server : ServerId} {s : Server} (there : m.heap server = some s)
    (waits : s.Waiting) : CanTimeOut env m server := by
  obtain ⟨st, listed, active⟩ := waits
  obtain ⟨i, found⟩ := List.mem_iff_getElem?.mp listed
  have ready : (s.starters[i]?).any (·.timerActive) = true := by
    rw [found]
    exact active
  have expires : s.step (env.host server) (.startTimeout i) = some (s.timeoutStart i) := if_pos ready
  refine ⟨i, { m with heap := Function.update m.heap server (some (s.timeoutStart i)) },
    s.timeoutStart i, ?_, Function.update_self .., ?_, ?_⟩
  · simp only [step, ServerEvent.managed, Bool.false_eq_true, if_false, there, Option.bind_some,
      expires, Option.map_some]
  · rw [Server.timeoutStart_eq]
  · rw [Server.timeoutStart_eq]

/-- A registered game server that is pinged and lost. -/
theorem loss_crashes (env : Environment) {iface : GameServerId} {round : Nat} {server : ServerId}
    {s : Server}
    (there : m.heap server = some s) (valid : s.valid = true)
    (known : m.RegisteredFor server iface) (pending : (iface, round) ∈ m.calls)
    {error : Option DBusError} (loss : error.any DBusError.isLoss = true) :
    ∃ v t, m.step env (.pingFinished iface round error) = some v ∧ v.heap server = some t ∧
      t.state = .crashed := by
  refine ⟨_, s.gameServerTimedOut (env.host server), if_pos pending, ?_, ?_⟩
  · simp only [pingFinished, loss, if_true]
    rw [show m.gameServers.lookup iface = some server from known]
    exact reach_there (m := { m with calls := _ }) there _
  · rw [Server.gameServerTimedOut_valid valid]
    rfl

theorem registered_canLose (hm : m.Sound) {server : ServerId} {s : Server}
    (there : m.heap server = some s) (valid : s.valid = true) {iface : GameServerId}
    (connected : iface ∈ s.coordinator.quitSlots) (known : m.RegisteredFor server iface) :
    CanLose env m server := by
  have announced := hm.announced iface server known
  refine ⟨iface, ⟨m.aboutToQuit env iface, s.aboutToQuit (env.host server) iface,
    if_pos (lookup_mem announced), ?_, (Server.aboutToQuit_connected connected).1⟩, ?_⟩
  · rw [aboutToQuit_announced env announced]
    exact reach_there (m := m.retire iface) there _
  · intro error loss
    have pending : (iface, m.rounds) ∈ m.pingAllServers.calls := by
      refine List.mem_append_right _ (List.mem_map.mpr ⟨iface, ?_, rfl⟩)
      exact AList.mem_keys.mp (lookup_mem known)
    obtain ⟨v, t, lost, after, crashed⟩ := loss_crashes (m := m.pingAllServers) env there valid
      known pending (show (some error).any DBusError.isLoss = true from loss)
    exact ⟨m.pingAllServers, v, t, rfl, lost, after, crashed⟩

/-- In every reachable state, a server that is starting can still time out, one that
is running has a game server that can quit or be lost, and one that is shutting down
has one or the other. -/
theorem busy_ends (env : Environment) {es : List ManagerEvent}
    (reached : run env {} es = some m) {server : ServerId} {s : Server}
    (there : m.heap server = some s) (valid : s.valid = true) :
    (s.state = .starting → CanTimeOut env m server) ∧
    (s.state = .running → CanLose env m server) ∧
    (s.state = .shuttingDown → CanTimeOut env m server ∨ CanLose env m server) := by
  have waits : m.Waits :=
    Machine.run_invariant (fun _ _ _ hm hu => step_waits hm hu) init_waits reached
  obtain ⟨starting, running, shuttingDown⟩ := waits.wayOut server s there valid
  have loses (known : ∃ iface ∈ s.coordinator.quitSlots, m.RegisteredFor server iface) :
      CanLose env m server := by
    obtain ⟨iface, connected, known⟩ := known
    exact registered_canLose waits.sound there valid connected known
  refine ⟨fun up => waiting_canTimeOut there (starting up), fun up => loses (running up), fun up => ?_⟩
  exact (shuttingDown up).imp (waiting_canTimeOut there) loses

theorem busy_ends_sample :
    ∃ m u, run .ideal {} [.add { path := "/srv/tf2" } "tf2", .server 0 .start] = some m ∧
      CanTimeOut .ideal m 0 ∧ m.step .ideal (.registerGameServer .sample) = some u ∧
      CanLose .ideal u 0 :=
  ⟨_, _, rfl,
    (busy_ends .ideal (show run .ideal {} [.add { path := "/srv/tf2" } "tf2", .server 0 .start] =
      some _ from rfl) rfl rfl).1 rfl,
    rfl,
    (busy_ends .ideal (show run .ideal {} [.add { path := "/srv/tf2" } "tf2", .server 0 .start,
      .registerGameServer .sample] = some _ from rfl) rfl rfl).2.1 rfl⟩

/-! ## Executions that go on for ever -/

open Machine (Execution)

/-- A valid server is in the heap and in such a state. -/
def InState (m : ServerManager) (server : ServerId) (up : State → Prop) : Prop :=
  ∃ s, m.heap server = some s ∧ s.valid = true ∧ up s.state

/-- Of the timers of a server that run on and on, one expires. The manager pings
again and again, and every ping is answered or fails. -/
structure Timely (x : Execution (step env)) : Prop where
  timers : ∀ server, x.Fair (fun m => ∃ s, m.heap server = some s ∧ s.Waiting)
    fun e => ∃ i, e = .server server (.startTimeout i)
  ticks : ∀ n, ∃ k, n ≤ k ∧ x.event k = .timeout
  calls : ∀ n call, call ∈ (x.state n).calls →
    ∃ k, n ≤ k ∧ ∃ error, x.event k = .pingFinished call.1 call.2 error

/-- No ping that is sent after the n-th event is answered by the game server. -/
def Dead (x : Execution (step env)) (n : Nat) (iface : GameServerId) : Prop :=
  ∀ k round error, n ≤ k → (x.state n).rounds ≤ round →
    x.event k = .pingFinished iface round error → error.any DBusError.isLoss = true

theorem effect_rounds (he : Effect env m e u) : m.rounds ≤ u.rounds := by
  cases he with
  | pinged => exact Nat.le_succ _
  | _ => exact Nat.le_refl _

section
variable {x : Execution (step env)}

theorem execution_waits (start : x.state 0 = {}) (n : Nat) : (x.state n).Waits :=
  x.invariant (fun _ _ _ hm hu => step_waits hm hu) (start ▸ init_waits) n

theorem timeout_crashes {server : ServerId} {i : Nat} {s : Server} (there : m.heap server = some s)
    (hu : m.step env (.server server (.startTimeout i)) = some u) :
    ¬ InState u server fun state => state.live = true := by
  rintro ⟨t, after, -, up⟩
  simp only [step, ServerEvent.managed, Bool.false_eq_true, if_false, there, Option.bind_some] at hu
  obtain ⟨t', moves, rfl⟩ := Option.map_eq_some_iff.mp hu
  obtain ⟨-, rfl⟩ := Machine.some_of_ite moves
  obtain ⟨-, new⟩ | ⟨elsewhere, -⟩ := update_some after
  · obtain rfl := Option.some.inj new
    rw [Server.timeoutStart_eq] at up
    cases up
  · exact elsewhere rfl

/-- A game server that is dead is noticed, as long as its server is busy. -/
theorem dead_noticed (start : x.state 0 = {}) (timely : Timely x) {server : ServerId} {n : Nat}
    (busy : ∀ k, n ≤ k → InState (x.state k) server fun state => state.live = true)
    {iface : GameServerId} {s : Server} (there : (x.state n).heap server = some s)
    (connected : iface ∈ s.coordinator.quitSlots) (known : (x.state n).RegisteredFor server iface)
    (dead : Dead x n iface) : False := by
  let Watched (k : Nat) : Prop := ∃ s, (x.state k).heap server = some s ∧ s.valid = true ∧
    iface ∈ s.coordinator.quitSlots ∧ (x.state k).RegisteredFor server iface
  have watched {k : Nat} (later : n ≤ k) : Watched k := by
    refine Execution.persists (P := Watched) ?_ ?_ later
    · rintro k later ⟨s, there, valid, connected, known⟩
      obtain ⟨t, after, valid', up⟩ := busy (k + 1) (Nat.le_succ_of_le later)
      have hm := execution_waits start k
      have leads := effect_leads hm.sound (step_effect hm.sound.fresh (x.moves k))
        (hm.settled server s there) valid there after
      rcases leads.connected with kept | down
      · obtain ⟨slot, registered⟩ := kept iface connected known
        exact ⟨t, after, valid', slot, registered⟩
      · rw [up] at down
        cases down
    · obtain ⟨s', there', valid, -⟩ := busy n (Nat.le_refl n)
      obtain rfl := Option.some.inj (there.symm.trans there')
      exact ⟨s, there, valid, connected, known⟩
  have effects (k : Nat) : Effect env (x.state k) (x.event k) (x.state (k + 1)) :=
    step_effect (execution_waits start k).sound.fresh (x.moves k)
  have rounds {k : Nat} (later : n ≤ k) : (x.state n).rounds ≤ (x.state k).rounds :=
    Execution.persists (P := fun k => (x.state n).rounds ≤ (x.state k).rounds)
      (fun k _ before => Nat.le_trans before (effect_rounds (effects k))) (Nat.le_refl _) later
  -- the next tick pings it
  obtain ⟨i, later, ticks⟩ := timely.ticks n
  have pending : (iface, (x.state i).rounds) ∈ (x.state (i + 1)).calls := by
    obtain ⟨_, _, _, _, known⟩ := watched later
    have moves := x.moves i
    rw [ticks] at moves
    obtain pinged : (x.state i).pingAllServers = x.state (i + 1) := Option.some.inj moves
    rw [← pinged]
    exact List.mem_append_right _
      (List.mem_map.mpr ⟨iface, AList.mem_keys.mp (lookup_mem known), rfl⟩)
  -- and the ping fails
  obtain ⟨j, after, error, finishes⟩ := timely.calls (i + 1) _ pending
  have later' : n ≤ j := Nat.le_trans (Nat.le_succ_of_le later) after
  have loss := dead j _ error later' (rounds later) finishes
  obtain ⟨s, there, valid, -, known⟩ := watched later'
  have moves := x.moves j
  rw [finishes] at moves
  obtain ⟨called, -⟩ := Machine.some_of_ite moves
  obtain ⟨v, t, lost, crashed, down⟩ := loss_crashes env there valid known called loss
  obtain rfl := Option.some.inj (lost.symm.trans moves)
  obtain ⟨t', there', -, up⟩ := busy (j + 1) (Nat.le_succ_of_le later')
  obtain rfl := Option.some.inj (crashed.symm.trans there')
  rw [down] at up
  cases up

/-- No server starts for ever, whatever else happens. A server whose game servers have
all died does not stay busy for ever either: it ends up offline or crashed, or it is
gone. -/
theorem busy_leaves (start : x.state 0 = {}) (timely : Timely x) (server : ServerId) (n : Nat) :
    (∃ k, n ≤ k ∧ ¬ InState (x.state k) server (· = .starting)) ∧
    ((∀ k iface, n ≤ k → (x.state k).RegisteredFor server iface → Dead x k iface) →
      ∃ k, n ≤ k ∧ ¬ InState (x.state k) server fun state => state.live = true) := by
  have waits (k : Nat) := execution_waits start k
  constructor
  · refine (timely.timers server).leaves (P := fun m => InState m server (· = .starting)) ?_ ?_ n
    · rintro k ⟨s, there, valid, up⟩
      exact ⟨s, there, ((waits k).wayOut server s there valid).starting up⟩
    · rintro k ⟨s, there, -, -⟩ ⟨i, expires⟩ ⟨t, after, valid, up⟩
      refine timeout_crashes there (expires ▸ x.moves k) ⟨t, after, valid, ?_⟩
      rw [up]
      rfl
  · intro dead
    by_contra! busy
    -- no game server can end the state, so it is a timer each time
    have waiting (k : Nat) (later : n ≤ k) : ∃ s, (x.state k).heap server = some s ∧ s.Waiting := by
      obtain ⟨s, there, valid, up⟩ := busy k later
      have wayOut := (waits k).wayOut server s there valid
      have unwatched (watched : ∃ iface ∈ s.coordinator.quitSlots,
          (x.state k).RegisteredFor server iface) : False := by
        obtain ⟨iface, connected, known⟩ := watched
        exact dead_noticed start timely (fun j after => busy j (Nat.le_trans later after)) there
          connected known (dead k iface later known)
      refine ⟨s, there, ?_⟩
      cases state : s.state with
      | starting => exact wayOut.starting state
      | running => exact (unwatched (wayOut.running state)).elim
      | shuttingDown => exact (wayOut.shuttingDown state).resolve_right unwatched
      | offline | crashed =>
        rw [state] at up
        cases up
    obtain ⟨k, later, i, expires⟩ := timely.timers server n waiting
    obtain ⟨s, there, -⟩ := waiting k later
    exact timeout_crashes there (expires ▸ x.moves k) (busy (k + 1) (Nat.le_succ_of_le later))

end

/-- A server is started and its game server comes up. A ping is not answered, and then
there is nothing but pings. -/
def lostEvents : Nat → ManagerEvent
  | 0 => .add { path := "/srv/tf2" } "tf2"
  | 1 => .server 0 .start
  | 2 => .registerGameServer .sample
  | 3 => .timeout
  | 4 => .pingFinished 0 0 (some .noReply)
  | _ + 5 => .timeout

def lostStates : Nat → ServerManager
  | 0 => {}
  | n + 1 => ((lostStates n).step .ideal (lostEvents n)).getD {}

theorem lostStates_moves (n : Nat) :
    (lostStates n).step .ideal (lostEvents n) = some (lostStates (n + 1)) := by
  match n with
  | 0 | 1 | 2 | 3 | 4 | n + 5 => rfl

theorem lostStates_settle (n : Nat) :
    (lostStates (n + 5)).heap = (lostStates 5).heap ∧ (lostStates (n + 5)).gameServers = ∅ ∧
      (lostStates (n + 5)).calls = [] := by
  induction n with
  | zero => exact ⟨rfl, rfl, rfl⟩
  | succ n ih =>
    obtain ⟨heap, gameServers, calls⟩ := ih
    refine ⟨heap, gameServers, ?_⟩
    have pinged : lostStates (n + 6) = (lostStates (n + 5)).pingAllServers := rfl
    rw [pinged, pingAllServers, calls, gameServers]
    rfl

def lostExecution : Execution (step .ideal) := ⟨lostStates, lostEvents, lostStates_moves⟩

theorem lostExecution_timely : Timely lostExecution where
  timers server n running := by
    obtain ⟨s, there, waits⟩ := running (n + 5) (Nat.le_add_right n 5)
    have there' : (lostStates 5).heap server = some s := (lostStates_settle n).1 ▸ there
    have sound : (lostStates 5).Sound :=
      lostExecution.invariant (P := Sound) (fun _ _ _ hm hu => step_sound hm hu) init_sound 5
    have only : server < 1 := sound.used server (by rw [there']; rfl)
    obtain rfl := Nat.lt_one_iff.mp only
    obtain rfl := Option.some.inj there'
    obtain ⟨st, listed, active⟩ := waits
    obtain rfl := List.mem_singleton.mp listed
    cases active
  ticks n := ⟨n + 5, Nat.le_add_right n 5, rfl⟩
  calls n call pending := by
    have pending : call ∈ (lostStates n).calls := pending
    match n with
    | 0 | 1 | 2 | 3 => cases pending
    | 4 =>
      obtain rfl := List.mem_singleton.mp pending
      exact ⟨4, Nat.le_refl 4, _, rfl⟩
    | n + 5 =>
      rw [(lostStates_settle n).2.2] at pending
      cases pending

/-- No ping is answered. -/
theorem lostExecution_dead (n : Nat) (iface : GameServerId) : Dead lostExecution n iface := by
  intro k round error _ _ pinged
  match k with
  | 4 =>
    obtain ⟨-, -, rfl⟩ : (0 : GameServerId) = iface ∧ 0 = round ∧ some DBusError.noReply = error := by
      simpa [lostExecution, lostEvents] using pinged
    rfl
  | 0 | 1 | 2 | 3 | k + 5 => cases pinged

/-- It is starting, then running, and neither for ever. -/
theorem busy_leaves_lost :
    (InState (lostExecution.state 2) 0 (· = .starting) ∧
      ∃ k, 2 ≤ k ∧ ¬ InState (lostExecution.state k) 0 (· = .starting)) ∧
    InState (lostExecution.state 3) 0 (· = .running) ∧
      ∃ k, 3 ≤ k ∧ ¬ InState (lostExecution.state k) 0 fun state => state.live = true := by
  refine ⟨⟨⟨_, rfl, rfl, rfl⟩, (busy_leaves rfl lostExecution_timely 0 2).1⟩, ⟨_, rfl, rfl, rfl⟩, ?_⟩
  exact (busy_leaves rfl lostExecution_timely 0 3).2 fun k iface _ _ => lostExecution_dead k iface

end ServerManager

end Morgoth
