import Morgoth.Announced
import Morgoth.Bus
import Morgoth.Commands
import Morgoth.Fairness
import Morgoth.Progress

/-!
# The start command and the daemon

The turn of `StartCommand::execute` for one server, and all that happens to the
daemon meanwhile, in any order. The client knows the path of a coordinator and
not the object behind it. It asks the bus for the signals of the path before it
calls `start()`, and looks at them in an event loop after the answer.

* `step_promised`: once `start()` is called, what the client waits for has been sent,
  or a starter is going to announce it;
* `start_promised_iff`: only the deletion of the server breaks that.
-/

namespace Morgoth

/-- `ServerError::errorString` -/
def ServerError.errorString : ServerError → String
  | .noError => "no error"
  | .invalidInstallation => "invalid installation"
  | .invalidConfiguration => "invalid configuration"
  | .unableToCreateTmuxSession => "unable to create tmux session"
  | .unableToResolveUser => "unable to resolve user"
  | .unableToRedirectTmuxOutput => "unable to redirect tmux output"
  | .serverExecutableFailed => "server executable failed"
  | .serverNotRegisteredOnTime => "server not registered on time"

/-! ## What a starter announces -/

/-- The states that the client waits for. -/
def State.settles : State → Bool
  | .running | .crashed => true
  | _ => false

namespace Server

variable {h : Host} {s t : Server}

theorem start_promised (h : Host) (s : Server) :
    (s.start h).1.Waiting ∨ ∃ state ∈ (emitted s (s.start h).1).map Prod.fst,
      state.settles = true := by
  cases outcome : (s.bringUp h).2 with
  | none =>
    refine .inl ⟨.launched none, ?_, rfl⟩
    rw [start_starters, outcome]
    simp
  | some error =>
    have announced : emitted s (s.start h).1 =
        [(.starting, s.coordinator.error), (.crashed, error)] := by
      rw [start_failed outcome]
      exact emitted_append (List.append_assoc _ _ _)
    rw [announced]
    exact .inr ⟨.crashed, by simp, rfl⟩

/-- Every starter that hears a game server register has the coordinator announce it. -/
theorem gameServerOnline_emitted (h : Host) (iface : GameServerId) (gameServer : GameServer)
    (s : Server) :
    emitted s (s.gameServerOnline h iface gameServer) =
      List.replicate s.listening.length (.running, s.coordinator.error) := by
  have each (is : List Nat) (t : Server) :
      (Signal.emit (is.map fun i => handleGameServerRegistered i iface) t).coordinator.signals =
        t.coordinator.signals ++ List.replicate is.length (.running, t.coordinator.error) := by
    induction is generalizing t with
    | nil => simp
    | cons i is ih =>
      rw [List.map_cons, Signal.emit_cons, ih, handleGameServerRegistered_eq]
      simp [List.replicate_succ]
  apply emitted_append
  unfold gameServerOnline gameServerOnlineSlots
  rw [Signal.emit_append, each]
  cases s.valid <;> rfl

/-- A starter that waits announces a state that the client waits for, or goes on
waiting. -/
theorem step_promised {e : ServerEvent} (settled : s.Settled) (waits : s.Waiting)
    (hu : s.step h e = some t) :
    t.Waiting ∨ ∃ state ∈ (emitted s t).map Prod.fst, state.settles = true := by
  have starters := step_starters hu
  obtain ⟨st, there, active⟩ := waits
  have kept (same : t.starters = s.starters) : t.Waiting := ⟨st, same ▸ there, active⟩
  cases e with
  | start => exact .inl ⟨st, starters ▸ List.mem_append_left _ there, active⟩
  | startTimeout i =>
    obtain ⟨-, rfl⟩ := Machine.some_of_ite hu
    refine .inr ⟨.crashed, ?_, rfl⟩
    rw [timeoutStart_eq, emitted_append rfl]
    simp
  | deleteStarter i =>
    obtain ⟨scheduled, rfl⟩ := Machine.some_of_ite hu
    obtain ⟨j, found⟩ := List.mem_iff_getElem?.mp there
    refine .inl ⟨st, List.mem_eraseIdx_iff_getElem?.mpr ⟨j, ?_, found⟩, active⟩
    rintro rfl
    -- the one that goes has no timer left
    rw [found, Option.any_some, (settled st there).2 active] at scheduled
    cases scheduled
  | gameServerOnline iface gameServer =>
    obtain ⟨-, rfl⟩ := Machine.some_of_ite hu
    by_cases silent : s.listening = []
    · rw [gameServerOnline_unheard silent]
      exact .inl ⟨st, there, active⟩
    · rw [gameServerOnline_emitted]
      refine .inr ⟨.running, ?_, rfl⟩
      simpa using silent
  | _ => exact .inl (kept starters)

end Server

namespace ServerManager

variable {env : Environment} {m u : ServerManager} {e : ManagerEvent} {server : ServerId}

/-- A server that is not deleted is there after an event, as it was or a step on. -/
theorem effect_moves (hm : m.Sound) (he : Effect env m e u) {s : Server}
    (there : m.heap server = some s) (spared : e ≠ .deleteServer server) :
    ∃ t, u.heap server = some t ∧
      (t = s ∨ ∃ event, s.step (env.host server) event = some t) := by
  have here : (m.heap server).isSome := there ▸ rfl
  have alive : (u.heap server).isSome := by
    cases he with
    | added | alone => exact update_isSome here fun _ => rfl
    | registered | lost | quit | dropped => exact reach_isSome here
    | destroyed gone =>
      refine update_isSome here fun same => ?_
      exact absurd (congrArg ManagerEvent.deleteServer same.symm) spared
    | _ => exact here
  obtain ⟨t, after⟩ := Option.isSome_iff_exists.mp alive
  refine ⟨t, after, ?_⟩
  rcases effect_heap hm he after with same | ⟨s', event, before, moves, -⟩ | ⟨rfl, -⟩
  · exact .inl (Option.some.inj (same.symm.trans there))
  · obtain rfl := Option.some.inj (before.symm.trans there)
    exact .inr ⟨event, moves⟩
  · exact absurd (hm.used m.nextServer here) (Nat.lt_irrefl _)

end ServerManager

/-! ## Coordinators on the bus -/

/-- The daemon adds a server by its path only. -/
def ManagerEvent.inside : ManagerEvent → Bool
  | .addServer .. => false
  | _ => true

namespace Bus

/-- The server whose coordinator is at the path. -/
def coordinator (b : Bus) (path : String) : Option ServerId :=
  match b.objects path with
  | some (.coordinator server) => some server
  | _ => none

/-- What a client reads of `state`: where there is no coordinator, the first state. -/
def readState (b : Bus) (path : String) : State :=
  (((b.coordinator path).bind b.manager.heap).map Server.state).getD .offline

/-- The same of `error`. -/
def readError (b : Bus) (path : String) : ServerError :=
  (((b.coordinator path).bind b.manager.heap).map fun s => s.coordinator.error).getD .noError

/-- The `stateChanged` of the path that an event emits. -/
def stateChanges (b u : Bus) (path : String) : List State :=
  match b.coordinator path with
  | none => []
  | some server =>
    match b.manager.heap server, u.manager.heap server with
    | some s, some t => (Server.emitted s t).map Prod.fst
    | _, _ => []

/-- The coordinator at the path has a starter that waits. -/
def Expected (b : Bus) (path : String) : Prop :=
  ∃ server s, b.coordinator path = some server ∧ b.manager.heap server = some s ∧ s.Waiting

variable {env : Environment} {b u : Bus} {path : String} {server : ServerId}

theorem coordinator_some : b.coordinator path = some server ↔
    b.objects path = some (.coordinator server) := by
  unfold coordinator
  split
  · next found => simp [found]
  · next other =>
    refine iff_of_false nofun fun found => ?_
    exact other server found

/-- What is exported belongs to a server that is there, and its coordinator to a valid
one. -/
def Alive (b : Bus) : Prop :=
  ∀ path server, b.coordinator path = some server →
    ∃ s, b.manager.heap server = some s ∧ s.valid = true

/-- An object stays at its path until its server is deleted. -/
theorem object_kept (hb : b.Sound) {e : ManagerEvent} (hu : b.step env e = some u)
    {o : BusObject} (own : o.isOf server = true) (there : b.objects path = some o)
    (spared : e ≠ .deleteServer server) : u.objects path = some o := by
  obtain ⟨m, moves, rfl⟩ := Option.map_eq_some_iff.mp hu
  cases e with
  | add dir name =>
    simp only [exported]
    split
    · exact Registry.registerAll_keeps there
    · exact Registry.withdraw_some.mpr ⟨Registry.registerAll_keeps there, hb.fresh there⟩
  | addServer dir name => exact Registry.registerAll_keeps there
  | deleteServer gone =>
    refine Registry.withdraw_some.mpr ⟨there, Bool.eq_false_iff.mpr fun own' => ?_⟩
    exact spared (congrArg ManagerEvent.deleteServer (isOf_inj own' own))
  | _ => exact there

/-- A coordinator stays at its path until its server is deleted. -/
theorem coordinator_kept (hb : b.Sound) {e : ManagerEvent} (hu : b.step env e = some u)
    (there : b.coordinator path = some server) (spared : e ≠ .deleteServer server) :
    u.coordinator path = some server :=
  coordinator_some.mpr
    (object_kept hb hu (beq_self_eq_true server) (coordinator_some.mp there) spared)

theorem coordinator_deleted (hu : b.step env (.deleteServer server) = some u)
    (there : b.coordinator path = some server) : u.coordinator path = none := by
  obtain ⟨m, moves, rfl⟩ := Option.map_eq_some_iff.mp hu
  rw [coordinator_some] at there
  unfold coordinator
  simp [exported, Registry.withdraw, there, BusObject.isOf]

theorem step_alive (hb : b.Sound) (hi : b.Alive) {e : ManagerEvent} (inside : e.inside = true)
    (hu : b.step env e = some u) : u.Alive := by
  intro path server there
  obtain ⟨m, moves, rfl⟩ := Option.map_eq_some_iff.mp hu
  have old (before : b.coordinator path = some server) (spared : e ≠ .deleteServer server) :
      ∃ t, m.heap server = some t ∧ t.valid = true := by
    obtain ⟨s, here, valid⟩ := hi path server before
    obtain ⟨t, after, rfl | ⟨event, steps⟩⟩ := ServerManager.effect_moves hb.manager
      (ServerManager.step_effect hb.manager.fresh moves) here spared
    · exact ⟨t, after, valid⟩
    · exact ⟨t, after, (Server.step_frame steps).1.trans valid⟩
  rw [coordinator_some] at there
  cases e with
  | add dir name =>
    simp only [exported] at there
    split at there
    · next accepted =>
      rcases Registry.registerAll_some there with before | ⟨-, -, new⟩
      · exact old (coordinator_some.mpr before) (by simp)
      · have free : b.manager.find name = none := by
          by_contra taken
          rw [ServerManager.add_taken env (Option.ne_none_iff_isSome.mp taken)] at accepted
          cases accepted
        obtain rfl : server = b.manager.nextServer :=
          isOf_inj (o := .coordinator server) (beq_self_eq_true server) (objects_own new)
        obtain rfl := Option.some.inj moves
        rw [ServerManager.add_free env hb.manager.fresh free]
        refine ⟨_, Function.update_self .., ?_⟩
        unfold Server.objects at new
        split at new
        · assumption
        · simp at new
    · obtain ⟨there, other⟩ := Registry.withdraw_some.mp there
      rcases Registry.registerAll_some there with before | ⟨-, -, new⟩
      · exact old (coordinator_some.mpr before) (by simp)
      · rw [objects_own new] at other
        cases other
  | addServer => cases inside
  | deleteServer gone =>
    obtain ⟨before, other⟩ := Registry.withdraw_some.mp there
    refine old (coordinator_some.mpr before) fun same => ?_
    injection same with same
    simp [BusObject.isOf, same] at other
  | _ => exact old (coordinator_some.mpr there) (by simp)

theorem stateChanges_eq (u : Bus) {s t : Server} (at_path : b.coordinator path = some server)
    (before : b.manager.heap server = some s) (after : u.manager.heap server = some t) :
    b.stateChanges u path = (Server.emitted s t).map Prod.fst := by
  simp [stateChanges, at_path, before, after]

/-- What is expected of a path is announced there, or still expected. -/
theorem step_expected (hb : b.Sound) (waits : b.manager.Waits) (expected : b.Expected path)
    {e : ManagerEvent} (hu : b.step env e = some u)
    (spared : ∀ server, b.coordinator path = some server → e ≠ .deleteServer server) :
    u.Expected path ∨ ∃ state ∈ b.stateChanges u path, state.settles = true := by
  obtain ⟨server, s, at_path, there, waiting⟩ := expected
  have kept := coordinator_kept hb hu at_path (spared server at_path)
  obtain ⟨m, moves, rfl⟩ := Option.map_eq_some_iff.mp hu
  obtain ⟨t, after, rfl | ⟨event, steps⟩⟩ := ServerManager.effect_moves hb.manager
    (ServerManager.step_effect hb.manager.fresh moves) there (spared server at_path)
  · exact .inl ⟨server, t, kept, after, waiting⟩
  · rw [stateChanges_eq _ at_path there after]
    exact (Server.step_promised (waits.settled server s there) waiting steps).imp_left
      fun still => ⟨server, t, kept, after, still⟩

end Bus

/-! ## The client -/

/-- What the client does next. -/
inductive StartClient
  | readState
  | readStateAgain
  | connect
  | callStart
  | awaitsReply
  | exec (h : Handler)
  | returned (code : Int)

inductive StartRequest
  | addMatch
  | start

/-- `signals` are those sent to the client that its event loop has not seen. -/
structure StartProtocol where
  bus : Bus
  client : StartClient := .readState
  requests : List StartRequest := []
  subscribed : Bool := false
  reply : Option Bool := none
  signals : List State := []

/-- `bus` is anything that happens to the daemon without this client. -/
inductive StartEvent
  | bus (event : ManagerEvent)
  | client
  | request
  | signal

namespace StartProtocol

section
variable (env : Environment) (serverName path : String)

/-- The daemon moves, and whoever has subscribed is told of the new states. -/
def moved (p : StartProtocol) (u : Bus) : StartProtocol :=
  { p with
    bus := u
    signals := if p.subscribed then p.signals ++ p.bus.stateChanges u path else p.signals }

/-- `none` where the client waits, or has returned. -/
def act (p : StartProtocol) : Option StartProtocol :=
  match p.client with
  | .readState =>
    some { p with
      client := if p.bus.readState path = .offline then .connect else .readStateAgain }
  | .readStateAgain =>
    -- "is already running"
    some { p with client := if p.bus.readState path = .crashed then .connect else .returned 0 }
  | .connect => some { p with client := .callStart, requests := p.requests ++ [.addMatch] }
  | .callStart => some { p with client := .awaitsReply, requests := p.requests ++ [.start] }
  | .awaitsReply =>
    p.reply.map fun started => { p with client := if started then .exec {} else .returned 4 }
  | .exec h => if h.quit then some { p with client := .returned h.ret } else none
  | .returned _ => none

/-- A call of `start()` arrives at the path. -/
def start (p : StartProtocol) : Option StartProtocol :=
  match p.bus.coordinator path with
  | none => some { p with reply := some false }
  | some server => (p.bus.step env (.server server .start)).map fun u =>
    { p.moved path u with reply := some true }

def step (p : StartProtocol) : StartEvent → Option StartProtocol
  | .bus event => if event.inside then (p.bus.step env event).map (p.moved path) else none
  | .client => p.act path
  | .request =>
    match p.requests with
    | [] => none
    | .addMatch :: requests => some { p with requests := requests, subscribed := true }
    | .start :: requests => start env path { p with requests := requests }
  | .signal =>
    -- the loop looks at `quit` after a pass, so more signals may come first
    match p.client, p.signals with
    | .exec h, state :: signals =>
      let change := ⟨state, (p.bus.readError path).errorString⟩
      some { p with
        client := .exec (StartCommand.stateChanged serverName h change)
        signals := signals }
    | _, _ => none

end

/-! ## What every run keeps -/

/-- How far the client and its requests are. -/
inductive Stage : StartClient → List StartRequest → Bool → Option Bool → Prop
  | readState : Stage .readState [] false none
  | readStateAgain : Stage .readStateAgain [] false none
  | connect : Stage .connect [] false none
  | running : Stage (.returned 0) [] false none
  | connected : Stage .callStart [.addMatch] false none
  | subscribed : Stage .callStart [] true none
  | called : Stage .awaitsReply [.addMatch, .start] false none
  | calledSubscribed : Stage .awaitsReply [.start] true none
  | answered (started : Bool) : Stage .awaitsReply [] true (some started)
  | exec (h : Handler) : Stage (.exec h) [] true (some true)
  | refused : Stage (.returned 4) [] true (some false)
  | returned (code : Int) : Stage (.returned code) [] true (some true)

structure Sound (p : StartProtocol) : Prop where
  bus : p.bus.Sound
  alive : p.bus.Alive
  waits : p.bus.manager.Waits
  stage : Stage p.client p.requests p.subscribed p.reply

/-- The client has been told that the server is starting, and its loop goes on. -/
def Listens (p : StartProtocol) : Prop :=
  p.reply = some true ∧
    (p.client = .awaitsReply ∨ ∃ h, p.client = .exec h ∧ h.quit = false)

/-- A signal that ends the loop is on its way. -/
def Told (p : StartProtocol) : Prop := ∃ state ∈ p.signals, state.settles = true

/-- What a client that listens waits for is on its way, or is going to be. -/
def Promised (path : String) (p : StartProtocol) : Prop :=
  p.Listens → p.Told ∨ p.bus.Expected path

/-- The server at the path is not deleted while a client waits to hear of it. -/
def Spares (path : String) (p : StartProtocol) : StartEvent → Prop
  | .bus (.deleteServer server) =>
    p.Listens → p.bus.coordinator path = some server → p.Told
  | _ => True

variable {env : Environment} {serverName path : String} {p u : StartProtocol}

theorem init_sound : Sound { bus := {} } where
  bus := Bus.init_sound
  alive path server there := by
    rcases Registry.registerAll_some (Bus.coordinator_some.mp there) with old | ⟨-, -, mem⟩
    · cases old
    · simp at mem
  waits := ServerManager.init_waits
  stage := .readState

/-- The daemon moves, and the client does not. -/
theorem moved_sound (path : String) (hp : p.Sound) {e : ManagerEvent} (inside : e.inside = true)
    {b : Bus}
    (hb : p.bus.step env e = some b) : (p.moved path b).Sound where
  bus := Bus.step_sound hp.bus hb
  alive := Bus.step_alive hp.bus hp.alive inside hb
  waits := by
    obtain ⟨m, moves, rfl⟩ := Option.map_eq_some_iff.mp hb
    exact ServerManager.step_waits hp.waits moves
  stage := hp.stage

/-- The client moves, and the daemon does not. -/
theorem act_sound (hp : p.Sound) (hu : p.act path = some u) :
    u.Sound ∧ u.bus = p.bus ∧ u.signals = p.signals ∧ (u.Listens → p.Listens) := by
  obtain ⟨bus, client, requests, subscribed, reply, signals⟩ := p
  have only {next : StartClient} {asked : List StartRequest}
      (stage : Stage next asked subscribed reply)
      (listens : StartProtocol.Listens ⟨bus, next, asked, subscribed, reply, signals⟩ →
        StartProtocol.Listens ⟨bus, client, requests, subscribed, reply, signals⟩)
      (hq : some (StartProtocol.mk bus next asked subscribed reply signals) = some u) :
      u.Sound ∧ u.bus = bus ∧ u.signals = signals ∧ (u.Listens →
        StartProtocol.Listens ⟨bus, client, requests, subscribed, reply, signals⟩) := by
    obtain rfl := Option.some.inj hq
    exact ⟨⟨hp.bus, hp.alive, hp.waits, stage⟩, rfl, rfl, listens⟩
  have stage : Stage client requests subscribed reply := hp.stage
  unfold act at hu
  cases stage with
  | readState =>
    dsimp only at hu
    split at hu
    · exact only .connect nofun hu
    · exact only .readStateAgain nofun hu
  | readStateAgain =>
    dsimp only at hu
    split at hu
    · exact only .connect nofun hu
    · exact only .running nofun hu
  | connect => exact only .connected nofun hu
  | connected => exact only .called nofun hu
  | subscribed => exact only .calledSubscribed nofun hu
  | answered started =>
    cases started with
    | true => exact only (.exec {}) (fun _ => ⟨rfl, .inl rfl⟩) hu
    | false => exact only .refused nofun hu
  | exec h =>
    obtain ⟨-, rfl⟩ := Machine.some_of_ite hu
    refine only (.returned h.ret) (fun listens => ?_) rfl
    rcases listens.2 with waits | ⟨_, loops, -⟩
    · cases waits
    · cases loops
  | called | calledSubscribed | running | refused | returned code => cases hu

/-- `start()` arrives at the path: it is answered, and what it is to lead to has been
announced or is expected. -/
theorem start_sound {bus : Bus} {signals : List State}
    (hp : (StartProtocol.mk bus .awaitsReply [.start] true none signals).Sound)
    (hu : start env path ⟨bus, .awaitsReply, [], true, none, signals⟩ = some u) :
    u.Sound ∧ u.Promised path := by
  unfold start at hu
  cases at_path : bus.coordinator path with
  | none =>
    simp only [at_path] at hu
    obtain rfl := Option.some.inj hu
    exact ⟨⟨hp.bus, hp.alive, hp.waits, .answered false⟩, nofun⟩
  | some server =>
    simp only [at_path] at hu
    obtain ⟨b, hb, rfl⟩ := Option.map_eq_some_iff.mp hu
    have after := moved_sound path hp rfl hb
    refine ⟨⟨after.bus, after.alive, after.waits, .answered true⟩, fun _ => ?_⟩
    obtain ⟨s, there, valid⟩ : ∃ s, bus.manager.heap server = some s ∧ s.valid = true :=
      hp.alive path server at_path
    have kept := Bus.coordinator_kept hp.bus hb at_path nofun
    obtain ⟨m, moves, rfl⟩ := Option.map_eq_some_iff.mp hb
    simp only [ServerManager.step, ServerEvent.managed, Bool.false_eq_true, if_false, there,
      Option.bind_some, Server.step, valid, if_true, Option.map_some, Option.some.injEq] at moves
    subst moves
    rcases Server.start_promised (env.host server) s with waits | ⟨state, announced, settles⟩
    · exact .inr ⟨server, _, kept, Function.update_self .., waits⟩
    · refine .inl ⟨state, ?_, settles⟩
      simp only [moved, if_true]
      rw [Bus.stateChanges_eq _ at_path there (Function.update_self ..)]
      exact List.mem_append_right _ announced

theorem signal_handled {p : StartProtocol} (hu : p.step env serverName path .signal = some u) :
    ∃ h state signals, p.client = .exec h ∧ p.signals = state :: signals ∧
      u = { p with
        client := .exec (StartCommand.stateChanged serverName h
          ⟨state, (p.bus.readError path).errorString⟩)
        signals := signals } := by
  simp only [step] at hu
  split at hu
  case h_1 h state signals waits arrived =>
    exact ⟨h, state, signals, waits, arrived, (Option.some.inj hu).symm⟩
  case h_2 => cases hu

theorem step_sound {e : StartEvent} (hp : p.Sound) (hu : p.step env serverName path e = some u) :
    u.Sound := by
  cases e with
  | bus event =>
    obtain ⟨inside, hu⟩ := Option.ite_none_right_eq_some.mp hu
    obtain ⟨b, hb, rfl⟩ := Option.map_eq_some_iff.mp hu
    exact moved_sound path hp inside hb
  | client => exact (act_sound hp hu).1
  | request =>
    obtain ⟨bus, client, requests, subscribed, reply, signals⟩ := p
    have stage : Stage client requests subscribed reply := hp.stage
    cases stage with
    | connected =>
      obtain rfl := Option.some.inj hu
      exact ⟨hp.bus, hp.alive, hp.waits, .subscribed⟩
    | called =>
      obtain rfl := Option.some.inj hu
      exact ⟨hp.bus, hp.alive, hp.waits, .calledSubscribed⟩
    | calledSubscribed => exact (start_sound hp hu).1
    | _ => cases hu
  | signal =>
    obtain ⟨h, state, signals, loops, arrived, rfl⟩ := signal_handled hu
    have stage := hp.stage
    rw [loops] at stage
    refine ⟨hp.bus, hp.alive, hp.waits, ?_⟩
    dsimp only
    generalize p.requests = requests at stage
    generalize p.subscribed = subscribed at stage
    generalize p.reply = reply at stage
    cases stage with
    | exec => exact .exec _

theorem stateChanged_quit (h : Handler) (change : Change) :
    (StartCommand.stateChanged serverName h change).quit = (h.quit || change.state.settles) := by
  unfold StartCommand.stateChanged
  cases change.state <;> simp [State.settles]

theorem Listens.subscribed (hp : p.Sound) (listens : p.Listens) : p.subscribed = true := by
  have stage := hp.stage
  rw [listens.1] at stage
  generalize p.client = client at stage
  generalize p.requests = requests at stage
  generalize p.subscribed = subscribed at stage ⊢
  cases stage <;> rfl

/-- Of all that can happen to a promise, only the deletion of the server breaks it. -/
theorem step_promised {e : StartEvent} (hp : p.Sound) (hi : p.Promised path)
    (hu : p.step env serverName path e = some u) : u.Promised path ↔ p.Spares path e := by
  cases e with
  | bus event =>
    obtain ⟨inside, hu⟩ := Option.ite_none_right_eq_some.mp hu
    obtain ⟨b, hb, rfl⟩ := Option.map_eq_some_iff.mp hu
    by_cases deletes : ∃ server, event = .deleteServer server ∧ p.bus.coordinator path = some server
    · obtain ⟨server, rfl, at_path⟩ := deletes
      have gone := Bus.coordinator_deleted hb at_path
      have silent : p.bus.stateChanges b path = [] := by
        obtain ⟨m, moves, rfl⟩ := Option.map_eq_some_iff.mp hb
        obtain ⟨-, rfl⟩ := Machine.some_of_ite moves
        unfold Bus.stateChanges
        simp [at_path, ServerManager.deleteServer]
      have signals : (p.moved path b).signals = p.signals := by simp [moved, silent]
      have unexpected : ¬ (p.moved path b).bus.Expected path := by
        rintro ⟨_, _, at_path', -⟩
        cases gone.symm.trans at_path'
      unfold Promised Spares Told
      rw [signals, or_iff_left unexpected]
      exact ⟨fun told listens _ => told listens, fun told listens => told listens at_path⟩
    · refine iff_of_true (fun listens => ?_) ?_
      · have subscribed : p.subscribed = true := Listens.subscribed hp listens
        have signals : (p.moved path b).signals = p.signals ++ p.bus.stateChanges b path :=
          if_pos subscribed
        unfold Told
        rw [signals]
        rcases hi listens with ⟨state, sent, settles⟩ | expected
        · exact .inl ⟨state, List.mem_append_left _ sent, settles⟩
        · have spared (server : ServerId) (at_path : p.bus.coordinator path = some server) :
              event ≠ .deleteServer server := fun same => deletes ⟨server, same, at_path⟩
          rcases Bus.step_expected hp.bus hp.waits expected hb spared with still | ⟨state, sent, ends⟩
          · exact .inr still
          · exact .inl ⟨state, List.mem_append_right _ sent, ends⟩
      · cases event with
        | deleteServer server => exact fun _ at_path => absurd ⟨server, rfl, at_path⟩ deletes
        | _ => trivial
  | client =>
    obtain ⟨-, bus, signals, listens⟩ := act_sound hp hu
    refine iff_of_true (fun listening => ?_) trivial
    unfold Told
    rw [bus, signals]
    exact hi (listens listening)
  | request =>
    refine iff_of_true ?_ trivial
    obtain ⟨bus, client, requests, subscribed, reply, signals⟩ := p
    have stage : Stage client requests subscribed reply := hp.stage
    cases stage with
    | connected | called =>
      obtain rfl := Option.some.inj hu
      exact nofun
    | calledSubscribed => exact (start_sound hp hu).2
    | _ => cases hu
  | signal =>
    obtain ⟨h, state, signals, loops, arrived, rfl⟩ := signal_handled hu
    refine iff_of_true ?_ trivial
    rintro ⟨reply, waits | ⟨h', loops', going⟩⟩
    · cases waits
    · obtain rfl := StartClient.exec.inj loops'
      rw [stateChanged_quit] at going
      obtain ⟨went, other⟩ := Bool.or_eq_false_iff.mp going
      rcases hi ⟨reply, .inr ⟨h, loops, went⟩⟩ with ⟨told, sent, settles⟩ | expected
      · rw [arrived] at sent
        rcases List.mem_cons.mp sent with rfl | later
        · rw [settles] at other
          cases other
        · exact .inl ⟨told, later, settles⟩
      · exact .inr expected

/-- Whatever else happens, and in which order: from the moment on in which `start()` is
answered, what the client waits for is on its way or is going to be announced, exactly
as long as the server is not deleted before. -/
theorem start_promised_iff (env : Environment) (serverName path : String) (es : List StartEvent) :
    Machine.Throughout (step env serverName path) (Promised path) { bus := {} } es ↔
      Machine.EachStep (step env serverName path) (Spares path) { bus := {} } es := by
  apply Machine.throughout_iff_eachStep (A := Sound)
  · exact fun _ _ _ _ hp hu => step_sound hp hu
  · exact fun _ _ _ _ hp hi hu => step_promised hp hi hu
  · exact init_sound
  · exact nofun

end StartProtocol

end Morgoth
