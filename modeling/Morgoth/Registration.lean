import Mathlib.Logic.Function.Basic
import Morgoth.Machine
import Morgoth.StatusCalls

/-!
# A registration, message by message

`trackGameServer` as what it is: a handler that blocks on every value it reads,
while the game server goes on. The two exchange messages that arrive in order.
What arrives while the handler blocks waits in the queue of the event loop until
the handler has returned.

* `trackGameServer_steps`: with nothing in between, the handler does what
  `ServerStatus.trackGameServer` does;
* `step_sound`: where the two are, in every run.
-/

namespace Morgoth

/-- What the handler reads. A convar is read with `getConVarValue`. -/
inductive Question
  | maxPlayers
  | address
  | map
  | hostname
  | password
  | stvPassword
  | stvPort
  deriving DecidableEq, Repr

/-- The answer, as the setter that it is passed to. -/
def Question.answer (gameServer : GameServer) : Question → StatusCall
  | .maxPlayers => .setMaxPlayers gameServer.maxPlayers
  | .address => .setAddressFromString gameServer.address
  | .map => .setMap gameServer.map
  | .hostname => .setHostname (gameServer.getConVarValue "hostname")
  | .password => .setPassword (gameServer.getConVarValue "sv_password")
  | .stvPassword => .setStvPassword (gameServer.getConVarValue "tv_password")
  | .stvPort => .setStvPortFromString (gameServer.getConVarValue "tv_port")

/-- A step of the handler. It blocks on `read` only. -/
inductive TrackStep
  | read (question : Question)
  | watchConVar (conVarName : String)
  | connectMapChanged
  | connectConVarChanged
  deriving DecidableEq, Repr

def trackSteps : List TrackStep :=
  [.read .maxPlayers, .read .address, .connectMapChanged, .read .map, .connectConVarChanged,
    .watchConVar "hostname", .read .hostname, .watchConVar "sv_password", .read .password,
    .watchConVar "tv_password", .read .stvPassword, .watchConVar "tv_port", .read .stvPort]

/-- A call on the game server. -/
inductive GameServerCall
  | read (question : Question)
  | watchConVar (conVarName : String)
  deriving DecidableEq, Repr

def TrackStep.call : TrackStep → Option GameServerCall
  | .read question => some (.read question)
  | .watchConVar conVarName => some (.watchConVar conVarName)
  | _ => none

def TrackStep.blocks : TrackStep → Bool
  | .read _ => true
  | _ => false

def sentCalls (steps : List TrackStep) : List GameServerCall := steps.filterMap TrackStep.call

def GameServerCall.isRead : GameServerCall → Bool
  | .read _ => true
  | .watchConVar _ => false

/-- What the game server sends. `done` is the reply to `watchConVar`, which the
handler does not wait for. -/
inductive Message
  | reply (call : StatusCall)
  | done
  | mapChanged (map : String)
  | conVarChanged (conVarName newValue : String)
  deriving DecidableEq, Repr

def GameServerCall.reply (gameServer : GameServer) : GameServerCall → Message
  | .read question => .reply (question.answer gameServer)
  | .watchConVar _ => .done

def Message.replyCall : Message → Option StatusCall
  | .reply call => some call
  | _ => none

/-- What the slot of a signal does. -/
def Message.slotCall : Message → Option StatusCall
  | .mapChanged map => some (.setMap map)
  | .conVarChanged conVarName newValue => ServerStatus.conVarCall conVarName newValue
  | _ => none

/-- `handled` are the calls that the game server has handled and `sent` the
messages it has sent; `calls` and `messages` are on their way. `past` and
`rest` are the steps of the handler, which has returned where it does not wait. -/
structure Registration where
  gameServer : GameServer
  handled : List GameServerCall := []
  sent : List Message := []
  calls : List GameServerCall := []
  messages : List Message := []
  queue : List Message := []
  past : List TrackStep := []
  rest : List TrackStep := []
  waiting : Bool := false
  status : ServerStatus

/-- A change in the game server, a call it handles, a message that arrives, or a
signal that the event loop handles. -/
inductive RegistrationEvent
  | changeMap (map : String)
  | changeConVar (conVarName newValue : String)
  | handleCall
  | receive
  | handleSignal
  deriving DecidableEq, Repr

namespace Registration

/-- The handler goes on until it blocks or returns. -/
def proceed (r : Registration) : List TrackStep → Registration
  | [] => { r with rest := [], waiting := false }
  | step :: steps =>
    let r : Registration :=
      { r with past := r.past ++ [step], calls := r.calls ++ step.call.toList }
    if step.blocks then { r with rest := steps, waiting := true } else proceed r steps

/-- The game server has registered, and nobody has asked it to watch a convar. -/
def start (gameServer : GameServer) (status : ServerStatus) : Registration :=
  proceed { gameServer := gameServer, status := status } trackSteps

def send (message : Message) (r : Registration) : Registration :=
  { r with messages := r.messages ++ [message], sent := r.sent ++ [message] }

/-- The signal of the message has a slot. -/
def hears (r : Registration) : Message → Bool
  | .mapChanged _ => .connectMapChanged ∈ r.past
  | .conVarChanged .. => .connectConVarChanged ∈ r.past
  | _ => false

/-- A change of a convar is signalled where it is watched, and one of the map
always. -/
def step (h : Host) (r : Registration) : RegistrationEvent → Option Registration
  | .changeMap map =>
    some ({ r with gameServer := { r.gameServer with map := map } }.send (.mapChanged map))
  | .changeConVar conVarName newValue =>
    let r : Registration := { r with gameServer := { r.gameServer with
      getConVarValue := Function.update r.gameServer.getConVarValue conVarName newValue } }
    some (if .watchConVar conVarName ∈ r.handled then r.send (.conVarChanged conVarName newValue)
      else r)
  | .handleCall =>
    match r.calls with
    | [] => none
    | call :: calls =>
      some ({ r with calls := calls, handled := r.handled ++ [call] }.send
        (call.reply r.gameServer))
  | .receive =>
    match r.messages with
    | [] => none
    | .reply call :: messages =>
      some (proceed { r with messages := messages, status := r.status.call h call } r.rest)
    | message :: messages =>
      some (if r.hears message then
        { r with messages := messages, queue := r.queue ++ [message] }
      else { r with messages := messages })
  | .handleSignal =>
    match r.queue with
    | [] => none
    | message :: queue =>
      if r.waiting then none
      else some { r with
        queue := queue, status := r.status.callAll h message.slotCall.toList }

abbrev run (h : Host) : Registration → List RegistrationEvent → Option Registration :=
  Machine.run (step h)

/-- No message is in flight, and none has still to be handled. -/
def Quiet (r : Registration) : Prop := r.calls = [] ∧ r.messages = [] ∧ r.queue = []

/-- The call that a step makes on the status of a game server that does not
change meanwhile. -/
def stepCall (iface : GameServerId) (gameServer : GameServer) : TrackStep → Option StatusCall
  | .read question => some (question.answer gameServer)
  | .connectMapChanged => some (.connect iface)
  | _ => none

theorem trackGameServer_steps (h : Host) (st : ServerStatus) (iface : GameServerId)
    (gameServer : GameServer) :
    st.trackGameServer h iface gameServer =
      st.callAll h (trackSteps.filterMap (stepCall iface gameServer)) := rfl

/-! ## What an event does -/

inductive Effect (h : Host) (r : Registration) : RegistrationEvent → Registration → Prop
  | changedMap (map : String) :
      Effect h r (.changeMap map)
        ({ r with gameServer := { r.gameServer with map := map } }.send (.mapChanged map))
  | signalled (conVarName newValue : String) (watched : .watchConVar conVarName ∈ r.handled) :
      Effect h r (.changeConVar conVarName newValue)
        ({ r with gameServer := { r.gameServer with
          getConVarValue := Function.update r.gameServer.getConVarValue conVarName newValue } }.send
          (.conVarChanged conVarName newValue))
  | unsignalled (conVarName newValue : String) (unwatched : .watchConVar conVarName ∉ r.handled) :
      Effect h r (.changeConVar conVarName newValue)
        { r with gameServer := { r.gameServer with
          getConVarValue := Function.update r.gameServer.getConVarValue conVarName newValue } }
  | handled (call : GameServerCall) (calls : List GameServerCall) (first : r.calls = call :: calls) :
      Effect h r .handleCall ({ r with calls := calls, handled := r.handled ++ [call] }.send
        (call.reply r.gameServer))
  | answered (call : StatusCall) (messages : List Message)
      (first : r.messages = .reply call :: messages) :
      Effect h r .receive
        (proceed { r with messages := messages, status := r.status.call h call } r.rest)
  | queued (message : Message) (messages : List Message) (first : r.messages = message :: messages)
      (signal : message.replyCall = none) (hears : r.hears message = true) :
      Effect h r .receive { r with messages := messages, queue := r.queue ++ [message] }
  | dropped (message : Message) (messages : List Message) (first : r.messages = message :: messages)
      (signal : message.replyCall = none) (deaf : r.hears message = false) :
      Effect h r .receive { r with messages := messages }
  | slot (message : Message) (queue : List Message) (first : r.queue = message :: queue)
      (returned : r.waiting = false) :
      Effect h r .handleSignal
        { r with queue := queue, status := r.status.callAll h message.slotCall.toList }

theorem step_effect {h : Host} {r u : Registration} {e : RegistrationEvent}
    (hu : r.step h e = some u) : Effect h r e u := by
  cases e with
  | changeMap map =>
    obtain rfl := Option.some.inj hu
    exact .changedMap map
  | changeConVar conVarName newValue =>
    obtain rfl := Option.some.inj hu
    by_cases watched : .watchConVar conVarName ∈ r.handled
    · rw [if_pos watched]
      exact .signalled conVarName newValue watched
    · rw [if_neg watched]
      exact .unsignalled conVarName newValue watched
  | handleCall =>
    unfold step at hu
    cases first : r.calls with
    | nil =>
      rw [first] at hu
      cases hu
    | cons call calls =>
      rw [first] at hu
      obtain rfl := Option.some.inj hu
      exact .handled call calls first
  | receive =>
    unfold step at hu
    cases first : r.messages with
    | nil =>
      rw [first] at hu
      cases hu
    | cons message messages =>
      rw [first] at hu
      cases message with
      | reply call =>
        obtain rfl := Option.some.inj hu
        exact .answered call messages first
      | _ =>
        obtain rfl := Option.some.inj hu
        split
        case isTrue hears => exact .queued _ messages first rfl hears
        case isFalse deaf => exact .dropped _ messages first rfl (Bool.eq_false_iff.mpr deaf)
  | handleSignal =>
    unfold step at hu
    cases first : r.queue with
    | nil =>
      rw [first] at hu
      cases hu
    | cons message queue =>
      rw [first] at hu
      dsimp only at hu
      cases waiting : r.waiting with
      | true =>
        rw [waiting, if_pos rfl] at hu
        cases hu
      | false =>
        rw [waiting, if_neg Bool.false_ne_true] at hu
        obtain rfl := Option.some.inj hu
        have slot := Effect.slot (h := h) message queue first waiting
        rwa [waiting] at slot

/-! ## Where the two are -/

def replies (r : Registration) : List StatusCall := r.messages.filterMap Message.replyCall

/-- The handler is some steps into its program, the game server some calls
behind it. While the handler waits, one read is not answered or its reply on the
way. What is queued has a slot. -/
structure Sound (r : Registration) : Prop where
  program : r.past ++ r.rest = trackSteps
  order : sentCalls r.past = r.handled ++ r.calls
  blocked : r.calls.countP GameServerCall.isRead + r.replies.length = if r.waiting then 1 else 0
  returned : r.waiting = false → r.rest = []
  heard : ∀ message ∈ r.queue, r.hears message = true

theorem sentCalls_cons (step : TrackStep) (steps : List TrackStep) :
    sentCalls (step :: steps) = step.call.toList ++ sentCalls steps := by
  unfold sentCalls
  cases call : step.call <;> simp [call]

theorem sentCalls_single (step : TrackStep) : sentCalls [step] = step.call.toList := by
  rw [sentCalls_cons]
  simp [sentCalls]

theorem sentCalls_append (xs ys : List TrackStep) :
    sentCalls (xs ++ ys) = sentCalls xs ++ sentCalls ys := List.filterMap_append

theorem reads_call (step : TrackStep) :
    step.call.toList.countP GameServerCall.isRead = if step.blocks then 1 else 0 := by
  cases step <;> rfl

/-- What the handler does before it blocks or returns. -/
theorem proceed_cases (r : Registration) (steps : List TrackStep) :
    ∃ now rest blocks, steps = now ++ rest ∧
      r.proceed steps = { r with
        past := r.past ++ now
        calls := r.calls ++ sentCalls now
        rest := rest
        waiting := blocks } ∧
      (sentCalls now).countP GameServerCall.isRead = (if blocks then 1 else 0) ∧
      (blocks = false → rest = []) := by
  induction steps generalizing r with
  | nil => exact ⟨[], [], false, rfl, by simp [proceed, sentCalls], rfl, fun _ => rfl⟩
  | cons step steps ih =>
    have reads := reads_call step
    unfold proceed
    cases blocks : step.blocks with
    | true =>
      rw [blocks, if_pos rfl] at reads
      refine ⟨[step], steps, true, rfl, ?_, ?_, nofun⟩
      · rw [if_pos rfl, ← sentCalls_single]
      · rw [sentCalls_single, reads, if_pos rfl]
    | false =>
      rw [blocks, if_neg Bool.false_ne_true] at reads
      obtain ⟨now, rest, more, rfl, moved, count, ended⟩ := ih
        { r with past := r.past ++ [step], calls := r.calls ++ step.call.toList }
      refine ⟨step :: now, rest, more, rfl, ?_, ?_, ended⟩
      · rw [if_neg Bool.false_ne_true, moved, sentCalls_cons]
        simp only [List.append_assoc, List.singleton_append]
      · rw [sentCalls_cons, List.countP_append, reads, count, Nat.zero_add]

variable {h : Host} {r r' : Registration} {e : RegistrationEvent}

theorem hears_later (now : List TrackStep) {message : Message} (hears : r.hears message = true)
    (past : r'.past = r.past ++ now) : r'.hears message = true := by
  cases message with
  | mapChanged | conVarChanged =>
    simp only [Registration.hears, decide_eq_true_eq] at hears ⊢
    rw [past]
    exact List.mem_append_left now hears
  | _ => cases hears

theorem proceed_sound {steps : List TrackStep} (program : r.past ++ steps = trackSteps)
    (order : sentCalls r.past = r.handled ++ r.calls)
    (idle : r.calls.countP GameServerCall.isRead + r.replies.length = 0)
    (heard : ∀ message ∈ r.queue, r.hears message = true) : Sound (r.proceed steps) := by
  obtain ⟨now, rest, blocks, rfl, moved, reads, ended⟩ := proceed_cases r steps
  rw [moved]
  exact {
    program := by rw [← program, List.append_assoc]
    order := by rw [sentCalls_append, order, List.append_assoc]
    blocked := by
      have same : r.calls.countP GameServerCall.isRead + (if blocks then 1 else 0) +
          r.replies.length = if blocks then 1 else 0 := by
        rw [Nat.add_right_comm, idle, Nat.zero_add]
      rw [List.countP_append, reads]
      exact same
    returned := ended
    heard := fun message queued => hears_later now (heard message queued) rfl }

theorem start_sound (gameServer : GameServer) (status : ServerStatus) :
    Sound (start gameServer status) := proceed_sound rfl rfl rfl nofun

theorem replies_send (message : Message) (r : Registration) :
    (r.send message).replies = r.replies ++ message.replyCall.toList := by
  unfold replies send
  rw [List.filterMap_append]
  cases reply : message.replyCall <;> simp [reply]

/-- A signal changes nothing about where the two are. -/
theorem Sound.send (hr : Sound r) {message : Message} (signal : message.replyCall = none) :
    Sound (r.send message) where
  program := hr.program
  order := hr.order
  blocked := by
    rw [replies_send, signal, Option.toList_none, List.append_nil]
    exact hr.blocked
  returned := hr.returned
  heard := hr.heard

theorem Sound.changed (hr : Sound r) (gameServer : GameServer) :
    Sound { r with gameServer := gameServer } :=
  ⟨hr.program, hr.order, hr.blocked, hr.returned, hr.heard⟩

theorem Sound.arrived (hr : Sound r) {message : Message} {messages queue : List Message}
    (first : r.messages = message :: messages) (signal : message.replyCall = none)
    (heard : ∀ other ∈ queue, r.hears other = true) :
    Sound { r with messages := messages, queue := queue } := by
  have blocked : r.calls.countP GameServerCall.isRead +
      (messages.filterMap Message.replyCall).length = if r.waiting then 1 else 0 := by
    rw [← hr.blocked, replies, first, List.filterMap_cons_none signal]
  exact ⟨hr.program, hr.order, blocked, hr.returned, heard⟩

theorem step_sound (hr : Sound r) (hu : r.step h e = some r') : Sound r' := by
  cases step_effect hu with
  | changedMap map => exact (hr.changed _).send rfl
  | signalled conVarName newValue => exact (hr.changed _).send rfl
  | unsignalled conVarName newValue => exact hr.changed _
  | handled call calls first =>
    have order : sentCalls r.past = r.handled ++ [call] ++ calls := by
      rw [hr.order, first, List.append_assoc, List.singleton_append]
    have answers : (call.reply r.gameServer).replyCall.toList.length =
        if call.isRead then 1 else 0 := by cases call <;> rfl
    have blocked : calls.countP GameServerCall.isRead +
        (r.replies ++ (call.reply r.gameServer).replyCall.toList).length =
          if r.waiting then 1 else 0 := by
      rw [← hr.blocked, first, List.countP_cons, List.length_append, answers]
      omega
    exact ⟨hr.program, order, (congrArg _ (congrArg _ (replies_send _ _))).trans blocked,
      hr.returned, hr.heard⟩
  | answered call messages first =>
    have replies : r.replies = call :: messages.filterMap Message.replyCall := by
      rw [Registration.replies, first]
      rfl
    have idle : r.calls.countP GameServerCall.isRead +
        (messages.filterMap Message.replyCall).length = 0 := by
      have blocked := hr.blocked
      rw [replies, List.length_cons] at blocked
      split at blocked <;> omega
    exact proceed_sound hr.program hr.order idle hr.heard
  | queued message messages first signal hears =>
    refine hr.arrived first signal ?_
    intro other there
    rcases List.mem_append.mp there with there | there
    · exact hr.heard other there
    · rw [List.mem_singleton.mp there]
      exact hears
  | dropped message messages first signal => exact hr.arrived first signal hr.heard
  | slot message queue first =>
    have heard : ∀ other ∈ queue, r.hears other = true :=
      fun other there => hr.heard other (first ▸ List.mem_cons_of_mem message there)
    exact ⟨hr.program, hr.order, hr.blocked, hr.returned, heard⟩

theorem run_sound {gameServer : GameServer} {status : ServerStatus} {es : List RegistrationEvent}
    (hrun : run h (start gameServer status) es = some r) : Sound r := by
  have kept : ∀ r e r', Sound r → step h r e = some r' → Sound r' := fun _ _ _ => step_sound
  exact Machine.run_invariant kept (start_sound gameServer status) hrun

/-- With no message in flight, the handler has returned, and the game server has
handled all its calls. -/
theorem Sound.quiet (hr : Sound r) (quiet : r.Quiet) :
    r.waiting = false ∧ r.handled = sentCalls trackSteps := by
  obtain ⟨calls, messages, -⟩ := quiet
  have blocked := hr.blocked
  rw [calls, replies, messages] at blocked
  have returned : r.waiting = false := by
    cases waiting : r.waiting with
    | true =>
      rw [waiting] at blocked
      cases blocked
    | false => rfl
  have program := hr.program
  have order := hr.order
  rw [hr.returned returned, List.append_nil] at program
  rw [program, calls, List.append_nil] at order
  exact ⟨returned, order.symm⟩

/-! ## The order of the steps -/

theorem watched_before_read : ∀ before, before <+: sentCalls trackSteps →
    (.read .hostname ∈ before → .watchConVar "hostname" ∈ before) ∧
    (.read .password ∈ before → .watchConVar "sv_password" ∈ before) ∧
    (.read .stvPassword ∈ before → .watchConVar "tv_password" ∈ before) := by
  simp only [← List.mem_inits]
  decide

theorem connected_before_read : ∀ past, past <+: trackSteps →
    .read .map ∈ sentCalls past → .connectMapChanged ∈ past := by
  simp only [← List.mem_inits]
  decide

theorem connected_before_watch : ∀ past, past <+: trackSteps →
    (sentCalls past).all GameServerCall.isRead = false → .connectConVarChanged ∈ past := by
  simp only [← List.mem_inits]
  decide

variable {h : Host} {r r' : Registration} {e : RegistrationEvent}

theorem Sound.past_prefix (hr : Sound r) : r.past <+: trackSteps := ⟨r.rest, hr.program⟩

theorem Sound.handled_sent (hr : Sound r) {call : GameServerCall} (there : call ∈ r.handled) :
    call ∈ sentCalls r.past := by
  rw [hr.order]
  exact List.mem_append_left _ there

theorem Sound.handled_prefix (hr : Sound r) : r.handled <+: sentCalls trackSteps := by
  have sent : r.handled <+: sentCalls r.past := ⟨r.calls, hr.order.symm⟩
  rw [← hr.program, sentCalls_append]
  exact sent.trans (List.prefix_append _ _)

/-- A convar that is watched has a slot. -/
theorem Sound.hears_watched (hr : Sound r) {conVarName : String}
    (watched : .watchConVar conVarName ∈ r.handled) (newValue : String) :
    r.hears (.conVarChanged conVarName newValue) = true := by
  have asked : (sentCalls r.past).all GameServerCall.isRead = false := by
    rw [List.all_eq_false]
    exact ⟨_, hr.handled_sent watched, nofun⟩
  exact decide_eq_true (connected_before_watch r.past hr.past_prefix asked)

end Registration

end Morgoth
