import Morgoth.Registration

/-!
# What the status shows of a registration

Values are read while they change, and a signal that was sent before a reply is
handled after it. The signals that are still ahead of the status end with the
value that the game server has now, so that an old one never stays.

* `step_current`: the last signal ahead carries the current value;
* `step_texts`, `step_stvPort`: what the status will show once everything is
  handled;
* `quiet_shows`: what it shows when no message is in flight.
-/

namespace Morgoth

/-- What the game server signals a change of. -/
inductive Source
  | map
  | conVar (conVarName : String)
  deriving DecidableEq, Repr

def Source.value : Source → GameServer → String
  | .map, gameServer => gameServer.map
  | .conVar conVarName, gameServer => gameServer.getConVarValue conVarName

/-- The value that a signal carries. -/
def Message.note : Source → Message → Option String
  | .map, .mapChanged map => some map
  | .conVar conVarName, .conVarChanged name newValue =>
    if name = conVarName then some newValue else none
  | _, _ => none

/-- The value of `tv_port` that a message reports. -/
def Message.tvPort : Message → Option String
  | .reply (.setStvPortFromString stvPortString) => some stvPortString
  | .conVarChanged conVarName newValue => if conVarName = "tv_port" then some newValue else none
  | _ => none

/-- What the handler reads a text with. -/
def ServerStatus.TextField.question : TextField → Question
  | .map => .map
  | .hostname => .hostname
  | .password => .password
  | .stvPassword => .stvPassword

def ServerStatus.TextField.source : TextField → Source
  | .map => .map
  | .hostname => .conVar "hostname"
  | .password => .conVar "sv_password"
  | .stvPassword => .conVar "tv_password"

namespace Registration

open ServerStatus (Field TextField)

/-- The values that the signals ahead of the status carry. -/
def notes (r : Registration) (source : Source) : List String :=
  (r.queue ++ r.messages).filterMap (Message.note source)

/-- Nothing is signalled of a convar that is not watched, and what is signalled
last is the current value. -/
structure Current (r : Registration) : Prop where
  unwatched : ∀ conVarName, .watchConVar conVarName ∉ r.handled → r.notes (.conVar conVarName) = []
  latest : ∀ source value, (r.notes source).getLast? = some value →
    value = source.value r.gameServer

variable {h : Host} {r r' : Registration} {e : RegistrationEvent}

theorem notes_send (message : Message) (r : Registration) (source : Source) :
    (r.send message).notes source = r.notes source ++ (message.note source).toList := by
  unfold notes send
  rw [← List.append_assoc, List.filterMap_append]
  cases note : message.note source <;> simp [note]

/-- Signals may be handled or lost, oldest first. -/
theorem Current.fewer (hr : Current r) (same : r'.gameServer = r.gameServer)
    (handled : r'.handled = r.handled) (fewer : ∀ source, r'.notes source <:+ r.notes source) :
    Current r' where
  unwatched conVarName unwatched := by
    rw [handled] at unwatched
    exact List.suffix_nil.mp (hr.unwatched conVarName unwatched ▸ fewer _)
  latest source value last := by
    rw [same]
    obtain ⟨older, split⟩ := fewer source
    apply hr.latest
    rw [← split, List.getLast?_append, last]
    rfl

/-- A message carries the current value, and where it carries none the value is
the one it was. -/
theorem Current.send (hr : Current r) {message : Message}
    (same : ∀ source, r'.notes source = r.notes source)
    (unwatched : ∀ conVarName, .watchConVar conVarName ∉ r'.handled →
      .watchConVar conVarName ∉ r.handled ∧ message.note (.conVar conVarName) = none)
    (carried : ∀ source value, message.note source = some value →
      value = source.value r'.gameServer)
    (kept : ∀ source, message.note source = none →
      source.value r'.gameServer = source.value r.gameServer) : Current (r'.send message) where
  unwatched conVarName now := by
    obtain ⟨before, silent⟩ := unwatched conVarName now
    rw [notes_send, same, hr.unwatched conVarName before, silent]
    rfl
  latest source value last := by
    rw [notes_send, same] at last
    cases note : message.note source with
    | none =>
      rw [note, Option.toList_none, List.append_nil] at last
      exact (hr.latest source value last).trans (kept source note).symm
    | some value' =>
      rw [note, List.getLast?_append] at last
      exact carried source value (note.trans last)

theorem start_current (gameServer : GameServer) (status : ServerStatus) :
    Current (start gameServer status) where
  unwatched _ _ := rfl
  latest _ _ last := by cases last

theorem proceed_frame (r : Registration) (steps : List TrackStep) :
    (r.proceed steps).gameServer = r.gameServer ∧ (r.proceed steps).handled = r.handled ∧
    (r.proceed steps).sent = r.sent ∧ (r.proceed steps).messages = r.messages ∧
    (r.proceed steps).queue = r.queue ∧ (r.proceed steps).status = r.status := by
  obtain ⟨now, rest, blocks, -, moved, -, -⟩ := proceed_cases r steps
  rw [moved]
  exact ⟨rfl, rfl, rfl, rfl, rfl, rfl⟩

theorem note_reply (source : Source) (call : StatusCall) :
    (Message.reply call).note source = none := by
  cases source <;> rfl

theorem note_here (conVarName newValue : String) :
    (Message.conVarChanged conVarName newValue).note (.conVar conVarName) = some newValue :=
  if_pos rfl

theorem note_elsewhere {source : Source} {conVarName : String} (other : source ≠ .conVar conVarName)
    (newValue : String) : (Message.conVarChanged conVarName newValue).note source = none := by
  cases source with
  | map => rfl
  | conVar name => exact if_neg fun same => other (congrArg Source.conVar same.symm)

theorem value_elsewhere {source : Source} {conVarName : String} (other : source ≠ .conVar conVarName)
    (newValue : String) (gameServer : GameServer) :
    source.value { gameServer with
      getConVarValue := Function.update gameServer.getConVarValue conVarName newValue } =
      source.value gameServer := by
  cases source with
  | map => rfl
  | conVar name =>
    exact Function.update_of_ne (fun same => other (congrArg Source.conVar same)) _ _

/-- Signals of one source have a slot, or none of them has. -/
theorem hears_note {source : Source} {message other : Message} {value value' : String}
    (note : message.note source = some value) (noted : other.note source = some value') :
    r.hears message = r.hears other := by
  cases source with
  | map =>
    cases message with
    | mapChanged =>
      cases other with
      | mapChanged => rfl
      | _ => cases noted
    | _ => cases note
  | conVar =>
    cases message with
    | conVarChanged =>
      cases other with
      | conVarChanged => rfl
      | _ => cases noted
    | _ => cases note

/-- A signal that nobody hears is the oldest of its kind. -/
theorem notes_dropped (hr : Sound r) {message : Message} {messages : List Message}
    (first : r.messages = message :: messages) (deaf : r.hears message = false) (source : Source) :
    (r.queue ++ messages).filterMap (Message.note source) <:+ r.notes source := by
  unfold notes
  rw [first, List.filterMap_append, List.filterMap_append]
  cases note : message.note source with
  | none =>
    rw [List.filterMap_cons_none note]
  | some value =>
    have none_queued : r.queue.filterMap (Message.note source) = [] := by
      apply List.filterMap_eq_nil_iff.mpr
      intro other queued
      cases noted : other.note source with
      | none => rfl
      | some _ =>
        have heard := hr.heard other queued
        rw [← hears_note note noted, deaf] at heard
        cases heard
    rw [none_queued, List.filterMap_cons_some note]
    exact List.suffix_cons _ _

/-- The values that the game server has are the last that it signals. -/
theorem step_current (hs : Sound r) (hr : Current r) (hu : r.step h e = some r') : Current r' := by
  cases step_effect hu with
  | changedMap map =>
    refine hr.send (fun _ => rfl) (fun _ unwatched => ⟨unwatched, rfl⟩) ?_ ?_
    · intro source value note
      cases source with
      | map => exact (Option.some.inj note).symm
      | conVar => cases note
    · intro source silent
      cases source with
      | map => cases silent
      | conVar => rfl
  | signalled conVarName newValue watched =>
    refine hr.send (fun _ => rfl) ?_ ?_ ?_
    · intro name unwatched
      have other : conVarName ≠ name := fun same => unwatched (same ▸ watched)
      exact ⟨unwatched, if_neg other⟩
    · intro source value note
      by_cases here : source = .conVar conVarName
      · subst here
        rw [note_here] at note
        rw [← Option.some.inj note]
        exact (Function.update_self conVarName newValue r.gameServer.getConVarValue).symm
      · rw [note_elsewhere here] at note
        cases note
    · intro source silent
      have other : source ≠ .conVar conVarName := by
        rintro rfl
        rw [note_here] at silent
        cases silent
      exact value_elsewhere other newValue r.gameServer
  | unsignalled conVarName newValue unwatched =>
    refine ⟨hr.unwatched, ?_⟩
    intro source value last
    have other : source ≠ .conVar conVarName := by
      rintro rfl
      have last' : (r.notes (.conVar conVarName)).getLast? = some value := last
      rw [hr.unwatched conVarName unwatched] at last'
      cases last'
    rw [hr.latest source value last]
    exact (value_elsewhere other newValue r.gameServer).symm
  | handled call calls first =>
    have silent (source : Source) : (call.reply r.gameServer).note source = none := by
      cases call <;> cases source <;> rfl
    refine hr.send (fun _ => rfl) ?_ ?_ fun _ _ => rfl
    · intro conVarName unwatched
      exact ⟨fun watched => unwatched (List.mem_append_left [call] watched), silent _⟩
    · intro source value note
      rw [silent] at note
      cases note
  | answered call messages first =>
    obtain ⟨gameServer, handled, -, ahead, queue, -⟩ := proceed_frame
      { r with messages := messages, status := r.status.call h call } r.rest
    refine hr.fewer gameServer handled ?_
    intro source
    unfold notes
    rw [ahead, queue, first]
    rw [List.filterMap_append, List.filterMap_append,
      List.filterMap_cons_none (note_reply source call)]
  | queued message messages first =>
    refine hr.fewer rfl rfl ?_
    intro source
    unfold notes
    rw [first]
    simp
  | dropped message messages first _ deaf =>
    exact hr.fewer rfl rfl (notes_dropped hs first deaf)
  | slot message queue first =>
    refine hr.fewer rfl rfl ?_
    intro source
    unfold notes
    rw [first, List.cons_append]
    exact (List.suffix_cons _ _).filterMap _

/-! ## What is ahead of the status -/

/-- The reply that the handler waits for comes first, and the signals wait until
it has returned. -/
def ahead (r : Registration) : List StatusCall :=
  r.replies ++ (r.queue ++ r.messages).filterMap Message.slotCall

/-- The status once everything that is on its way has been handled. -/
def settled (h : Host) (r : Registration) : ServerStatus := r.status.callAll h r.ahead

theorem settled_signal {message : Message} (signal : message.replyCall = none) (r : Registration) :
    (r.send message).settled h = (r.settled h).callAll h message.slotCall.toList := by
  have later : (r.send message).ahead = r.ahead ++ message.slotCall.toList := by
    unfold ahead
    rw [replies_send, signal, Option.toList_none, List.append_nil, send, ← List.append_assoc,
      List.filterMap_append, List.append_assoc]
    cases slot : message.slotCall <;> simp [slot]
  unfold settled
  rw [later, ServerStatus.callAll_append]
  rfl

theorem settled_answered {call : StatusCall} {messages : List Message}
    (first : r.messages = .reply call :: messages) :
    (proceed { r with messages := messages, status := r.status.call h call } r.rest).settled h =
      r.settled h := by
  obtain ⟨-, -, -, same, queue, status⟩ := proceed_frame
    { r with messages := messages, status := r.status.call h call } r.rest
  have before : r.ahead = call :: (messages.filterMap Message.replyCall ++
      (r.queue ++ messages).filterMap Message.slotCall) := by
    unfold ahead replies
    rw [first, List.filterMap_append, List.filterMap_append]
    rfl
  unfold settled
  rw [status, before, ahead, replies, same, queue]
  rfl

theorem settled_queued {message : Message} {messages : List Message}
    (first : r.messages = message :: messages) (signal : message.replyCall = none) :
    settled h { r with messages := messages, queue := r.queue ++ [message] } = r.settled h := by
  unfold settled ahead replies
  rw [first, List.filterMap_cons_none signal, List.append_assoc, List.singleton_append]

theorem settled_slot (hr : Sound r) {message : Message} {queue : List Message}
    (first : r.queue = message :: queue) (returned : r.waiting = false) :
    settled h { r with queue := queue, status := r.status.callAll h message.slotCall.toList } =
      r.settled h := by
  have answered : r.replies = [] := by
    have blocked := hr.blocked
    rw [returned, if_neg Bool.false_ne_true] at blocked
    exact List.eq_nil_of_length_eq_zero (Nat.eq_zero_of_add_eq_zero_left blocked)
  have before : r.ahead = message.slotCall.toList ++
      (queue ++ r.messages).filterMap Message.slotCall := by
    unfold ahead
    rw [answered, first]
    cases slot : message.slotCall <;> simp [slot]
  have later (status : ServerStatus) : ahead { r with queue := queue, status := status } =
      (queue ++ r.messages).filterMap Message.slotCall := by
    have same : replies { r with queue := queue, status := status } = r.replies := rfl
    unfold ahead
    rw [same, answered, List.nil_append]
  unfold settled
  rw [before, later, ServerStatus.callAll_append]

/-! ## Columns -/

/-- A published field that follows a value of the game server: the question and
the signals that it comes from, and how its text is read. -/
structure Column (h : Host) (α : Type) where
  field : Field h α
  question : Question
  source : Source
  parse : String → Option α
  slot : ∀ message : Message,
    message.slotCall.bind field.writes = (message.note source).bind parse
  answer : ∀ (question' : Question) (gameServer : GameServer),
    field.writes (question'.answer gameServer) =
      if question' = question then parse (source.value gameServer) else none

variable {α : Type}

def Column.shown (column : Column h α) (r : Registration) : α :=
  column.field.read (r.settled h)

/-- What is ahead of a field: the replies, then the signals. -/
theorem Column.shown_eq (column : Column h α) (r : Registration) :
    column.shown r =
      ((r.replies.filterMap column.field.writes ++
        (r.notes column.source).filterMap column.parse).getLast?).getD
          (column.field.read r.status) := by
  have signals : ((r.queue ++ r.messages).filterMap Message.slotCall).filterMap
      column.field.writes = (r.notes column.source).filterMap column.parse := by
    unfold notes
    rw [List.filterMap_filterMap, List.filterMap_filterMap]
    exact congrArg (List.filterMap · _) (funext column.slot)
  unfold shown settled ahead
  rw [column.field.read_calls, List.filterMap_append, signals]

theorem Column.shown_signal (column : Column h α) {message : Message}
    (signal : message.replyCall = none) (r : Registration) :
    column.shown (r.send message) =
      ((message.note column.source).bind column.parse).getD (column.shown r) := by
  unfold shown
  rw [settled_signal signal, column.field.read_calls, ← column.slot]
  cases slot : message.slotCall with
  | none => rfl
  | some call =>
    cases written : column.field.writes call <;> simp [written]

theorem getLast?_insert {α : Type} {xs ys : List α} {value : α}
    (same : ∀ last, ys.getLast? = some last → last = value) :
    (xs ++ [value] ++ ys).getLast? = some value := by
  rw [List.getLast?_append]
  cases last : ys.getLast? with
  | none => rw [Option.none_or, List.getLast?_concat]
  | some other => rw [same other last, Option.some_or]

/-- The signals that are ahead end with a value that is current, if it can be read. -/
theorem Column.latest (column : Column h α)
    (latest : ∀ value, (r.notes column.source).getLast? = some value →
      value = column.source.value r.gameServer) {value : α}
    (parsed : column.parse (column.source.value r.gameServer) = some value) (last : α)
    (there : ((r.notes column.source).filterMap column.parse).getLast? = some last) :
    last = value := by
  rcases List.eq_nil_or_concat (r.notes column.source) with none_ahead | ⟨older, text, split⟩
  · rw [none_ahead] at there
    cases there
  · have current : text = column.source.value r.gameServer := by
      apply latest
      rw [split, List.concat_eq_append, List.getLast?_concat]
    rw [split, List.concat_eq_append, List.filterMap_append,
      List.filterMap_cons_some (current ▸ parsed), List.filterMap_nil, List.getLast?_concat] at there
    exact (Option.some.inj there).symm

/-- The answer to a question is current, and so is what the signals that it
overtakes end with. -/
theorem Column.shown_answer (column : Column h α)
    (latest : ∀ value, (r.notes column.source).getLast? = some value →
      value = column.source.value r.gameServer) (question : Question) :
    column.shown (r.send (.reply (question.answer r.gameServer))) =
      if question = column.question then
        (column.parse (column.source.value r.gameServer)).getD (column.shown r)
      else column.shown r := by
  have answers : (r.send (.reply (question.answer r.gameServer))).replies.filterMap
      column.field.writes = r.replies.filterMap column.field.writes ++
        (column.field.writes (question.answer r.gameServer)).toList := by
    rw [replies_send, List.filterMap_append]
    cases written : column.field.writes (question.answer r.gameServer) <;>
      simp [Message.replyCall, written]
  rw [column.shown_eq, column.shown_eq, notes_send, note_reply, Option.toList_none,
    List.append_nil, answers, column.answer]
  by_cases asked : question = column.question
  · rw [if_pos asked, if_pos asked]
    cases parsed : column.parse (column.source.value r.gameServer) with
    | none =>
      rw [Option.toList_none, List.append_nil]
      rfl
    | some value =>
      rw [Option.toList_some, getLast?_insert (column.latest latest parsed)]
      rfl
  · rw [if_neg asked, if_neg asked, Option.toList_none, List.append_nil]
    rfl

/-- The game server handles a call. -/
theorem Column.shown_handled (column : Column h α) (hr : Current r) (call : GameServerCall)
    (calls : List GameServerCall) :
    column.shown ({ r with calls := calls, handled := r.handled ++ [call] }.send
        (call.reply r.gameServer)) =
      if call = .read column.question then
        (column.parse (column.source.value r.gameServer)).getD (column.shown r)
      else column.shown r := by
  let r' : Registration := { r with calls := calls, handled := r.handled ++ [call] }
  cases call with
  | read question =>
    have answer := column.shown_answer (r := r') (hr.latest column.source) question
    refine answer.trans ?_
    by_cases asked : question = column.question
    · rw [if_pos asked, if_pos (congrArg _ asked)]
      rfl
    · rw [if_neg asked, if_neg fun same => asked (GameServerCall.read.inj same)]
      rfl
  | watchConVar conVarName =>
    have silent : Message.done.note column.source = none := by
      cases column.source <;> rfl
    have done : column.shown (r'.send .done) = column.shown r' := by
      rw [column.shown_signal rfl, silent]
      rfl
    rw [if_neg nofun]
    exact done

/-- A signal that is not of this column may be lost. -/
theorem Column.shown_dropped (column : Column h α) {message : Message} {messages : List Message}
    (first : r.messages = message :: messages) (signal : message.replyCall = none)
    (silent : message.note column.source = none) :
    column.shown { r with messages := messages } = column.shown r := by
  have replies : r.replies = messages.filterMap Message.replyCall := by
    rw [Registration.replies, first, List.filterMap_cons_none signal]
  have notes : r.notes column.source =
      (r.queue ++ messages).filterMap (Message.note column.source) := by
    rw [Registration.notes, first, List.filterMap_append, List.filterMap_append,
      List.filterMap_cons_none silent]
  rw [column.shown_eq, column.shown_eq, replies, notes]
  rfl

/-- The game server does not take part in what arrives. -/
theorem arrival_frame (arrival : e = .receive ∨ e = .handleSignal) (hu : r.step h e = some r') :
    r'.gameServer = r.gameServer ∧ r'.handled = r.handled ∧ r'.sent = r.sent := by
  cases step_effect hu with
  | answered call messages first =>
    obtain ⟨gameServer, handled, sent, -⟩ := proceed_frame
      { r with messages := messages, status := r.status.call h call } r.rest
    exact ⟨gameServer, handled, sent⟩
  | queued | dropped | slot => exact ⟨rfl, rfl, rfl⟩
  | _ => simp at arrival

/-- What arrives was on its way, so that a column will show the same, if no
change of it is lost. -/
theorem Column.shown_arrived (column : Column h α) (hs : Sound r)
    (arrival : e = .receive ∨ e = .handleSignal) (hu : r.step h e = some r')
    (heard : ∀ message ∈ r.messages, ∀ value, message.note column.source = some value →
      r.hears message = true) : column.shown r' = column.shown r := by
  cases step_effect hu with
  | answered call messages first => exact congrArg column.field.read (settled_answered first)
  | queued message messages first signal =>
    exact congrArg column.field.read (settled_queued first signal)
  | dropped message messages first signal deaf =>
    have silent : message.note column.source = none := by
      cases note : message.note column.source with
      | none => rfl
      | some value =>
        rw [heard message (first ▸ List.mem_cons_self) value note] at deaf
        cases deaf
    exact column.shown_dropped first signal silent
  | slot message queue first returned =>
    exact congrArg column.field.read (settled_slot hs first returned)
  | _ => simp at arrival

/-! ## The texts -/

def Column.text (h : Host) (x : TextField) : Column h String where
  field := .text h x
  question := x.question
  source := x.source
  parse := some
  slot message := by
    cases message with
    | conVarChanged conVarName newValue =>
      simp only [Message.slotCall, ServerStatus.conVarCall]
      cases x <;> split_ifs <;> simp_all [Field.text, TextField.writes,
        Message.note, TextField.source]
    | _ => cases x <;> rfl
  answer question' gameServer := by cases x <;> cases question' <;> rfl

/-- From the read on, a text is the game server's once everything is handled. -/
def Texts (h : Host) (r : Registration) : Prop :=
  ∀ x, .read x.question ∈ r.handled →
    (Column.text h x).shown r = x.source.value r.gameServer

theorem Sound.watched (hs : Sound r) {x : TextField} {conVarName : String}
    (read : .read x.question ∈ r.handled)
    (here : x.source = .conVar conVarName) : .watchConVar conVarName ∈ r.handled := by
  obtain ⟨hostname, password, stvPassword⟩ := watched_before_read r.handled hs.handled_prefix
  cases x with
  | map => cases here
  | hostname => exact Source.conVar.inj here ▸ hostname read
  | password => exact Source.conVar.inj here ▸ password read
  | stvPassword => exact Source.conVar.inj here ▸ stvPassword read

/-- A change of a convar is heard, for it would not be signalled before the handler has asked. -/
theorem Sound.heard_conVar (hs : Sound r) (hr : Current r) {message : Message}
    (there : message ∈ r.messages) {conVarName value : String}
    (note : message.note (.conVar conVarName) = some value) : r.hears message = true := by
  have watched : .watchConVar conVarName ∈ r.handled := by
    by_contra unwatched
    have silent := List.filterMap_eq_nil_iff.mp (hr.unwatched conVarName unwatched) message
      (List.mem_append_right _ there)
    rw [note] at silent
    cases silent
  rw [← hs.hears_watched watched value]
  exact hears_note note (note_here conVarName value)

/-- A change of what has been read is heard. -/
theorem Sound.heard_after_read (hs : Sound r) (hr : Current r) {x : TextField}
    (read : .read x.question ∈ r.handled) {message : Message} (there : message ∈ r.messages)
    {value : String} (note : message.note x.source = some value) : r.hears message = true := by
  cases x with
  | map =>
    have heard : r.hears (.mapChanged value) = true :=
      decide_eq_true (connected_before_read r.past hs.past_prefix (hs.handled_sent read))
    have noted : (Message.mapChanged value).note .map = some value := rfl
    rw [← heard]
    exact hears_note note noted
  | _ => exact hs.heard_conVar hr there note

theorem step_texts (hs : Sound r) (hr : Current r) (ht : Texts h r)
    (hu : r.step h e = some r') : Texts h r' := by
  intro x read
  cases step_effect hu with
  | changedMap map =>
    rw [(Column.text h x).shown_signal rfl]
    cases x with
    | map => rfl
    | _ => exact ht _ read
  | signalled conVarName newValue watched =>
    rw [(Column.text h x).shown_signal rfl]
    by_cases here : x.source = .conVar conVarName
    · have note : (Message.conVarChanged conVarName newValue).note (Column.text h x).source =
          some newValue := by
        rw [show (Column.text h x).source = .conVar conVarName from here]
        exact note_here conVarName newValue
      rw [note, here]
      exact (Function.update_self conVarName newValue r.gameServer.getConVarValue).symm
    · have silent : (Message.conVarChanged conVarName newValue).note (Column.text h x).source =
          none := note_elsewhere here newValue
      rw [silent]
      exact (ht x read).trans (value_elsewhere here newValue r.gameServer).symm
  | unsignalled conVarName newValue unwatched =>
    have other : x.source ≠ .conVar conVarName :=
      fun here => unwatched (hs.watched read here)
    exact (ht x read).trans (value_elsewhere other newValue r.gameServer).symm
  | handled call calls first =>
    rw [(Column.text h x).shown_handled hr]
    by_cases asked : call = .read x.question
    · exact if_pos asked
    · rcases List.mem_append.mp read with earlier | now
      · exact (if_neg asked).trans (ht x earlier)
      · exact absurd (List.mem_singleton.mp now).symm asked
  | _ =>
    obtain ⟨gameServer, handled, -⟩ := arrival_frame (by simp) hu
    rw [handled] at read
    have shown := (Column.text h x).shown_arrived hs (by simp) hu
      fun message there value note => hs.heard_after_read hr read there note
    rw [shown, gameServer]
    exact ht x read

/-! ## The port -/

def Column.stvPort (h : Host) : Column h Int where
  field := .stvPort h
  question := .stvPort
  source := .conVar "tv_port"
  parse := toInt
  slot message := by
    cases message with
    | conVarChanged conVarName newValue =>
      simp only [Message.slotCall, ServerStatus.conVarCall]
      split_ifs <;> simp_all [Field.stvPort, Message.note]
    | _ => rfl
  answer question' gameServer := by cases question' <;> rfl

/-- The STV port of the last integer among the values that were reported. -/
def stvPortReported (before : Int) (r : Registration) : Int :=
  (((r.sent.filterMap Message.tvPort).filterMap toInt).getLast?).getD before

theorem stvPortReported_send (before : Int) (message : Message) (r : Registration) :
    stvPortReported before (r.send message) =
      (message.tvPort.bind toInt).getD (stvPortReported before r) := by
  unfold stvPortReported send
  rw [List.filterMap_append, List.filterMap_append]
  cases reported : message.tvPort with
  | none => simp [reported]
  | some value => cases parsed : toInt value <;> simp [reported, parsed]

theorem tvPort_signal {message : Message} (signal : message.replyCall = none) :
    message.tvPort = message.note (.conVar "tv_port") := by
  cases message with
  | reply => cases signal
  | _ => rfl

theorem tvPort_answer (gameServer : GameServer) (call : GameServerCall) :
    (call.reply gameServer).tvPort =
      if call = .read .stvPort then some (gameServer.getConVarValue "tv_port") else none := by
  cases call with
  | read question => cases question <;> rfl
  | watchConVar => rfl

theorem step_stvPort (hs : Sound r) (hr : Current r) {before : Int}
    (hp : (Column.stvPort h).shown r = stvPortReported before r)
    (hu : r.step h e = some r') : (Column.stvPort h).shown r' = stvPortReported before r' := by
  have signalled (gameServer : GameServer) {message : Message} (signal : message.replyCall = none) :
      (Column.stvPort h).shown (send message { r with gameServer := gameServer }) =
        stvPortReported before (send message { r with gameServer := gameServer }) := by
    rw [(Column.stvPort h).shown_signal signal, stvPortReported_send, tvPort_signal signal]
    exact congrArg _ hp
  cases step_effect hu with
  | changedMap map => exact signalled _ rfl
  | signalled conVarName newValue watched => exact signalled _ rfl
  | unsignalled conVarName newValue unwatched => exact hp
  | handled call calls first =>
    rw [(Column.stvPort h).shown_handled hr, stvPortReported_send, tvPort_answer, hp]
    by_cases asked : call = .read .stvPort
    · rw [if_pos asked]
      exact if_pos asked
    · rw [if_neg asked]
      exact if_neg asked
  | _ =>
    obtain ⟨-, -, sent⟩ := arrival_frame (by simp) hu
    have shown := (Column.stvPort h).shown_arrived hs (by simp) hu
      fun message there value note => hs.heard_conVar hr there note
    rw [shown, stvPortReported, sent]
    exact hp

/-! ## Runs -/

variable {gameServer : GameServer} {status : ServerStatus} {es : List RegistrationEvent}

theorem run_shows (hrun : run h (start gameServer status) es = some r) :
    Texts h r ∧ (Column.stvPort h).shown r = stvPortReported status.d.stvPort r := by
  let Kept (r : Registration) : Prop := Sound r ∧ Current r ∧ Texts h r ∧
    (Column.stvPort h).shown r = stvPortReported status.d.stvPort r
  have begun : Kept (start gameServer status) :=
    ⟨start_sound gameServer status, start_current gameServer status, nofun, rfl⟩
  have kept : ∀ r e r', Kept r → r.step h e = some r' → Kept r' := by
    rintro r e r' ⟨hs, hr, ht, hp⟩ hu
    exact ⟨step_sound hs hu, step_current hs hr hu, step_texts hs hr ht hu, step_stvPort hs hr hp hu⟩
  obtain ⟨-, -, texts, stvPort⟩ := Machine.run_invariant kept begun hrun
  exact ⟨texts, stvPort⟩

theorem settled_quiet (quiet : r.Quiet) : r.settled h = r.status := by
  obtain ⟨-, messages, queue⟩ := quiet
  unfold settled ahead replies
  rw [messages, queue]
  rfl

/-- Whatever changed while the handler was reading, the status follows. -/
theorem quiet_shows (hrun : run h (start gameServer status) es = some r) (quiet : r.Quiet) :
    r.status.d.hostname = r.gameServer.getConVarValue "hostname" ∧
    r.status.d.password = r.gameServer.getConVarValue "sv_password" ∧
    r.status.d.stvPassword = r.gameServer.getConVarValue "tv_password" ∧
    r.status.d.map = r.gameServer.map ∧
    r.status.d.stvPort = stvPortReported status.d.stvPort r := by
  obtain ⟨texts, stvPort⟩ := run_shows hrun
  obtain ⟨-, handled⟩ := (run_sound hrun).quiet quiet
  have settled : r.settled h = r.status := settled_quiet quiet
  have text (x : TextField) (sent : .read x.question ∈ sentCalls trackSteps) :
      x.read r.status = x.source.value r.gameServer := by
    rw [← handled] at sent
    rw [← texts x sent, Column.shown, settled]
    rfl
  refine ⟨text .hostname (by decide), text .password (by decide), text .stvPassword (by decide),
    text .map (by decide), ?_⟩
  rw [← stvPort, Column.shown, settled]
  rfl

/-- The host is named while its name is being read. -/
theorem quiet_shows_racing :
    let es : List RegistrationEvent :=
      [.handleCall, .receive, .handleCall, .receive, .handleCall, .receive, .handleCall,
        .changeConVar "hostname" "first", .handleCall, .changeConVar "hostname" "second",
        .receive, .receive, .receive, .receive, .handleCall, .handleCall, .receive, .receive,
        .handleCall, .handleCall, .receive, .receive, .handleCall, .handleCall, .receive,
        .receive, .handleSignal, .handleSignal]
    ∃ r, run .ideal (start .sample {}) es = some r ∧
      r.gameServer.getConVarValue "hostname" = "second" ∧
      r.status.d.hostname = r.gameServer.getConVarValue "hostname" := by
  intro es
  have racing : run .ideal (start .sample {}) es = some _ := rfl
  exact ⟨_, racing, rfl, (quiet_shows racing ⟨rfl, rfl, rfl⟩).1⟩

/-- The values of `tv_port`, from the registration on. -/
def tvPorts (gameServer : GameServer) (es : List RegistrationEvent) : List String :=
  gameServer.getConVarValue "tv_port" :: es.filterMap fun
    | .changeConVar conVarName newValue => if conVarName = "tv_port" then some newValue else none
    | _ => none

/-- SourceTV is turned off before the handler asks for its port. -/
theorem early_stvPort_missed :
    let gameServer : GameServer := { GameServer.sample with getConVarValue := fun _ => "27020" }
    let es : List RegistrationEvent :=
      [.changeConVar "tv_port" "", .handleCall, .receive, .handleCall, .receive, .handleCall,
        .receive, .handleCall, .handleCall, .receive, .receive, .handleCall, .handleCall, .receive,
        .receive, .handleCall, .handleCall, .receive, .receive, .handleCall, .handleCall, .receive,
        .receive]
    ∃ r, run .ideal (start gameServer {}) es = some r ∧ r.Quiet ∧ r.status.d.stvPort = 0 ∧
      ((tvPorts gameServer es).filterMap toInt).getLast? = some 27020 :=
  ⟨_, rfl, ⟨rfl, rfl, rfl⟩, rfl, by decide⟩

end Registration

end Morgoth
