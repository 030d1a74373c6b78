import Morgoth.Announced

/-!
# The stop command and the coordinator

The turn of `StopCommand::execute` for one server, and what happens to that
server meanwhile, in any order. The client reads over blocking calls; it asks
the bus for the signals and calls `stop()` without waiting for an answer, and
both requests arrive in order. A signal is sent to whoever has asked for it by
then.

* `waits_in_vain_iff`: where the server is up when it is asked for its signals,
  the client is never left waiting; where it is down, the client can be.
-/

namespace Morgoth

/-- What the client does next. -/
inductive StopClient
  | readState
  | readStateAgain
  | readPlayerCount
  | askUser
  | connect
  | callStop
  | waits
  | returned
  deriving DecidableEq

/-- The client reads, or has returned. -/
def StopClient.early : StopClient → Bool
  | .callStop | .waits => false
  | _ => true

inductive StopRequest
  | addMatch
  | stop
  deriving DecidableEq

/-- `signals` are those sent to the client that its event loop has not seen. -/
structure StopProtocol where
  server : Server
  client : StopClient := .readState
  requests : List StopRequest := []
  subscribed : Bool := false
  signals : List State := []

/-- `server` is anything that happens to the server without this client. -/
inductive StopEvent
  | server (event : ServerEvent)
  | client (answer : Char)
  | request
  | signal

namespace StopProtocol

/-- The server moves, and whoever has subscribed is told of its new states. -/
def moved (p : StopProtocol) (u : Server) : StopProtocol :=
  { p with
    server := u
    signals := if p.subscribed then p.signals ++ (Server.emitted p.server u).map Prod.fst
      else p.signals }

/-- `none` where the client waits, or has returned. -/
def act (p : StopProtocol) (answer : Char) : Option StopProtocol :=
  match p.client with
  | .readState =>
    some { p with client := if p.server.state = .offline then .returned else .readStateAgain }
  | .readStateAgain =>
    some { p with client := if p.server.state = .crashed then .returned else .readPlayerCount }
  | .readPlayerCount =>
    some { p with client := if 0 < p.server.status.d.playerCount then .askUser else .connect }
  | .askUser => some { p with client := if answer = 'y' then .connect else .returned }
  | .connect => some { p with client := .callStop, requests := p.requests ++ [.addMatch] }
  | .callStop => some { p with client := .waits, requests := p.requests ++ [.stop] }
  | .waits | .returned => none

def step (h : Host) (p : StopProtocol) : StopEvent → Option StopProtocol
  | .server event => (p.server.step h event).map p.moved
  | .client answer => p.act answer
  | .request =>
    match p.requests with
    | [] => none
    | .addMatch :: requests => some { p with requests := requests, subscribed := true }
    | .stop :: requests => some (moved { p with requests := requests } (p.server.stop h))
  | .signal =>
    match p.client, p.signals with
    | .waits, state :: signals =>
      some { p with
        client := if state = .offline ∨ state = .crashed then .returned else .waits
        signals := signals }
    | _, _ => none

abbrev run (h : Host) : StopProtocol → List StopEvent → Option StopProtocol := Machine.run (step h)

/-- The client waits, the server is down, and no message is in flight. -/
def WaitsInVain (p : StopProtocol) : Prop :=
  p.client = .waits ∧ p.server.state.live = false ∧ p.requests = [] ∧ p.signals = []

/-- The server is up when the client is about to hear of it. -/
def SubscribesUp (p : StopProtocol) : StopEvent → Prop
  | .request => p.requests.head? = some .addMatch → p.server.state.live = true
  | _ => True

/-! ## What every run keeps -/

/-- How far the client and its requests are. -/
inductive Stage : StopClient → List StopRequest → Bool → List State → Prop
  | early (client : StopClient) (before : client.early = true) : Stage client [] false []
  | connected : Stage .callStop [.addMatch] false []
  | called : Stage .waits [.addMatch, .stop] false []
  | subscribed (signals : List State) : Stage .callStop [] true signals
  | calledSubscribed (signals : List State) : Stage .waits [.stop] true signals
  | waits (signals : List State) : Stage .waits [] true signals
  | returned (requests : List StopRequest) (signals : List State)
      (left : requests = [] ∨ requests = [.stop]) : Stage .returned requests true signals

def InStage (p : StopProtocol) : Prop := Stage p.client p.requests p.subscribed p.signals

/-- Subscribed while the server was up, the client will hear of it going down. -/
def WillHear (p : StopProtocol) : Prop :=
  p.subscribed = true → p.client ≠ .returned →
    p.server.state.live = true ∨ ∃ state ∈ p.signals, state.live = false

variable {h : Host} {p u : StopProtocol}

theorem not_live_iff (state : State) : state.live = false ↔ state = .offline ∨ state = .crashed := by
  cases state <;> simp [State.live]

theorem moved_inStage (hp : p.InStage) (t : Server) : (p.moved t).InStage := by
  unfold InStage moved at *
  cases unheard : p.subscribed with
  | false =>
    rw [unheard] at hp
    exact hp
  | true =>
    rw [unheard] at hp
    simp only [if_true]
    generalize p.signals ++ _ = signals
    generalize p.client = client at hp
    generalize p.requests = requests at hp
    cases hp with
    | subscribed => exact .subscribed signals
    | calledSubscribed => exact .calledSubscribed signals
    | waits => exact .waits signals
    | returned _ _ left => exact .returned _ signals left

/-- A server that announces its states is heard of. -/
theorem moved_willHear (hp : p.WillHear) {t : Server} (announces : p.server.Announces t) :
    (p.moved t).WillHear := by
  intro subscribed waiting
  have subscribed' : p.subscribed = true := subscribed
  obtain ⟨new, signals, state⟩ := announces
  have sent : (p.moved t).signals = p.signals ++ new.map Prod.fst := by
    unfold moved
    rw [if_pos subscribed', Server.emitted_append signals]
  rw [sent]
  cases last : new.getLast? with
  | none =>
    rw [last] at state
    rcases hp subscribed' waiting with up | ⟨down, mem, dead⟩
    · exact Or.inl (by rw [← up]; exact congrArg State.live state)
    · exact Or.inr ⟨down, List.mem_append_left _ mem, dead⟩
  | some announced =>
    rw [last] at state
    cases live : t.state.live with
    | true => exact Or.inl live
    | false =>
      refine Or.inr ⟨t.state, List.mem_append_right _ ?_, live⟩
      rw [state]
      exact List.mem_map_of_mem (List.mem_of_getLast? last)

/-- A step of the client alone. -/
theorem act_inStage {answer : Char} (hp : p.InStage) (hu : p.act answer = some u) :
    u.InStage ∧ u.server = p.server ∧ u.subscribed = p.subscribed ∧ u.signals = p.signals ∧
      p.client ≠ .returned := by
  obtain ⟨server, client, requests, subscribed, signals⟩ := p
  unfold act at hu
  cases client with
  | waits | returned => cases hu
  | connect =>
    obtain rfl := Option.some.inj hu
    cases hp
    exact ⟨.connected, rfl, rfl, rfl, nofun⟩
  | callStop =>
    obtain rfl := Option.some.inj hu
    cases hp with
    | early _ before => cases before
    | connected => exact ⟨.called, rfl, rfl, rfl, nofun⟩
    | subscribed => exact ⟨.calledSubscribed signals, rfl, rfl, rfl, nofun⟩
  | readState | readStateAgain | readPlayerCount | askUser =>
    obtain rfl := Option.some.inj hu
    cases hp
    refine ⟨.early _ ?_, rfl, rfl, rfl, nofun⟩
    dsimp only
    split <;> rfl

/-- A signal is only looked at in the event loop. -/
theorem signal_seen (hu : p.step h .signal = some u) :
    ∃ state signals, p.client = .waits ∧ p.signals = state :: signals ∧
      u = { p with
        client := if state = .offline ∨ state = .crashed then .returned else .waits
        signals := signals } := by
  simp only [step] at hu
  split at hu
  case h_1 state signals waits arrived =>
    exact ⟨state, signals, waits, arrived, (Option.some.inj hu).symm⟩
  case h_2 => cases hu

theorem step_inStage {e : StopEvent} (hp : p.InStage) (hu : p.step h e = some u) : u.InStage := by
  cases e with
  | server event =>
    obtain ⟨t, -, rfl⟩ := Option.map_eq_some_iff.mp hu
    exact moved_inStage hp t
  | client answer => exact (act_inStage hp hu).1
  | request =>
    obtain ⟨server, client, requests, subscribed, signals⟩ := p
    cases hp with
    | early | subscribed | waits => cases hu
    | connected =>
      obtain rfl := Option.some.inj hu
      exact .subscribed []
    | called =>
      obtain rfl := Option.some.inj hu
      exact .calledSubscribed []
    | calledSubscribed =>
      obtain rfl := Option.some.inj hu
      exact moved_inStage (p := ⟨server, .waits, [], true, signals⟩) (.waits signals) _
    | returned _ _ left =>
      rcases left with rfl | rfl
      · cases hu
      · obtain rfl := Option.some.inj hu
        exact moved_inStage (p := ⟨server, .returned, [], true, signals⟩)
          (.returned [] signals (Or.inl rfl)) _
  | signal =>
    obtain ⟨state, signals, waits, arrived, rfl⟩ := signal_seen hu
    unfold InStage at *
    rw [waits, arrived] at hp
    dsimp only
    generalize p.requests = requests at hp ⊢
    generalize p.subscribed = subscribed at hp ⊢
    cases hp with
    | calledSubscribed =>
      split
      · exact .returned _ signals (Or.inr rfl)
      · exact .calledSubscribed signals
    | waits =>
      split
      · exact .returned _ signals (Or.inl rfl)
      · exact .waits signals

theorem step_willHear {e : StopEvent} (hp : p.InStage) (hi : p.WillHear) (up : p.SubscribesUp e)
    (hu : p.step h e = some u) : u.WillHear := by
  cases e with
  | server event =>
    obtain ⟨t, moves, rfl⟩ := Option.map_eq_some_iff.mp hu
    exact moved_willHear hi (Server.step_announces moves)
  | client answer =>
    obtain ⟨-, server, subscribed, signals, active⟩ := act_inStage hp hu
    intro subscribed' _
    rw [subscribed] at subscribed'
    rw [server, signals]
    exact hi subscribed' active
  | request =>
    simp only [step] at hu
    split at hu
    case h_1 => cases hu
    case h_2 requests asked =>
      obtain rfl := Option.some.inj hu
      exact fun _ _ => Or.inl (up (by rw [asked]; rfl))
    case h_3 requests asked =>
      obtain rfl := Option.some.inj hu
      exact moved_willHear (p := { p with requests := requests }) hi
        (Server.stop_announces h p.server)
  | signal =>
    obtain ⟨state, signals, waits, arrived, rfl⟩ := signal_seen hu
    intro subscribed active
    have going : ¬(state = .offline ∨ state = .crashed) := fun down => active (if_pos down)
    rcases hi subscribed (by rw [waits]; decide) with alive | ⟨down, mem, dead⟩
    · exact Or.inl alive
    · rw [arrived] at mem
      rcases List.mem_cons.mp mem with rfl | later
      · exact absurd ((not_live_iff down).mp dead) going
      · exact Or.inr ⟨down, later, dead⟩

/-- Whoever will hear of the server going down does not wait in vain. -/
theorem willHear_not_inVain (hp : p.InStage) (hi : p.WillHear) : ¬ p.WaitsInVain := by
  rintro ⟨waits, down, requests, signals⟩
  unfold InStage at hp
  rw [waits, requests, signals] at hp
  cases subscribed : p.subscribed with
  | false =>
    rw [subscribed] at hp
    cases hp with
    | early _ before => cases before
  | true =>
    rcases hi subscribed (by rw [waits]; decide) with up | ⟨_, mem, -⟩
    · rw [up] at down
      cases down
    · rw [signals] at mem
      cases mem

/-- `stop()` has no effect on a server that is down. -/
theorem stop_unheard {server : Server} (down : server.state.live = false) :
    run h ⟨server, .waits, [.stop], true, []⟩ [.request] =
      some ⟨server, .waits, [], true, []⟩ := by
  have ignored : server.stop h = server := by
    obtain ⟨up | up, -⟩ | ⟨-, same⟩ := Server.stop_cases h server
    · rw [up] at down
      cases down
    · rw [up] at down
      cases down
    · exact same
  have silent : Server.emitted server server = [] :=
    Server.emitted_append (List.append_nil _).symm
  simp [run, Machine.run, step, moved, ignored, silent]

/-- Subscribed while the server is down, the client can be left waiting by its
own steps alone. -/
theorem subscribed_down (hp : p.InStage) (asks : p.requests.head? = some .addMatch)
    (down : p.server.state.live = false) (hu : p.step h .request = some u) :
    ∃ es t, run h u es = some t ∧ t.WaitsInVain := by
  obtain ⟨server, client, requests, subscribed, signals⟩ := p
  cases hp with
  | early | subscribed | calledSubscribed | waits => cases asks
  | returned _ _ left => rcases left with rfl | rfl <;> cases asks
  | connected =>
    obtain rfl := Option.some.inj hu
    have calls : run h ⟨server, .callStop, [], true, []⟩ ([.client 'y'] ++ [.request]) =
        some ⟨server, .waits, [], true, []⟩ := (Machine.run_append _ _ _).trans (stop_unheard down)
    exact ⟨_, _, calls, rfl, down, rfl, rfl⟩
  | called =>
    obtain rfl := Option.some.inj hu
    exact ⟨_, _, stop_unheard down, rfl, down, rfl, rfl⟩

/-- A client that begins to read the state of a server. -/
def begin (s : Server) : StopProtocol := { server := s }

theorem begin_inStage (s : Server) : (begin s).InStage := .early .readState rfl

/-- A run in which the server is up whenever the client is about to hear of it
never leaves the client waiting in vain. Any other run does, if the server keeps
still once it has been asked for its signals while it was down. -/
theorem waits_in_vain_iff (h : Host) (s : Server) (es : List StopEvent) :
    (Machine.EachStep (step h) SubscribesUp (begin s) es →
      Machine.Throughout (step h) (fun p => ¬ p.WaitsInVain) (begin s) es) ∧
    (¬ Machine.EachStep (step h) SubscribesUp (begin s) es →
      ∃ pre es' p, pre <+: es ∧ run h (begin s) (pre ++ es') = some p ∧ p.WaitsInVain) := by
  constructor
  · intro up pre p before reached
    have kept : Machine.Throughout (step h) (fun p => p.InStage ∧ p.WillHear) (begin s) es :=
      up.throughout (fun p e u hp meets hu =>
        ⟨step_inStage hp.1 hu, step_willHear hp.1 hp.2 meets hu⟩)
        ⟨begin_inStage s, fun subscribed => nomatch subscribed⟩
    obtain ⟨inStage, willHear⟩ := kept pre p before reached
    exact willHear_not_inVain inStage willHear
  · intro some_down
    simp only [Machine.EachStep, not_forall] at some_down
    obtain ⟨pre, e, p, u, before, reached, hu, down⟩ := some_down
    cases e with
    | server | client | signal => exact absurd trivial down
    | request =>
      obtain ⟨asks, down⟩ := Classical.not_imp.mp down
      have inStage : p.InStage :=
        Machine.run_invariant (fun _ _ _ hp hu => step_inStage hp hu) (begin_inStage s) reached
      obtain ⟨es', t, rest, inVain⟩ :=
        subscribed_down inStage asks (Bool.not_eq_true _ ▸ down) hu
      refine ⟨pre ++ [.request], es', t, before, ?_, inVain⟩
      rw [run, Machine.run_append, Machine.run_snoc reached, hu]
      exact rest

/-- A server that runs, with nobody on it, crashes between the client's last
look at it and its subscription. -/
theorem crash_before_subscription :
    ∃ p, run .ideal (begin Server.sample)
      [.server .start, .server (.gameServerOnline 0 .sample),
        .client 'y', .client 'y', .client 'y', .server .gameServerTimedOut,
        .client 'y', .client 'y', .request, .request] = some p ∧
      p.server.state = .crashed ∧ p.WaitsInVain := by
  exact ⟨_, rfl, rfl, rfl, rfl, rfl, rfl⟩

end StopProtocol

end Morgoth
