import Morgoth.Fairness
import Morgoth.StopProtocol

/-!
# The stop command returns

An execution in which the client goes on: it does what it can do, its requests
are served, and the signals sent to it arrive. Others do to the server what they
like meanwhile.

* `client_settles`: from some moment on the client waits for good, or it has returned;
* `never_returns_iff`: it waits for good exactly if the server stays up for good.
-/

namespace Morgoth

open Machine (Execution)

/-- How many things the client has still to do, at most. -/
def StopClient.left : StopClient → Nat
  | .readState => 6
  | .readStateAgain => 5
  | .readPlayerCount => 4
  | .askUser => 3
  | .connect => 2
  | .callStop => 1
  | .waits | .returned => 0

/-- What neither the client does nor its requests do. -/
def StopEvent.Others (e : StopEvent) : Prop := (∃ event, e = .server event) ∨ e = .signal

namespace StopProtocol

variable {h : Host} {p u : StopProtocol}

/-- The same with its requests. What it does may be a new request. -/
def left (p : StopProtocol) : Nat := 2 * p.client.left + p.requests.length

theorem act_left {answer : Char} (hu : p.act answer = some u) : u.left < p.left := by
  obtain ⟨server, client, requests, subscribed, signals⟩ := p
  unfold act at hu
  cases client with
  | waits | returned => cases hu
  | connect | callStop =>
    obtain rfl := Option.some.inj hu
    simp only [left, StopClient.left, List.length_append, List.length_singleton]
    omega
  | readState | readStateAgain | readPlayerCount | askUser =>
    obtain rfl := Option.some.inj hu
    dsimp only [left]
    split <;> simp [StopClient.left]

theorem request_left (hu : p.step h .request = some u) :
    u.client = p.client ∧ p.requests.length = u.requests.length + 1 := by
  simp only [step] at hu
  split at hu
  case h_1 => cases hu
  case h_2 requests asked | h_3 requests asked =>
    obtain rfl := Option.some.inj hu
    exact ⟨rfl, congrArg List.length asked⟩

theorem step_left {e : StopEvent} (hu : p.step h e = some u) :
    u.left ≤ p.left ∧ ((∃ answer, e = .client answer) ∨ e = .request → u.left < p.left) := by
  cases e with
  | server event =>
    obtain ⟨t, -, rfl⟩ := Option.map_eq_some_iff.mp hu
    exact ⟨Nat.le_refl _, by simp⟩
  | client answer =>
    have less := act_left hu
    exact ⟨Nat.le_of_lt less, fun _ => less⟩
  | request =>
    obtain ⟨client, requests⟩ := request_left hu
    unfold left
    rw [client]
    omega
  | signal =>
    obtain ⟨state, signals, waits, -, rfl⟩ := signal_seen hu
    refine ⟨?_, by simp⟩
    dsimp only [left]
    rw [waits]
    split <;> exact Nat.le_refl _

/-- Others leave the requests and the subscription alone, and a client that waits waits
or is released. -/
theorem others_kept {e : StopEvent} (others : e.Others) (hu : p.step h e = some u) :
    u.requests = p.requests ∧ u.subscribed = p.subscribed ∧
      (p.client = .waits → u.client = .waits ∨ u.client = .returned) := by
  rcases others with ⟨event, rfl⟩ | rfl
  · obtain ⟨t, -, rfl⟩ := Option.map_eq_some_iff.mp hu
    exact ⟨rfl, rfl, .inl⟩
  · obtain ⟨state, signals, -, -, rfl⟩ := signal_seen hu
    refine ⟨rfl, rfl, fun _ => ?_⟩
    dsimp only
    split
    · exact .inr rfl
    · exact .inl rfl

/-- Nothing brings a client back. -/
theorem returned_kept {e : StopEvent} (returned : p.client = .returned)
    (hu : p.step h e = some u) : u.client = .returned := by
  cases e with
  | server event =>
    obtain ⟨t, -, rfl⟩ := Option.map_eq_some_iff.mp hu
    exact returned
  | client answer => simp [step, act, returned] at hu
  | request => exact (request_left hu).1.trans returned
  | signal =>
    obtain ⟨state, signals, waits, -⟩ := signal_seen hu
    cases returned.symm.trans waits

/-- A client that waits, with all its requests served, has its subscription. -/
theorem Stage.waits_subscribed {subscribed : Bool} {signals : List State}
    (stage : Stage .waits [] subscribed signals) : subscribed = true := by
  cases stage with
  | early _ before => cases before
  | waits => rfl

theorem signals_grow (p : StopProtocol) (t : Server) : p.signals <+: (p.moved t).signals := by
  unfold moved
  dsimp only
  split
  · exact List.prefix_append _ _
  · exact List.prefix_refl _

/-- The client, its requests and its signals go on, and the user answers. -/
structure Prompt (x : Execution (step h)) : Prop where
  client : x.Fair (fun p => p.client ≠ .waits ∧ p.client ≠ .returned) fun e =>
    ∃ answer, e = .client answer
  request : x.Fair (fun p => p.requests ≠ []) (· = .request)
  signal : x.Fair (fun p => p.client = .waits ∧ p.signals ≠ []) (· = .signal)

section
variable {x : Execution (step h)} {s : Server}

theorem execution_inStage (start : x.state 0 = begin s) (n : Nat) : (x.state n).InStage :=
  x.invariant (fun _ _ _ hp hu => step_inStage hp hu) (start ▸ begin_inStage s) n

theorem execution_willHear (start : x.state 0 = begin s)
    (up : ∀ n, (x.state n).SubscribesUp (x.event n)) (n : Nat) : (x.state n).WillHear := by
  refine Execution.persists (P := fun n => (x.state n).WillHear) ?_ ?_ (Nat.zero_le n)
  · intro k _ hk
    exact step_willHear (execution_inStage start k) hk (up k) (x.moves k)
  · rw [start]
    exact fun subscribed => absurd subscribed Bool.false_ne_true

/-- The client waits for signals, and nothing but them and the server goes on. -/
structure Waits (x : Execution (step h)) (n : Nat) : Prop where
  client : (x.state n).client = .waits
  subscribed : (x.state n).subscribed = true
  others : (x.event n).Others

/-- A client that never returns waits for good. -/
theorem client_settles (start : x.state 0 = begin s) (prompt : Prompt x)
    (never : ∀ n, (x.state n).client ≠ .returned) : ∃ n, ∀ k, n ≤ k → Waits x k := by
  obtain ⟨n, ceased⟩ := x.ceases (fun e => (∃ answer, e = .client answer) ∨ e = .request)
    (fun k => (step_left (x.moves k)).1) fun k => (step_left (x.moves k)).2
  have others {k : Nat} (later : n ≤ k) : (x.event k).Others := by
    have quiet := ceased k later
    cases event : x.event k with
    | server e => exact .inl ⟨e, rfl⟩
    | signal => exact .inr rfl
    | client answer => exact (quiet (.inl ⟨answer, event⟩)).elim
    | request => exact (quiet (.inr event)).elim
  -- no request is left
  obtain ⟨i, first, idle⟩ : ∃ i, n ≤ i ∧ (x.state i).requests = [] := by
    by_contra! busy
    obtain ⟨k, later, served⟩ := prompt.request n busy
    exact ceased k later (.inr served)
  have empty {k : Nat} (later : i ≤ k) : (x.state k).requests = [] := by
    refine Execution.persists (P := fun k => (x.state k).requests = []) ?_ idle later
    intro k later before
    exact (others_kept (others (Nat.le_trans first later)) (x.moves k)).1.trans before
  -- and the client can do nothing
  obtain ⟨j, second, waits⟩ : ∃ j, i ≤ j ∧ (x.state j).client = .waits := by
    by_contra! able
    obtain ⟨k, later, acts⟩ := prompt.client i fun k later => ⟨able k later, never k⟩
    exact ceased k (Nat.le_trans first later) (.inl acts)
  have stays {k : Nat} (later : j ≤ k) : (x.state k).client = .waits := by
    refine Execution.persists (P := fun k => (x.state k).client = .waits) ?_ waits later
    intro k later waits
    have settled := others (Nat.le_trans first (Nat.le_trans second later))
    exact ((others_kept settled (x.moves k)).2.2 waits).resolve_right (never (k + 1))
  refine ⟨j, fun k later => ⟨stays later, ?_, others (by omega)⟩⟩
  have stage : Stage _ _ _ _ := execution_inStage start k
  rw [stays later, empty (Nat.le_trans second later)] at stage
  exact stage.waits_subscribed

/-- The stopping client is never left waiting for good, unless the server stays up for
good: as long as the server was up when its signals were asked for. -/
theorem never_returns_iff (start : x.state 0 = begin s) (prompt : Prompt x)
    (up : ∀ n, (x.state n).SubscribesUp (x.event n)) :
    (∀ n, (x.state n).client ≠ .returned) ↔
      ∃ n, ∀ k, n ≤ k → (x.state k).client = .waits ∧ (x.state k).server.state.live = true := by
  constructor
  · intro never
    obtain ⟨n, waits⟩ := client_settles start prompt never
    refine ⟨n, fun k later => ⟨(waits k later).client, ?_⟩⟩
    by_contra down
    -- a server that is down has been announced
    have hears := execution_willHear start up k (waits k later).subscribed (never k)
    obtain ⟨state, sent, dead⟩ := hears.resolve_left down
    obtain ⟨j, after, arrives, first⟩ := prompt.signal.delivers
      (fun k later some_left => ⟨(waits k later).client, some_left⟩)
      (fun k later other => by
        obtain ⟨e, event⟩ := (waits k later).others.resolve_right other
        obtain ⟨t, -, moved⟩ := Option.map_eq_some_iff.mp (event ▸ x.moves k)
        rw [← moved]
        exact signals_grow _ t)
      (fun k _ arrives => by
        obtain ⟨state, signals, -, queue, seen⟩ := signal_seen (arrives ▸ x.moves k)
        exact ⟨state, by rw [seen, queue]⟩)
      later sent
    obtain ⟨state', signals, -, queue, seen⟩ := signal_seen (arrives ▸ x.moves j)
    obtain rfl : state' = state := by simpa [queue] using first
    apply never (j + 1)
    rw [seen]
    exact if_pos ((not_live_iff state').mp dead)
  · rintro ⟨n, waits⟩ m returned
    have later : (x.state (max m n)).client = .returned :=
      Execution.persists (P := fun k => (x.state k).client = .returned)
        (fun k _ returned => returned_kept returned (x.moves k)) returned (Nat.le_max_left m n)
    cases later.symm.trans (waits (max m n) (Nat.le_max_right m n)).1

end

/-- A server that starts, runs, and is stopped. -/
def stoppedEvents : Nat → StopEvent
  | 0 => .server .start
  | 1 => .server (.gameServerOnline 0 .sample)
  | 2 | 3 | 4 | 5 | 6 => .client 'y'
  | 7 | 8 => .request
  | 9 => .server (.aboutToQuit 0)
  | 10 | 11 => .signal
  | _ + 12 => .server (.setValue "name" "tf2")

def stoppedStates : Nat → StopProtocol
  | 0 => begin Server.sample
  | n + 1 => ((stoppedStates n).step .ideal (stoppedEvents n)).getD (stoppedStates n)

theorem stoppedStates_moves (n : Nat) :
    (stoppedStates n).step .ideal (stoppedEvents n) = some (stoppedStates (n + 1)) := by
  have moves : ((stoppedStates n).step .ideal (stoppedEvents n)).isSome := by
    match n with
    | 0 | 1 | 2 | 3 | 4 | 5 | 6 | 7 | 8 | 9 | 10 | 11 => decide +kernel
    | n + 12 => rfl
  obtain ⟨u, hu⟩ := Option.isSome_iff_exists.mp moves
  rw [stoppedStates, hu, Option.getD_some]

theorem stoppedStates_settle (n : Nat) :
    (stoppedStates (n + 12)).client = .returned ∧ (stoppedStates (n + 12)).requests = [] := by
  induction n with
  | zero => exact ⟨rfl, rfl⟩
  | succ n ih => exact ih

def stoppedExecution : Execution (step .ideal) := ⟨stoppedStates, stoppedEvents, stoppedStates_moves⟩

theorem stoppedExecution_prompt : Prompt stoppedExecution where
  client n able := absurd (stoppedStates_settle n).1 (able (n + 12) (Nat.le_add_right n 12)).2
  request n asked := absurd (stoppedStates_settle n).2 (asked (n + 12) (Nat.le_add_right n 12))
  signal n sent := by
    have waits := (sent (n + 12) (Nat.le_add_right n 12)).1
    cases (stoppedStates_settle n).1.symm.trans waits

theorem stoppedExecution_up (n : Nat) :
    (stoppedExecution.state n).SubscribesUp (stoppedExecution.event n) :=
  match n with
  | 7 => fun _ => rfl
  | 8 => fun asks => nomatch asks
  | 0 | 1 | 2 | 3 | 4 | 5 | 6 | 9 | 10 | 11 | _ + 12 => trivial

theorem never_returns_iff_stopped :
    ¬ ∃ n, ∀ k, n ≤ k → (stoppedExecution.state k).client = .waits ∧
      (stoppedExecution.state k).server.state.live = true :=
  fun waits => (never_returns_iff rfl stoppedExecution_prompt stoppedExecution_up).mpr waits 12
    (stoppedStates_settle 0).1

end StopProtocol

end Morgoth
