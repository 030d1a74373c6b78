import Morgoth.StartProtocol

/-!
# The start command returns

An execution in which everybody goes on: the client does what it can do, its
requests are served, the signals sent to it arrive, and timers expire. Others go
on meanwhile as they like, only the deletion of the server is excluded.

* `client_settles`: from some moment on the client is in its event loop for good,
  or it has returned;
* `loops_untold`: then no signal that ends the loop is ever on its way;
* `start_returns`: the client returns.
-/

namespace Morgoth

open Machine (Execution)

/-- How many things the client has still to do, at most. -/
def StartClient.left : StartClient → Nat
  | .readState => 6
  | .readStateAgain => 5
  | .connect => 4
  | .callStart => 3
  | .awaitsReply => 2
  | .exec _ => 1
  | .returned _ => 0

/-- What neither the client does nor its requests do. -/
def StartEvent.Others (e : StartEvent) : Prop := (∃ event, e = .bus event) ∨ e = .signal

/-- The expired timer is announced at the path of its server. -/
theorem Bus.startTimeout_announced {env : Environment} {b u : Bus} {path : String}
    {server : ServerId} {i : Nat} (hu : b.step env (.server server (.startTimeout i)) = some u)
    (at_path : b.coordinator path = some server) : .crashed ∈ b.stateChanges u path := by
  obtain ⟨m, moves, rfl⟩ := Option.map_eq_some_iff.mp hu
  cases there : b.manager.heap server with
  | none => simp [ServerManager.step, ServerEvent.managed, there] at moves
  | some s =>
    simp only [ServerManager.step, ServerEvent.managed, Bool.false_eq_true, if_false, there,
      Option.bind_some] at moves
    obtain ⟨t, steps, rfl⟩ := Option.map_eq_some_iff.mp moves
    obtain ⟨-, rfl⟩ := Machine.some_of_ite steps
    rw [Bus.stateChanges_eq _ at_path there (Function.update_self ..), Server.timeoutStart_eq,
      Server.emitted_append rfl]
    simp

namespace StartProtocol

variable {env : Environment} {serverName path : String} {p u : StartProtocol}

/-- The same with its requests. What it does may be a new request. -/
def left (p : StartProtocol) : Nat := 2 * p.client.left + p.requests.length

theorem act_left (hu : p.act path = some u) : u.left < p.left := by
  obtain ⟨bus, client, requests, subscribed, reply, signals⟩ := p
  unfold act at hu
  cases client with
  | readState | readStateAgain =>
    dsimp only at hu
    split at hu <;>
    · obtain rfl := Option.some.inj hu
      simp [left, StartClient.left]
  | connect | callStart =>
    obtain rfl := Option.some.inj hu
    simp only [left, StartClient.left, List.length_append, List.length_singleton]
    omega
  | awaitsReply =>
    obtain ⟨started, -, rfl⟩ := Option.map_eq_some_iff.mp hu
    cases started <;> simp [left, StartClient.left]
  | exec h =>
    obtain ⟨-, rfl⟩ := Machine.some_of_ite hu
    simp [left, StartClient.left]
  | returned code => cases hu

theorem request_left (hu : p.step env serverName path .request = some u) :
    u.client = p.client ∧ p.requests.length = u.requests.length + 1 := by
  obtain ⟨bus, client, requests, subscribed, reply, signals⟩ := p
  cases requests with
  | nil => cases hu
  | cons request requests =>
    cases request with
    | addMatch =>
      obtain rfl := Option.some.inj hu
      exact ⟨rfl, rfl⟩
    | start =>
      simp only [step, start] at hu
      split at hu
      · obtain rfl := Option.some.inj hu
        exact ⟨rfl, rfl⟩
      · obtain ⟨b, -, rfl⟩ := Option.map_eq_some_iff.mp hu
        exact ⟨rfl, rfl⟩

theorem signals_grow (path : String) (b : Bus) : p.signals <+: (p.moved path b).signals := by
  unfold moved
  dsimp only
  split
  · exact List.prefix_append _ _
  · exact List.prefix_refl _

/-- The daemon moves without the client. -/
theorem bus_moved {e : ManagerEvent} (hu : p.step env serverName path (.bus e) = some u) :
    ∃ b, p.bus.step env e = some b ∧ u = p.moved path b := by
  obtain ⟨-, hu⟩ := Option.ite_none_right_eq_some.mp hu
  obtain ⟨b, hb, rfl⟩ := Option.map_eq_some_iff.mp hu
  exact ⟨b, hb, rfl⟩

theorem step_left {e : StartEvent} (hu : p.step env serverName path e = some u) :
    u.left ≤ p.left ∧ (e = .client ∨ e = .request → u.left < p.left) := by
  cases e with
  | bus event =>
    obtain ⟨b, -, rfl⟩ := bus_moved hu
    exact ⟨Nat.le_refl _, nofun⟩
  | client =>
    have less := act_left hu
    exact ⟨Nat.le_of_lt less, fun _ => less⟩
  | request =>
    obtain ⟨client, requests⟩ := request_left hu
    unfold left
    rw [client]
    omega
  | signal =>
    obtain ⟨h, state, signals, loops, -, rfl⟩ := signal_handled hu
    refine ⟨?_, nofun⟩
    simp [left, loops, StartClient.left]

/-- Others leave the requests and the answer alone, and a loop goes on. -/
theorem others_kept {e : StartEvent} (others : e.Others)
    (hu : p.step env serverName path e = some u) :
    u.requests = p.requests ∧ u.reply = p.reply ∧
      ∀ h, p.client = .exec h → ∃ h', u.client = .exec h' ∧ (h.quit = true → h'.quit = true) := by
  rcases others with ⟨event, rfl⟩ | rfl
  · obtain ⟨b, -, rfl⟩ := bus_moved hu
    exact ⟨rfl, rfl, fun h loops => ⟨h, loops, id⟩⟩
  · obtain ⟨h', state, signals, loops', -, rfl⟩ := signal_handled hu
    refine ⟨rfl, rfl, fun h loops => ⟨_, rfl, fun quits => ?_⟩⟩
    obtain rfl := StartClient.exec.inj (loops.symm.trans loops')
    rw [stateChanged_quit, quits, Bool.true_or]

/-- In a state without requests a client that cannot go on is in its loop, or it has
returned. -/
theorem stuck (hp : p.Sound) (idle : p.requests = []) (waits : p.act path = none) :
    p.reply = some true ∧ (∃ h, p.client = .exec h ∧ h.quit = false) ∨
      ∃ code, p.client = .returned code := by
  obtain ⟨bus, client, requests, subscribed, reply, signals⟩ := p
  obtain rfl : requests = [] := idle
  have stage : Stage client [] subscribed reply := hp.stage
  cases stage with
  | exec h =>
    refine .inl ⟨rfl, h, rfl, ?_⟩
    by_contra quits
    simp [act, quits] at waits
  | running | refused | returned => exact .inr ⟨_, rfl⟩
  | readState | readStateAgain | connect | subscribed | answered => cases waits

/-- Everybody goes on. -/
structure Prompt (x : Execution (step env serverName path)) : Prop where
  client : x.Fair (fun p => (p.act path).isSome) (· = .client)
  request : x.Fair (fun p => p.requests ≠ []) (· = .request)
  signal : x.Fair (fun p => (∃ h, p.client = .exec h) ∧ p.signals ≠ []) (· = .signal)
  timers : ∀ server, x.Fair (fun p => ∃ s, p.bus.manager.heap server = some s ∧ s.Waiting)
    fun e => ∃ i, e = .bus (.server server (.startTimeout i))

section
variable {x : Execution (step env serverName path)}

theorem execution_sound (start : x.state 0 = { bus := {} }) (n : Nat) : (x.state n).Sound :=
  x.invariant (fun _ _ _ hp hu => step_sound hp hu) (start ▸ init_sound) n

theorem execution_promised (start : x.state 0 = { bus := {} })
    (spares : ∀ n, (x.state n).Spares path (x.event n)) (n : Nat) :
    (x.state n).Promised path := by
  refine Execution.persists (P := fun n => Promised path (x.state n)) ?_ ?_ (Nat.zero_le n)
  · intro k _ hk
    exact (step_promised (execution_sound start k) hk (x.moves k)).mpr (spares k)
  · rw [start]
    exact nofun

/-- The client waits in its loop, and nothing but signals and the daemon goes on. -/
structure Loops (x : Execution (step env serverName path)) (n : Nat) : Prop where
  reply : (x.state n).reply = some true
  client : ∃ h, (x.state n).client = .exec h ∧ h.quit = false
  others : (x.event n).Others

theorem Loops.listens {n : Nat} (loops : Loops x n) : (x.state n).Listens :=
  ⟨loops.reply, .inr loops.client⟩

/-- A client that never returns is in its loop for good. -/
theorem client_settles (start : x.state 0 = { bus := {} }) (prompt : Prompt x)
    (never : ∀ n code, (x.state n).client ≠ .returned code) :
    ∃ n, ∀ k, n ≤ k → Loops x k := by
  obtain ⟨n, ceased⟩ := x.ceases (fun e => e = .client ∨ e = .request)
    (fun k => (step_left (x.moves k)).1) fun k => (step_left (x.moves k)).2
  have others {k : Nat} (later : n ≤ k) : (x.event k).Others := by
    have quiet := ceased k later
    cases event : x.event k with
    | bus e => exact .inl ⟨e, rfl⟩
    | signal => exact .inr rfl
    | client => exact (quiet (.inl event)).elim
    | request => exact (quiet (.inr event)).elim
  -- no request is left
  obtain ⟨i, first, idle⟩ : ∃ i, n ≤ i ∧ (x.state i).requests = [] := by
    by_contra! busy
    obtain ⟨k, later, served⟩ := prompt.request n busy
    exact ceased k later (.inr served)
  -- and the client can do nothing
  obtain ⟨j, second, waits⟩ : ∃ j, i ≤ j ∧ (x.state j).act path = none := by
    by_contra! able
    have enabled (k : Nat) (later : i ≤ k) : ((x.state k).act path).isSome :=
      Option.isSome_iff_ne_none.mpr (able k later)
    obtain ⟨k, later, acts⟩ := prompt.client i enabled
    exact ceased k (Nat.le_trans first later) (.inl acts)
  have empty {k : Nat} (later : i ≤ k) : (x.state k).requests = [] := by
    refine Execution.persists (P := fun k => (x.state k).requests = []) ?_ idle later
    intro k later before
    exact (others_kept (others (Nat.le_trans first later)) (x.moves k)).1.trans before
  rcases stuck (execution_sound start j) (empty second) waits with ⟨reply, h, loops, -⟩ | ⟨code, gone⟩
  case inr => exact (never j code gone).elim
  have kept (k : Nat) (later : j ≤ k) :=
    others_kept (others (Nat.le_trans first (Nat.le_trans second later))) (x.moves k)
  have waiting {k : Nat} (later : j ≤ k) :
      (x.state k).reply = some true ∧ ∃ h, (x.state k).client = .exec h := by
    refine Execution.persists (P := fun k => (x.state k).reply = some true ∧
      ∃ h, (x.state k).client = .exec h) ?_ ⟨reply, h, loops⟩ later
    rintro k later ⟨reply, h, loops⟩
    obtain ⟨-, same, loop⟩ := kept k later
    obtain ⟨h', loops', -⟩ := loop h loops
    exact ⟨same.trans reply, h', loops'⟩
  -- a loop that has ended is left
  have going {k : Nat} (later : j ≤ k) {h : Handler} (loops : (x.state k).client = .exec h) :
      h.quit = false := by
    by_contra quits
    let Ended (k : Nat) : Prop := ∃ h, (x.state k).client = .exec h ∧ h.quit = true
    have ended (i : Nat) (after : k ≤ i) : Ended i := by
      refine Execution.persists (P := Ended) ?_ ⟨h, loops, Bool.eq_true_of_not_eq_false quits⟩ after
      rintro i after ⟨h, loops, quits⟩
      obtain ⟨h', loops', quits'⟩ := (kept i (Nat.le_trans later after)).2.2 h loops
      exact ⟨h', loops', quits' quits⟩
    have enabled (i : Nat) (after : k ≤ i) : ((x.state i).act path).isSome := by
      obtain ⟨h, loops, quits⟩ := ended i after
      simp [act, loops, quits]
    obtain ⟨i, after, acts⟩ := prompt.client k enabled
    have settled : n ≤ i := Nat.le_trans first (Nat.le_trans second (Nat.le_trans later after))
    exact ceased i settled (.inl acts)
  refine ⟨j, fun k later => ?_⟩
  obtain ⟨reply, h, loops⟩ := waiting later
  exact ⟨reply, ⟨h, loops, going later loops⟩, others (Nat.le_trans first (Nat.le_trans second later))⟩

/-- No signal that ends the loop is on its way to a client whose loop never ends. -/
theorem loops_untold (prompt : Prompt x) {n : Nat} (loops : ∀ k, n ≤ k → Loops x k) {k : Nat}
    (later : n ≤ k) : ¬ (x.state k).Told := by
  rintro ⟨state, sent, settles⟩
  obtain ⟨j, after, arrives, first⟩ := prompt.signal.delivers
    (fun k later some_left => ⟨(loops k later).client.imp fun _ loop => loop.1, some_left⟩)
    (fun k later other => by
      obtain ⟨e, event⟩ := (loops k later).others.resolve_right other
      obtain ⟨b, -, moved⟩ := bus_moved (event ▸ x.moves k)
      rw [moved]
      exact signals_grow path b)
    (fun k _ arrives => by
      obtain ⟨h, first, signals, -, queue, handled⟩ := signal_handled (arrives ▸ x.moves k)
      exact ⟨first, by rw [handled, queue]⟩)
    later sent
  obtain ⟨h, first', signals, -, queue, handled⟩ := signal_handled (arrives ▸ x.moves j)
  obtain rfl : first' = state := by simpa [queue] using first
  obtain ⟨h', loop, going⟩ := (loops (j + 1) (Nat.le_succ_of_le after)).client
  rw [handled] at loop
  obtain rfl := StartClient.exec.inj loop
  rw [stateChanged_quit, settles, Bool.or_true] at going
  cases going

/-- The command returns: whatever else happens to the daemon and in which order, as long
as nobody deletes the server while the client waits to hear of it. -/
theorem start_returns (start : x.state 0 = { bus := {} }) (prompt : Prompt x)
    (spares : ∀ n, (x.state n).Spares path (x.event n)) :
    ∃ n code, (x.state n).client = .returned code := by
  by_contra! never
  obtain ⟨n, loops⟩ := client_settles start prompt never
  have untold {k : Nat} (later : n ≤ k) := loops_untold prompt loops later
  have expected {k : Nat} (later : n ≤ k) : (x.state k).bus.Expected path :=
    (execution_promised start spares k (loops k later).listens).resolve_left (untold later)
  obtain ⟨server, -, at_path, -⟩ := expected (Nat.le_refl n)
  have kept {k : Nat} (later : n ≤ k) : (x.state k).bus.coordinator path = some server := by
    refine Execution.persists (P := fun k => (x.state k).bus.coordinator path = some server) ?_
      at_path later
    intro k later at_path
    rcases (loops k later).others with ⟨e, event⟩ | event
    · obtain ⟨b, hb, moved⟩ := bus_moved (event ▸ x.moves k)
      rw [moved]
      refine Bus.coordinator_kept (execution_sound start k).bus hb at_path ?_
      rintro rfl
      have spared := spares k
      rw [event] at spared
      exact untold later (spared (loops k later).listens at_path)
    · obtain ⟨h, state, signals, -, -, handled⟩ := signal_handled (event ▸ x.moves k)
      rw [handled]
      exact at_path
  -- the starter that waits is that of this server, until its timer expires
  have waits (k : Nat) (later : n ≤ k) :
      ∃ s, (x.state k).bus.manager.heap server = some s ∧ s.Waiting := by
    obtain ⟨_, s, at_path', there, waiting⟩ := expected later
    obtain rfl := Option.some.inj ((kept later).symm.trans at_path')
    exact ⟨s, there, waiting⟩
  obtain ⟨k, later, i, expires⟩ := prompt.timers server n waits
  obtain ⟨s, there, -⟩ := waits k later
  obtain ⟨b, hb, moved⟩ := bus_moved (expires ▸ x.moves k)
  apply untold (Nat.le_succ_of_le later)
  refine ⟨.crashed, ?_, rfl⟩
  rw [moved]
  unfold StartProtocol.moved
  dsimp only
  rw [if_pos ((loops k later).listens.subscribed (execution_sound start k))]
  exact List.mem_append_right _ (Bus.startTimeout_announced hb (kept later))

end

/-- A server that does not come up in time, and a client that waits for it. -/
def failedEvents : Nat → StartEvent
  | 0 => .bus (.add { path := "/srv/tf2" } "tf2")
  | 1 | 2 | 3 => .client
  | 4 | 5 => .request
  | 6 => .client
  | 7 => .signal
  | 8 => .bus (.server 0 (.startTimeout 0))
  | 9 => .signal
  | 10 => .client
  | _ + 11 => .bus .timeout

def failedStates : Nat → StartProtocol
  | 0 => { bus := {} }
  | n + 1 => ((failedStates n).step .ideal "tf2" "/servers/tf2/coordinator" (failedEvents n)).getD
      (failedStates n)

theorem failedStates_moves (n : Nat) :
    (failedStates n).step .ideal "tf2" "/servers/tf2/coordinator" (failedEvents n) =
      some (failedStates (n + 1)) := by
  have moves : ((failedStates n).step .ideal "tf2" "/servers/tf2/coordinator"
      (failedEvents n)).isSome := by
    match n with
    | 0 | 1 | 2 | 3 | 4 | 5 | 6 | 7 | 8 | 9 | 10 => decide +kernel
    | n + 11 => rfl
  obtain ⟨u, hu⟩ := Option.isSome_iff_exists.mp moves
  rw [failedStates, hu, Option.getD_some]

theorem failedStates_settle (n : Nat) :
    (failedStates (n + 11)).client = .returned 5 ∧ (failedStates (n + 11)).requests = [] ∧
      (failedStates (n + 11)).bus.manager.heap = (failedStates 11).bus.manager.heap := by
  induction n with
  | zero => exact ⟨rfl, rfl, rfl⟩
  | succ n ih => exact ih

def failedExecution : Execution (step .ideal "tf2" "/servers/tf2/coordinator") :=
  ⟨failedStates, failedEvents, failedStates_moves⟩

theorem failedExecution_prompt : Prompt failedExecution where
  client n able := by
    have acts := able (n + 11) (Nat.le_add_right n 11)
    have returned : (failedExecution.state (n + 11)).client = .returned 5 := (failedStates_settle n).1
    simp [act, returned] at acts
  request n asked := absurd (failedStates_settle n).2.1 (asked (n + 11) (Nat.le_add_right n 11))
  signal n sent := by
    obtain ⟨⟨h, loops⟩, -⟩ := sent (n + 11) (Nat.le_add_right n 11)
    cases (failedStates_settle n).1.symm.trans loops
  timers server n running := by
    obtain ⟨s, there, waits⟩ := running (n + 11) (Nat.le_add_right n 11)
    have there' : (failedStates 11).bus.manager.heap server = some s :=
      (failedStates_settle n).2.2 ▸ there
    exfalso
    by_cases here : server = 0
    · subst here
      obtain rfl := Option.some.inj there'
      obtain ⟨st, listed, active⟩ := waits
      obtain rfl := List.mem_singleton.mp listed
      cases active
    · have other : (failedStates 11).bus.manager.heap server = none :=
        (Function.update_of_ne here _ _).trans <| (Function.update_of_ne here _ _).trans <|
          Function.update_of_ne here _ _
      exact nomatch other.symm.trans there'

theorem start_returns_failed :
    (failedExecution.state 7).Listens ∧
    ∃ n code, (failedExecution.state n).client = .returned code :=
  ⟨⟨rfl, .inr ⟨_, rfl, rfl⟩⟩,
    start_returns rfl failedExecution_prompt fun n => match n with
      | 0 | 1 | 2 | 3 | 4 | 5 | 6 | 7 | 8 | 9 | 10 | _ + 11 => trivial⟩

end StartProtocol

end Morgoth
