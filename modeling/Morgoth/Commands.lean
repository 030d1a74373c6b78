import Morgoth.Server
import Morgoth.Sweep

/-!
# The start, stop and restart commands

Each takes a list of server names, validates all of them and then goes from one
to the next. What it asks the daemon is an input: a name may be listed twice and
has changed in between, so the answers belong to a position of the list.
-/

namespace Morgoth

/-- A `stateChanged` signal, with the text of the coordinator's error when it is
handled. -/
structure Change where
  state : State
  message : String

/-- What a command does: the entries it calls `stop()` and `start()` for, what
it prints, and its exit code, none while it waits in an event loop for ever. -/
structure Outcome where
  stops : List (String × Nat) := []
  starts : List (String × Nat) := []
  out : List String := []
  code : Option Int := none

def Outcome.andThen (first second : Outcome) : Outcome where
  stops := first.stops ++ second.stops
  starts := first.starts ++ second.starts
  out := first.out ++ second.out
  code := second.code

/-- What the handler of `stateChanged` captures. -/
structure Handler where
  ret : Int := 0
  quit : Bool := false
  out : List String := []

/-- `QEventLoop::exec`: a pass delivers all signals that have arrived, and the
loop looks at `quit` after it. No more passes is a wait for ever. -/
def exec (stateChanged : Handler → Change → Handler) : Handler → List (List Change) → Handler
  | h, [] => h
  | h, pass :: later =>
    let h := pass.foldl stateChanged h
    if h.quit then h else exec stateChanged h later

/-- The loop ends exactly where a signal arrives that the handler quits on. -/
theorem exec_quit {stateChanged : Handler → Change → Handler} {quits : Change → Bool}
    (quit : ∀ h c, (stateChanged h c).quit = (h.quit || quits c)) {h : Handler}
    (waiting : h.quit = false) (passes : List (List Change)) :
    (exec stateChanged h passes).quit = passes.any (·.any quits) := by
  have delivered : ∀ (pass : List Change) (h : Handler),
      (pass.foldl stateChanged h).quit = (h.quit || pass.any quits) := by
    intro pass
    induction pass with
    | nil => simp
    | cons c pass ih => intro h; simp [ih, quit, Bool.or_assoc]
  induction passes generalizing h with
  | nil => exact waiting
  | cons pass later ih =>
    have now := delivered pass h
    rw [waiting, Bool.false_or] at now
    simp only [exec, List.any_cons, ← now]
    cases ended : (pass.foldl stateChanged h).quit with
    | true => simp [ended]
    | false => simpa using ih ended

/-- What the daemon answers: its list of servers, `valid` of the server listed
at a position, and the answers of that server's turn. -/
structure Answers (τ : Type) where
  servers : List String
  valid : Nat → Bool
  turn : Nat → τ

/-- The first loop of both commands, with the exit of the first name it rejects. -/
def validate {τ : Type} (d : Answers τ) : List (String × Nat) → Option Outcome
  | [] => none
  | (serverName, n) :: rest =>
    if serverName ∉ d.servers then
      some { out := ["Server \"" ++ serverName ++ "\" does not exist.\n"], code := some 2 }
    else if !d.valid n then
      some { out := ["Server \"" ++ serverName ++ "\" is invalid.\n"], code := some 3 }
    else validate d rest

/-- There is a list, and all its servers exist and are valid. -/
def Answers.Accept {τ : Type} (d : Answers τ) (args : List String) : Prop :=
  args ≠ [] ∧ ∀ e ∈ args.zipIdx, e.1 ∈ d.servers ∧ d.valid e.2 = true

theorem validate_accepted {τ : Type} {d : Answers τ} {entries : List (String × Nat)}
    (accept : ∀ e ∈ entries, e.1 ∈ d.servers ∧ d.valid e.2 = true) :
    validate d entries = none := by
  induction entries with
  | nil => rfl
  | cons e rest ih =>
    obtain ⟨listed, valid⟩ := accept e List.mem_cons_self
    simp only [validate, listed, valid, not_true, if_false, Bool.not_true, Bool.false_eq_true]
    exact ih fun e mem => accept e (List.mem_cons_of_mem _ mem)

/-- Any other list is rejected, with an exit code of its own. -/
theorem validate_rejected {τ : Type} {d : Answers τ} {entries : List (String × Nat)}
    (reject : ¬ ∀ e ∈ entries, e.1 ∈ d.servers ∧ d.valid e.2 = true) :
    ∃ out code, validate d entries = some { out := out, code := some code } ∧ code ≠ 0 := by
  induction entries with
  | nil => exact absurd (fun _ none => absurd none List.not_mem_nil) reject
  | cons e rest ih =>
    obtain ⟨serverName, n⟩ := e
    unfold validate
    by_cases listed : serverName ∉ d.servers
    · exact ⟨_, 2, if_pos listed, by decide⟩
    · rw [if_neg listed]
      cases valid : d.valid n with
      | false => exact ⟨_, 3, rfl, by decide⟩
      | true =>
        refine ih fun later => reject fun e mem => ?_
        rcases List.mem_cons.1 mem with rfl | mem
        · exact ⟨not_not.1 listed, valid⟩
        · exact later e mem

/-- `first` and `second` are the two reads of the state. -/
structure StartTurn where
  first : State
  second : State
  started : Bool
  signals : List (List Change)

/-- The second read is only made where the first is not `Offline`. -/
def StartTurn.down (t : StartTurn) : Bool :=
  t.first == .offline || t.second == .crashed

/-- `start()` is called and reports a failure. -/
def StartTurn.refused (t : StartTurn) : Bool :=
  t.down && !t.started

/-- A signal arrives that ends the wait. -/
def StartTurn.ended (t : StartTurn) : Bool :=
  t.signals.any (·.any fun c => c.state == .running || c.state == .crashed)

/-- `start()` is called, and the wait for the server never ends. -/
def StartTurn.hangs (t : StartTurn) : Bool :=
  t.down && t.started && !t.ended

namespace StartCommand

def stateChanged (serverName : String) (h : Handler) (c : Change) : Handler :=
  match c.state with
  | .running => { ret := 0, quit := true, out := h.out ++ ["started.\n"] }
  | .starting => { h with out := h.out ++ ["Starting \"" ++ serverName ++ "\"... "] }
  | .crashed => { ret := 5, quit := true, out := h.out ++ ["FAILED (" ++ c.message ++ ")\n"] }
  | _ => h

/-- The second loop. One `ret` is shared by all servers. -/
def startAll (turn : Nat → StartTurn) : Int → List (String × Nat) → Outcome
  | ret, [] => { code := some ret }
  | ret, (serverName, n) :: rest =>
    let t := turn n
    if !t.down then
      { out := ["Server " ++ serverName ++ " is already running\n"], code := some 0 }
    else if !t.started then
      { starts := [(serverName, n)], out := ["Could not start " ++ serverName ++ "\n"],
        code := some 4 }
    else
      let h := exec (stateChanged serverName) { ret := ret } t.signals
      let this : Outcome := { starts := [(serverName, n)], out := h.out }
      if h.quit then this.andThen (startAll turn h.ret rest) else this

theorem exec_ended (serverName : String) (ret : Int) (t : StartTurn) :
    (exec (stateChanged serverName) { ret := ret } t.signals).quit = t.ended := by
  refine exec_quit (fun h c => ?_) rfl t.signals
  unfold stateChanged
  cases c.state <;> simp

theorem startAll_cons (turn : Nat → StartTurn) (ret : Int) (e : String × Nat)
    (rest : List (String × Nat)) :
    ∃ out, startAll turn ret (e :: rest) =
      Outcome.andThen { starts := if (turn e.2).down then [e] else [], out := out }
        (if !(turn e.2).down then { code := some 0 }
        else if (turn e.2).refused then { code := some 4 }
        else if (turn e.2).hangs then {}
        else startAll turn (exec (stateChanged e.1) { ret := ret } (turn e.2).signals).ret rest) := by
  obtain ⟨serverName, n⟩ := e
  have wait := exec_ended serverName ret (turn n)
  obtain down | up := Bool.eq_false_or_eq_true (turn n).down
  · obtain started | refused := Bool.eq_false_or_eq_true (turn n).started
    · obtain ended | hangs := Bool.eq_false_or_eq_true (turn n).ended
      · exact ⟨(exec (stateChanged serverName) { ret := ret } (turn n).signals).out, by
          simp [startAll, StartTurn.hangs, StartTurn.refused, down, started, wait, ended]⟩
      · exact ⟨(exec (stateChanged serverName) { ret := ret } (turn n).signals).out, by
          simp [startAll, StartTurn.hangs, StartTurn.refused, Outcome.andThen,
            down, started, wait, hangs]⟩
    · exact ⟨["Could not start " ++ serverName ++ "\n"], by
        simp [startAll, StartTurn.refused, Outcome.andThen, down, refused]⟩
  · exact ⟨["Server " ++ serverName ++ " is already running\n"], by
      simp [startAll, Outcome.andThen, up]⟩

/-- The loop calls `start()` for the entries that are down, and comes to no
other once one is up, refuses to start or never answers. -/
theorem startAll_starts (turn : Nat → StartTurn) (ret : Int) (entries : List (String × Nat)) :
    (startAll turn ret entries).starts =
      (reached (fun e => !(turn e.2).down || (turn e.2).hangs || (turn e.2).refused) entries).filter
        fun e => (turn e.2).down := by
  induction entries generalizing ret with
  | nil => rfl
  | cons e rest ih =>
    obtain ⟨out, turned⟩ := startAll_cons turn ret e rest
    rw [turned]
    cases down : (turn e.2).down <;> cases refused : (turn e.2).refused <;>
      cases hangs : (turn e.2).hangs <;> simp [reached, Outcome.andThen, down, refused, hangs, ih]

theorem startAll_stops (turn : Nat → StartTurn) (ret : Int) (entries : List (String × Nat)) :
    (startAll turn ret entries).stops = [] := by
  induction entries generalizing ret with
  | nil => rfl
  | cons e rest ih =>
    obtain ⟨out, turned⟩ := startAll_cons turn ret e rest
    rw [turned]
    cases down : (turn e.2).down <;> cases refused : (turn e.2).refused <;>
      cases hangs : (turn e.2).hangs <;> simp [Outcome.andThen, ih]

/-- `showHelp(1)` exits. -/
def execute (args : List String) (d : Answers StartTurn) : Outcome :=
  if args = [] then { code := some 1 }
  else match validate d args.zipIdx with
    | some rejected => rejected
    | none => startAll d.turn 0 args.zipIdx

theorem execute_accepted {args : List String} {d : Answers StartTurn} (accept : d.Accept args) :
    execute args d = startAll d.turn 0 args.zipIdx := by
  rw [execute, if_neg accept.1, validate_accepted accept.2]

/-- Of any other list, no server is started, and the exit code is not 0. -/
theorem execute_rejected {args : List String} {d : Answers StartTurn} (reject : ¬ d.Accept args) :
    (execute args d).starts = [] ∧ (execute args d).code ≠ some 0 := by
  unfold execute
  by_cases empty : args = []
  · rw [if_pos empty]
    exact ⟨rfl, by decide⟩
  · obtain ⟨out, code, rejected, error⟩ := validate_rejected fun accept => reject ⟨empty, accept⟩
    rw [if_neg empty, rejected]
    exact ⟨rfl, by simpa using error⟩

end StartCommand

structure StopTurn where
  first : State
  second : State
  playerCount : Int
  answer : Char
  signals : List (List Change)

def StopTurn.down (t : StopTurn) : Bool :=
  t.first == .offline || t.second == .crashed

/-- A signal arrives that ends the wait. -/
def StopTurn.ended (t : StopTurn) : Bool :=
  t.signals.any (·.any fun c => c.state == .offline || c.state == .crashed)

def StopTurn.asked (t : StopTurn) : Bool :=
  decide (0 < t.playerCount)

def StopTurn.question (t : StopTurn) : List String :=
  if t.asked then
    ["There are players currently connected to the server. Stop the server anyway? (y/n) "]
  else []

def StopTurn.declined (t : StopTurn) : Bool :=
  t.asked && t.answer != 'y'

def StopTurn.stopped (t : StopTurn) : Bool :=
  !t.down && !t.declined

/-- `stop()` is called, and the wait for the server never ends. -/
def StopTurn.hangs (t : StopTurn) : Bool :=
  t.stopped && !t.ended

namespace StopCommand

def stateChanged (serverName : String) (h : Handler) (c : Change) : Handler :=
  match c.state with
  | .offline => { ret := 0, quit := true, out := h.out ++ ["stopped.\n"] }
  | .shuttingDown => { h with out := h.out ++ ["Shutting down \"" ++ serverName ++ "\"... "] }
  | .crashed => { ret := 5, quit := true, out := h.out ++ ["FAILED\n"] }
  | _ => h

/-- The second loop. `ret` is local to a server and nothing reads it. -/
def stopAll (turn : Nat → StopTurn) : List (String × Nat) → Outcome
  | [] => { code := some 0 }
  | (serverName, n) :: rest =>
    let t := turn n
    if t.down then
      { out := ["Server " ++ serverName ++ " is offline.\n"], code := some 0 }
    else
      if t.declined then Outcome.andThen { out := t.question } (stopAll turn rest)
      else
        let h := exec (stateChanged serverName) {} t.signals
        let this : Outcome := { stops := [(serverName, n)], out := t.question ++ h.out }
        if h.quit then this.andThen (stopAll turn rest) else this

def execute (args : List String) (d : Answers StopTurn) : Outcome :=
  if args = [] then { code := some 1 }
  else match validate d args.zipIdx with
    | some rejected => rejected
    | none => stopAll d.turn args.zipIdx

theorem execute_accepted {args : List String} {d : Answers StopTurn} (accept : d.Accept args) :
    execute args d = stopAll d.turn args.zipIdx := by
  rw [execute, if_neg accept.1, validate_accepted accept.2]

/-- Of any other list, no server is stopped, and the exit code is not 0. -/
theorem execute_rejected {args : List String} {d : Answers StopTurn} (reject : ¬ d.Accept args) :
    (execute args d).stops = [] ∧ (execute args d).starts = [] ∧
      (execute args d).code ≠ some 0 := by
  unfold execute
  by_cases empty : args = []
  · rw [if_pos empty]
    exact ⟨rfl, rfl, by decide⟩
  · obtain ⟨out, code, rejected, error⟩ := validate_rejected fun accept => reject ⟨empty, accept⟩
    rw [if_neg empty, rejected]
    exact ⟨rfl, rfl, by simpa using error⟩

theorem exec_ended (serverName : String) (t : StopTurn) :
    (exec (stateChanged serverName) {} t.signals).quit = t.ended := by
  refine exec_quit (fun h c => ?_) rfl t.signals
  unfold stateChanged
  cases c.state <;> simp

theorem stopAll_cons (turn : Nat → StopTurn) (e : String × Nat) (rest : List (String × Nat)) :
    ∃ out, stopAll turn (e :: rest) =
      Outcome.andThen { stops := if (turn e.2).stopped then [e] else [], out := out }
        (if (turn e.2).down then { code := some 0 }
        else if (turn e.2).hangs then {}
        else stopAll turn rest) := by
  obtain ⟨serverName, n⟩ := e
  have wait := exec_ended serverName (turn n)
  obtain down | up := Bool.eq_false_or_eq_true (turn n).down
  · exact ⟨["Server " ++ serverName ++ " is offline.\n"], by
      simp [stopAll, StopTurn.stopped, Outcome.andThen, down]⟩
  · obtain declined | wanted := Bool.eq_false_or_eq_true (turn n).declined
    · exact ⟨(turn n).question, by
        simp [stopAll, StopTurn.hangs, StopTurn.stopped, up, declined]⟩
    · obtain ended | hangs := Bool.eq_false_or_eq_true (turn n).ended
      · exact ⟨(turn n).question ++ (exec (stateChanged serverName) {} (turn n).signals).out, by
          simp [stopAll, StopTurn.hangs, StopTurn.stopped, up, wanted, wait, ended]⟩
      · exact ⟨(turn n).question ++ (exec (stateChanged serverName) {} (turn n).signals).out, by
          simp [stopAll, StopTurn.hangs, StopTurn.stopped, Outcome.andThen, up, wanted, wait, hangs]⟩

/-- The loop calls `stop()` for the entries that are up and not declined, and
comes to no other once one is down or does not go down. -/
theorem stopAll_stops (turn : Nat → StopTurn) (entries : List (String × Nat)) :
    (stopAll turn entries).stops =
      (reached (fun e => (turn e.2).down || (turn e.2).hangs) entries).filter
        fun e => (turn e.2).stopped := by
  induction entries with
  | nil => rfl
  | cons e rest ih =>
    obtain ⟨out, turned⟩ := stopAll_cons turn e rest
    rw [turned]
    cases down : (turn e.2).down <;> cases hangs : (turn e.2).hangs <;>
      cases stopped : (turn e.2).stopped <;>
      simp [reached, Outcome.andThen, down, hangs, stopped, ih]

theorem stopAll_starts (turn : Nat → StopTurn) (entries : List (String × Nat)) :
    (stopAll turn entries).starts = [] := by
  induction entries with
  | nil => rfl
  | cons e rest ih =>
    obtain ⟨out, turned⟩ := stopAll_cons turn e rest
    rw [turned]
    cases down : (turn e.2).down <;> cases hangs : (turn e.2).hangs <;>
      simp [Outcome.andThen, ih]

/-- The loop ends, with 0, unless it waits for ever for a server that is not
behind one that is down. -/
theorem stopAll_code (turn : Nat → StopTurn) (entries : List (String × Nat)) :
    (stopAll turn entries).code = some 0 ↔
      ∀ e ∈ reached (fun e => (turn e.2).down) entries, (turn e.2).hangs = false := by
  induction entries with
  | nil => simp [stopAll, reached]
  | cons e rest ih =>
    obtain ⟨out, turned⟩ := stopAll_cons turn e rest
    rw [turned]
    have stays : (turn e.2).down = true → (turn e.2).hangs = false := by
      intro down
      simp [StopTurn.hangs, StopTurn.stopped, down]
    cases down : (turn e.2).down with
    | true => simp [reached, Outcome.andThen, down, stays]
    | false =>
      cases hangs : (turn e.2).hangs <;> simp [reached, Outcome.andThen, down, hangs, ih]

end StopCommand

/-- Both commands validate the list, and find the servers in a state of their own. -/
def RestartCommand.execute (args : List String) (stopping : Answers StopTurn)
    (starting : Answers StartTurn) : Outcome :=
  let stop := StopCommand.execute args stopping
  if stop.code = some 0 then stop.andThen (StartCommand.execute args starting) else stop

end Morgoth
