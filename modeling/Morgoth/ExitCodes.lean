import Morgoth.Skipped

/-!
# The exit codes of the commands

`start` keeps one result for all servers, which each of them overwrites and an
early return forgets; `stop` keeps one for each server and never looks at it.

* `startAll_code`: the last server that `start` comes to decides alone;
* `exit_codes_iff`: the lists after which each command tells of a crash.
-/

namespace Morgoth

/-- The last of the deciding signals in the pass that ends a wait. -/
def settling (quits : Change → Bool) (passes : List (List Change)) : Option Change :=
  (passes.find? (·.any quits)).bind fun pass => (pass.filter quits).getLast?

/-- A wait leaves what the handler makes of that signal. -/
theorem exec_ret {stateChanged : Handler → Change → Handler} (quits : Change → Bool)
    (value : Change → Int) (quit : ∀ h c, (stateChanged h c).quit = (h.quit || quits c))
    (ret : ∀ h c, (stateChanged h c).ret = if quits c then value c else h.ret) {h : Handler}
    (waiting : h.quit = false) (passes : List (List Change)) :
    (exec stateChanged h passes).ret = ((settling quits passes).map value).getD h.ret := by
  have delivered : ∀ (pass : List Change) (h : Handler),
      (pass.foldl stateChanged h).quit = (h.quit || pass.any quits) ∧
        (pass.foldl stateChanged h).ret = ((pass.filter quits).getLast?.map value).getD h.ret := by
    intro pass
    induction pass with
    | nil => simp
    | cons c pass ih =>
      intro h
      obtain ⟨quit', ret'⟩ := ih (stateChanged h c)
      rw [List.foldl_cons, quit', ret', quit, ret]
      refine ⟨by simp [Bool.or_assoc], ?_⟩
      cases decides : quits c with
      | false => simp [decides]
      | true =>
        rw [List.filter_cons_of_pos decides, List.getLast?_cons]
        cases (pass.filter quits).getLast? <;> simp
  induction passes generalizing h with
  | nil => rfl
  | cons pass later ih =>
    obtain ⟨now, left⟩ := delivered pass h
    rw [waiting, Bool.false_or] at now
    simp only [exec, settling, List.find?_cons]
    cases ended : pass.any quits with
    | true =>
      rw [ended] at now
      simp [now, left]
    | false =>
      rw [ended] at now
      have none_decides : pass.filter quits = [] := by
        simpa [List.filter_eq_nil_iff] using ended
      rw [none_decides] at left
      simp only [now, Bool.false_eq_true, if_false]
      rw [ih now, left]
      rfl

theorem settling_some {quits : Change → Bool} {passes : List (List Change)}
    (ended : passes.any (·.any quits) = true) : ∃ c, settling quits passes = some c := by
  obtain ⟨pass, found⟩ := Option.isSome_iff_exists.1
    (List.find?_isSome.2 (List.any_eq_true.1 ended))
  have some_decides : pass.any quits = true := by simpa using List.find?_some found
  obtain ⟨c, mem, decides⟩ := List.any_eq_true.1 some_decides
  have deciding : pass.filter quits ≠ [] := List.ne_nil_of_mem (List.mem_filter.2 ⟨mem, decides⟩)
  refine ⟨(pass.filter quits).getLast deciding, ?_⟩
  rw [settling, found, Option.bind_some, List.getLast?_eq_some_getLast]

/-! ## start -/

/-- A `Crashed` arrives before the wait ends. -/
def StartTurn.reportsCrashed (t : StartTurn) : Bool :=
  (t.signals.find? (·.any fun c => c.state == .running || c.state == .crashed)).any
    (·.any fun c => c.state == .crashed)

/-- The wait ends with `Crashed`. -/
def StartTurn.endsCrashed (t : StartTurn) : Bool :=
  (settling (fun c => c.state == .running || c.state == .crashed) t.signals).any
    fun c => c.state == .crashed

/-- The exit code if the loop comes to no other server. -/
def StartTurn.exit (t : StartTurn) : Option Int :=
  if !t.down then some 0
  else if t.refused then some 4
  else if t.hangs then none
  else some (if t.endsCrashed then 5 else 0)

namespace StartCommand

theorem exec_settled (serverName : String) (ret : Int) {t : StartTurn} (ended : t.ended = true) :
    (exec (stateChanged serverName) { ret := ret } t.signals).ret =
      if t.endsCrashed then 5 else 0 := by
  have left : (exec (stateChanged serverName) { ret := ret } t.signals).ret = _ :=
    exec_ret (fun c => c.state == .running || c.state == .crashed)
      (fun c => if c.state == .crashed then 5 else 0)
      (fun h c => by unfold stateChanged; cases c.state <;> simp)
      (fun h c => by unfold stateChanged; cases c.state <;> simp) rfl t.signals
  obtain ⟨c, settled⟩ := settling_some ended
  rw [left, StartTurn.endsCrashed, settled]
  simp

/-- The entries that the second loop comes to. -/
def visited (args : List String) (d : Answers StartTurn) : List (String × Nat) :=
  reached (fun e => !(d.turn e.2).down || (d.turn e.2).hangs || (d.turn e.2).refused) args.zipIdx

theorem startAll_code (turn : Nat → StartTurn) (ret : Int) (entries : List (String × Nat)) :
    (startAll turn ret entries).code =
      ((reached (fun e => !(turn e.2).down || (turn e.2).hangs || (turn e.2).refused)
        entries).getLast?.map fun e => (turn e.2).exit).getD (some ret) := by
  induction entries generalizing ret with
  | nil => rfl
  | cons e rest ih =>
    obtain ⟨out, turned⟩ := startAll_cons turn ret e rest
    rw [turned]
    cases down : (turn e.2).down with
    | false => simp [reached, Outcome.andThen, StartTurn.exit, down]
    | true =>
      cases refused : (turn e.2).refused with
      | true => simp [reached, Outcome.andThen, StartTurn.exit, down, refused]
      | false =>
        cases hangs : (turn e.2).hangs with
        | true => simp [reached, Outcome.andThen, StartTurn.exit, down, refused, hangs]
        | false =>
          have ended : (turn e.2).ended = true := by
            simp only [StartTurn.refused, down, Bool.true_and, Bool.not_eq_false'] at refused
            simpa [StartTurn.hangs, down, refused] using hangs
          have exit : (turn e.2).exit = some (if (turn e.2).endsCrashed then 5 else 0) := by
            simp [StartTurn.exit, down, refused, hangs]
          simp only [reached, Outcome.andThen, down, refused, hangs, Bool.not_true, Bool.or_self,
            Bool.false_eq_true, if_false, ih, exec_settled e.1 ret ended, List.getLast?_cons]
          cases (reached (fun e => !(turn e.2).down || (turn e.2).hangs || (turn e.2).refused)
            rest).getLast? with
          | none => simp [exit]
          | some last => simp

theorem exit_ne_zero (t : StartTurn) :
    t.exit ≠ some 0 ↔
      t.refused = true ∨ t.hangs = true ∨ (t.down = true ∧ t.endsCrashed = true) := by
  unfold StartTurn.exit
  cases down : t.down with
  | false => simp [StartTurn.refused, StartTurn.hangs, down]
  | true =>
    cases t.refused <;> cases t.hangs <;> cases t.endsCrashed <;> simp

/-- A crash that the command has waited for does not end in exit code 0. -/
def Truthful (args : List String) (d : Answers StartTurn) : Prop :=
  ∀ e ∈ (execute args d).starts, (d.turn e.2).started = true →
    (d.turn e.2).reportsCrashed = true → (execute args d).code ≠ some 0

/-- Where a server reports a crash, the last one that the loop comes to refuses
to start, is waited for in vain, or crashes as well. -/
def CrashIsLast (args : List String) (d : Answers StartTurn) : Prop :=
  d.Accept args → ∀ e ∈ visited args d, (d.turn e.2).down = true → (d.turn e.2).started = true →
    (d.turn e.2).reportsCrashed = true → ∀ last ∈ (visited args d).getLast?,
      (d.turn last.2).refused = true ∨ (d.turn last.2).hangs = true ∨
        ((d.turn last.2).down = true ∧ (d.turn last.2).endsCrashed = true)

theorem exitCode_iff (args : List String) (d : Answers StartTurn) :
    Truthful args d ↔ CrashIsLast args d := by
  unfold Truthful CrashIsLast
  by_cases accept : d.Accept args
  · have code : (execute args d).code =
        ((visited args d).getLast?.map fun e => (d.turn e.2).exit).getD (some 0) := by
      rw [execute_accepted accept, startAll_code]
      rfl
    have starts : (execute args d).starts =
        (visited args d).filter fun e => (d.turn e.2).down := by
      rw [execute_accepted accept, startAll_starts]
      rfl
    rw [code, starts, forall_prop_of_true accept]
    cases ending : (visited args d).getLast? with
    | none => simp [List.getLast?_eq_none_iff.1 ending]
    | some last =>
      simp only [List.mem_filter, and_imp, Option.map_some, Option.getD_some, exit_ne_zero,
        Option.mem_some, forall_eq']
  · simp [(execute_rejected accept).1, accept]

theorem execute_stops (args : List String) (d : Answers StartTurn) : (execute args d).stops = [] := by
  unfold execute
  by_cases empty : args = []
  · rw [if_pos empty]
  · rw [if_neg empty]
    by_cases accept : ∀ e ∈ args.zipIdx, e.1 ∈ d.servers ∧ d.valid e.2 = true
    · rw [validate_accepted accept]
      exact startAll_stops d.turn 0 args.zipIdx
    · obtain ⟨out, code, rejected, -⟩ := validate_rejected accept
      rw [rejected]

/-- Whether anything is started is up to the first server. -/
theorem starts_nil {args : List String} (some : args ≠ []) (d : Answers StartTurn) :
    (execute args d).starts = [] ↔ ¬ d.Accept args ∨ (d.turn 0).down = false := by
  by_cases accept : d.Accept args
  · obtain ⟨name, rest, rfl⟩ := List.exists_cons_of_ne_nil some
    rw [execute_accepted accept, startAll_starts]
    cases down : (d.turn 0).down <;> simp [reached, down, accept]
  · exact iff_of_true (execute_rejected accept).1 (Or.inl accept)

end StartCommand

/-! ## stop -/

/-- A `Crashed` arrives before the wait ends. -/
def StopTurn.reportsCrashed (t : StopTurn) : Bool :=
  (t.signals.find? (·.any fun c => c.state == .offline || c.state == .crashed)).any
    (·.any fun c => c.state == .crashed)

/-- The wait ends with `Crashed`. -/
def StopTurn.endsCrashed (t : StopTurn) : Bool :=
  (settling (fun c => c.state == .offline || c.state == .crashed) t.signals).any
    fun c => c.state == .crashed

namespace StopCommand

def visited (args : List String) (d : Answers StopTurn) : List (String × Nat) :=
  reached (fun e => (d.turn e.2).down || (d.turn e.2).hangs) args.zipIdx

def Truthful (args : List String) (d : Answers StopTurn) : Prop :=
  ∀ e ∈ (execute args d).stops, (d.turn e.2).reportsCrashed = true →
    (execute args d).code ≠ some 0

/-- The command does not return: it waits in vain for a server that is not
behind one that is down. -/
def Hangs (args : List String) (d : Answers StopTurn) : Prop :=
  ∃ e ∈ reached (fun e => (d.turn e.2).down) args.zipIdx, (d.turn e.2).hangs = true

/-- No server that is stopped reports a crash, unless the command hangs. -/
def NoCrash (args : List String) (d : Answers StopTurn) : Prop :=
  d.Accept args → ∀ e ∈ visited args d, (d.turn e.2).stopped = true →
    (d.turn e.2).reportsCrashed = true → Hangs args d

theorem mem_stops {args : List String} {d : Answers StopTurn} (accept : d.Accept args)
    {e : String × Nat} :
    e ∈ (execute args d).stops ↔ e ∈ visited args d ∧ (d.turn e.2).stopped = true := by
  rw [execute_accepted accept, stopAll_stops]
  exact List.mem_filter

theorem hangs_iff {args : List String} {d : Answers StopTurn} (accept : d.Accept args) :
    (execute args d).code ≠ some 0 ↔ Hangs args d := by
  rw [execute_accepted accept, ne_eq, stopAll_code]
  simp [Hangs]

theorem exitCode_iff (args : List String) (d : Answers StopTurn) :
    Truthful args d ↔ NoCrash args d := by
  unfold Truthful NoCrash
  by_cases accept : d.Accept args
  · simp only [mem_stops accept, hangs_iff accept, forall_prop_of_true accept, and_imp]
  · simp [(execute_rejected accept).1, accept]

end StopCommand

/-! ## restart -/

namespace RestartCommand

/-- Behind a stop that has ended in a crash, nothing is started. -/
def Truthful (args : List String) (stopping : Answers StopTurn) (starting : Answers StartTurn) :
    Prop :=
  ∀ e ∈ (execute args stopping starting).stops, (stopping.turn e.2).endsCrashed = true →
    (execute args stopping starting).starts = []

/-- No stop ends in a crash, unless the command hangs, or the list is rejected
when it comes to start, or the first server is up then. -/
def NoCrash (args : List String) (stopping : Answers StopTurn) (starting : Answers StartTurn) :
    Prop :=
  stopping.Accept args → ∀ e ∈ StopCommand.visited args stopping,
    (stopping.turn e.2).stopped = true → (stopping.turn e.2).endsCrashed = true →
      StopCommand.Hangs args stopping ∨ ¬ starting.Accept args ∨ (starting.turn 0).down = false

theorem execute_stops (args : List String) (stopping : Answers StopTurn)
    (starting : Answers StartTurn) :
    (execute args stopping starting).stops = (StopCommand.execute args stopping).stops := by
  unfold execute
  simp only
  split
  · simp [Outcome.andThen, StartCommand.execute_stops]
  · rfl

theorem execute_starts {args : List String} {stopping : Answers StopTurn}
    (accept : stopping.Accept args) (starting : Answers StartTurn) :
    (execute args stopping starting).starts = [] ↔
      StopCommand.Hangs args stopping ∨ (StartCommand.execute args starting).starts = [] := by
  have none : (StopCommand.execute args stopping).starts = [] := by
    rw [StopCommand.execute_accepted accept, StopCommand.stopAll_starts]
  rw [← StopCommand.hangs_iff accept]
  unfold execute
  by_cases ended : (StopCommand.execute args stopping).code = some 0
  · simp [ended, Outcome.andThen, none]
  · simp [ended, none]

theorem exitCode_iff (args : List String) (stopping : Answers StopTurn)
    (starting : Answers StartTurn) :
    Truthful args stopping starting ↔ NoCrash args stopping starting := by
  unfold Truthful NoCrash
  rw [execute_stops]
  by_cases accept : stopping.Accept args
  · simp only [StopCommand.mem_stops accept, execute_starts accept,
      StartCommand.starts_nil accept.1, forall_prop_of_true accept, and_imp]
  · simp [(StopCommand.execute_rejected accept).1, accept]

end RestartCommand

/-- Each command tells of a crash exactly where nothing that comes later covers
it: `start` by its last server, `stop` never, and `restart` by not starting. -/
theorem exit_codes_iff (args : List String) (stopping : Answers StopTurn)
    (starting : Answers StartTurn) :
    (StartCommand.Truthful args starting ↔ StartCommand.CrashIsLast args starting) ∧
      (StopCommand.Truthful args stopping ↔ StopCommand.NoCrash args stopping) ∧
      (RestartCommand.Truthful args stopping starting ↔
        RestartCommand.NoCrash args stopping starting) :=
  ⟨StartCommand.exitCode_iff args starting, StopCommand.exitCode_iff args stopping,
    RestartCommand.exitCode_iff args stopping starting⟩

def crashToStart : StartTurn := ⟨.offline, .offline, true, [[⟨.starting, ""⟩], [⟨.crashed, ""⟩]]⟩

def crashToStop : StopTurn :=
  ⟨.running, .running, 0, 'n', [[⟨.shuttingDown, ""⟩], [⟨.crashed, ""⟩]]⟩

/-- The crash of the first server is forgotten when the second one runs, and
that of a server to stop at once. -/
theorem crash_exits_with_zero :
    ¬ StartCommand.Truthful ["tf2", "dods"] (.two crashToStart downToStart) ∧
      ¬ StopCommand.Truthful ["tf2"] (.two crashToStop crashToStop) ∧
      ¬ RestartCommand.Truthful ["tf2"] (.two crashToStop crashToStop)
        (.two downToStart downToStart) := by
  refine ⟨fun truthful => ?_, fun truthful => ?_, fun truthful => ?_⟩
  · exact truthful ("tf2", 0) List.mem_cons_self rfl rfl rfl
  · exact truthful ("tf2", 0) List.mem_cons_self rfl rfl
  · have none := truthful ("tf2", 0) List.mem_cons_self rfl
    cases none

end Morgoth
