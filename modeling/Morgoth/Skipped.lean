import Morgoth.Commands

/-!
# Servers that a command skips

The loops of `start` and `stop` return at the first server that needs no
action, and `stop` goes on only behind one that is declined. What stands behind
that server is not looked at.

* `skips_none_iff`: the lists that each of the three commands works off.
-/

namespace Morgoth

/-- The server is starting or running when it has its turn. -/
def StopTurn.live (t : StopTurn) : Prop :=
  t.first ≠ .offline ∧ (t.second = .starting ∨ t.second = .running)

def StopTurn.wanted (t : StopTurn) : Prop :=
  t.live ∧ t.declined = false

namespace StartCommand

/-- `start()` is called for every server that is down, unless it has failed for
an earlier one. -/
def SkipsNone (args : List String) (d : Answers StartTurn) : Prop :=
  DoneUntil (fun e => !(d.turn e.2).started) (fun e => (d.turn e.2).down = true) args.zipIdx
    (execute args d).starts

/-- The entries up to the first one that `start()` fails for. -/
def considered (args : List String) (d : Answers StartTurn) : List (String × Nat) :=
  reached (fun e => (d.turn e.2).refused) args.zipIdx

/-- No server that is down is listed behind one that is up, or that the command
waits for in vain. -/
def NoneBehind (args : List String) (d : Answers StartTurn) : Prop :=
  (considered args d).Pairwise fun x y =>
    (d.turn x.2).down = false ∨ (d.turn x.2).hangs = true → (d.turn y.2).down = false

end StartCommand

namespace StopCommand

def SkipsNone (args : List String) (d : Answers StopTurn) : Prop :=
  ∀ e ∈ args.zipIdx, (d.turn e.2).wanted → e ∈ (execute args d).stops

/-- No server to stop is listed behind one that is down, or that the command
waits for in vain. -/
def NoneBehind (args : List String) (d : Answers StopTurn) : Prop :=
  args.zipIdx.Pairwise fun x y =>
    (d.turn x.2).down = true ∨ (d.turn x.2).hangs = true → ¬ (d.turn y.2).wanted

/-- The command does not wait in vain, unless behind a server that is down. -/
def Ends (args : List String) (d : Answers StopTurn) : Prop :=
  ∀ e ∈ reached (fun e => (d.turn e.2).down) args.zipIdx, (d.turn e.2).hangs = false

end StopCommand

namespace RestartCommand

/-- `stop()` is called for every live server that is not declined, and then
`start()` for every server, unless it has failed for an earlier one. -/
def SkipsNone (args : List String) (stopping : Answers StopTurn)
    (starting : Answers StartTurn) : Prop :=
  (∀ e ∈ args.zipIdx, (stopping.turn e.2).wanted → e ∈ (execute args stopping starting).stops) ∧
    DoneUntil (fun e => !(starting.turn e.2).started) (fun _ => True) args.zipIdx
      (execute args stopping starting).starts

/-- Every server is down when its turn to start comes, and only the wait for the
last one may be in vain. -/
def AllDown (args : List String) (d : Answers StartTurn) : Prop :=
  (∀ e ∈ StartCommand.considered args d, (d.turn e.2).down = true) ∧
    (StartCommand.considered args d).Pairwise fun x _ => (d.turn x.2).hangs = false

end RestartCommand

variable {args : List String} {stopping : Answers StopTurn} {starting : Answers StartTurn}

/-- What `start` does, for any part of the entries that it should start. -/
theorem startAll_doneUntil (args : List String) (d : Answers StartTurn)
    (wants : String × Nat → Prop) (wanted : ∀ e, (d.turn e.2).down = true → wants e) :
    DoneUntil (fun e => !(d.turn e.2).started) wants args.zipIdx
        (StartCommand.startAll d.turn 0 args.zipIdx).starts ↔
      (∀ e ∈ StartCommand.considered args d, wants e → (d.turn e.2).down = true) ∧
        (StartCommand.considered args d).Pairwise fun x y =>
          (d.turn x.2).down = false ∨ (d.turn x.2).hangs = true → ¬ wants y := by
  let down : String × Nat → Bool := fun e => (d.turn e.2).down
  let blocks : String × Nat → Bool := fun e => !(d.turn e.2).down || (d.turn e.2).hangs
  have starts : (StartCommand.startAll d.turn 0 args.zipIdx).starts =
      (reached blocks (StartCommand.considered args d)).filter down := by
    rw [StartCommand.considered, reached_reached]
    exact StartCommand.startAll_starts d.turn 0 args.zipIdx
  have acted : ∀ e ∈ (StartCommand.startAll d.turn 0 args.zipIdx).starts, down e = true := by
    intro e mem
    rw [starts] at mem
    exact (List.mem_filter.1 mem).2
  have distinct : (StartCommand.considered args d).Nodup := reached_nodup (zipIdx_nodup args)
  have worked : (∀ e ∈ StartCommand.considered args d, wants e →
        e ∈ (reached blocks (StartCommand.considered args d)).filter down) ↔
      (∀ e ∈ StartCommand.considered args d, wants e → down e = true) ∧
        (StartCommand.considered args d).Pairwise fun x y => blocks x = true → ¬ wants y :=
    wanted_acted_iff distinct
  simp only [blocks, down, Bool.or_eq_true, Bool.not_eq_true'] at worked
  rw [doneUntil_iff acted wanted, starts]
  exact worked

theorem start_skipsNone_iff (accept : starting.Accept args) :
    StartCommand.SkipsNone args starting ↔ StartCommand.NoneBehind args starting := by
  unfold StartCommand.SkipsNone StartCommand.NoneBehind
  rw [StartCommand.execute_accepted accept, startAll_doneUntil args starting _ fun _ down => down]
  simp

theorem stopAll_all_iff :
    (∀ e ∈ args.zipIdx, (stopping.turn e.2).wanted →
        e ∈ (StopCommand.stopAll stopping.turn args.zipIdx).stops) ↔
      StopCommand.NoneBehind args stopping := by
  rw [StopCommand.stopAll_stops, wanted_acted_iff (zipIdx_nodup args)]
  have stopped : ∀ e ∈ args.zipIdx, (stopping.turn e.2).wanted →
      (stopping.turn e.2).stopped = true := by
    rintro e - ⟨⟨up, state⟩, wanted⟩
    rcases state with state | state <;>
      simp [StopTurn.stopped, StopTurn.down, up, state, wanted]
  simp only [StopCommand.NoneBehind, Bool.or_eq_true]
  exact ⟨And.right, fun behind => ⟨stopped, behind⟩⟩

theorem stop_skipsNone_iff (accept : stopping.Accept args) :
    StopCommand.SkipsNone args stopping ↔ StopCommand.NoneBehind args stopping := by
  unfold StopCommand.SkipsNone
  rw [StopCommand.execute_accepted accept, stopAll_all_iff]

theorem restart_skipsNone_iff (stops : stopping.Accept args) (starts : starting.Accept args) :
    RestartCommand.SkipsNone args stopping starting ↔
      StopCommand.NoneBehind args stopping ∧ StopCommand.Ends args stopping ∧
        RestartCommand.AllDown args starting := by
  unfold RestartCommand.SkipsNone RestartCommand.execute
  simp only [StopCommand.execute_accepted stops, StartCommand.execute_accepted starts]
  by_cases ended : (StopCommand.stopAll stopping.turn args.zipIdx).code = some 0
  · have ends : StopCommand.Ends args stopping := (StopCommand.stopAll_code _ _).1 ended
    have all := startAll_doneUntil args starting (fun _ => True) fun _ _ => trivial
    have startsNone : (StartCommand.startAll starting.turn 0 args.zipIdx).stops = [] :=
      StartCommand.startAll_stops _ _ _
    simp only [if_pos ended, Outcome.andThen, StopCommand.stopAll_starts, startsNone,
      List.nil_append, List.append_nil, stopAll_all_iff, all]
    simp only [RestartCommand.AllDown, true_implies, not_true, imp_false, not_or]
    have last : (∀ e ∈ StartCommand.considered args starting, (starting.turn e.2).down = true) →
        ((StartCommand.considered args starting).Pairwise (fun x _ =>
            ¬ (starting.turn x.2).down = false ∧ ¬ (starting.turn x.2).hangs = true) ↔
          (StartCommand.considered args starting).Pairwise fun x _ =>
            (starting.turn x.2).hangs = false) := by
      intro down
      refine List.Pairwise.iff_of_mem fun {x y} mem _ => ?_
      simp [down x mem]
    constructor
    · rintro ⟨stopped, down, waits⟩
      exact ⟨stopped, ends, down, (last down).1 waits⟩
    · rintro ⟨stopped, -, down, waits⟩
      exact ⟨stopped, down, (last down).2 waits⟩
  · -- nothing is started, not even the first server of the list
    have hangs : ¬ StopCommand.Ends args stopping :=
      fun ends => ended ((StopCommand.stopAll_code _ _).2 ends)
    simp only [if_neg ended, StopCommand.stopAll_starts]
    constructor
    · rintro ⟨-, all⟩
      obtain ⟨name, rest, rfl⟩ := List.exists_cons_of_ne_nil stops.1
      exact absurd (all [] (name, 0) _ rfl (fun _ none => absurd none List.not_mem_nil) trivial)
        List.not_mem_nil
    · rintro ⟨-, ends, -⟩
      exact absurd ends hangs

/-- Each command leaves out no server exactly where none that it should act on
is listed behind one that makes it return, or wait for ever. -/
theorem skips_none_iff (stops : stopping.Accept args) (starts : starting.Accept args) :
    (StartCommand.SkipsNone args starting ↔ StartCommand.NoneBehind args starting) ∧
      (StopCommand.SkipsNone args stopping ↔ StopCommand.NoneBehind args stopping) ∧
      (RestartCommand.SkipsNone args stopping starting ↔
        StopCommand.NoneBehind args stopping ∧ StopCommand.Ends args stopping ∧
          RestartCommand.AllDown args starting) :=
  ⟨start_skipsNone_iff starts, stop_skipsNone_iff stops, restart_skipsNone_iff stops starts⟩

/-- A server to start that is up, and one that is down and starts. -/
def upToStart : StartTurn := ⟨.running, .running, false, []⟩

def downToStart : StartTurn := ⟨.offline, .offline, true, [[⟨.starting, ""⟩], [⟨.running, ""⟩]]⟩

/-- A server to stop that is down, and one that is up with nobody on it. -/
def downToStop : StopTurn := ⟨.offline, .offline, 0, 'n', []⟩

def upToStop : StopTurn :=
  ⟨.running, .running, 0, 'n', [[⟨.shuttingDown, ""⟩], [⟨.offline, ""⟩]]⟩

/-- Two valid servers. -/
def Answers.two {τ : Type} (first second : τ) : Answers τ :=
  ⟨["tf2", "dods"], fun _ => true, fun n => if n = 0 then first else second⟩

theorem Answers.two_accept {τ : Type} (first second : τ) :
    (Answers.two first second).Accept ["tf2", "dods"] := by
  simp [Answers.Accept, Answers.two]

theorem skips_none_iff_two :
    StartCommand.SkipsNone ["tf2", "dods"] (.two downToStart downToStart) ∧
      StopCommand.SkipsNone ["tf2", "dods"] (.two upToStop upToStop) ∧
      RestartCommand.SkipsNone ["tf2", "dods"] (.two upToStop upToStop)
        (.two downToStart downToStart) := by
  have behind : StopCommand.NoneBehind ["tf2", "dods"] (.two upToStop upToStop) := by
    simp [StopCommand.NoneBehind, Answers.two, upToStop, StopTurn.down, StopTurn.hangs,
      StopTurn.ended]
  have ends : StopCommand.Ends ["tf2", "dods"] (.two upToStop upToStop) := by
    simp [StopCommand.Ends, Answers.two, reached, upToStop, StopTurn.hangs, StopTurn.ended]
  have down : RestartCommand.AllDown ["tf2", "dods"] (.two downToStart downToStart) := by
    simp [RestartCommand.AllDown, StartCommand.considered, Answers.two, reached, downToStart,
      StartTurn.refused, StartTurn.down, StartTurn.hangs, StartTurn.ended]
  have free : StartCommand.NoneBehind ["tf2", "dods"] (.two downToStart downToStart) := by
    simp [StartCommand.NoneBehind, StartCommand.considered, Answers.two, reached, downToStart,
      StartTurn.refused, StartTurn.down, StartTurn.hangs, StartTurn.ended]
  obtain ⟨start, stop, restart⟩ :=
    skips_none_iff (Answers.two_accept upToStop upToStop) (Answers.two_accept downToStart downToStart)
  exact ⟨start.2 free, stop.2 behind, restart.2 ⟨behind, ends, down⟩⟩

/-- The first server needs no action, and the second one gets none. -/
theorem first_server_hides_second :
    (Answers.two upToStart downToStart).Accept ["tf2", "dods"] ∧
      ¬ StartCommand.SkipsNone ["tf2", "dods"] (.two upToStart downToStart) ∧
      (Answers.two downToStop upToStop).Accept ["tf2", "dods"] ∧
      ¬ StopCommand.SkipsNone ["tf2", "dods"] (.two downToStop upToStop) ∧
      ¬ RestartCommand.SkipsNone ["tf2", "dods"] (.two downToStop upToStop)
        (.two downToStart upToStart) := by
  have live : upToStop.wanted := ⟨⟨by decide, .inr rfl⟩, rfl⟩
  refine ⟨Answers.two_accept _ _, fun all => ?_, Answers.two_accept _ _, fun all => ?_,
    fun all => ?_⟩
  · have called := all [("tf2", 0)] ("dods", 1) [] rfl (fun b mem made => by cases made) rfl
    cases called
  · have called := all ("dods", 1) (by decide) live
    cases called
  · have called := all.1 ("dods", 1) (by decide) live
    cases called

end Morgoth
