import Morgoth.Machine
import Morgoth.Tmux

/-!
# What the calls on a session wrapper report

Every operation asks for the session first, and the answer is a child process
of its own. `exists` looks at its exit status and exit code, which read as
success until the child has finished; `kill` and `setUser` take any other
answer for the absence of the session.

* `truthful_iff`: which answers make a call report what is not so, or change
  the user of a session that is alive.
-/

namespace Morgoth

/-- A command that exits with code 0 has taken effect. -/
def Host.Effective (h : Host) : Prop :=
  ∀ n command session, (h.tmux n command session).1 = .exited 0 →
    (h.tmux n command session).2 = true

/-- `outside` is what happens to the session without the wrapper. -/
inductive TmuxCall
  | create
  | redirectOutput (dest : String)
  | sendKeys (keys : String)
  | kill
  | sessionExists
  | setUser (user : String)
  | outside (session : Bool)

namespace TmuxSessionWrapper

/-- A call, with its result where it has one. -/
def call (h : Host) (t : TmuxSessionWrapper) : TmuxCall → Option Bool × TmuxSessionWrapper
  | .create => ((t.create h).1, (t.create h).2)
  | .redirectOutput dest => ((t.redirectOutput h dest).1, (t.redirectOutput h dest).2)
  | .sendKeys keys => ((t.sendKeys h keys).1, (t.sendKeys h keys).2)
  | .kill => ((t.kill h).1, (t.kill h).2)
  | .sessionExists => ((t.sessionExists h).1, (t.sessionExists h).2)
  | .setUser user => (none, t.setUser h user)
  | .outside session => (none, { t with session := session })

def step (h : Host) (t : TmuxSessionWrapper) (c : TmuxCall) : Option TmuxSessionWrapper :=
  some (t.call h c).2

/-- The child that the next question for the session starts. -/
def answer (h : Host) (t : TmuxSessionWrapper) : ChildResult := (t.runChild h .hasSession).1

/-- The child has finished, and says that there is no session. -/
def Denied : ChildResult → Prop
  | .exited code => code ≠ 0
  | .crashed => True
  | _ => False

/-- What the result of a call promises. -/
def Truthful (h : Host) (t : TmuxSessionWrapper) (c : TmuxCall) : Prop :=
  let result := (t.call h c).1
  let t' := (t.call h c).2
  match c with
  | .sessionExists => result = some true → t.answer h = .exited 0
  | .create => result = some true → t'.session = true
  | .kill => result = some true → t'.session = false
  | .setUser _ => t.session = true → t'.user = t.user
  | _ => True

/-- The question of `exists` ends in time, and the one of `kill`, and of
`setUser` with another user, does not deny a session that is alive. -/
def AnswersRight (h : Host) (t : TmuxSessionWrapper) : TmuxCall → Prop
  | .sessionExists => (t.answer h).waitForFinished = true
  | .kill => t.session = true → ¬ Denied (t.answer h)
  | .setUser user => user ≠ t.user → t.session = true → ¬ Denied (t.answer h)
  | _ => True

variable {h : Host} {t : TmuxSessionWrapper}

theorem sessionExists_denied : (t.sessionExists h).1 = false ↔ Denied (t.answer h) := by
  have result : (t.sessionExists h).1 =
      ((t.answer h).exitStatus == .normalExit && (t.answer h).exitCode == 0) := rfl
  rw [result]
  cases t.answer h with
  | exited code => simp [ChildResult.exitStatus, ChildResult.exitCode, Denied]
  | _ => simp [ChildResult.exitStatus, ChildResult.exitCode, Denied]

theorem sessionExists_true : (t.sessionExists h).1 = true ↔ ¬ Denied (t.answer h) := by
  rw [← sessionExists_denied, Bool.not_eq_false]

theorem succeeded_iff (r : ChildResult) : succeeded r = true ↔ r = .exited 0 := by
  cases r <;> simp [succeeded, ChildResult.waitForFinished, ChildResult.exitStatus,
    ChildResult.exitCode]

/-- A command that is reported to have succeeded leaves the session as it says. -/
theorem runChild_succeeded (effective : h.Effective) (command : TmuxCommand)
    (reported : succeeded (t.runChild h command).1 = true) :
    (t.runChild h command).2.session = command.effect t.session := by
  have exited := (succeeded_iff _).mp reported
  have effect := effective t.spawned.length command t.session exited
  simp only [runChild, effect, if_true]

theorem create_truthful (effective : h.Effective) (created : (t.create h).1 = true) :
    (t.create h).2.session = true := by
  unfold create at created ⊢
  cases asked : t.sessionExists h with
  | mk there t' =>
    rw [asked] at created
    cases there with
    | true => cases created
    | false => exact runChild_succeeded effective .newSession created

/-- A `kill` that reports success has killed the session, or has been told that
there is none. -/
theorem kill_truthful (effective : h.Effective) :
    ((t.kill h).1 = true → (t.kill h).2.session = false) ↔
      (t.session = true → ¬ Denied (t.answer h)) := by
  have kept := sessionExists_session h t
  rw [← sessionExists_true]
  unfold kill
  cases asked : t.sessionExists h with
  | mk there t' =>
    rw [asked] at kept
    cases there with
    | false => simp [← kept]
    | true =>
      apply iff_of_true
      · exact fun killed => runChild_succeeded effective .killSession killed
      · exact fun _ => rfl

theorem setUser_truthful (user : String) :
    (t.session = true → (t.setUser h user).user = t.user) ↔
      (user ≠ t.user → t.session = true → ¬ Denied (t.answer h)) := by
  rw [← sessionExists_true]
  by_cases other : user ≠ t.user
  · have kept : (t.sessionExists h).2.user = t.user := rfl
    unfold setUser
    rw [if_pos other]
    cases asked : t.sessionExists h with
    | mk there t' =>
      rw [asked] at kept
      cases there with
      | true => exact iff_of_true (fun _ => kept) fun _ _ => rfl
      | false => simp [other]
  · have same : t.setUser h user = t := if_neg other
    rw [same]
    exact iff_of_true (fun _ => rfl) fun differs => absurd differs other

/-- A call keeps its promise exactly if the answers it rests on are right. -/
theorem truthful_step (effective : h.Effective) (c : TmuxCall) :
    t.Truthful h c ↔ t.AnswersRight h c := by
  cases c with
  | create =>
    refine iff_of_true (fun created => ?_) trivial
    exact create_truthful effective (Option.some.inj created)
  | kill => simpa [Truthful, call, AnswersRight] using kill_truthful effective
  | setUser user => exact setUser_truthful user
  | sessionExists =>
    have promise : t.Truthful h .sessionExists ↔
        ((t.sessionExists h).1 = true → t.answer h = .exited 0) := by
      simp [Truthful, call]
    rw [promise, sessionExists_true]
    unfold AnswersRight
    cases t.answer h with
    | exited code => simp [Denied, ChildResult.waitForFinished]
    | _ => simp [Denied, ChildResult.waitForFinished]
  | redirectOutput | sendKeys | outside => exact iff_of_true trivial trivial

/-- Along every sequence of calls, each of them keeps its promise exactly if
each finds the answers it rests on right. -/
theorem truthful_iff (effective : h.Effective) (t : TmuxSessionWrapper) (calls : List TmuxCall) :
    Machine.EachStep (step h) (Truthful h) t calls ↔
      Machine.EachStep (step h) (AnswersRight h) t calls := by
  apply Machine.eachStep_congr (A := fun _ => True)
  · exact fun _ _ _ _ _ => trivial
  · exact fun _ c _ _ _ => truthful_step effective c
  · trivial

theorem ideal_effective : Host.ideal.Effective := by
  intro n command session _
  cases command <;> rfl

theorem truthful_iff_ideal :
    Machine.EachStep (step .ideal) (Truthful .ideal) { name := "morgoth" } [.create, .kill] ↔
      Machine.EachStep (step .ideal) (AnswersRight .ideal) { name := "morgoth" } [.create, .kill] :=
  truthful_iff ideal_effective _ _

/-- A machine on which no question for a session ends in time. -/
def hanging : Host :=
  { Host.ideal with
    tmux := fun n command session =>
      if command = .hasSession then (.notFinished, false) else Host.ideal.tmux n command session }

/-- A machine on which the third child crashes. -/
def crashing : Host :=
  { Host.ideal with
    tmux := fun n command session =>
      if n = 2 then (.crashed, false) else Host.ideal.tmux n command session }

/-- A question that has not ended counts as a yes, and one that crashes as a
no: the session lives on, killed as it is reported to be, and under another
user. -/
theorem answers_without_result :
    (hanging.Effective ∧
      ∃ t : TmuxSessionWrapper, t = { name := "morgoth" } ∧ t.answer hanging = .notFinished ∧
        (t.sessionExists hanging).1 = true ∧ ¬ t.Truthful hanging .sessionExists) ∧
    crashing.Effective ∧
      ∃ t, Machine.run (step crashing) { name := "morgoth" } [.create] = some t ∧
        t.session = true ∧ (t.kill crashing).1 = true ∧ (t.kill crashing).2.session = true ∧
        ¬ t.Truthful crashing .kill ∧
        (t.setUser crashing "other").user = "other" ∧ ¬ t.Truthful crashing (.setUser "other") := by
  constructor
  · refine ⟨?_, _, rfl, rfl, rfl, fun truthful => ?_⟩
    · intro n command session exited
      cases command with
      | hasSession => cases exited
      | _ => rfl
    · cases truthful rfl
  · refine ⟨?_, _, rfl, rfl, rfl, rfl, fun truthful => ?_, rfl, fun truthful => ?_⟩
    · intro n command session exited
      by_cases third : n = 2
      · simp [crashing, third] at exited
      · simp only [crashing, third, if_false] at exited ⊢
        exact ideal_effective n command session exited
    · cases truthful rfl
    · have user : "other" = "" := truthful rfl
      exact absurd user (by decide)

end TmuxSessionWrapper

end Morgoth
