import Morgoth.Qt

/-!
# The machine the daemon runs on

Everything the sources call that is not theirs: the user database, the tmux
children, the file system and what `QUrl` makes of a host name. What changes
in time takes a number as its argument: the number of tmux children the caller
has started so far, so that two calls need not find the same answer.
-/

namespace Morgoth

structure Passwd where
  uid : Nat
  gid : Nat
  deriving DecidableEq, Repr

inductive TmuxCommand
  | newSession
  | hasSession
  | killSession
  | pipePane (command : String)
  | sendKeys (keys : String)
  deriving DecidableEq, Repr

/-- Whether the session is there once the command has taken effect. -/
def TmuxCommand.effect : TmuxCommand → Bool → Bool
  | .newSession, _ => true
  | .killSession, _ => false
  | _, session => session

inductive ExitStatus
  | normalExit
  | crashExit
  deriving DecidableEq, Repr

/-- What became of a child within `TmuxProcessTimeout`. -/
inductive ChildResult
  | exited (code : Int)
  | crashed
  | failedToStart
  | notFinished
  deriving DecidableEq, Repr

namespace ChildResult

/-- `QProcess::waitForFinished`. -/
def waitForFinished : ChildResult → Bool
  | .exited _ | .crashed => true
  | _ => false

/-- `QProcess::exitStatus`, which reads NormalExit until the child has crashed. -/
def exitStatus : ChildResult → ExitStatus
  | .crashed => .crashExit
  | _ => .normalExit

/-- `QProcess::exitCode`, which reads 0 until the child has exited. -/
def exitCode : ChildResult → Int
  | .exited code => code
  | _ => 0

end ChildResult

/-- Who looks a user up, and how many tmux children there were before. -/
inductive Lookup
  | userProcess (n : Nat)
  | serverStarter (n : Nat)
  deriving DecidableEq, Repr

/-- What is outside the sources. `tmux n command session` is what becomes of
the n-th child, given whether the session exists, and whether the command took
effect. `daemonUser` is the daemon's `user` setting, and `none` where there is
no daemon object. -/
structure Host where
  getpwnam : Lookup → String → Option Passwd
  daemonUser : Nat → Option String
  tmux : Nat → TmuxCommand → Bool → ChildResult × Bool
  sessionName : String
  fileExists : String → Bool
  urlHost : String → String

/-- new-session, has-session and kill-session succeed and report truthfully. -/
structure Host.Reliable (h : Host) : Prop where
  hasSession : ∀ n session, (h.tmux n .hasSession session).1 = .exited (if session then 0 else 1)
  newSession : ∀ n, h.tmux n .newSession false = (.exited 0, true)
  killSession : ∀ n, h.tmux n .killSession true = (.exited 0, true)

/-- A machine on which every file exists, no user is known, and every tmux
child does what it is asked for. -/
def Host.ideal : Host where
  getpwnam _ _ := none
  daemonUser _ := none
  tmux _ command session :=
    match command with
    | .hasSession => (.exited (if session then 0 else 1), true)
    | _ => (.exited 0, true)
  sessionName := "morgoth-000000"
  fileExists _ := true
  urlHost host := host

theorem Host.ideal_reliable : Host.ideal.Reliable :=
  ⟨fun _ _ => rfl, fun _ => rfl, fun _ => rfl⟩

end Morgoth
