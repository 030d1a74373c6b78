import Morgoth.Host

/-!
# tmux sessions

`UserProcess`, the child process that runs as a given user, and
`TmuxSessionWrapper`, which starts one tmux child after another for one
session. `session` is the outside world: whether tmux has a session of this
name. `spawned` lists the children with the credentials each of them asked for.

* `Traced`: what every child keeps to, every operation keeps to.
-/

namespace Morgoth

structure UserProcess where
  user : String := ""
  gid : Nat := 0
  uid : Nat := 0
  userResolved : Bool := false
  deriving DecidableEq, Repr

namespace UserProcess

def resolveGidAndUid (getpwnam : String → Option Passwd) (p : UserProcess) : UserProcess :=
  if p.user.isEmpty then p
  else match getpwnam p.user with
    | none => p
    | some pwd => { p with gid := pwd.gid, uid := pwd.uid, userResolved := true }

def setUser (getpwnam : String → Option Passwd) (p : UserProcess) (user : String) : UserProcess :=
  if p.user ≠ user then resolveGidAndUid getpwnam { p with user := user } else p

/-- The credentials the child asks for; `none` where it keeps the daemon's.
Whether it gets them is not looked at, see `Kernel.child`. -/
def setupChildProcess (p : UserProcess) : Option Passwd :=
  if p.userResolved then some ⟨p.uid, p.gid⟩ else none

end UserProcess

/-- What the system lets a process with the given ids change them to. -/
structure Kernel where
  setgid : Passwd → Nat → Bool
  setuid : Passwd → Nat → Bool

namespace Kernel

variable (k : Kernel) (own : Passwd)

/-- `setgid`, whether it fails or not. -/
def withGid (gid : Nat) : Passwd := if k.setgid own gid then { own with gid := gid } else own

/-- `setuid`. -/
def withUid (uid : Nat) : Passwd := if k.setuid own uid then { own with uid := uid } else own

/-- What becomes of a child of a process with these ids. A call that fails is not looked
at, and the next one is made all the same. -/
def child : Option Passwd → Passwd
  | none => own
  | some pwd => k.withUid (k.withGid own pwd.gid) pwd.uid

/-- root may change to anyone, and everybody else to nobody. -/
def posix : Kernel where
  setgid ids gid := ids.uid == 0 || ids.gid == gid
  setuid ids uid := ids.uid == 0 || ids.uid == uid

theorem withGid_own : k.withGid own own.gid = own := by
  unfold withGid
  split <;> rfl

theorem withUid_own : k.withUid own own.uid = own := by
  unfold withUid
  split <;> rfl

/-- Asking for what was got gets the same. -/
theorem withGid_again (gid : Nat) : k.withGid own (k.withGid own gid).gid = k.withGid own gid := by
  cases allowed : k.setgid own gid with
  | true => simp [withGid, allowed]
  | false => simp [withGid, allowed]

theorem withUid_again (uid : Nat) : k.withUid own (k.withUid own uid).uid = k.withUid own uid := by
  cases allowed : k.setuid own uid with
  | true => simp [withUid, allowed]
  | false => simp [withUid, allowed]

theorem withUid_gid (uid : Nat) : (k.withUid own uid).gid = own.gid := by
  unfold withUid
  split <;> rfl

/-- Who becomes somebody by asking for somebody else becomes the same by asking for
that one. -/
theorem child_again (asked : Option Passwd) :
    k.child own (some (k.child own asked)) = k.child own asked := by
  cases asked with
  | none => simp only [child, withGid_own, withUid_own]
  | some pwd => simp only [child, withUid_gid, withGid_again, withUid_again]

end Kernel

structure Spawn where
  command : TmuxCommand
  credentials : Option Passwd
  deriving DecidableEq, Repr

structure TmuxSessionWrapper where
  name : String
  user : String := ""
  session : Bool := false
  spawned : List Spawn := []
  deriving DecidableEq, Repr

namespace TmuxSessionWrapper

/-- Start one tmux child and wait for it. -/
def runChild (h : Host) (command : TmuxCommand) (t : TmuxSessionWrapper) :
    ChildResult × TmuxSessionWrapper :=
  let n := t.spawned.length
  let process := UserProcess.setUser (h.getpwnam (.userProcess n)) {} t.user
  let child := h.tmux n command t.session
  (child.1,
    { t with
      session := if child.2 then command.effect t.session else t.session
      spawned := t.spawned ++ [⟨command, process.setupChildProcess⟩] })

/-- The three conditions every operation but `exists` puts on its child. -/
def succeeded (r : ChildResult) : Bool :=
  r.waitForFinished && r.exitStatus == .normalExit && r.exitCode == 0

/-- `exists()`. A child that has not finished is only logged. -/
def sessionExists (h : Host) (t : TmuxSessionWrapper) : Bool × TmuxSessionWrapper :=
  let (r, t) := t.runChild h .hasSession
  (r.exitStatus == .normalExit && r.exitCode == 0, t)

def create (h : Host) (t : TmuxSessionWrapper) : Bool × TmuxSessionWrapper :=
  match t.sessionExists h with
  | (true, t) => (false, t)
  | (false, t) =>
    let (r, t) := t.runChild h .newSession
    (succeeded r, t)

/-- A command that needs the session, and is refused without it. -/
def inSession (h : Host) (command : TmuxCommand) (t : TmuxSessionWrapper) :
    Bool × TmuxSessionWrapper :=
  match t.sessionExists h with
  | (false, t) => (false, t)
  | (true, t) =>
    let (r, t) := t.runChild h command
    (succeeded r, t)

def redirectOutput (h : Host) (dest : String) (t : TmuxSessionWrapper) :
    Bool × TmuxSessionWrapper :=
  t.inSession h (.pipePane ("/usr/bin/cat > " ++ dest))

def sendKeys (h : Host) (keys : String) (t : TmuxSessionWrapper) : Bool × TmuxSessionWrapper :=
  t.inSession h (.sendKeys keys)

def kill (h : Host) (t : TmuxSessionWrapper) : Bool × TmuxSessionWrapper :=
  match t.sessionExists h with
  | (false, t) => (true, t)
  | (true, t) =>
    let (r, t) := t.runChild h .killSession
    (succeeded r, t)

/-- The user changes only while the session does not exist. -/
def setUser (h : Host) (user : String) (t : TmuxSessionWrapper) : TmuxSessionWrapper :=
  if user ≠ t.user then
    match t.sessionExists h with
    | (true, t) => t
    | (false, t) => { t with user := user }
  else t

/-! ## What the operations keep to -/

/-- The wrappers before and after every allowed child are related, and the relation
goes from one child to the next. -/
structure Traced (h : Host) (allowed : TmuxCommand → Prop)
    (R : TmuxSessionWrapper → TmuxSessionWrapper → Prop) : Prop where
  refl : ∀ t, R t t
  trans : ∀ t t' u, R t t' → R t' u → R t u
  child : ∀ command, allowed command → ∀ t, R t (t.runChild h command).2

namespace Traced

variable {h : Host} {allowed : TmuxCommand → Prop}
  {R : TmuxSessionWrapper → TmuxSessionWrapper → Prop} (traced : Traced h allowed R)
  (asking : allowed .hasSession) (t : TmuxSessionWrapper)
include traced asking

theorem sessionExists : R t (t.sessionExists h).2 := traced.child .hasSession asking t

theorem inSession {command : TmuxCommand} (fine : allowed command) :
    R t (t.inSession h command).2 := by
  have asked := traced.sessionExists asking t
  unfold TmuxSessionWrapper.inSession
  cases answer : t.sessionExists h with
  | mk there t' =>
    rw [answer] at asked
    cases there with
    | false => exact asked
    | true => exact traced.trans _ _ _ asked (traced.child command fine t')

theorem create (fine : allowed .newSession) : R t (t.create h).2 := by
  have asked := traced.sessionExists asking t
  unfold TmuxSessionWrapper.create
  cases answer : t.sessionExists h with
  | mk there t' =>
    rw [answer] at asked
    cases there with
    | true => exact asked
    | false => exact traced.trans _ _ _ asked (traced.child .newSession fine t')

theorem kill (fine : allowed .killSession) : R t (t.kill h).2 := by
  have asked := traced.sessionExists asking t
  unfold TmuxSessionWrapper.kill
  cases answer : t.sessionExists h with
  | mk there t' =>
    rw [answer] at asked
    cases there with
    | false => exact asked
    | true => exact traced.trans _ _ _ asked (traced.child .killSession fine t')

theorem setUser {user : String} (named : ∀ t, R t { t with user := user }) :
    R t (t.setUser h user) := by
  have asked := traced.sessionExists asking t
  unfold TmuxSessionWrapper.setUser
  by_cases other : user ≠ t.user
  · rw [if_pos other]
    cases answer : t.sessionExists h with
    | mk there t' =>
      rw [answer] at asked
      cases there with
      | true => exact asked
      | false => exact traced.trans _ _ _ asked (named t')
  · rw [if_neg other]
    exact traced.refl t

end Traced

theorem children_append {good : Spawn → Prop} {xs ys zs : List Spawn}
    (first : ∃ new, ys = xs ++ new ∧ ∀ child ∈ new, good child)
    (later : ∃ new, zs = ys ++ new ∧ ∀ child ∈ new, good child) :
    ∃ new, zs = xs ++ new ∧ ∀ child ∈ new, good child := by
  obtain ⟨new, rfl, all⟩ := first
  obtain ⟨new', rfl, all'⟩ := later
  refine ⟨new ++ new', List.append_assoc xs new new', ?_⟩
  intro child there
  rcases List.mem_append.mp there with there | there
  · exact all child there
  · exact all' child there

/-! ## What the operations do to the session -/

theorem session_traced (h : Host) :
    Traced h (fun command => ∀ session, command.effect session = session)
      fun t t' => t'.session = t.session where
  refl _ := rfl
  trans _ _ _ kept kept' := kept'.trans kept
  child command inert t := by simp [runChild, inert]

theorem sessionExists_session (h : Host) (t : TmuxSessionWrapper) :
    (t.sessionExists h).2.session = t.session :=
  (session_traced h).sessionExists (fun _ => rfl) t

theorem sessionExists_reliable {h : Host} (hr : h.Reliable) (t : TmuxSessionWrapper) :
    (t.sessionExists h).1 = t.session := by
  simp only [sessionExists, runChild, hr.hasSession]
  cases t.session <;> rfl

theorem redirectOutput_session (h : Host) (dest : String) (t : TmuxSessionWrapper) :
    (t.redirectOutput h dest).2.session = t.session :=
  (session_traced h).inSession (fun _ => rfl) t fun _ => rfl

theorem sendKeys_session (h : Host) (keys : String) (t : TmuxSessionWrapper) :
    (t.sendKeys h keys).2.session = t.session :=
  (session_traced h).inSession (fun _ => rfl) t fun _ => rfl

theorem setUser_session (h : Host) (user : String) (t : TmuxSessionWrapper) :
    (t.setUser h user).session = t.session :=
  (session_traced h).setUser (fun _ => rfl) t fun _ => rfl

/-- A session that exists is never created again, and `create` says so. -/
theorem create_reliable {h : Host} (hr : h.Reliable) (t : TmuxSessionWrapper) :
    (t.create h).1 = !t.session ∧ (t.create h).2.session = true := by
  have kept := sessionExists_session h t
  have truth := sessionExists_reliable hr t
  unfold create
  cases hx : t.sessionExists h with
  | mk there t' =>
    rw [hx] at kept truth
    cases there with
    | true => exact ⟨by rw [← truth]; rfl, by rw [kept, ← truth]⟩
    | false =>
      have gone : t'.session = false := by rw [kept, ← truth]
      simp only [runChild, gone, hr.newSession]
      exact ⟨by rw [← truth]; rfl, rfl⟩

theorem kill_reliable {h : Host} (hr : h.Reliable) (t : TmuxSessionWrapper) :
    (t.kill h).1 = true ∧ (t.kill h).2.session = false := by
  have kept := sessionExists_session h t
  have truth := sessionExists_reliable hr t
  unfold kill
  cases hx : t.sessionExists h with
  | mk there t' =>
    rw [hx] at kept truth
    cases there with
    | false => exact ⟨rfl, by rw [kept, ← truth]⟩
    | true =>
      have live : t'.session = true := by rw [kept, ← truth]
      simp only [runChild, live, hr.killSession]
      exact ⟨rfl, rfl⟩

end TmuxSessionWrapper

end Morgoth
