import Morgoth.ServerMachine
import Morgoth.StarterCommands

/-!
# The user of the tmux children

A child asks for the credentials of its user where that can be resolved, and keeps
the daemon's where it cannot, or where the system does not let it change them. A
session wrapper starts without a user; setting one asks for the session first, and
`ServerStarter::start` looks the user up once more when the session has been created.

* `runs_as_user_iff`: when all children of a start, and of what follows it, run
  as the configured user.
-/

namespace Morgoth

namespace TmuxSessionWrapper

/-- What a child of a wrapper with that user asks for. -/
def credentials (pw : String → Option Passwd) (user : String) : Option Passwd :=
  (UserProcess.setUser pw {} user).setupChildProcess

theorem credentials_resolved (pw : String → Option Passwd) {user : String} (named : user ≠ "") :
    credentials pw user = pw user := by
  have other : ({} : UserProcess).user ≠ user := Ne.symm named
  have named' : user.isEmpty = false := by simpa using named
  unfold credentials UserProcess.setUser
  rw [if_pos other]
  unfold UserProcess.resolveGidAndUid
  simp only [named', Bool.false_eq_true, if_false]
  cases pw user <;> rfl

/-- The children between two states of the wrapper are good ones, and so is the
next one. -/
def Spawns (pw : String → Option Passwd) (good : Option Passwd → Prop)
    (t t' : TmuxSessionWrapper) : Prop :=
  good (credentials pw t'.user) ∧
  ∃ new, t'.spawned = t.spawned ++ new ∧ ∀ child ∈ new, good child.credentials

/-- The first child between two states of the wrapper. -/
def SpawnsFirst (child : Spawn) (t t' : TmuxSessionWrapper) : Prop :=
  ∃ rest, t'.spawned = t.spawned ++ child :: rest

variable {pw : String → Option Passwd} {good : Option Passwd → Prop} {t t' u : TmuxSessionWrapper}

theorem Spawns.refl (ht : good (credentials pw t.user)) : Spawns pw good t t :=
  ⟨ht, [], (List.append_nil _).symm, fun _ none_new => by cases none_new⟩

theorem Spawns.trans (h : Spawns pw good t t') (h' : Spawns pw good t' u) : Spawns pw good t u :=
  ⟨h'.1, children_append h.2 h'.2⟩

theorem SpawnsFirst.then {child : Spawn} (h : SpawnsFirst child t t') (h' : Spawns pw good t' u) :
    SpawnsFirst child t u := by
  obtain ⟨rest, spawned⟩ := h
  obtain ⟨-, new, spawned', -⟩ := h'
  refine ⟨rest ++ new, ?_⟩
  rw [spawned', spawned, List.append_assoc, List.cons_append]

section Operations
variable {h : Host} (same : ∀ lookup, h.getpwnam lookup = pw)
include same

theorem runChild_spawned (command : TmuxCommand) :
    (t.runChild h command).2.spawned = t.spawned ++ [⟨command, credentials pw t.user⟩] := by
  unfold runChild credentials
  simp only [same]

theorem runChild_spawns (command : TmuxCommand) (ht : good (credentials pw t.user)) :
    Spawns pw good t (t.runChild h command).2 := by
  refine ⟨ht, _, runChild_spawned same command, fun child mem => ?_⟩
  rw [List.mem_singleton.mp mem]
  exact ht

/-- The credentials are good as long as the user is. -/
theorem spawns_traced : Traced h (fun _ => True)
    fun t t' => good (credentials pw t.user) → Spawns pw good t t' where
  refl _ := .refl
  trans _ _ _ first later ht := (first ht).trans (later (first ht).1)
  child command _ _ := runChild_spawns same command

end Operations

/-! ## The first child -/

/-- The first child asks for the session, as the user of the wrapper. -/
def asker (pw : String → Option Passwd) (t : TmuxSessionWrapper) : Spawn :=
  ⟨.hasSession, credentials pw t.user⟩

theorem sessionExists_first {h : Host} (same : ∀ lookup, h.getpwnam lookup = pw)
    (t : TmuxSessionWrapper) : SpawnsFirst (asker pw t) t (t.sessionExists h).2 :=
  ⟨[], runChild_spawned same .hasSession⟩

theorem create_first {h : Host} (same : ∀ lookup, h.getpwnam lookup = pw) (t : TmuxSessionWrapper) :
    SpawnsFirst (asker pw t) t (t.create h).2 := by
  have asked := sessionExists_first same t
  unfold create
  cases answer : t.sessionExists h with
  | mk there t' =>
    rw [answer] at asked
    cases there with
    | true => exact asked
    | false =>
      have made : Spawns pw (fun _ => True) t' (t'.runChild h .newSession).2 :=
        runChild_spawns same .newSession trivial
      exact asked.then made

theorem setUser_create_first {h : Host} (same : ∀ lookup, h.getpwnam lookup = pw) (user : String)
    (t : TmuxSessionWrapper) : SpawnsFirst (asker pw t) t ((t.setUser h user).create h).2 := by
  by_cases other : user ≠ t.user
  · have asked : SpawnsFirst (asker pw t) t (t.setUser h user) := by
      have asked := sessionExists_first same t
      unfold setUser
      rw [if_pos other]
      cases answer : t.sessionExists h with
      | mk there t' =>
        rw [answer] at asked
        cases there <;> exact asked
    have created : Spawns pw (fun _ => True) (t.setUser h user) ((t.setUser h user).create h).2 :=
      (spawns_traced same).create trivial _ trivial trivial
    exact asked.then created
  · have unchanged : t.setUser h user = t := if_neg other
    rw [unchanged]
    exact create_first same t

end TmuxSessionWrapper

namespace Server

open TmuxSessionWrapper

variable {pw : String → Option Passwd} {good : Option Passwd → Prop} {h : Host} {s u : Server}
  {configuration : ServerConfiguration}

theorem bringUp_spawns (same : ∀ lookup, h.getpwnam lookup = pw)
    (configured : s.configuration = some configuration) (hs : good (credentials pw s.tmux.user))
    (hu : good (credentials pw (s.startUser h configuration))) :
    Spawns pw good s.tmux (s.bringUp h).1 := by
  have named (t : TmuxSessionWrapper) (_ : good (credentials pw t.user)) :
      Spawns pw good t { t with user := s.startUser h configuration } :=
    ⟨hu, [], (List.append_nil _).symm, nofun⟩
  exact bringUp_traced (spawns_traced same) (fun _ _ => trivial) configured named hs

theorem bringUp_first (same : ∀ lookup, h.getpwnam lookup = pw) (valid : s.valid = true)
    (configured : s.configuration = some configuration) :
    SpawnsFirst (asker pw s.tmux) s.tmux (s.bringUp h).1 := by
  have after : Spawns pw (fun _ => True)
      ((s.tmux.setUser h (s.startUser h configuration)).create h).2 (s.bringUp h).1 :=
    created_traced (spawns_traced same) (fun _ _ => trivial) valid configured trivial
  exact (setUser_create_first same _ s.tmux).then after

/-- Any event but a start keeps to the user of the wrapper. -/
theorem step_spawns (same : ∀ lookup, h.getpwnam lookup = pw) {e : ServerEvent}
    (no_start : e ≠ .start) (hs : good (credentials pw s.tmux.user)) (hu : s.step h e = some u) :
    Spawns pw good s.tmux u.tmux := by
  cases step_effect hu with
  | start => exact absurd rfl no_start
  | stop | sendCommand => exact (spawns_traced same).inSession trivial s.tmux trivial hs
  | gameServerOnline iface gameServer =>
    rw [(gameServerOnline_frame h iface gameServer s).2.2.2.2]
    exact .refl hs
  | gameServerTimedOut =>
    refine gameServerTimedOut_keeps (P := fun t : Server => Spawns pw good s.tmux t.tmux)
      (.refl hs) ?_
    exact fun t ht => ht.trans ((spawns_traced same).kill trivial t.tmux trivial ht.1)
  | aboutToQuit iface =>
    refine aboutToQuit_keeps (P := fun t : Server => Spawns pw good s.tmux t.tmux) ?_ (.refl hs)
    exact fun t ht => ht.trans ((spawns_traced same).kill trivial t.tmux trivial ht.1)
  | _ => exact .refl hs

theorem run_spawns (same : ∀ lookup, h.getpwnam lookup = pw) {es : List ServerEvent}
    (no_start : ∀ e ∈ es, e ≠ .start) (hs : good (credentials pw s.tmux.user))
    (hu : run h s es = some u) : Spawns pw good s.tmux u.tmux := by
  induction es generalizing s with
  | nil =>
    obtain rfl : s = u := Option.some.inj hu
    exact .refl hs
  | cons e es ih =>
    obtain ⟨t, ht, rest⟩ := Option.bind_eq_some_iff.mp hu
    have first := step_spawns same (no_start e List.mem_cons_self) hs ht
    exact first.trans (ih (fun e he => no_start e (List.mem_cons_of_mem _ he)) first.1 rest)

/-- The children of a start, and of everything up to the next one, run as the
configured user, exactly if that user is found, with the ids that a child of the
wrapper ended up with before: those of the same user, if the daemon may change to it,
or the daemon's own. -/
theorem runs_as_user_iff (same : ∀ lookup, h.getpwnam lookup = pw) (k : Kernel) (own : Passwd)
    (valid : s.valid = true) (configured : s.configuration = some configuration)
    (named : s.startUser h configuration ≠ "") {es : List ServerEvent}
    (no_start : ∀ e ∈ es, e ≠ .start) (hu : run h s (.start :: es) = some u) :
    (∀ child ∈ u.tmux.spawned.drop s.tmux.spawned.length,
        some (k.child own child.credentials) = pw (s.startUser h configuration)) ↔
      pw (s.startUser h configuration) = some (k.child own (credentials pw s.tmux.user)) := by
  obtain ⟨t, started, rest⟩ := Option.bind_eq_some_iff.mp hu
  have tmux : t.tmux = (s.bringUp h).1 := by
    obtain ⟨-, rfl⟩ := Machine.some_of_ite started
    exact (start_frame h s).2.2.2.1
  constructor
  · intro all
    have first : SpawnsFirst (asker pw s.tmux) s.tmux t.tmux :=
      tmux ▸ bringUp_first same valid configured
    have after : Spawns pw (fun _ => True) t.tmux u.tmux := run_spawns same no_start trivial rest
    obtain ⟨later, spawned⟩ := first.then after
    rw [spawned, List.drop_left] at all
    exact (all _ List.mem_cons_self).symm
  · intro resolved
    have old : some (k.child own (credentials pw s.tmux.user)) = pw (s.startUser h configuration) :=
      resolved.symm
    have new : some (k.child own (credentials pw (s.startUser h configuration))) =
        pw (s.startUser h configuration) := by
      rw [credentials_resolved pw named, resolved, Kernel.child_again]
    have brought : Spawns pw (fun c => some (k.child own c) = pw (s.startUser h configuration))
        s.tmux t.tmux := tmux ▸ bringUp_spawns same configured old new
    obtain ⟨-, children, spawned, as_user⟩ := brought.trans
      (run_spawns same no_start brought.1 rest)
    rw [spawned, List.drop_left]
    exact as_user

/-- A machine with one user. -/
def oneUser : Host :=
  { Host.ideal with getpwnam := fun _ user => if user = "tf2" then some ⟨1000, 1000⟩ else none }

/-- The server with its user set. -/
def sampleAs (user : String) : Server :=
  { sample with
    configuration := some (ServerConfiguration.default.setValue "org.morgoth.Server.user" user).1 }

/-- A server that has run as its user, and is down. -/
def stoppedOnce : Server :=
  (run oneUser (sampleAs "tf2") [.start, .gameServerOnline 0 .sample, .aboutToQuit 0]).getD sample

/-- The second start of a server: if root is the daemon, all its eight children run as
the user, and if somebody else is, they do not. -/
theorem runs_as_user_iff_again :
    ∃ u, run oneUser stoppedOnce [.start, .stop] = some u ∧
      (u.tmux.spawned.drop stoppedOnce.tmux.spawned.length).length = 8 ∧
      (∀ child ∈ u.tmux.spawned.drop stoppedOnce.tmux.spawned.length,
        some (Kernel.posix.child ⟨0, 0⟩ child.credentials) =
          oneUser.getpwnam (.userProcess 0) "tf2") ∧
      ¬ ∀ child ∈ u.tmux.spawned.drop stoppedOnce.tmux.spawned.length,
        some (Kernel.posix.child ⟨33, 33⟩ child.credentials) =
          oneUser.getpwnam (.userProcess 0) "tf2" := by
  obtain ⟨u, hu⟩ : ∃ u, run oneUser stoppedOnce (.start :: [.stop]) = some u := ⟨_, rfl⟩
  have exact_as (own : Passwd) := runs_as_user_iff (h := oneUser) (s := stoppedOnce) (u := u)
    (fun _ => rfl) Kernel.posix own rfl rfl (by decide) (by simp) hu
  refine ⟨u, hu, ?_, (exact_as ⟨0, 0⟩).mpr rfl, fun all => ?_⟩
  · obtain rfl := Option.some.inj hu
    rfl
  · exact absurd ((exact_as ⟨33, 33⟩).mp all) (by decide)

/-- The first child of a first start asks for the session as the daemon; a user
that is not found is noticed when the session has been created as the
daemon. -/
theorem first_child_runs_as_daemon :
    (∃ u, run oneUser (sampleAs "tf2") [.start] = some u ∧ u.state = .starting ∧
      u.tmux.spawned.head? = some ⟨.hasSession, none⟩ ∧
      ¬ ∀ child ∈ u.tmux.spawned.drop 0,
        some (Kernel.posix.child ⟨0, 0⟩ child.credentials) =
          oneUser.getpwnam (.userProcess 0) "tf2") ∧
    ∃ u, run oneUser (sampleAs "nobody") [.start] = some u ∧
      u.coordinator.error = .unableToResolveUser ∧ ⟨.newSession, none⟩ ∈ u.tmux.spawned ∧
      oneUser.getpwnam (.userProcess 0) "nobody" = none := by
  constructor
  · refine ⟨_, rfl, rfl, rfl, fun all => ?_⟩
    have first := all _ List.mem_cons_self
    cases first
  · exact ⟨_, rfl, rfl, by decide, rfl⟩

end Server

end Morgoth
