import Morgoth.Bookkeeping

/-!
# Several game servers of one server

A server that restarts its game server by itself registers a new one while the
old one is still in the registry. Neither `gameServerTimedOut` nor the slot of
`aboutToQuit` says which of them is gone.

* `effect_strikes`: what the loss of a game server does to a server: its
  coordinator is told as often as the game server is connected to it;
* `spares_later_iff`: when the loss of an earlier game server leaves the server
  of a later one alone.
-/

namespace Morgoth

/-- The `k`-th child is a has-session that says that the session is there. -/
def Host.finds (h : Host) (k : Nat) : Bool :=
  (h.tmux k .hasSession true).1.exitStatus == .normalExit &&
    (h.tmux k .hasSession true).1.exitCode == 0

/-- None of `n` attempts to kill a session ends it, the first of which starts the `k`-th
child: has-session does not find it, or the kill-session after it has no effect. -/
def Host.SparesSession (h : Host) : Nat → Nat → Prop
  | 0, _ => True
  | n + 1, k =>
    if h.finds k then (h.tmux (k + 1) .killSession true).2 = false ∧ h.SparesSession n (k + 2)
    else h.SparesSession n (k + 1)

namespace TmuxSessionWrapper

/-- What tmux answers to `n` attempts to kill the session, if there is one, leaves it. -/
def Survives (h : Host) (n : Nat) (t : TmuxSessionWrapper) : Prop :=
  t.session = true → h.SparesSession n t.spawned.length

theorem sessionExists_live (h : Host) {t : TmuxSessionWrapper} (live : t.session = true) :
    (t.sessionExists h).1 = h.finds t.spawned.length ∧ (t.sessionExists h).2.session = true ∧
      (t.sessionExists h).2.spawned.length = t.spawned.length + 1 := by
  refine ⟨?_, ?_, ?_⟩
  · simp [sessionExists, runChild, Host.finds, live]
  · simp [sessionExists, runChild, TmuxCommand.effect, live]
  · simp [sessionExists, runChild]

/-- One attempt to kill a session that is there. -/
theorem kill_live (h : Host) {t : TmuxSessionWrapper} (live : t.session = true) :
    if h.finds t.spawned.length then
      (t.kill h).2.session = !(h.tmux (t.spawned.length + 1) .killSession true).2 ∧
        (t.kill h).2.spawned.length = t.spawned.length + 2
    else (t.kill h).2.session = true ∧ (t.kill h).2.spawned.length = t.spawned.length + 1 := by
  obtain ⟨answer, still, longer⟩ := sessionExists_live h live
  unfold kill
  cases asked : t.sessionExists h with
  | mk there t' =>
    rw [asked] at answer still longer
    dsimp only at answer still longer
    rw [← answer]
    cases there with
    | false => exact ⟨still, longer⟩
    | true =>
      simp only [if_true, runChild, still, longer, TmuxCommand.effect, List.length_append,
        List.length_singleton, and_true]
      cases (h.tmux (t.spawned.length + 1) .killSession true).2 <;> rfl

theorem kill_dead (h : Host) {t : TmuxSessionWrapper} (dead : t.session = false) :
    (t.kill h).2.session = false := by
  have asked := (sessionExists_session h t).trans dead
  unfold kill
  cases answer : t.sessionExists h with
  | mk there t' =>
    rw [answer] at asked
    cases there with
    | false => exact asked
    | true =>
      have gone : t'.session = false := asked
      simp [runChild, TmuxCommand.effect, gone]

/-- What has been killed stays so. -/
theorem kills_dead (h : Host) (n : Nat) {t : TmuxSessionWrapper} (dead : t.session = false) :
    ((fun t => (t.kill h).2)^[n] t).session = false := by
  induction n generalizing t with
  | zero => exact dead
  | succ n ih => exact ih (kill_dead h dead)

theorem kills_live (h : Host) (n : Nat) {t : TmuxSessionWrapper} (live : t.session = true) :
    ((fun t => (t.kill h).2)^[n] t).session = true ↔ h.SparesSession n t.spawned.length := by
  induction n generalizing t with
  | zero => exact iff_of_true live trivial
  | succ n ih =>
    have first := kill_live h live
    rw [Function.iterate_succ_apply]
    unfold Host.SparesSession
    by_cases found : h.finds t.spawned.length = true
    · rw [if_pos found] at first ⊢
      obtain ⟨session, longer⟩ := first
      cases killed : (h.tmux (t.spawned.length + 1) .killSession true).2 with
      | false =>
        rw [killed] at session
        rw [ih session, longer]
        exact (and_iff_right rfl).symm
      | true =>
        rw [killed] at session
        rw [kills_dead h n session]
        simp
    · rw [if_neg found] at first ⊢
      rw [ih first.1, first.2]

theorem survives_iff (h : Host) (n : Nat) (t : TmuxSessionWrapper) :
    t.Survives h n ↔ (t.session = true → ((fun t => (t.kill h).2)^[n] t).session = true) :=
  imp_congr_right fun live => (kills_live h n live).symm

end TmuxSessionWrapper

namespace Server

/-- Not moved out of `running`, and the session not killed. -/
def Spared (s t : Server) : Prop :=
  (s.state = .running → t.state = .running) ∧ (s.tmux.session = true → t.tmux.session = true)

theorem aboutToQuit_tmux (h : Host) (iface : GameServerId) (s : Server) :
    (s.aboutToQuit h iface).tmux =
      (fun t : TmuxSessionWrapper => (t.kill h).2)^[s.coordinator.quitSlots.count iface] s.tmux := by
  have semiconj : Function.Semiconj tmux (onGameServerStopped h)
      fun t : TmuxSessionWrapper => (t.kill h).2 := fun _ => rfl
  unfold aboutToQuit
  rw [Signal.emit_same, List.count_eq_length_filter]
  exact semiconj.iterate_right _ s

theorem spared_refl (s : Server) : Spared s s := ⟨id, id⟩

theorem spared_iff {h : Host} {n : Nat} {s t : Server} (down : t.state ≠ .running)
    (tmux : t.tmux = (fun t : TmuxSessionWrapper => (t.kill h).2)^[n] s.tmux) :
    Spared s t ↔ s.state ≠ .running ∧ s.tmux.Survives h n := by
  unfold Spared
  rw [TmuxSessionWrapper.survives_iff, tmux]
  exact and_congr_left fun _ => ⟨fun up there => down (up there), fun up there => absurd there up⟩

theorem aboutToQuit_spared (h : Host) (iface : GameServerId) (s : Server) :
    Spared s (s.aboutToQuit h iface) ↔
      s.coordinator.quitSlots.count iface = 0 ∨
        s.state ≠ .running ∧ s.tmux.Survives h (s.coordinator.quitSlots.count iface) := by
  by_cases connected : iface ∈ s.coordinator.quitSlots
  · have some_left : s.coordinator.quitSlots.count iface ≠ 0 := by
      have pos := List.count_pos_iff.mpr connected
      omega
    have offline := (aboutToQuit_connected (h := h) connected).1
    rw [spared_iff (by rw [offline]; decide) (aboutToQuit_tmux h iface s)]
    exact (or_iff_right some_left).symm
  · rw [aboutToQuit_unconnected connected]
    exact iff_of_true (spared_refl s) (Or.inl (List.count_eq_zero.mpr connected))

theorem gameServerTimedOut_spared (h : Host) {s : Server} (valid : s.valid = true) :
    Spared s (s.gameServerTimedOut h) ↔ s.state ≠ .running ∧ s.tmux.Survives h 1 := by
  rw [gameServerTimedOut_valid valid]
  exact spared_iff (fun up => by cases up) rfl

end Server

namespace ServerManager

/-- How often an event tells the coordinator of a server that its game server
has stopped or timed out. -/
def strikes (m : ServerManager) (server : ServerId) (s : Server) : ManagerEvent → Nat
  | .aboutToQuit iface =>
    if m.interfaces.lookup iface = some server then s.coordinator.quitSlots.count iface else 0
  | .pingFinished gameServer _ error =>
    if error.any DBusError.isLoss = true ∧ m.gameServers.lookup gameServer = some server ∧
      s.valid = true then 1 else 0
  | _ => 0

/-- While a game server that registered later is in the registry, the loss of
an earlier one spares its server. -/
def SparesLater (env : Environment) (m : ServerManager) (e : ManagerEvent) : Prop :=
  ∀ earlier later server s u, e.loses = some earlier → earlier < later →
    m.gameServers.lookup later = some server → m.heap server = some s → m.step env e = some u →
    ∃ t, u.heap server = some t ∧ Server.Spared s t

/-- It is not noticed there, or finds the coordinator not running and no
session that it could kill. -/
def StrikesNoLater (env : Environment) (m : ServerManager) (e : ManagerEvent) : Prop :=
  ∀ earlier later server s, e.loses = some earlier → earlier < later →
    m.gameServers.lookup later = some server → m.heap server = some s →
    m.strikes server s e = 0 ∨
      s.state ≠ .running ∧ s.tmux.Survives (env.host server) (m.strikes server s e)

variable {env : Environment} {m u : ServerManager}

theorem unstruck {e : ManagerEvent} {server : ServerId} {s : Server}
    (never : m.strikes server s e = 0) (same : u.heap server = some s) :
    ∃ t, u.heap server = some t ∧
      (Server.Spared s t ↔ m.strikes server s e = 0 ∨
        s.state ≠ .running ∧ s.tmux.Survives (env.host server) (m.strikes server s e)) :=
  ⟨s, same, iff_of_true (Server.spared_refl s) (Or.inl never)⟩

/-- What becomes of a server when a game server is lost. -/
theorem effect_strikes {e : ManagerEvent} {gone : GameServerId} (loses : e.loses = some gone)
    (he : Effect env m e u) {server : ServerId} {s : Server} (there : m.heap server = some s) :
    ∃ t, u.heap server = some t ∧
      (Server.Spared s t ↔ m.strikes server s e = 0 ∨
        s.state ≠ .running ∧ s.tmux.Survives (env.host server) (m.strikes server s e)) := by
  cases he with
  | lost gameServer round error struck pending loss known =>
    by_cases here : struck = server
    · subst here
      refine ⟨_, reach_there there _, ?_⟩
      by_cases valid : s.valid = true
      · have once : m.strikes struck s (.pingFinished gameServer round error) = 1 :=
          if_pos ⟨loss, known, valid⟩
        rw [once, Server.gameServerTimedOut_spared _ valid]
        exact (or_iff_right Nat.one_ne_zero).symm
      · have never : m.strikes struck s (.pingFinished gameServer round error) = 0 :=
          if_neg fun all => valid all.2.2
        rw [Server.gameServerTimedOut_invalid (Bool.eq_false_iff.mpr valid)]
        exact iff_of_true (Server.spared_refl s) (Or.inl never)
    · have never : m.strikes server s (.pingFinished gameServer round error) = 0 :=
        if_neg fun all => here (Option.some.inj (known.symm.trans all.2.1))
      exact unstruck never ((reach_elsewhere (Ne.symm here) _).trans there)
  | lostAgain gameServer round error pending loss forgotten =>
    have never : m.strikes server s (.pingFinished gameServer round error) = 0 :=
      if_neg fun all => by
        rw [forgotten] at all
        cases all.2.1
    exact unstruck never there
  | quit iface struck announced =>
    by_cases here : struck = server
    · subst here
      have strikes : m.strikes struck s (.aboutToQuit iface) =
          s.coordinator.quitSlots.count iface := if_pos announced
      refine ⟨_, reach_there there _, ?_⟩
      rw [strikes]
      exact Server.aboutToQuit_spared _ iface s
    · have never : m.strikes server s (.aboutToQuit iface) = 0 :=
        if_neg fun same => here (Option.some.inj (announced.symm.trans same))
      exact unstruck never ((reach_elsewhere (Ne.symm here) _).trans there)
  | added e s' brings | refused e s' brings =>
    cases e with
    | add | addServer => cases loses
    | _ => cases brings
  | answered gameServer round error pending alive =>
    simp [ManagerEvent.loses, alive] at loses
  | _ => cases loses

theorem step_spares_later {e : ManagerEvent} (hm : m.Sound) (hu : m.step env e = some u) :
    m.SparesLater env e ↔ m.StrikesNoLater env e := by
  have he := step_effect hm.fresh hu
  constructor
  · intro spares earlier later server s loses before registered there
    obtain ⟨t, after, spared⟩ := effect_strikes loses he there
    obtain ⟨t', after', sparing⟩ := spares earlier later server s u loses before registered there hu
    obtain rfl := Option.some.inj (after.symm.trans after')
    exact spared.mp sparing
  · intro none_struck earlier later server s u' loses before registered there hu'
    obtain rfl := Option.some.inj (hu.symm.trans hu')
    obtain ⟨t, after, spared⟩ := effect_strikes loses he there
    exact ⟨t, after, spared.mpr (none_struck earlier later server s loses before registered there)⟩

/-- In a run, no loss of an earlier game server moves a server with a later one
out of `running` or kills its session, exactly if each such loss goes unnoticed
there, or finds it not running and without a session that tmux finds and ends
when it is asked to. -/
theorem spares_later_iff (env : Environment) (es : List ManagerEvent) :
    Machine.EachStep (step env) (SparesLater env) {} es ↔
      Machine.EachStep (step env) (StrikesNoLater env) {} es := by
  apply Machine.eachStep_congr (A := Sound)
  · intro m e u hm hu
    exact step_sound hm hu
  · intro m e u hm hu
    exact step_spares_later hm hu
  · exact init_sound

/-- srcds_run restarts its game server, and only then a ping of the old one
fails: the new one is registered, the coordinator has crashed, and the session
is gone. -/
theorem old_ping_crashes_restarted_server :
    ∃ m s u t, run .ideal {} [.add { path := "/srv/tf2" } "tf2", .server 0 .start,
        .registerGameServer .sample, .server 0 (.deleteStarter 0), .timeout,
        .registerGameServer .sample] = some m ∧
      m.heap 0 = some s ∧ s.state = .running ∧ s.tmux.session = true ∧
      m.step .ideal (.pingFinished 0 0 (some .noReply)) = some u ∧
      u.gameServers.lookup 1 = some 0 ∧ u.heap 0 = some t ∧ t.state = .crashed ∧
      t.tmux.session = false ∧
      ¬ m.SparesLater .ideal (.pingFinished 0 0 (some .noReply)) := by
  refine ⟨_, _, _, _, rfl, rfl, rfl, rfl, rfl, rfl, rfl, rfl, rfl, fun spares => ?_⟩
  obtain ⟨t, after, up, -⟩ := spares 0 1 0 _ _ rfl (by decide) rfl rfl rfl
  obtain rfl := Option.some.inj after
  cases up rfl

end ServerManager

end Morgoth
