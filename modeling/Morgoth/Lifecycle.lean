import Morgoth.ServerMachine

/-!
# start and stop of a live server

`ServerCoordinator::start` does not look at the state: the guard is in the
command line client, which reads the state and calls `start` later. `stop`
leaves a pending `ServerStarter` connected.

* `start_disturbs`: whatever live state a start finds, it is noticed, and
  it turns a server with a session into a crashed one;
* `stays_stopped_iff`: which runs after a stop never see the server running.
-/

namespace Morgoth.Server

/-- No signal, no change of state, error or published field, and the session
as usable as before. -/
def Undisturbed (s u : Server) : Prop :=
  u.coordinator.signals = s.coordinator.signals ∧ u.state = s.state ∧
  u.coordinator.error = s.coordinator.error ∧ u.status.d = s.status.d ∧
  (s.tmux.session = true → u.tmux.session = true)

/-- Every start announces itself before it looks at anything. -/
theorem start_signals (h : Host) (s : Server) :
    s.coordinator.signals.length < (s.start h).1.coordinator.signals.length := by
  cases outcome : (s.bringUp h).2 with
  | none =>
    rw [start_pending outcome]
    simp
  | some error =>
    rw [start_failed outcome]
    simp

/-- No state is safe from a start, live or not; so none is when two clients
have both read `offline` and the second of them calls `start`. Where the
session is alive, the server ends up crashed. -/
theorem start_disturbs (h : Host) (s : Server) :
    ¬ Undisturbed s (s.start h).1 ∧
    (h.Reliable → s.tmux.session = true → (s.start h).1.state = .crashed) := by
  constructor
  · rintro ⟨signals, -⟩
    have more := start_signals h s
    rw [signals] at more
    omega
  · intro hr session
    obtain ⟨-, error, failed⟩ := bringUp_live hr session
    rw [start_failed failed]

/-- Two clients read `offline`; the first start succeeds, and the second one
makes the starting server a crashed one, its session still alive. -/
theorem second_start_crashes :
    sample.valid = true ∧ sample.state = .offline ∧
    ∃ s, run .ideal sample [.start] = some s ∧
      s.state = .starting ∧ s.tmux.session = true ∧
      (s.start .ideal).1.state = .crashed ∧ (s.start .ideal).1.tmux.session = true ∧
      ¬ Undisturbed s (s.start .ideal).1 := by
  refine ⟨rfl, rfl, _, rfl, rfl, rfl, rfl, rfl, ?_⟩
  rintro ⟨-, state, -⟩
  cases state

/-! ## After a stop -/

/-- On its way down, or down. -/
def Stopped (s : Server) : Prop :=
  s.state = .shuttingDown ∨ s.state = .offline ∨ s.state = .crashed

/-- No starter hears the registration of a game server. -/
def RegistersUnheard (s : Server) : ServerEvent → Prop
  | .gameServerOnline .. => s.listening = []
  | _ => True

theorem stopped_not_running {s : Server} (hs : s.Stopped) :
    ¬(s.state = .running ∨ s.state = .starting) := by
  rintro (up | up) <;> rcases hs with down | down | down <;> rw [up] at down <;> cases down

/-- Any event but a start leaves a stopped server stopped, unless a starter
hears a game server register. -/
theorem step_stopped {h : Host} {s u : Server} {e : ServerEvent} (no_start : e ≠ .start)
    (hs : s.Stopped) (hu : s.step h e = some u) : u.Stopped ↔ s.RegistersUnheard e := by
  have he := step_effect hu
  have quietly (quiet : e.quiet = true) : u.Stopped := by
    obtain ⟨state, -⟩ := quiet_effect quiet he
    unfold Stopped
    rw [state]
    exact hs
  cases he with
  | start => exact absurd rfl no_start
  | stop valid up => exact absurd up (stopped_not_running hs)
  | startTimeout i => exact iff_of_true (Or.inr (Or.inr rfl)) trivial
  | gameServerOnline iface gameServer =>
    by_cases silent : s.listening = []
    · refine iff_of_true ?_ silent
      rw [gameServerOnline_unheard silent]
      exact hs
    · refine iff_of_false ?_ silent
      intro down
      have up := (gameServerOnline_heard silent h iface gameServer).1
      exact stopped_not_running down (Or.inl up)
  | gameServerTimedOut =>
    refine iff_of_true ?_ trivial
    exact gameServerTimedOut_keeps hs fun _ _ => Or.inr (Or.inr rfl)
  | aboutToQuit iface connected =>
    have offline := (aboutToQuit_connected (h := h) connected).1
    exact iff_of_true (Or.inr (Or.inl offline)) trivial
  | stopIgnored | aboutToQuitIgnored | sendCommandIgnored => exact iff_of_true hs trivial
  | _ => exact iff_of_true (quietly rfl) trivial

/-- After a stop that took effect, and until the next start, the server stays
on its way down or down exactly if no starter is connected any more whenever a
game server registers. -/
theorem stays_stopped_iff (h : Host) {s : Server} (up : s.state = .running ∨ s.state = .starting)
    {es : List ServerEvent} (no_start : ∀ e ∈ es, e ≠ .start) :
    Machine.Throughout (step h) Stopped (s.stop h) es ↔
      Machine.EachStep (step h) RegistersUnheard (s.stop h) es := by
  apply Machine.throughout_iff_eachStep (A := fun _ => True)
  · exact fun _ _ _ _ _ _ => trivial
  · intro t e he u _ ht hu
    exact step_stopped (no_start e he) ht hu
  · trivial
  · obtain ⟨-, stopping⟩ | ⟨down, -⟩ := stop_cases h s
    · rw [stopping]
      exact Or.inl rfl
    · exact absurd up down

theorem stays_stopped_iff_starting :
    Machine.Throughout (step .ideal) Stopped ((sample.start .ideal).1.stop .ideal)
        [.startTimeout 0] ↔
      Machine.EachStep (step .ideal) RegistersUnheard ((sample.start .ideal).1.stop .ideal)
        [.startTimeout 0] :=
  stays_stopped_iff .ideal (Or.inr rfl) (by simp)

/-- Stopped while it was starting, the server is running again as soon as its
game server registers. -/
theorem stopped_start_runs :
    sample.valid = true ∧
    ∃ s t, run .ideal sample [.start, .stop] = some s ∧ s.state = .shuttingDown ∧
      run .ideal s [.gameServerOnline 0 .sample] = some t ∧ t.state = .running ∧ ¬ t.Stopped := by
  refine ⟨rfl, _, _, rfl, rfl, rfl, rfl, ?_⟩
  rintro (down | down | down) <;> cases down

end Morgoth.Server
