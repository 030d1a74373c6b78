import Morgoth.ServerMachine

/-!
# The tmux session and the state of the coordinator

`Offline` and `Crashed` should mean that no session is left over: the next
start creates one under the same name. Quitting, a ping time-out and most
errors of `ServerStarter::start` kill it. An unresolved user, a start time-out
and a repeated start do not.

* `step_no_session_left`: which steps lead from a state without a left-over
  session to another one;
* `no_session_left_iff`: the same for runs.
-/

namespace Morgoth.Server

/-- Offline or crashed, the session is gone, and the next start is not refused
because of it. -/
def NoSessionLeft (h : Host) (s : Server) : Prop :=
  s.state.live = false →
    s.tmux.session = false ∧ ∀ user, ((s.tmux.setUser h user).create h).1 = true

/-- A start finds no session, and resolves its user if it has one; a start
timer expires only where there is no session. -/
def LeavesNoSession (h : Host) (s : Server) : ServerEvent → Prop
  | .start => s.tmux.session = false ∧
      ∀ configuration, s.configuration = some configuration →
        s.userUnresolved h configuration = false
  | .startTimeout _ => s.tmux.session = false
  | _ => True

/-- What holds of a valid server in every run. -/
def Configured (s : Server) : Prop := s.valid = true ∧ s.configuration.isSome = true

theorem create_configured (h : Host) (path : QUrl) (name : String)
    (valid : (create h path name).valid = true) : (create h path name).Configured :=
  ⟨valid, rfl⟩

theorem step_configured {h : Host} {s u : Server} {e : ServerEvent} (hs : s.Configured)
    (hu : s.step h e = some u) : u.Configured := by
  obtain ⟨valid, -, -, configuration⟩ := step_frame hu
  exact ⟨valid.trans hs.1, configuration.trans hs.2⟩

theorem noSessionLeft_iff {h : Host} (hr : h.Reliable) (s : Server) :
    s.NoSessionLeft h ↔ (s.state.live = false → s.tmux.session = false) := by
  constructor
  · exact fun left down => (left down).1
  · intro gone down
    refine ⟨gone down, fun user => ?_⟩
    rw [(TmuxSessionWrapper.create_reliable hr _).1, TmuxSessionWrapper.setUser_session, gone down]
    rfl

theorem start_no_session_left {h : Host} (hr : h.Reliable) {s : Server} (hs : s.Configured) :
    (s.start h).1.NoSessionLeft h ↔ s.LeavesNoSession h .start := by
  obtain ⟨configuration, configured⟩ := Option.isSome_iff_exists.mp hs.2
  obtain ⟨-, -, -, tmux, -⟩ := start_frame h s
  have crashes (error : ServerError) (failed : (s.bringUp h).2 = some error) :
      (s.start h).1.state = .crashed := by
    rw [start_failed failed]
  rw [noSessionLeft_iff hr, tmux]
  cases live : s.tmux.session with
  | true =>
    obtain ⟨kept, error, failed⟩ := bringUp_live hr live
    rw [crashes error failed, kept]
    simp [LeavesNoSession, live, State.live]
  | false =>
    obtain ⟨stranded, settled⟩ := bringUp_fresh hr live hs.1 configured
    cases unresolved : s.userUnresolved h configuration with
    | true =>
      obtain ⟨kept, error, failed⟩ := stranded unresolved
      rw [crashes error failed, kept]
      simp [LeavesNoSession, configured, unresolved, State.live]
    | false =>
      have clean : s.LeavesNoSession h .start := by
        refine ⟨live, fun c hc => ?_⟩
        obtain rfl := Option.some.inj (configured.symm.trans hc)
        exact unresolved
      refine iff_of_true (fun down => ?_) clean
      obtain ⟨-, pending⟩ | ⟨gone, -⟩ := settled unresolved
      · rw [start_pending pending] at down
        cases down
      · exact gone

/-- From a state without a left-over session, a step leads to another one
exactly if it meets the condition. -/
theorem step_no_session_left {h : Host} (hr : h.Reliable) {s u : Server} {e : ServerEvent}
    (hs : s.Configured) (hi : s.NoSessionLeft h) (hu : s.step h e = some u) :
    u.NoSessionLeft h ↔ s.LeavesNoSession h e := by
  have he := step_effect hu
  have quietly (quiet : e.quiet = true) : u.NoSessionLeft h := by
    obtain ⟨state, -, session⟩ := quiet_effect quiet he
    apply (noSessionLeft_iff hr u).mpr
    intro down
    rw [session]
    exact (hi (state ▸ down)).1
  cases he with
  | start => exact start_no_session_left hr hs
  | startTimeout i =>
    rw [noSessionLeft_iff hr, timeoutStart_eq]
    exact ⟨fun gone => gone rfl, fun gone _ => gone⟩
  | stop =>
    refine iff_of_true ?_ trivial
    intro down
    cases down
  | gameServerOnline iface gameServer =>
    refine iff_of_true ?_ trivial
    by_cases silent : s.listening = []
    · rw [gameServerOnline_unheard silent]
      exact hi
    · intro down
      rw [(gameServerOnline_heard silent h iface gameServer).1] at down
      cases down
  | gameServerTimedOut =>
    refine iff_of_true ?_ trivial
    apply (noSessionLeft_iff hr _).mpr
    intro _
    rw [gameServerTimedOut_valid hs.1]
    exact (TmuxSessionWrapper.kill_reliable hr _).2
  | aboutToQuit iface connected =>
    refine iff_of_true ?_ trivial
    apply (noSessionLeft_iff hr _).mpr
    intro _
    exact (aboutToQuit_connected connected).2.2 hr
  | stopIgnored | aboutToQuitIgnored | sendCommandIgnored => exact iff_of_true hi trivial
  | _ => exact iff_of_true (quietly rfl) trivial

/-- A run leaves no session behind, in any state it reaches, exactly if each
of its steps meets the condition. -/
theorem no_session_left_iff {h : Host} (hr : h.Reliable) (path : QUrl) (name : String)
    (valid : (create h path name).valid = true) (es : List ServerEvent) :
    Machine.Throughout (step h) (NoSessionLeft h) (create h path name) es ↔
      Machine.EachStep (step h) (LeavesNoSession h) (create h path name) es := by
  apply Machine.throughout_iff_eachStep (A := Configured)
  · intro s e _ u hs hu
    exact step_configured hs hu
  · intro s e _ u hs hi hu
    exact step_no_session_left hr hs hi hu
  · exact create_configured h path name valid
  · apply (noSessionLeft_iff hr _).mpr
    intro _
    rfl

theorem no_session_left_iff_start :
    Machine.Throughout (step .ideal) (NoSessionLeft .ideal) sample [.start, .stop] ↔
      Machine.EachStep (step .ideal) (LeavesNoSession .ideal) sample [.start, .stop] :=
  no_session_left_iff Host.ideal_reliable _ _ rfl _

/-- A start, and no game server before the timer expires: the server counts as
crashed, the session lives on, and the next start is refused because of it. -/
theorem timed_out_start_leaves_session :
    Host.ideal.Reliable ∧ sample.valid = true ∧
    ∃ s, run .ideal sample [.start, .startTimeout 0] = some s ∧
      s.state = .crashed ∧ s.tmux.session = true ∧ ¬ s.NoSessionLeft .ideal ∧
      (s.start .ideal).1.coordinator.error = .unableToCreateTmuxSession := by
  refine ⟨Host.ideal_reliable, rfl, _, rfl, rfl, rfl, fun left => ?_, rfl⟩
  exact absurd (left rfl).1 (by decide)

end Morgoth.Server
