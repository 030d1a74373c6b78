import Morgoth.Announced
import Morgoth.Starters

/-!
# How a start ends

`ServerStarter::start` has six exits on which it fails, with the session
created halfway, and one on which it leaves the starter waiting. What went
wrong is only reported through signals, which are handled before `start`
returns.

* `bringUp_cases`: the exits, each with what has led to it;
* `clean_start_iff`: which starts leave no session behind when they fail;
* `start_promise_iff`: when the result of `ServerCoordinator::start` is what
  its documentation says;
* `names_failure_iff`: in which runs `error()` explains every crash.
-/

namespace Morgoth

namespace TmuxSessionWrapper

variable {h : Host} {t u v : TmuxSessionWrapper}

/-- The session is as before, and nothing but has-session was run. -/
def OnlyAsks (t u : TmuxSessionWrapper) : Prop :=
  u.session = t.session ∧
    ∃ new, u.spawned = t.spawned ++ new ∧ ∀ child ∈ new, child.command = .hasSession

theorem OnlyAsks.refl (t : TmuxSessionWrapper) : OnlyAsks t t :=
  ⟨rfl, [], (List.append_nil _).symm, fun _ there => nomatch there⟩

theorem OnlyAsks.trans (first : OnlyAsks t u) (second : OnlyAsks u v) : OnlyAsks t v :=
  ⟨second.1.trans first.1, children_append first.2 second.2⟩

theorem onlyAsks_traced (h : Host) : Traced h (· = .hasSession) OnlyAsks where
  refl := .refl
  trans _ _ _ := .trans
  child command asks t := by
    subst asks
    refine ⟨sessionExists_session h t, _, rfl, ?_⟩
    intro child there
    rw [List.mem_singleton.mp there]

theorem sessionExists_onlyAsks (h : Host) (t : TmuxSessionWrapper) :
    OnlyAsks t (t.sessionExists h).2 := (onlyAsks_traced h).sessionExists rfl t

theorem setUser_onlyAsks (h : Host) (user : String) (t : TmuxSessionWrapper) :
    OnlyAsks t (t.setUser h user) := (onlyAsks_traced h).setUser rfl t fun t => .refl t

/-- `kill` can only succeed where has-session finds every session that is
there. -/
theorem sessionExists_of_kills (kills : ∀ t : TmuxSessionWrapper, (t.kill h).2.session = false)
    (live : t.session = true) : (t.sessionExists h).1 = true := by
  have killed := kills t
  have kept := sessionExists_session h t
  unfold kill at killed
  cases hx : t.sessionExists h with
  | mk there t' =>
    rw [hx] at killed kept
    cases there with
    | true => rfl
    | false =>
      rw [show t'.session = true from kept.trans live] at killed
      cases killed

/-- A session that is there is found, and left alone. -/
theorem create_live (kills : ∀ t : TmuxSessionWrapper, (t.kill h).2.session = false)
    (live : t.session = true) : (t.create h).1 = false ∧ OnlyAsks t (t.create h).2 := by
  have found := sessionExists_of_kills kills live
  have asks := sessionExists_onlyAsks h t
  unfold create
  cases hx : t.sessionExists h with
  | mk there t' =>
    rw [hx] at found asks
    obtain rfl : there = true := found
    exact ⟨rfl, asks⟩

end TmuxSessionWrapper

open TmuxSessionWrapper ServerStarter

namespace Server

/-! ## The exits -/

/-- `create`, after the user has been set. -/
def creation (h : Host) (s : Server) (configuration : ServerConfiguration) :
    Bool × TmuxSessionWrapper :=
  (s.tmux.setUser h (s.startUser h configuration)).create h

/-- Both commands that make the session a game server's report success. -/
def Launches (h : Host) (s : Server) (configuration : ServerConfiguration)
    (tmux : TmuxSessionWrapper) : Prop :=
  (tmux.redirectOutput h (s.logFileName configuration)).1 = true ∧
  ((tmux.redirectOutput h (s.logFileName configuration)).2.sendKeys h
    (s.launchCommand configuration)).1 = true

/-- `redirectOutput` of the start. -/
def redirection (h : Host) (s : Server) (configuration : ServerConfiguration)
    (tmux : TmuxSessionWrapper) : Bool × TmuxSessionWrapper :=
  tmux.redirectOutput h (s.logFileName configuration)

/-- `sendKeys` of the start, after `redirectOutput`. -/
def launching (h : Host) (s : Server) (configuration : ServerConfiguration)
    (tmux : TmuxSessionWrapper) : Bool × TmuxSessionWrapper :=
  (s.redirection h configuration tmux).2.sendKeys h (s.launchCommand configuration)

/-- The ways through `ServerStarter::start`, with the session left behind and
the error that is reported: that of the step that has failed. -/
inductive Exit (h : Host) (s : Server) : TmuxSessionWrapper → Option ServerError → Prop
  | invalid (invalid : s.valid = false) : Exit h s s.tmux (some .invalidInstallation)
  | unconfigured (valid : s.valid = true) (unconfigured : s.configuration = none) :
      Exit h s s.tmux (some .invalidConfiguration)
  | refused (configuration : ServerConfiguration) (valid : s.valid = true)
      (configured : s.configuration = some configuration)
      (created : (s.creation h configuration).1 = false) :
      Exit h s (s.creation h configuration).2 (some .unableToCreateTmuxSession)
  | unresolved (configuration : ServerConfiguration) (valid : s.valid = true)
      (configured : s.configuration = some configuration)
      (created : (s.creation h configuration).1 = true)
      (unresolved : s.userUnresolved h configuration = true) :
      Exit h s (s.creation h configuration).2 (some .unableToResolveUser)
  | unredirected (configuration : ServerConfiguration) (valid : s.valid = true)
      (configured : s.configuration = some configuration)
      (created : (s.creation h configuration).1 = true)
      (resolved : s.userUnresolved h configuration = false)
      (unredirected : (s.redirection h configuration (s.creation h configuration).2).1 = false) :
      Exit h s ((s.redirection h configuration (s.creation h configuration).2).2.kill h).2
        (some .unableToRedirectTmuxOutput)
  | unlaunched (configuration : ServerConfiguration) (valid : s.valid = true)
      (configured : s.configuration = some configuration)
      (created : (s.creation h configuration).1 = true)
      (resolved : s.userUnresolved h configuration = false)
      (redirected : (s.redirection h configuration (s.creation h configuration).2).1 = true)
      (unlaunched : (s.launching h configuration (s.creation h configuration).2).1 = false) :
      Exit h s ((s.launching h configuration (s.creation h configuration).2).2.kill h).2
        (some .serverExecutableFailed)
  | waiting (configuration : ServerConfiguration) (valid : s.valid = true)
      (configured : s.configuration = some configuration)
      (created : (s.creation h configuration).1 = true)
      (resolved : s.userUnresolved h configuration = false)
      (launches : s.Launches h configuration (s.creation h configuration).2) :
      Exit h s (s.launching h configuration (s.creation h configuration).2).2 none

/-- The two commands leave the session as it is. -/
theorem launching_session (h : Host) (s : Server) (configuration : ServerConfiguration)
    (tmux : TmuxSessionWrapper) :
    (s.launching h configuration tmux).2.session = tmux.session :=
  (sendKeys_session h _ _).trans (redirectOutput_session h _ tmux)

theorem not_launches_first {h : Host} {s : Server} {configuration : ServerConfiguration}
    {tmux : TmuxSessionWrapper} (unredirected : (s.redirection h configuration tmux).1 = false) :
    ¬ s.Launches h configuration tmux :=
  fun launches => absurd (launches.1.symm.trans unredirected) (by decide)

theorem not_launches_second {h : Host} {s : Server} {configuration : ServerConfiguration}
    {tmux : TmuxSessionWrapper} (unlaunched : (s.launching h configuration tmux).1 = false) :
    ¬ s.Launches h configuration tmux :=
  fun launches => absurd (launches.2.symm.trans unlaunched) (by decide)

/-- The first of the two commands that fails is the one that is reported. -/
theorem launch_cases (h : Host) (s : Server) (configuration : ServerConfiguration)
    (tmux : TmuxSessionWrapper) :
    ((s.redirection h configuration tmux).1 = false ∧
      s.launch h configuration tmux =
        (((s.redirection h configuration tmux).2.kill h).2, some .unableToRedirectTmuxOutput)) ∨
    ((s.redirection h configuration tmux).1 = true ∧ (s.launching h configuration tmux).1 = false ∧
      s.launch h configuration tmux =
        (((s.launching h configuration tmux).2.kill h).2, some .serverExecutableFailed)) ∨
    (s.Launches h configuration tmux ∧
      s.launch h configuration tmux = ((s.launching h configuration tmux).2, none)) := by
  unfold launch Launches launching redirection
  cases tmux.redirectOutput h (s.logFileName configuration) with
  | mk redirected tmux' =>
    cases redirected with
    | false => exact .inl ⟨rfl, rfl⟩
    | true =>
      dsimp only
      cases tmux'.sendKeys h (s.launchCommand configuration) with
      | mk launched tmux'' =>
        cases launched with
        | false => exact .inr (.inl ⟨rfl, rfl, rfl⟩)
        | true => exact .inr (.inr ⟨⟨rfl, rfl⟩, rfl⟩)

theorem bringUp_cases (h : Host) (s : Server) : Exit h s (s.bringUp h).1 (s.bringUp h).2 := by
  cases valid : s.valid with
  | false =>
    unfold bringUp
    rw [valid]
    exact .invalid valid
  | true =>
    cases configured : s.configuration with
    | none =>
      unfold bringUp
      rw [valid, configured]
      exact .unconfigured valid configured
    | some configuration =>
      rw [bringUp_configured h valid configured]
      have refused := Exit.refused (h := h) configuration valid configured
      have unresolved := Exit.unresolved (h := h) configuration valid configured
      have unredirected := Exit.unredirected (h := h) configuration valid configured
      have unlaunched := Exit.unlaunched (h := h) configuration valid configured
      have waiting := Exit.waiting (h := h) configuration valid configured
      unfold creation at refused unresolved unredirected unlaunched waiting
      cases made : (s.tmux.setUser h (s.startUser h configuration)).create h with
      | mk created tmux =>
        rw [made] at refused unresolved unredirected unlaunched waiting
        cases created with
        | false => exact refused rfl
        | true =>
          cases user : s.userUnresolved h configuration with
          | true => exact unresolved rfl user
          | false =>
            dsimp only
            rw [if_neg (by simp)]
            rcases launch_cases h s configuration tmux with
              ⟨first, failed⟩ | ⟨first, second, failed⟩ | ⟨launches, done⟩
            · rw [failed]
              exact unredirected rfl user first
            · rw [failed]
              exact unlaunched rfl user first second
            · rw [done]
              exact waiting rfl user launches

/-- The starter of the last start. -/
def lastStarter (s u : Server) : Option ServerStarter := u.starters[s.starters.length]?

theorem start_lastStarter (h : Host) (s : Server) :
    lastStarter s (s.start h).1 = some (launched (s.bringUp h).2) := by
  rw [lastStarter, start_starters]
  simp

theorem start_tmux (h : Host) (s : Server) : (s.start h).1.tmux = (s.bringUp h).1 :=
  (start_frame h s).2.2.2.1

/-! ## What a failed start leaves behind -/

/-- When a starter reports that it has failed, a session that was not there
before its start is not there, and one that was is as it was. A starter that
has not failed waits for its game server in a session. -/
def CleanStart (s u : Server) : Prop :=
  ∀ st, lastStarter s u = some st →
    (∀ error, .failed error ∈ st.signals →
      (s.tmux.session = false → u.tmux.session = false) ∧
      (s.tmux.session = true → OnlyAsks s.tmux u.tmux)) ∧
    ((∀ error, .failed error ∉ st.signals) →
      u.tmux.session = true ∧ st.connected = true ∧ st.timerActive = true)

/-- Where no session is there before: if `create` makes one, it says so, and
the user can be resolved; if it makes none, the start does not get to its end. -/
def LeavesNothing (h : Host) (s : Server) : Prop :=
  s.tmux.session = false → s.valid = true → ∀ configuration, s.configuration = some configuration →
    if (s.creation h configuration).2.session then
      (s.creation h configuration).1 = true ∧ s.userUnresolved h configuration = false
    else (s.creation h configuration).1 = true → s.userUnresolved h configuration = false →
      ¬ s.Launches h configuration (s.creation h configuration).2

/-- What a start has to leave behind, by the error it reports. -/
theorem cleanStart_cases (h : Host) (s : Server) :
    CleanStart s (s.start h).1 ↔
      if (s.bringUp h).2.isSome then
        (s.tmux.session = false → (s.bringUp h).1.session = false) ∧
        (s.tmux.session = true → OnlyAsks s.tmux (s.bringUp h).1)
      else (s.bringUp h).1.session = true := by
  unfold CleanStart
  simp only [start_lastStarter, start_tmux, Option.some.injEq, forall_eq']
  cases (s.bringUp h).2 <;> simp [launched]

/-- A session that is there before the start is left alone. -/
theorem cleanStart_live {h : Host} {s : Server} (live : s.tmux.session = true)
    (kills : ∀ t : TmuxSessionWrapper, (t.kill h).2.session = false) :
    CleanStart s (s.start h).1 := by
  have refused (configuration : ServerConfiguration) : (s.creation h configuration).1 = false ∧
      OnlyAsks s.tmux (s.creation h configuration).2 := by
    have user := setUser_onlyAsks h (s.startUser h configuration) s.tmux
    obtain ⟨refused, asks⟩ := create_live kills (user.1.trans live)
    exact ⟨refused, user.trans asks⟩
  rw [cleanStart_cases]
  have exits := bringUp_cases h s
  generalize (s.bringUp h).1 = tmux at exits ⊢
  generalize (s.bringUp h).2 = failure at exits ⊢
  cases exits with
  | invalid | unconfigured => exact ⟨id, fun _ => .refl s.tmux⟩
  | refused configuration =>
    exact ⟨fun gone => absurd (live.symm.trans gone) (by decide),
      fun _ => (refused configuration).2⟩
  | unresolved configuration _ _ created | unredirected configuration _ _ created
  | unlaunched configuration _ _ created | waiting configuration _ _ created =>
    rw [(refused configuration).1] at created
    cases created

/-- A failed start leaves no session of its own behind, and a start that has not
failed waits in one, exactly if what `create` says is true and the user can be
resolved. -/
theorem clean_start_iff (h : Host) (s : Server)
    (kills : ∀ t : TmuxSessionWrapper, (t.kill h).2.session = false) :
    CleanStart s (s.start h).1 ↔ LeavesNothing h s := by
  cases before : s.tmux.session with
  | true =>
    refine iff_of_true (cleanStart_live before kills) ?_
    intro gone
    rw [before] at gone
    cases gone
  | false =>
    unfold LeavesNothing
    rw [cleanStart_cases, before]
    have exits := bringUp_cases h s
    generalize (s.bringUp h).1 = tmux at exits ⊢
    generalize (s.bringUp h).2 = failure at exits ⊢
    cases exits with
    | invalid invalid => simp [before, invalid]
    | unconfigured valid unconfigured => simp [before, unconfigured]
    | refused configuration valid configured created =>
      cases made : (s.creation h configuration).2.session <;>
        simp [valid, configured, created, made]
    | unresolved configuration valid configured created unresolved =>
      cases made : (s.creation h configuration).2.session <;>
        simp [valid, configured, created, made, unresolved]
    | unredirected configuration valid configured created resolved unredirected =>
      have stuck := not_launches_first unredirected
      cases made : (s.creation h configuration).2.session <;>
        simp [valid, configured, created, made, resolved, stuck, kills]
    | unlaunched configuration valid configured created resolved redirected unlaunched =>
      have stuck := not_launches_second unlaunched
      cases made : (s.creation h configuration).2.session <;>
        simp [valid, configured, created, made, resolved, stuck, kills]
    | waiting configuration valid configured created resolved launches =>
      cases made : (s.creation h configuration).2.session <;>
        simp [valid, configured, created, made, resolved, launches, launching_session]

theorem clean_start_iff_sample :
    CleanStart sample (sample.start .ideal).1 ↔ LeavesNothing .ideal sample :=
  clean_start_iff .ideal sample fun t => (kill_reliable Host.ideal_reliable t).2

/-- A server that is to run as a user whom nobody knows. -/
def nobodys : Server :=
  { sample with
    configuration := some (ServerConfiguration.default.setValue "org.morgoth.Server.user" "nobody").1 }

/-- The session has been created before the user is looked up. -/
theorem unresolved_user_leaves_session :
    nobodys.valid = true ∧ nobodys.tmux.session = false ∧
    (∃ st, lastStarter nobodys (nobodys.start .ideal).1 = some st ∧
      st.signals = [.starting, .failed .unableToResolveUser]) ∧
    (nobodys.start .ideal).1.tmux.session = true ∧
    ¬ CleanStart nobodys (nobodys.start .ideal).1 := by
  refine ⟨rfl, rfl, ⟨_, rfl, rfl⟩, rfl, ?_⟩
  intro clean
  have gone := ((clean _ rfl).1 .unableToResolveUser (by decide)).1 rfl
  cases gone

/-! ## The result of a start -/

/-- The result is `false` exactly if the start has failed during the call, and
`true` exactly if the server is left starting, in a session, with a starter that
waits for its game server. -/
structure StartPromise (s : Server) (result : Server × Bool) : Prop where
  denied : result.2 = false ↔
    ∃ st error, lastStarter s result.1 = some st ∧ .failed error ∈ st.signals
  granted : result.2 = true ↔
    result.1.state = .starting ∧ result.1.tmux.session = true ∧
      ∃ st, lastStarter s result.1 = some st ∧ st.connected = true ∧ st.timerActive = true

/-- Every step of the start reports success, and `create` has made the session
it reports. -/
def BootsUp (h : Host) (s : Server) : Prop :=
  s.valid = true ∧ ∃ configuration, s.configuration = some configuration ∧
    (s.creation h configuration).1 = true ∧ (s.creation h configuration).2.session = true ∧
    s.userUnresolved h configuration = false ∧
    s.Launches h configuration (s.creation h configuration).2

/-- The result is `true` whatever has happened, so the promise is only kept by
the starts that succeed. -/
theorem start_promise_cases (h : Host) (s : Server) :
    StartPromise s (s.start h) ↔ (s.bringUp h).2 = none ∧ (s.bringUp h).1.session = true := by
  have result : (s.start h).2 = true := rfl
  constructor
  · rintro ⟨denied, granted⟩
    obtain ⟨-, session, -⟩ := granted.mp result
    rw [start_tmux] at session
    refine ⟨?_, session⟩
    cases failure : (s.bringUp h).2 with
    | none => rfl
    | some error =>
      have failed : (s.start h).2 = false := denied.mpr
        ⟨_, error, start_lastStarter h s, by simp [failure, launched]⟩
      rw [result] at failed
      cases failed
  · rintro ⟨pending, session⟩
    have last := start_lastStarter h s
    rw [pending] at last
    constructor
    · refine iff_of_false (by simp [result]) ?_
      rintro ⟨st, error, there, failed⟩
      obtain rfl := Option.some.inj (last.symm.trans there)
      simp [launched] at failed
    · refine iff_of_true result ⟨?_, ?_, _, last, rfl, rfl⟩
      · rw [start_pending pending]
      · rw [start_tmux, session]

/-- The result is what its documentation says exactly if the start succeeds. -/
theorem start_promise_iff (h : Host) (s : Server) :
    StartPromise s (s.start h) ↔ BootsUp h s := by
  rw [start_promise_cases]
  have exits := bringUp_cases h s
  generalize (s.bringUp h).1 = tmux at exits ⊢
  generalize (s.bringUp h).2 = failure at exits ⊢
  unfold BootsUp
  cases exits with
  | invalid invalid => simp [invalid]
  | unconfigured valid unconfigured => simp [unconfigured]
  | refused configuration valid configured created => simp [configured, created]
  | unresolved configuration valid configured created unresolved =>
    simp [configured, unresolved]
  | unredirected configuration valid configured created resolved unredirected =>
    simp [configured, not_launches_first unredirected]
  | unlaunched configuration valid configured created resolved redirected unlaunched =>
    simp [configured, not_launches_second unlaunched]
  | waiting configuration valid configured created resolved launches =>
    simp [valid, configured, created, resolved, launches, launching_session]

/-- The second of two starts fails, and its result says that it has not. -/
theorem failed_start_returns_true :
    ∃ s, run .ideal sample [.start] = some s ∧
      (s.start .ideal).2 = true ∧ (s.start .ideal).1.state = .crashed ∧
      (∃ st, lastStarter s (s.start .ideal).1 = some st ∧
        st.signals = [.starting, .failed .unableToCreateTmuxSession]) ∧
      ¬ StartPromise s (s.start .ideal) := by
  refine ⟨_, rfl, rfl, rfl, ⟨_, rfl, rfl⟩, ?_⟩
  intro promise
  obtain ⟨starting, -⟩ := promise.granted.mp rfl
  cases starting

/-! ## The error of a crash -/

/-- The failures that an event can end in, and that `ServerError` has a name
for: it has none for a ping time-out. -/
inductive Fails (h : Host) (s : Server) : ServerEvent → ServerError → Prop
  | start (tmux : TmuxSessionWrapper) (error : ServerError) (exits : Exit h s tmux (some error)) :
      Fails h s .start error
  | startTimeout (i : Nat) : Fails h s (.startTimeout i) .serverNotRegisteredOnTime

/-- With every `stateChanged(Crashed)` that the event emits, `error()` is the
failure that has caused it. -/
def NamesFailure (h : Host) (s : Server) (e : ServerEvent) : Prop :=
  ∀ u error, s.step h e = some u → (.crashed, error) ∈ emitted s u →
    Fails h s e error ∧ error ≠ .noError

/-- No ping time-out reaches a coordinator. -/
def PingsAnswered (s : Server) (e : ServerEvent) : Prop :=
  e = .gameServerTimedOut → s.valid = false

theorem Exit.named {h : Host} {s : Server} {tmux : TmuxSessionWrapper} {error : ServerError}
    (exits : Exit h s tmux (some error)) : error ≠ .noError := by
  cases exits <;> decide

theorem start_namesFailure (h : Host) (s : Server) : NamesFailure h s .start := by
  intro u error hu crashed
  obtain ⟨-, rfl⟩ := Machine.some_of_ite hu
  have exits := bringUp_cases h s
  cases failure : (s.bringUp h).2 with
  | none =>
    have only : emitted s (s.start h).1 = [(.starting, s.coordinator.error)] :=
      emitted_append (by rw [start_pending failure])
    rw [only] at crashed
    simp at crashed
  | some failed =>
    have both : emitted s (s.start h).1 = [(.starting, s.coordinator.error), (.crashed, failed)] :=
      emitted_append (by rw [start_failed failure]; simp)
    rw [both] at crashed
    obtain rfl : error = failed := by simpa using crashed
    rw [failure] at exits
    exact ⟨.start _ error exits, exits.named⟩

/-- Nothing but the given state has been announced. -/
def AnnouncesOnly (state : State) (s u : Server) : Prop :=
  ∃ new, u.coordinator.signals = s.coordinator.signals ++ new ∧ ∀ signal ∈ new, signal.1 = state

theorem AnnouncesOnly.snoc {state : State} {s t u : Server} {error : ServerError}
    (only : AnnouncesOnly state s t)
    (signals : u.coordinator.signals = t.coordinator.signals ++ [(state, error)]) :
    AnnouncesOnly state s u := by
  obtain ⟨new, before, same⟩ := only
  refine ⟨new ++ [(state, error)], by rw [signals, before, List.append_assoc], ?_⟩
  intro signal there
  rcases List.mem_append.mp there with old | last
  · exact same signal old
  · rw [List.mem_singleton.mp last]

theorem announcesOnly_none (state : State) {s u : Server}
    (signals : u.coordinator.signals = s.coordinator.signals) : AnnouncesOnly state s u :=
  ⟨[], by rw [signals, List.append_nil], fun _ there => nomatch there⟩

theorem AnnouncesOnly.not_crashed {state : State} {s u : Server} (only : AnnouncesOnly state s u)
    (other : state ≠ .crashed) {error : ServerError} : (.crashed, error) ∉ emitted s u := by
  obtain ⟨new, signals, same⟩ := only
  rw [emitted_append signals]
  exact fun there => other (same _ there).symm

theorem gameServerOnline_running (h : Host) (iface : GameServerId) (gameServer : GameServer)
    (s : Server) : AnnouncesOnly .running s (s.gameServerOnline h iface gameServer) := by
  refine onlineSlots_keeps (P := AnnouncesOnly .running s) ?_ ?_ (announcesOnly_none _ rfl)
  · exact fun _ ht => ht
  · intro i t ht
    rw [handleGameServerRegistered_eq]
    exact ht.snoc rfl

theorem aboutToQuit_offline (h : Host) (iface : GameServerId) (s : Server) :
    AnnouncesOnly .offline s (s.aboutToQuit h iface) :=
  aboutToQuit_keeps (fun _ ht => ht.snoc rfl) (announcesOnly_none _ rfl)

/-- Only a ping time-out crashes a server without a word on why. -/
theorem step_namesFailure {h : Host} {s u : Server} {e : ServerEvent} (hu : s.step h e = some u) :
    s.NamesFailure h e ↔ s.PingsAnswered e := by
  have silent {state : State} (only : AnnouncesOnly state s u) (other : state ≠ .crashed) :
      s.NamesFailure h e := by
    intro u' error hu' crashed
    obtain rfl := Option.some.inj (hu.symm.trans hu')
    exact absurd crashed (only.not_crashed other)
  have he := step_effect hu
  have quietly (quiet : e.quiet = true) : s.NamesFailure h e :=
    silent (announcesOnly_none .offline (quiet_effect quiet he).2.1) (by decide)
  cases he with
  | start => exact iff_of_true (start_namesFailure h s) nofun
  | stop =>
    have only : AnnouncesOnly .shuttingDown s
        ((s.setState .shuttingDown).withTmux (s.tmux.sendKeys h "quit").2) :=
      (announcesOnly_none _ rfl).snoc rfl
    exact iff_of_true (silent only (by decide)) nofun
  | stopIgnored | aboutToQuitIgnored =>
    exact iff_of_true (silent (announcesOnly_none .offline rfl) (by decide)) nofun
  | startTimeout i =>
    refine iff_of_true ?_ nofun
    intro u error hu crashed
    obtain ⟨-, rfl⟩ := Machine.some_of_ite hu
    have only : emitted s (s.timeoutStart i) = [(.crashed, .serverNotRegisteredOnTime)] :=
      emitted_append (by rw [timeoutStart_eq])
    rw [only] at crashed
    obtain rfl : error = .serverNotRegisteredOnTime := by simpa using crashed
    exact ⟨.startTimeout i, by decide⟩
  | gameServerOnline iface gameServer =>
    exact iff_of_true (silent (gameServerOnline_running h iface gameServer s) (by decide)) nofun
  | aboutToQuit iface =>
    exact iff_of_true (silent (aboutToQuit_offline h iface s) (by decide)) nofun
  | gameServerTimedOut =>
    cases valid : s.valid with
    | true =>
      have crashed : emitted s (s.gameServerTimedOut h) = [(.crashed, s.coordinator.error)] :=
        emitted_append (by rw [gameServerTimedOut_valid valid]; rfl)
      refine iff_of_false ?_ fun answered => ?_
      · intro names
        obtain ⟨fails, -⟩ := names _ s.coordinator.error hu (by simp [crashed])
        cases fails
      · rw [answered rfl] at valid
        cases valid
    | false =>
      refine iff_of_true (silent (announcesOnly_none .offline ?_) (by decide)) fun _ => valid
      rw [gameServerTimedOut_invalid valid]
  | _ => exact iff_of_true (quietly rfl) nofun

/-- `error()` explains every crash of a run exactly if none of them is a ping
time-out. -/
theorem names_failure_iff (h : Host) (path : QUrl) (name : String) (es : List ServerEvent) :
    Machine.EachStep (step h) (NamesFailure h) (create h path name) es ↔
      Machine.EachStep (step h) PingsAnswered (create h path name) es :=
  Machine.eachStep_congr (A := fun _ => True) (fun _ _ _ _ _ => trivial)
    (fun _ _ _ _ hu => step_namesFailure hu) trivial

/-- The first crash of a server is announced as no error, and that of a later
run with the error of a start long over. -/
theorem crash_unexplained :
    ∃ s t u, run .ideal sample [.start, .gameServerOnline 0 .sample, .gameServerTimedOut] = some s ∧
      s.coordinator.signals.getLast? = some (.crashed, .noError) ∧
      run .ideal sample [.start, .startTimeout 0, .gameServerOnline 0 .sample, .deleteStarter 0,
        .aboutToQuit 0, .start, .gameServerOnline 1 .sample] = some t ∧
      t.state = .running ∧ run .ideal t [.gameServerTimedOut] = some u ∧
      u.coordinator.signals.getLast? = some (.crashed, .serverNotRegisteredOnTime) ∧
      ¬ t.NamesFailure .ideal .gameServerTimedOut := by
  refine ⟨_, _, _, rfl, rfl, rfl, rfl, rfl, rfl, ?_⟩
  intro names
  obtain ⟨fails, -⟩ := names _ .serverNotRegisteredOnTime rfl (by decide)
  cases fails

end Server

end Morgoth
