import Morgoth.Bookkeeping

/-!
# The registry and the coordinators

`gameServers` and the states of the coordinators tell the same story in two
forms: a server has a registered game server, or it is running. Registrations,
quits and failed pings change the one, what they cause on the server changes
the other.

* `step_agrees`: for each event, when the two still agree after it;
* `agrees_iff`: the same for runs.
-/

namespace Morgoth

/-- The coordinator and the registry agree on one server: registered means
running or shutting down, and running means registered. -/
def Server.AgreesWith (s : Server) (registered : Prop) : Prop :=
  (registered → s.state = .running ∨ s.state = .shuttingDown) ∧ (s.state = .running → registered)

/-- A start, and its time-out. -/
def ServerEvent.startsAnew : ServerEvent → Bool
  | .start | .startTimeout _ => true
  | _ => false

namespace ServerManager

/-- A valid server in `servers()`. -/
def Manages (m : ServerManager) (server : ServerId) (s : Server) : Prop :=
  server ∈ m.servers ∧ m.heap server = some s ∧ s.valid = true

/-- The same without one game server. -/
def RegisteredBesides (m : ServerManager) (gone : GameServerId) (server : ServerId) : Prop :=
  ∃ iface, iface ≠ gone ∧ m.gameServers.lookup iface = some server

def Agrees (m : ServerManager) : Prop :=
  ∀ server s, m.Manages server s → s.AgreesWith (m.Registered server)

/-- A registration finds a starter waiting, or a server that is up; a game
server that is lost with its server leaves no other behind, and one that is
only forgotten leaves another; a server with a registered game server is not
started, and its start does not time out. -/
def KeepsAgreement (env : Environment) (m : ServerManager) : ManagerEvent → Prop
  | .registerGameServer gameServer =>
    ∀ server s, m.matching env gameServer = some server → m.Manages server s →
      s.listening ≠ [] ∨ s.state = .running ∨ s.state = .shuttingDown
  | .aboutToQuit iface =>
    ∀ server s, m.interfaces.lookup iface = some server → m.Manages server s →
      (iface ∈ s.coordinator.quitSlots → ¬ m.RegisteredBesides iface server) ∧
      (iface ∉ s.coordinator.quitSlots → s.state = .running → m.RegisteredBesides iface server)
  | .pingFinished gameServer _ error =>
    error.any DBusError.isLoss = true →
    ∀ server s, m.gameServers.lookup gameServer = some server → m.Manages server s →
      ¬ m.RegisteredBesides gameServer server
  | .server server event =>
    event.startsAnew = true → ∀ s, m.Manages server s → ¬ m.Registered server
  | _ => True

/-! ## One server -/

theorem agreesWith_down {s : Server} {state : State} {registered : Prop} (here : s.state = state)
    (down : ¬(state = .running ∨ state = .shuttingDown)) :
    s.AgreesWith registered ↔ ¬ registered := by
  unfold Server.AgreesWith
  rw [here]
  constructor
  · exact fun agrees there => down (agrees.1 there)
  · exact fun gone => ⟨fun there => absurd there gone, fun up => absurd (Or.inl up) down⟩

theorem agreesWith_congr {s t : Server} {registered registered' : Prop} (state : s.state = t.state)
    (same : registered ↔ registered') : s.AgreesWith registered ↔ t.AgreesWith registered' := by
  unfold Server.AgreesWith
  rw [state, same]

theorem online_agrees (h : Host) (iface : GameServerId) (gameServer : GameServer) (s : Server) :
    (s.gameServerOnline h iface gameServer).AgreesWith True ↔
      s.listening ≠ [] ∨ s.state = .running ∨ s.state = .shuttingDown := by
  by_cases silent : s.listening = []
  · rw [Server.gameServerOnline_unheard silent]
    simp [Server.AgreesWith, silent]
  · have heard := (Server.gameServerOnline_heard silent h iface gameServer).1
    simp [Server.AgreesWith, silent, heard]

theorem quit_agrees (h : Host) (iface : GameServerId) {s : Server} {before after : Prop}
    (agrees : s.AgreesWith before) (fewer : after → before) :
    (s.aboutToQuit h iface).AgreesWith after ↔
      (iface ∈ s.coordinator.quitSlots → ¬ after) ∧
      (iface ∉ s.coordinator.quitSlots → s.state = .running → after) := by
  by_cases connected : iface ∈ s.coordinator.quitSlots
  · have offline := (Server.aboutToQuit_connected (h := h) connected).1
    rw [agreesWith_down offline (by decide)]
    simp [connected]
  · rw [Server.aboutToQuit_unconnected connected]
    refine ⟨fun left => ⟨fun there => absurd there connected, fun _ => left.2⟩, fun left => ?_⟩
    exact ⟨fun there => agrees.1 (fewer there), left.2 connected⟩

/-- The events of one server that do not touch the registry. -/
theorem alone_agrees {h : Host} {s t : Server} {event : ServerEvent} {registered : Prop}
    (unmanaged : event.managed = false) (agrees : s.AgreesWith registered)
    (moves : s.step h event = some t) :
    t.AgreesWith registered ↔ (event.startsAnew = true → ¬ registered) := by
  have anew {state : State} (here : t.state = state)
      (down : ¬(state = .running ∨ state = .shuttingDown)) (startsAnew : event.startsAnew = true) :
      t.AgreesWith registered ↔ (event.startsAnew = true → ¬ registered) := by
    rw [agreesWith_down here down]
    exact ⟨fun gone _ => gone, fun gone => gone startsAnew⟩
  have he := Server.step_effect moves
  have quietly (quiet : event.quiet = true) : t.AgreesWith registered := by
    obtain ⟨state, -⟩ := Server.quiet_effect quiet he
    exact (agreesWith_congr state Iff.rfl).mpr agrees
  cases he with
  | start =>
    obtain ⟨-, -, -, -, -, -, state | state⟩ := Server.start_frame h s
    · exact anew state (by decide) rfl
    · exact anew state (by decide) rfl
  | startTimeout i =>
    have crashed : (s.timeoutStart i).state = .crashed := by rw [Server.timeoutStart_eq]
    exact anew crashed (by decide) rfl
  | stop =>
    refine iff_of_true ⟨fun _ => Or.inr rfl, ?_⟩ nofun
    intro up
    cases up
  | stopIgnored | sendCommandIgnored => exact iff_of_true agrees nofun
  | gameServerOnline | gameServerTimedOut | aboutToQuit | aboutToQuitIgnored | deleteGameServer =>
    cases unmanaged
  | _ => exact iff_of_true (quietly rfl) nofun

/-! ## The registry -/

theorem registered_erase {m : ServerManager} {gone : GameServerId} {t : ServerId} :
    (∃ x, (m.gameServers.erase gone).lookup x = some t) ↔ m.RegisteredBesides gone t := by
  constructor
  · rintro ⟨x, known⟩
    have other : x ≠ gone := by
      rintro rfl
      rw [AList.lookup_erase] at known
      cases known
    exact ⟨x, other, (AList.lookup_erase_ne other).symm.trans known⟩
  · rintro ⟨x, other, known⟩
    exact ⟨x, (AList.lookup_erase_ne other).trans known⟩

/-- To forget a game server makes no difference to a server it was not
registered for. -/
theorem registeredBesides_iff {m : ServerManager} {gone : GameServerId} {t : ServerId}
    (other : m.gameServers.lookup gone ≠ some t) :
    m.RegisteredBesides gone t ↔ m.Registered t := by
  constructor
  · rintro ⟨x, -, known⟩
    exact ⟨x, known⟩
  · rintro ⟨x, known⟩
    refine ⟨x, ?_, known⟩
    rintro rfl
    exact other known

/-! ## Steps and runs -/

variable {env : Environment} {m u : ServerManager}

/-- Where an event reaches one server and changes only what is registered for
that one, the registry and the coordinators agree afterwards if they do on
that server. -/
theorem agrees_reach (server : ServerId) (signal : Server → Server) (hi : m.Agrees)
    (servers : u.servers = m.servers) (heap : u.heap = (m.reach server signal).heap)
    (valid : ∀ s, m.heap server = some s → (signal s).valid = s.valid)
    (others : ∀ t, t ≠ server → (u.Registered t ↔ m.Registered t)) :
    u.Agrees ↔ ∀ s, m.Manages server s → (signal s).AgreesWith (u.Registered server) := by
  constructor
  · rintro hu s ⟨listed, there, ok⟩
    refine hu server (signal s) ⟨servers ▸ listed, ?_, (valid s there).trans ok⟩
    rw [heap]
    simp [reach, there]
  · rintro here t s ⟨listed, there, ok⟩
    rw [servers] at listed
    rw [heap] at there
    obtain ⟨rfl, new⟩ | ⟨other, old⟩ := update_some there
    · obtain ⟨s', was, rfl⟩ := Option.map_eq_some_iff.mp new
      exact here s' ⟨listed, was, (valid s' was).symm.trans ok⟩
    · exact (agreesWith_congr rfl (others t other)).mpr (hi t s ⟨listed, old, ok⟩)

/-- The same where the event also makes the registry forget a game server of
that server. -/
theorem agrees_forget (gone : GameServerId) (server : ServerId) (signal : Server → Server)
    (hi : m.Agrees) (servers : u.servers = m.servers)
    (heap : u.heap = (m.reach server signal).heap)
    (registry : u.gameServers = m.gameServers.erase gone)
    (valid : ∀ s, m.heap server = some s → (signal s).valid = s.valid)
    (only : ∀ t, m.gameServers.lookup gone = some t → t = server) :
    u.Agrees ↔
      ∀ s, m.Manages server s → (signal s).AgreesWith (m.RegisteredBesides gone server) := by
  have left (t : ServerId) : u.Registered t ↔ m.RegisteredBesides gone t := by
    unfold Registered
    rw [registry]
    exact registered_erase
  have others (t : ServerId) (other : t ≠ server) : u.Registered t ↔ m.Registered t := by
    apply (left t).trans
    apply registeredBesides_iff
    intro same
    exact other (only t same)
  apply (agrees_reach server signal hi servers heap valid others).trans
  apply forall_congr'
  intro s
  exact imp_congr_right fun _ => agreesWith_congr rfl (left server)

/-- What is asked of the server that has been found is asked of that one. -/
theorem forall_found_congr {found : Option ServerId} {server : ServerId}
    (known : found = some server) {P : Server → Prop} {Q : ServerId → Server → Prop}
    (same : ∀ s, m.Manages server s → (P s ↔ Q server s)) :
    (∀ s, m.Manages server s → P s) ↔ ∀ t s, found = some t → m.Manages t s → Q t s := by
  constructor
  · intro asked t s here there
    obtain rfl := Option.some.inj (known.symm.trans here)
    exact (same s there).mp (asked s there)
  · intro asked s there
    exact (same s there).mpr (asked server s known there)

/-- They still agree where no server is new and what is registered for one is
what it was. -/
theorem Agrees.mono (hi : m.Agrees) (managed : ∀ t s, u.Manages t s → m.Manages t s)
    (registry : ∀ t, u.Registered t ↔ m.Registered t) : u.Agrees := by
  intro t s there
  exact (agreesWith_congr rfl (registry t)).mpr (hi t s (managed t s there))

/-- The same for an event that reaches no other server, and not through the
manager. -/
theorem agrees_alone {server : ServerId} {event : ServerEvent} {s t : Server} (hi : m.Agrees)
    (unmanaged : event.managed = false) (there : m.heap server = some s)
    (moves : s.step (env.host server) event = some t) :
    Agrees { m with heap := Function.update m.heap server (some t) } ↔
      m.KeepsAgreement env (.server server event) := by
  have heap : Function.update m.heap server (some t) = (m.reach server fun _ => t).heap := by
    simp [reach, there]
  have valid (s' : Server) (was : m.heap server = some s') : t.valid = s'.valid := by
    obtain rfl := Option.some.inj (there.symm.trans was)
    exact (Server.step_frame moves).1
  refine Iff.trans (agrees_reach server _ hi rfl heap valid fun _ _ => Iff.rfl) ?_
  constructor
  · intro agrees anew s' managed
    obtain rfl := Option.some.inj (there.symm.trans managed.2.1)
    exact (alone_agrees unmanaged (hi server s managed) moves).mp (agrees s managed) anew
  · intro keeps s' managed
    obtain rfl := Option.some.inj (there.symm.trans managed.2.1)
    exact (alone_agrees unmanaged (hi server s managed) moves).mpr fun anew =>
      keeps anew s managed

theorem brings_keeps {e : ManagerEvent} {s : Server} (brings : brought env m e = some s) :
    m.KeepsAgreement env e := by
  cases e with
  | add | addServer => trivial
  | _ => cases brings

theorem effect_agrees {e : ManagerEvent} (hm : m.Sound) (hi : m.Agrees) (he : Effect env m e u) :
    u.Agrees ↔ m.KeepsAgreement env e := by
  cases he with
  | added e s brings =>
    refine iff_of_true ?_ (brings_keeps brings)
    rintro t s' ⟨listed, there, ok⟩
    obtain ⟨rfl, new⟩ | ⟨other, old⟩ := update_some there
    · obtain rfl := Option.some.inj new
      have offline : s.state = .offline := by
        obtain ⟨path, name, rfl⟩ := brought_created brings
        rfl
      exact (agreesWith_down offline (by decide)).mpr hm.unused
    · have before : t ∈ m.servers := by simpa [other] using listed
      exact hi t s' ⟨before, old, ok⟩
  | refused e s brings =>
    exact iff_of_true hi (brings_keeps brings)
  | removed name server found =>
    refine iff_of_true (hi.mono ?_ fun _ => Iff.rfl) trivial
    rintro t s ⟨listed, there, ok⟩
    exact ⟨List.mem_of_mem_filter listed, there, ok⟩
  | registered gameServer server matched =>
    have new := hm.unregistered
    have here : (∃ x, (m.gameServers.insert m.nextGameServer server).lookup x = some server) ↔
        True := iff_true_intro ((registered_insert new).mpr (Or.inl rfl))
    refine Iff.trans (agrees_reach server _ hi rfl rfl ?_ ?_) (forall_found_congr matched ?_)
    · intro s _
      exact (Server.gameServerOnline_frame _ _ _ s).1
    · intro t other
      exact (registered_insert new).trans (or_iff_right other)
    · intro s _
      exact (agreesWith_congr rfl here).trans (online_agrees _ _ _ s)
  | lost gameServer round error server pending loss known =>
    refine Iff.trans (agrees_forget gameServer server _ hi rfl rfl rfl ?_ ?_) ?_
    · intro s _
      exact (Server.step_frame (h := env.host server) (e := .gameServerTimedOut) rfl).1
    · intro t same
      exact Option.some.inj (same.symm.trans known)
    · apply Iff.trans _ (forall_prop_of_true loss).symm
      refine forall_found_congr known fun s there => ?_
      have crashed : (s.gameServerTimedOut (env.host server)).state = .crashed := by
        rw [Server.gameServerTimedOut_valid there.2.2]
        rfl
      exact agreesWith_down crashed (by decide)
  | lostAgain gameServer round error pending loss forgotten =>
    have none_there (t : ServerId) : m.gameServers.lookup gameServer ≠ some t := by
      rw [forgotten]
      exact fun same => by cases same
    refine iff_of_true (hi.mono ?_ ?_) fun _ server _ found => absurd found (none_there server)
    · exact fun _ _ there => there
    · exact fun t => registered_erase.trans (registeredBesides_iff (none_there t))
  | quit iface server announced =>
    refine Iff.trans (agrees_forget iface server _ hi rfl rfl rfl ?_ ?_)
      (forall_found_congr announced ?_)
    · intro s _
      exact (Server.step_frame (h := env.host server) (e := .aboutToQuit iface) rfl).1
    · intro t same
      exact Option.some.inj ((hm.announced iface t same).symm.trans announced)
    · intro s there
      exact quit_agrees _ iface (hi server s there) fun ⟨x, _, known⟩ => ⟨x, known⟩
  | dropped iface server announced =>
    refine iff_of_true ?_ trivial
    apply (agrees_reach server (Server.deleteGameServer iface) hi ?_ ?_ ?_ ?_).mpr
    · exact fun s there => hi server s there
    · rfl
    · rfl
    · exact fun _ _ => rfl
    · exact fun _ _ => Iff.rfl
  | destroyed server =>
    refine iff_of_true (hi.mono ?_ fun _ => Iff.rfl) trivial
    rintro t s ⟨listed, there, ok⟩
    obtain ⟨-, gone⟩ | ⟨-, old⟩ := update_some there
    · cases gone
    · exact ⟨listed, old, ok⟩
  | alone server event s t unmanaged there moves => exact agrees_alone hi unmanaged there moves
  | unmatched gameServer stray =>
    exact iff_of_true hi fun _ _ found => by rw [stray] at found; cases found
  | unknown | pinged => exact iff_of_true hi trivial
  | answered gameServer round error pending alive =>
    exact iff_of_true hi fun loss => by rw [alive] at loss; cases loss

/-- From a state in which they agree, an event leads to another one exactly if
it meets the condition. -/
theorem step_agrees {e : ManagerEvent} (hm : m.Sound) (hi : m.Agrees)
    (hu : m.step env e = some u) : u.Agrees ↔ m.KeepsAgreement env e :=
  effect_agrees hm hi (step_effect hm.fresh hu)

/-- The registry and the coordinators agree after every event of a run exactly
if each event meets the condition. -/
theorem agrees_iff (env : Environment) (es : List ManagerEvent) :
    Machine.Throughout (step env) Agrees {} es ↔
      Machine.EachStep (step env) (KeepsAgreement env) {} es := by
  apply Machine.throughout_iff_eachStep (A := Sound)
  · intro m e _ u hm hu
    exact step_sound hm hu
  · intro m e _ u hm hi hu
    exact step_agrees hm hi hu
  · exact init_sound
  · intro server s there
    exact absurd there.1 List.not_mem_nil

/-- A game server that morgoth did not launch registers: `gameServers` has it,
and the coordinator of its server is still offline. -/
theorem foreign_game_server_unheard :
    ∃ m s, run .ideal {} [.add { path := "/srv/tf2" } "tf2", .registerGameServer .sample] = some m ∧
      m.Manages 0 s ∧ m.Registered 0 ∧ s.state = .offline ∧ ¬ m.Agrees := by
  refine ⟨_, _, rfl, ⟨List.mem_cons_self, rfl, rfl⟩, ⟨0, rfl⟩, rfl, fun agrees => ?_⟩
  obtain up | up := (agrees 0 _ ⟨List.mem_cons_self, rfl, rfl⟩).1 ⟨0, rfl⟩
  · cases up
  · cases up

end ServerManager

end Morgoth
