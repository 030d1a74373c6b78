import Morgoth.Remote
import Morgoth.Restore
import Morgoth.StarterCommands

/-!
# What clients find of a server

The manager knows a server by its name, clients know its objects by their paths.

* `complete_iff`: in which runs every server has all its objects at their paths;
* `step_offers`: a server that is not removed stays what it is to clients.
-/

namespace Morgoth

namespace Server

variable {h : Host} {s t : Server}

/-- A server has its configuration, which is never empty. -/
def HasKeys (s : Server) : Prop := ∃ c, s.configuration = some c ∧ c.keys ≠ []

theorem keys_eq_nil {c : ServerConfiguration} : c.keys = [] ↔ c.values.keys = [] := by
  rw [← List.length_eq_zero_iff, ← List.length_eq_zero_iff]
  simp [ServerConfiguration.keys, List.length_insertionSort]

theorem create_hasKeys (h : Host) (path : QUrl) (name : String) :
    (create h path name).HasKeys :=
  ⟨.default, rfl, fun none => absurd (keys_eq_nil.mp none) (by decide)⟩

theorem setValue_hasKeys (hs : s.HasKeys) (key value : String) :
    (s.setValue key value).HasKeys := by
  obtain ⟨c, hc, some_key⟩ := hs
  refine ⟨(c.setValue key value).1, by simp [setValue, hc], ?_⟩
  by_cases new : c.value key ≠ value
  · rw [ServerConfiguration.setValue_new c new, ne_eq, keys_eq_nil]
    simp
  · rw [ServerConfiguration.setValue_same c (not_not.mp new)]
    exact some_key

theorem step_hasKeys (hs : s.HasKeys) {e : ServerEvent} (ht : s.step h e = some t) :
    t.HasKeys := by
  by_cases sets : ∃ key value, e = .setValue key value
  · obtain ⟨key, value, rfl⟩ := sets
    obtain rfl := Option.some.inj ht
    exact setValue_hasKeys hs key value
  · obtain ⟨c, hc, some_key⟩ := hs
    have kept := step_configuration (fun key value same => sets ⟨key, value, same⟩) ht
    exact ⟨c, kept.trans hc, some_key⟩

theorem name_traced (h : Host) : TmuxSessionWrapper.Traced h (fun _ => True)
    fun t t' => t'.name = t.name where
  refl _ := rfl
  trans _ _ _ same same' := same'.trans same
  child _ _ _ := rfl

/-- The name of its session stays with a server. -/
theorem step_sessionName (hs : s.HasKeys) {e : ServerEvent} (ht : s.step h e = some t) :
    t.tmux.name = s.tmux.name := by
  have traced := name_traced h
  have killed (r : Server) : (r.tmux.kill h).2.name = r.tmux.name :=
    traced.kill trivial r.tmux trivial
  cases step_effect ht with
  | start =>
    obtain ⟨c, hc, -⟩ := hs
    rw [(start_frame h s).2.2.2.1]
    exact bringUp_traced traced (fun _ _ => trivial) hc fun _ => rfl
  | stop | sendCommand => exact traced.inSession trivial s.tmux trivial
  | startTimeout i => rw [timeoutStart_eq]
  | gameServerOnline iface gameServer =>
    rw [(gameServerOnline_frame h iface gameServer s).2.2.2.2]
  | gameServerTimedOut =>
    exact gameServerTimedOut_keeps (P := fun t => t.tmux.name = s.tmux.name) rfl
      fun r same => (killed r).trans same
  | aboutToQuit iface => exact aboutToQuit_frame (f := fun t => t.tmux.name) killed s
  | _ => rfl

end Server

namespace ServerManager

variable {env : Environment} {m u : ServerManager} {e : ManagerEvent} {map : OrderedMap String ServerId}

/-- A name stays taken by its server until it is removed. -/
theorem find_kept (hm : m.Sound) (refines : m.Refines map)
    (hu : m.step env e = some u) {name : String} {server : ServerId}
    (found : m.find name = some server) (spared : e ≠ .remove name) :
    u.find name = some server := by
  have after := step_refines hm refines hu
  rw [refines.find_eq] at found
  rw [after.find_eq]
  cases e with
  | add path other | addServer path other => exact OrderedMap.lookup_add.mpr (.inl found)
  | remove other =>
    refine OrderedMap.lookup_erase.mpr ⟨found, ?_⟩
    rintro rfl
    exact spared rfl
  | _ => exact found

/-- A name stays free until it is given to a server. -/
theorem find_free (hm : m.Sound) (refines : m.Refines map)
    (hu : m.step env e = some u) {name : String} (free : m.find name = none)
    (spared : ∀ s, brought env m e = some s → s.name ≠ name) : u.find name = none := by
  have after := step_refines hm refines hu
  rw [refines.find_eq] at free
  rw [after.find_eq]
  have absent (other : String) (server : ServerId) (apart : other ≠ name) :
      (map.add other server).lookup name = none := by
    refine Option.eq_none_iff_forall_ne_some.mpr fun t found => ?_
    rcases OrderedMap.lookup_add.mp found with old | ⟨-, same, -⟩
    · rw [free] at old
      cases old
    · exact apart same.symm
  cases e with
  | add path other | addServer path other => exact absent other _ (spared _ rfl)
  | remove other =>
    refine Option.eq_none_iff_forall_ne_some.mpr fun t found => ?_
    rw [(OrderedMap.lookup_erase.mp found).1] at free
    cases free
  | _ => exact free

theorem find_removed (hm : m.Sound) (refines : m.Refines map) {name : String}
    (hu : m.step env (.remove name) = some u) : u.find name = none := by
  rw [(step_refines hm refines hu).find_eq]
  refine Option.eq_none_iff_forall_ne_some.mpr fun server found => ?_
  exact (OrderedMap.lookup_erase.mp found).2 rfl

theorem listed_iff (refines : m.Refines map) (name : String) :
    name ∈ m.serverNames ↔ (m.find name).isSome := by
  rw [refines.serverNames_eq, refines.find_eq, ← not_iff_not, ← OrderedMap.lookup_none]
  simp

/-- A configuration stays what it is until a value of it is set. -/
theorem effect_configuration (hm : m.Sound) (he : Effect env m e u) {server : ServerId}
    {s t : Server} (there : m.heap server = some s) (after : u.heap server = some t) :
    t.configuration = s.configuration ∨
      ∃ key value, e = .server server (.setValue key value) ∧ t = s.setValue key value := by
  have unchanged (old : m.heap server = some t) : t.configuration = s.configuration := by
    obtain rfl := Option.some.inj (old.symm.trans there)
    rfl
  have reached {target : ServerId} {signal : Server → Server}
      (after : (m.reach target signal).heap server = some t)
      (keeps : ∀ s, (signal s).configuration = s.configuration) :
      t.configuration = s.configuration := by
    obtain old | ⟨rfl, s', there', rfl⟩ := reach_some after
    · exact unchanged old
    · obtain rfl := Option.some.inj (there'.symm.trans there)
      rw [keeps]
  cases he with
  | added e new brings free =>
    obtain ⟨rfl, -⟩ | ⟨-, old⟩ := update_some after
    · exact absurd (hm.used _ (by rw [there]; rfl)) (Nat.lt_irrefl _)
    · exact .inl (unchanged old)
  | registered gameServer target =>
    refine .inl (reached after fun s => ?_)
    exact (Server.gameServerOnline_frame (env.host target) m.nextGameServer gameServer s).2.2.2.1
  | lost gameServer round error target =>
    refine .inl (reached after fun s => ?_)
    exact Server.step_configuration (h := env.host target) (e := .gameServerTimedOut) nofun rfl
  | quit iface target =>
    refine .inl (reached after fun s => ?_)
    exact Server.step_configuration (h := env.host target) (e := .aboutToQuit iface) nofun rfl
  | dropped iface target => exact .inl (reached after fun _ => rfl)
  | destroyed target =>
    obtain ⟨-, gone⟩ | ⟨-, old⟩ := update_some after
    · cases gone
    · exact .inl (unchanged old)
  | alone target event s' s'' unmanaged there' moves =>
    obtain ⟨rfl, new⟩ | ⟨-, old⟩ := update_some after
    · obtain rfl := Option.some.inj new
      obtain rfl := Option.some.inj (there'.symm.trans there)
      by_cases sets : ∃ key value, event = .setValue key value
      · obtain ⟨key, value, rfl⟩ := sets
        exact .inr ⟨key, value, rfl, (Option.some.inj moves).symm⟩
      · exact .inl (Server.step_configuration (fun key value same => sets ⟨key, value, same⟩) moves)
    · exact .inl (unchanged old)
  | _ => exact .inl (unchanged after)

end ServerManager

namespace Bus

variable {env : Environment} {b u : Bus} {name : String} {server : ServerId}

/-- The daemon has its books in order. -/
structure Orderly (b : Bus) : Prop where
  sound : b.Sound
  map : ∃ map, b.manager.Refines map
  valid : ∀ path o, b.objects path = some o → validPath path = true
  configured : ∀ server s, b.manager.heap server = some s → s.HasKeys

/-- The server of the name is there, with all its objects at their paths. -/
structure Offers (name : String) (server : ServerId) (s : Server) (b : Bus) : Prop where
  orderly : b.Orderly
  found : b.manager.find name = some server
  there : b.manager.heap server = some s
  valid : validPath s.dbusPath = true
  objects : ∀ x ∈ s.objects server, b.objects x.1 = some x.2

theorem exported_valid (hb : b.Orderly) (e : ManagerEvent) {path : String} {o : BusObject}
    (there : b.exported env e path = some o) : validPath path = true := by
  have registered {new : List (String × BusObject)}
      (there : b.objects.registerAll validPath new path = some o) : validPath path = true := by
    rcases Registry.registerAll_some there with old | ⟨-, valid, -⟩
    · exact hb.valid path o old
    · exact valid
  cases e with
  | add dir name =>
    simp only [exported] at there
    split at there
    · exact registered there
    · exact registered (Registry.withdraw_some.mp there).1
  | addServer dir name => exact registered there
  | deleteServer gone => exact hb.valid path o (Registry.withdraw_some.mp there).1
  | _ => exact hb.valid path o there

theorem step_orderly (hb : b.Orderly) {e : ManagerEvent} (hu : b.step env e = some u) :
    u.Orderly := by
  obtain ⟨map, refines⟩ := hb.map
  have sound := step_sound hb.sound hu
  obtain ⟨m, moves, rfl⟩ := Option.map_eq_some_iff.mp hu
  have hm := hb.sound.manager
  refine ⟨sound, ⟨_, ServerManager.step_refines hm refines moves⟩,
    fun path o there => exported_valid hb e there, fun server s there => ?_⟩
  have effect := ServerManager.step_effect hm.fresh moves
  rcases ServerManager.effect_heap hm effect there with old | ⟨t, event, old, steps, -⟩ | ⟨-, new⟩
  · exact hb.configured server s old
  · exact Server.step_hasKeys (hb.configured server t old) steps
  · obtain ⟨path, name, rfl⟩ := ServerManager.brought_created new
    exact Server.create_hasKeys _ path name

theorem init_orderly : Orderly {} where
  sound := init_sound
  map := ⟨.empty, rfl⟩
  valid path o there := by
    rcases Registry.registerAll_some there with old | ⟨-, valid, -⟩
    · cases old
    · exact valid
  configured server s there := by cases there

/-- No object is where there is no path. -/
theorem Orderly.nowhere (hb : b.Orderly) : b.objects "" = none :=
  Option.eq_none_iff_forall_ne_some.mpr fun o there => absurd (hb.valid "" o there) (by decide)

theorem orderly_listed (hb : b.Orderly) (name : String) :
    name ∈ b.manager.serverNames ↔ (b.manager.find name).isSome := by
  obtain ⟨map, refines⟩ := hb.map
  exact ServerManager.listed_iff refines name

/-- No server has the name. -/
def Free (name : String) (b : Bus) : Prop := b.Orderly ∧ b.manager.find name = none

theorem step_free (hb : b.Free name) {e : ManagerEvent} (hu : b.step env e = some u)
    (spared : ∀ s, ServerManager.brought env b.manager e = some s → s.name ≠ name) :
    u.Free name := by
  obtain ⟨orderly, free⟩ := hb
  obtain ⟨map, refines⟩ := orderly.map
  refine ⟨step_orderly orderly hu, ?_⟩
  obtain ⟨m, moves, rfl⟩ := Option.map_eq_some_iff.mp hu
  exact ServerManager.find_free orderly.sound.manager refines moves free spared

theorem step_found (hb : b.Orderly) {e : ManagerEvent} (hu : b.step env e = some u)
    (found : b.manager.find name = some server) (spared : e ≠ .remove name) :
    u.manager.find name = some server := by
  obtain ⟨map, refines⟩ := hb.map
  obtain ⟨m, moves, rfl⟩ := Option.map_eq_some_iff.mp hu
  exact ServerManager.find_kept hb.sound.manager refines moves found spared

theorem step_removed (hb : b.Orderly) (hu : b.step env (.remove name) = some u) :
    u.Free name := by
  obtain ⟨map, refines⟩ := hb.map
  refine ⟨step_orderly hb hu, ?_⟩
  obtain ⟨m, moves, rfl⟩ := Option.map_eq_some_iff.mp hu
  exact ServerManager.find_removed hb.sound.manager refines moves

theorem step_alive_found (hb : b.Orderly) {e : ManagerEvent} (hu : b.step env e = some u)
    (found : b.manager.find name = some server) : e ≠ .deleteServer server := by
  rintro rfl
  obtain ⟨m, moves, rfl⟩ := Option.map_eq_some_iff.mp hu
  obtain ⟨scheduled, -⟩ := Machine.some_of_ite moves
  exact (hb.sound.manager.doomed server scheduled).2 (ServerManager.find_mem found)

/-- A server is there until it is removed. -/
theorem step_there (hb : b.Orderly) {e : ManagerEvent} (hu : b.step env e = some u) {s : Server}
    (found : b.manager.find name = some server) (there : b.manager.heap server = some s) :
    ∃ t, u.manager.heap server = some t ∧
      (t = s ∨ ∃ event, s.step (env.host server) event = some t) := by
  have alive := step_alive_found hb hu found
  obtain ⟨m, moves, rfl⟩ := Option.map_eq_some_iff.mp hu
  have hm := hb.sound.manager
  exact ServerManager.effect_moves hm (ServerManager.step_effect hm.fresh moves) there alive

theorem step_offers {s : Server} (hb : b.Offers name server s) {e : ManagerEvent}
    (hu : b.step env e = some u) (spared : e ≠ .remove name) :
    ∃ t, u.Offers name server t ∧ (t = s ∨ ∃ event, s.step (env.host server) event = some t) := by
  obtain ⟨t, after, how⟩ := step_there hb.orderly hu hb.found hb.there
  have alive := step_alive_found hb.orderly hu hb.found
  obtain ⟨valid, name⟩ : t.valid = s.valid ∧ t.name = s.name := by
    rcases how with rfl | ⟨event, steps⟩
    · exact ⟨rfl, rfl⟩
    · obtain ⟨valid, -, name, -⟩ := Server.step_frame steps
      exact ⟨valid, name⟩
  have same : t.objects server = s.objects server := by
    simp only [Server.objects, Server.dbusPath, Server.configurationPath,
      Server.coordinatorPath, Server.statusPath, valid, name]
  refine ⟨t, ⟨step_orderly hb.orderly hu, step_found hb.orderly hu hb.found spared, after,
    ?_, fun x mem => ?_⟩, how⟩
  · simpa only [Server.dbusPath, name] using hb.valid
  · rw [same] at mem
    exact object_kept hb.orderly.sound hu (objects_own mem) (hb.objects x mem) alive

/-- A value is set, and nothing is registered. -/
theorem step_setValue (env : Environment) {s : Server} (there : b.manager.heap server = some s)
    (key value : String) :
    b.step env (.server server (.setValue key value)) =
      some { b with manager := b.manager.reach server fun s => s.setValue key value } := by
  simp [step, ServerManager.step, ServerEvent.managed, there, Server.step, exported, Server.setValue,
    ServerManager.reach]

namespace Offers

variable {s : Server} (hb : b.Offers name server s)
include hb

theorem named : s.name = name := by
  obtain ⟨-, t, there, named⟩ := ServerManager.find_some hb.found
  obtain rfl := Option.some.inj (there.symm.trans hb.there)
  exact named

theorem listed : name ∈ b.manager.serverNames := by
  obtain ⟨map, refines⟩ := hb.orderly.map
  rw [ServerManager.listed_iff refines, hb.found]
  rfl

theorem serverPath : b.manager.serverPath name = objectPath ("/servers/" ++ name) := by
  simp [ServerManager.serverPath, hb.found, hb.there, hb.named]

theorem serverAt : b.serverAt (objectPath ("/servers/" ++ name)) = some s := by
  have path : objectPath ("/servers/" ++ name) = s.dbusPath := by
    rw [← hb.named]
    exact if_pos hb.valid
  have first : b.objects s.dbusPath = some (.server server) :=
    hb.objects (s.dbusPath, .server server) (by simp [Server.objects])
  simp [Bus.serverAt, path, first, hb.there]

theorem configured : b.configured (objectPath ("/servers/" ++ name ++ "/configuration")) =
    some server := by
  have second : b.objects s.configurationPath = some (.configuration server) :=
    hb.objects (s.configurationPath, .configuration server) (by simp [Server.objects])
  rw [← hb.named]
  unfold Server.configurationPath at second
  simp [Bus.configured, second]

theorem statusAt (valid : s.valid = true) :
    b.statusAt (objectPath ("/servers/" ++ name ++ "/status")) = some s.status.d := by
  have fourth : b.objects s.statusPath = some (.status server) :=
    hb.objects (s.statusPath, .status server) (by simp [Server.objects, valid])
  rw [← hb.named]
  unfold Server.statusPath at fourth
  simp [Bus.statusAt, fourth, hb.there]

theorem coordinatorAt (valid : s.valid = true) :
    b.coordinator (objectPath ("/servers/" ++ name ++ "/coordinator")) = some server := by
  have third : b.objects s.coordinatorPath = some (.coordinator server) :=
    hb.objects (s.coordinatorPath, .coordinator server) (by simp [Server.objects, valid])
  rw [← hb.named]
  exact coordinator_some.mpr third

/-! ### What is answered -/

theorem serve_serverPath :
    serve env (.serverPath name) b = (objectPath ("/servers/" ++ name), b) :=
  Prod.ext hb.serverPath rfl

theorem serve_name : serve env (.name (objectPath ("/servers/" ++ name))) b = (name, b) := by
  simp [serve, hb.serverAt, hb.named]

theorem serve_valid : serve env (.valid (objectPath ("/servers/" ++ name))) b = (s.valid, b) := by
  simp [serve, hb.serverAt]

theorem serve_coordinatorPath (valid : s.valid = true) :
    serve env (.coordinatorPath (objectPath ("/servers/" ++ name))) b =
      (objectPath ("/servers/" ++ name ++ "/coordinator"), b) := by
  simp [serve, hb.serverAt, valid, Server.coordinatorPath, hb.named, Option.filter]

theorem serve_coordinatorPath_invalid (invalid : s.valid = false) :
    serve env (.coordinatorPath (objectPath ("/servers/" ++ name))) b = ("", b) := by
  simp [serve, hb.serverAt, invalid, Option.filter]

theorem serve_statusPath (valid : s.valid = true) :
    serve env (.statusPath (objectPath ("/servers/" ++ name))) b =
      (objectPath ("/servers/" ++ name ++ "/status"), b) := by
  simp [serve, hb.serverAt, valid, Server.statusPath, hb.named, Option.filter]

theorem serve_state (valid : s.valid = true) :
    serve env (.state (objectPath ("/servers/" ++ name ++ "/coordinator"))) b = (s.state, b) := by
  simp [serve, readState, hb.coordinatorAt valid, hb.there]

theorem serve_sessionName (valid : s.valid = true) :
    serve env (.sessionName (objectPath ("/servers/" ++ name ++ "/coordinator"))) b =
      (s.tmux.name, b) := by
  simp [serve, Bus.coordinatorAt, hb.coordinatorAt valid, hb.there]

end Offers

/-! ## Servers without a path -/

/-- The server is there, but no path is made of its name. -/
structure Pathless (name : String) (b : Bus) : Prop where
  orderly : b.Orderly
  found : ∃ server, b.manager.find name = some server
  invalid : validPath ("/servers/" ++ name) = false

theorem step_pathless (hb : b.Pathless name) {e : ManagerEvent} (hu : b.step env e = some u)
    (spared : e ≠ .remove name) : u.Pathless name := by
  obtain ⟨orderly, ⟨server, found⟩, invalid⟩ := hb
  exact ⟨step_orderly orderly hu, ⟨server, step_found orderly hu found spared⟩, invalid⟩

theorem Pathless.listed (hb : b.Pathless name) : name ∈ b.manager.serverNames := by
  obtain ⟨server, found⟩ := hb.found
  rw [orderly_listed hb.orderly, found]
  rfl

theorem Pathless.serverPath (hb : b.Pathless name) : b.manager.serverPath name = "" := by
  obtain ⟨server, found⟩ := hb.found
  obtain ⟨-, s, there, rfl⟩ := ServerManager.find_some found
  simp [ServerManager.serverPath, found, there, objectPath, hb.invalid]

/-- Without a path there is no server, and an interface hands out first values. -/
theorem Orderly.serve_valid (hb : b.Orderly) : serve env (.valid "") b = (false, b) := by
  simp [serve, serverAt, hb.nowhere]

theorem Orderly.serve_name (hb : b.Orderly) : serve env (.name "") b = ("", b) := by
  simp [serve, serverAt, hb.nowhere]

theorem Orderly.serve_coordinatorPath (hb : b.Orderly) :
    serve env (.coordinatorPath "") b = ("", b) := by
  simp [serve, serverAt, hb.nowhere]

theorem Orderly.serve_state (hb : b.Orderly) : serve env (.state "") b = (.offline, b) := by
  simp [serve, readState, coordinator, hb.nowhere]

/-! ## Servers that come in -/

/-- Every server has all its objects. -/
structure Complete (b : Bus) : Prop where
  orderly : b.Orderly
  offered : ∀ name ∈ b.manager.serverNames, ∃ server s, b.Offers name server s

/-- A server that is added finds the path of each of its objects valid and free. -/
def FindsRoom (env : Environment) (b : Bus) (e : ManagerEvent) : Prop :=
  ∀ s, ServerManager.brought env b.manager e = some s → b.manager.find s.name = none →
    ∀ x ∈ s.objects b.manager.nextServer, validPath x.1 = true ∧ b.objects x.1 = none

/-- The paths of the objects are different ones. -/
theorem objects_distinct {s : Server} (valid : ∀ x ∈ s.objects server, validPath x.1 = true) :
    ((s.objects server).map Prod.fst).Nodup := by
  have raw {path : String} (valid : validPath (objectPath path) = true) :
      objectPath path = path := by
    rw [validPath_objectPath] at valid
    exact if_pos valid
  have second : s.configurationPath = s.dbusPath ++ "/configuration" :=
    raw (valid (s.configurationPath, .configuration server) (by simp [Server.objects]))
  have longer (tail : String) (some_char : 0 < tail.length) : s.dbusPath ≠ s.dbusPath ++ tail := by
    intro same
    have lengths := congrArg String.length same
    rw [String.length_append] at lengths
    omega
  cases okay : s.valid with
  | false => simpa [Server.objects, okay, second] using longer "/configuration" (by decide)
  | true =>
    have third : s.coordinatorPath = s.dbusPath ++ "/coordinator" :=
      raw (valid (s.coordinatorPath, .coordinator server) (by simp [Server.objects, okay]))
    have fourth : s.statusPath = s.dbusPath ++ "/status" :=
      raw (valid (s.statusPath, .status server) (by simp [Server.objects, okay]))
    simpa [Server.objects, okay, second, third, fourth] using
      ⟨longer "/configuration" (by decide), longer "/coordinator" (by decide),
        longer "/status" (by decide)⟩

theorem step_finds_new (hb : b.Orderly) {e : ManagerEvent} {s : Server}
    (brings : ServerManager.brought env b.manager e = some s)
    (free : b.manager.find s.name = none) (hu : b.step env e = some u) :
    u.manager.find s.name = some b.manager.nextServer ∧
      u.manager.heap b.manager.nextServer = some s := by
  obtain ⟨map, refines⟩ := hb.map
  obtain ⟨m, moves, rfl⟩ := Option.map_eq_some_iff.mp hu
  obtain ⟨-, heap⟩ := ServerManager.step_adds hb.sound.manager.fresh brings free moves
  constructor
  · rw [(ServerManager.step_refines hb.sound.manager refines moves).find_eq,
      ServerManager.edit_brought brings]
    exact OrderedMap.lookup_add.mpr (.inr ⟨(refines.find_eq _).symm.trans free, rfl, rfl⟩)
  · rw [heap]
    exact Function.update_self ..

/-- A server that is accepted has its objects exactly if there is room for them. -/
theorem step_offers_new (hb : b.Orderly) {e : ManagerEvent} {s : Server}
    (brings : ServerManager.brought env b.manager e = some s)
    (free : b.manager.find s.name = none) (hu : b.step env e = some u) :
    u.Offers s.name b.manager.nextServer s ↔
      ∀ x ∈ s.objects b.manager.nextServer, validPath x.1 = true ∧ b.objects x.1 = none := by
  have exported := exported_added hb.sound brings free
  have objects : u.objects = b.exported env e := by
    obtain ⟨m, -, rfl⟩ := Option.map_eq_some_iff.mp hu
    rfl
  constructor
  · intro offers x mem
    have there := offers.objects x mem
    rw [objects, exported] at there
    rcases Registry.registerAll_some there with old | ⟨unused, valid, -⟩
    · have own := objects_own mem
      rw [hb.sound.fresh old] at own
      cases own
    · exact ⟨valid, unused⟩
  · intro room
    obtain ⟨found, there⟩ := step_finds_new hb brings free hu
    have distinct := objects_distinct fun x mem => (room x mem).1
    refine ⟨step_orderly hb hu, found, there, ?_, fun x mem => ?_⟩
    · exact (room (s.dbusPath, .server b.manager.nextServer) (by simp [Server.objects])).1
    · rw [objects, exported]
      exact Registry.registerAll_free distinct room mem

theorem step_complete (hb : b.Complete) {e : ManagerEvent} (hu : b.step env e = some u) :
    u.Complete ↔ b.FindsRoom env e := by
  have orderly := step_orderly hb.orderly hu
  constructor
  · intro complete s brings free
    refine (step_offers_new hb.orderly brings free hu).mp ?_
    obtain ⟨found, there⟩ := step_finds_new hb.orderly brings free hu
    have listed : s.name ∈ u.manager.serverNames := by
      rw [orderly_listed orderly, found]
      rfl
    obtain ⟨server, t, offers⟩ := complete.offered s.name listed
    obtain rfl := Option.some.inj (offers.found.symm.trans found)
    obtain rfl := Option.some.inj (offers.there.symm.trans there)
    exact offers
  · refine fun room => ⟨orderly, fun name listed => ?_⟩
    rw [orderly_listed orderly] at listed
    by_cases old : name ∈ b.manager.serverNames
    · obtain ⟨server, s, offers⟩ := hb.offered name old
      have spared : e ≠ .remove name := by
        rintro rfl
        rw [(step_removed hb.orderly hu).2] at listed
        cases listed
      obtain ⟨t, offers', -⟩ := step_offers offers hu spared
      exact ⟨server, t, offers'⟩
    · rw [orderly_listed hb.orderly, Option.not_isSome_iff_eq_none] at old
      by_contra missing
      have free := step_free ⟨hb.orderly, old⟩ hu fun s brings same => by
        subst same
        have offers := (step_offers_new hb.orderly brings old hu).mpr (room s brings old)
        exact missing ⟨_, s, offers⟩
      rw [free.2] at listed
      cases listed

theorem init_complete : Complete {} := ⟨init_orderly, fun name listed => by cases listed⟩

/-- Every server has all its objects in every state that a run reaches exactly if each
server that is added finds room for them. -/
theorem complete_iff (env : Environment) (es : List ManagerEvent) :
    Machine.Throughout (step env) Complete {} es ↔
      Machine.EachStep (step env) (FindsRoom env) {} es := by
  apply Machine.throughout_iff_eachStep (A := Orderly)
  · exact fun b e _ u hb hu => step_orderly hb hu
  · exact fun b e _ u _ hb hu => step_complete hb hu
  · exact init_orderly
  · exact init_complete

/-- A daemon with one server. -/
def sample : Bus := (run .ideal {} [.add { path := "/srv/tf2" } "tf2"]).getD {}

theorem sample_complete : sample.Complete := by
  have added : step .ideal {} (.add { path := "/srv/tf2" } "tf2") = some sample := rfl
  refine (step_complete init_complete added).mpr fun s brings _ => ?_
  obtain rfl := Option.some.inj brings
  decide

theorem sample_offers : ∃ s, sample.Offers "tf2" 0 s ∧ s.valid = true ∧ s.state = .offline := by
  obtain ⟨server, s, offers⟩ := sample_complete.offered "tf2" (by decide)
  obtain rfl : 0 = server := Option.some.inj offers.found
  have there : sample.manager.heap 0 = some _ := rfl
  obtain rfl := Option.some.inj (there.symm.trans offers.there)
  exact ⟨_, offers, rfl, rfl⟩

/-- The daemon after another one is added. -/
def second : Bus := (sample.step .ideal (.add { path := "/srv/css" } "css")).getD {}

theorem sample_second : sample.step .ideal (.add { path := "/srv/css" } "css") = some second := rfl

/-- The daemon after the server is told how to launch. -/
def told : Bus :=
  (sample.step .ideal (.server 0 (.setValue "org.morgoth.Server.launchArguments" ""))).getD {}

theorem sample_told :
    sample.step .ideal (.server 0 (.setValue "org.morgoth.Server.launchArguments" "")) =
      some told := rfl

/-- The server is started, and its game server registers a second time. -/
def play : List ManagerEvent :=
  [.server 0 .start, .registerGameServer .sample, .server 0 (.deleteStarter 0),
    .registerGameServer .sample]

/-- The daemon after that. -/
def playing : Bus := (run .ideal sample play).getD {}

theorem sample_playing : run .ideal sample play = some playing := rfl

/-- A daemon with a server that has a name from the documentation. -/
def fancy : Bus :=
  (run .ideal {} [.add { path := "/home/tf2/servers/fancy" } "my-fancy-server"]).getD {}

theorem fancy_orderly : fancy.Orderly := by
  have added : step .ideal {} (.add { path := "/home/tf2/servers/fancy" } "my-fancy-server") =
      some fancy := rfl
  exact step_orderly init_orderly added

theorem fancy_found : fancy.manager.find "my-fancy-server" = some 0 := rfl

end Bus

end Morgoth
