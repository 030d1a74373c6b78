import Morgoth.Bookkeeping
import Morgoth.Registry

/-!
# The objects on D-Bus

A server is exported from its constructor on, under a path that its name is
pasted into, and its configuration, coordinator and status below it. The
manager looks at names only; the result of `registerObject` is not looked at.
An object leaves the bus when it is deleted, and `deleteLater` comes before
that.

* `exported_iff`: which runs keep every server of the manager at its path, and
  the paths of distinct servers apart.
-/

namespace Morgoth

/-- An element of an object path. -/
def validElement (element : List Char) : Bool :=
  !element.isEmpty && element.all fun c => c.isAlphanum || c == '_'

/-- `QDBusUtil::isValidObjectPath`. -/
def validPath (path : String) : Bool :=
  match path.toList with
  | ['/'] => true
  | '/' :: elements => (elements.splitOn '/').all validElement
  | _ => false

/-- The text of a `QDBusObjectPath` that was made of the path. -/
def objectPath (path : String) : String := if validPath path then path else ""

inductive BusObject
  | daemon
  | pluginManager
  | serverManager
  | server (server : ServerId)
  | configuration (server : ServerId)
  | coordinator (server : ServerId)
  | status (server : ServerId)
  deriving DecidableEq, Repr

/-- The object is, or is a child of, the server. -/
def BusObject.isOf (server : ServerId) : BusObject → Bool
  | .server s | .configuration s | .coordinator s | .status s => s == server
  | _ => false

namespace Server

def dbusPath (s : Server) : String := "/servers/" ++ s.name

def configurationPath (s : Server) : String := objectPath ("/servers/" ++ s.name ++ "/configuration")

def coordinatorPath (s : Server) : String := objectPath ("/servers/" ++ s.name ++ "/coordinator")

def statusPath (s : Server) : String := objectPath ("/servers/" ++ s.name ++ "/status")

/-- What the constructors register, in their order. -/
def objects (server : ServerId) (s : Server) : List (String × BusObject) :=
  [(s.dbusPath, .server server), (s.configurationPath, .configuration server)] ++
  if s.valid then [(s.coordinatorPath, .coordinator server), (s.statusPath, .status server)] else []

/-- The paths that a server is said to take. -/
def paths (s : Server) : List String :=
  ["/servers/" ++ s.name, "/servers/" ++ s.name ++ "/configuration",
    "/servers/" ++ s.name ++ "/coordinator", "/servers/" ++ s.name ++ "/status"]

end Server

def ServerManager.serverPath (m : ServerManager) (serverName : String) : String :=
  match (m.find serverName).bind m.heap with
  | some s => objectPath ("/servers/" ++ s.name)
  | none => ""

/-- The manager and the connection it is exported on. -/
structure Bus where
  manager : ServerManager := {}
  objects : Registry String BusObject := Registry.registerAll validPath (fun _ => none)
    [("/daemon", .daemon), ("/servers", .serverManager), ("/plugins", .pluginManager)]

namespace Bus

/-- What is exported after an event: a server that `add` does not accept is
deleted at once. -/
def exported (env : Environment) (b : Bus) : ManagerEvent → Registry String BusObject
  | .add path name =>
    let server := b.manager.nextServer
    let s := Server.create (env.host server) (ServerManager.fixedPath env server path) name
    let objects := b.objects.registerAll validPath (s.objects server)
    if (b.manager.add env path name).2.isSome then objects
    else objects.withdraw (BusObject.isOf server)
  | .addServer path name =>
    let server := b.manager.nextServer
    b.objects.registerAll validPath ((Server.create (env.host server) path name).objects server)
  | .deleteServer server => b.objects.withdraw (BusObject.isOf server)
  | _ => b.objects

def step (env : Environment) (b : Bus) (e : ManagerEvent) : Option Bus :=
  (b.manager.step env e).map fun m => { manager := m, objects := b.exported env e }

abbrev run (env : Environment) : Bus → List ManagerEvent → Option Bus := Machine.run (step env)

/-- Every server of the manager is the object at its path, a valid one, and
the paths of another server are others. -/
def Exported (b : Bus) : Prop :=
  ∀ server ∈ b.manager.servers, ∀ s, b.manager.heap server = some s →
    validPath (b.manager.serverPath s.name) = true ∧
    b.objects (b.manager.serverPath s.name) = some (.server server) ∧
    ∀ other ∈ b.manager.servers, other ≠ server → ∀ t, b.manager.heap other = some t →
      ∀ path ∈ s.paths, path ∉ t.paths

/-- A server that is added has a valid path that nothing is registered at, and
shares none of its paths with another server. -/
def FindsPathFree (env : Environment) (b : Bus) (e : ManagerEvent) : Prop :=
  ∀ s, ServerManager.brought env b.manager e = some s → b.manager.find s.name = none →
    validPath s.dbusPath = true ∧ b.objects s.dbusPath = none ∧
    ∀ other ∈ b.manager.servers, ∀ t, b.manager.heap other = some t →
      ∀ path ∈ s.paths, path ∉ t.paths

variable {env : Environment} {b u : Bus}

/-! ## What every run keeps -/

/-- No object on the bus is newer than the servers. -/
structure Sound (b : Bus) : Prop where
  manager : b.manager.Sound
  old : ∀ path o server, b.objects path = some o → o.isOf server = true →
    server < b.manager.nextServer

theorem Sound.fresh (hb : b.Sound) {path : String} {o : BusObject}
    (there : b.objects path = some o) : o.isOf b.manager.nextServer = false := by
  apply Bool.eq_false_iff.mpr
  intro own
  have below := hb.old path o _ there own
  exact Nat.lt_irrefl _ below

theorem isOf_inj {o : BusObject} {server t : ServerId} (hs : o.isOf server = true)
    (ht : o.isOf t = true) : server = t := by
  cases o with
  | daemon | pluginManager | serverManager => cases hs
  | server s | configuration s | coordinator s | status s =>
    exact (beq_iff_eq.mp hs).symm.trans (beq_iff_eq.mp ht)

theorem objects_own {server : ServerId} {s : Server} {x : String × BusObject}
    (mem : x ∈ s.objects server) : x.2.isOf server = true := by
  unfold Server.objects at mem
  rcases List.mem_append.mp mem with always | valid
  · simp only [List.mem_cons, List.not_mem_nil, or_false] at always
    rcases always with rfl | rfl <;> exact beq_self_eq_true server
  · split at valid
    · simp only [List.mem_cons, List.not_mem_nil, or_false] at valid
      rcases valid with rfl | rfl <;> exact beq_self_eq_true server
    · cases valid

/-- What the constructors of a server that is accepted leave on the bus. -/
theorem exported_added (hb : b.Sound) {e : ManagerEvent} {s : Server}
    (brings : ServerManager.brought env b.manager e = some s)
    (free : b.manager.find s.name = none) :
    b.exported env e = b.objects.registerAll validPath (s.objects b.manager.nextServer) := by
  cases e with
  | add path name =>
    obtain rfl := Option.some.inj brings
    have free' : b.manager.find name = none := free
    have accepted : (b.manager.add env path name).2.isSome := by
      rw [ServerManager.add_free env hb.manager.fresh free']
      rfl
    exact if_pos accepted
  | addServer path name =>
    obtain rfl := Option.some.inj brings
    rfl
  | _ => cases brings

/-- A server that is not accepted takes no path from an object that is
there. -/
theorem exported_keeps (hb : b.Sound) {e : ManagerEvent} {path : String} {server : ServerId}
    (there : b.objects path = some (.server server))
    (alive : e ≠ .deleteServer server) : b.exported env e path = some (.server server) := by
  cases e with
  | add dir name =>
    simp only [exported]
    split
    · exact Registry.registerAll_keeps there
    · exact Registry.withdraw_some.mpr ⟨Registry.registerAll_keeps there, hb.fresh there⟩
  | addServer dir name => exact Registry.registerAll_keeps there
  | deleteServer gone =>
    refine Registry.withdraw_some.mpr ⟨there, ?_⟩
    apply Bool.eq_false_iff.mpr
    intro same
    exact alive (congrArg ManagerEvent.deleteServer (beq_iff_eq.mp same).symm)
  | _ => exact there

theorem exported_old (hb : b.Sound) {e : ManagerEvent} {path : String} {o : BusObject}
    {server : ServerId} (there : b.exported env e path = some o) (own : o.isOf server = true) :
    server < b.manager.nextServer ∨
      ((ServerManager.brought env b.manager e).isSome ∧ server = b.manager.nextServer) := by
  have registered {s : Server} (there : b.objects.registerAll validPath
      (s.objects b.manager.nextServer) path = some o) :
      server < b.manager.nextServer ∨ server = b.manager.nextServer := by
    rcases Registry.registerAll_some there with old | ⟨-, -, mem⟩
    · exact Or.inl (hb.old path o server old own)
    · exact Or.inr (isOf_inj own (objects_own mem))
  cases e with
  | add dir name =>
    simp only [exported] at there
    split at there
    · exact (registered there).imp_right fun same => ⟨rfl, same⟩
    · have there := (Registry.withdraw_some.mp there).1
      exact (registered there).imp_right fun same => ⟨rfl, same⟩
  | addServer dir name => exact (registered there).imp_right fun same => ⟨rfl, same⟩
  | deleteServer gone => exact Or.inl (hb.old path o server (Registry.withdraw_some.mp there).1 own)
  | _ => exact Or.inl (hb.old path o server there own)

theorem init_sound : Sound {} where
  manager := ServerManager.init_sound
  old path o server there own := by
    rcases Registry.registerAll_some there with old | ⟨-, -, mem⟩
    · cases old
    · simp only [List.mem_cons, Prod.mk.injEq, List.not_mem_nil, or_false] at mem
      rcases mem with ⟨-, rfl⟩ | ⟨-, rfl⟩ | ⟨-, rfl⟩ <;> cases own

theorem step_sound {e : ManagerEvent} (hb : b.Sound) (hu : b.step env e = some u) : u.Sound := by
  obtain ⟨m, moves, rfl⟩ := Option.map_eq_some_iff.mp hu
  obtain ⟨later, -, more⟩ :=
    ServerManager.effect_next (ServerManager.step_effect hb.manager.fresh moves)
  refine ⟨ServerManager.step_sound hb.manager moves, fun path o server there own => ?_⟩
  rcases exported_old hb there own with old | ⟨brings, rfl⟩
  · exact Nat.lt_of_lt_of_le old later
  · exact more brings

/-! ## Servers and their paths -/

theorem validPath_objectPath (path : String) : validPath (objectPath path) = validPath path := by
  unfold objectPath
  cases valid : validPath path with
  | true => exact valid
  | false => rfl

theorem serverPath_listed {m : ServerManager} {server : ServerId} {s : Server}
    (listed : server ∈ m.servers) (there : m.heap server = some s) :
    m.serverPath s.name = objectPath s.dbusPath := by
  unfold ServerManager.serverPath Server.dbusPath
  cases found : m.find s.name with
  | none => exact absurd (List.find?_eq_none.mp found server listed) (by simp [there])
  | some t =>
    obtain ⟨-, first, there', same⟩ := ServerManager.find_some found
    simp only [Option.bind_some, there', same]

/-- The same in terms of the path that the constructor registers. -/
theorem exported_iff_dbusPath (b : Bus) : b.Exported ↔
    ∀ server ∈ b.manager.servers, ∀ s, b.manager.heap server = some s →
      validPath s.dbusPath = true ∧ b.objects s.dbusPath = some (.server server) ∧
      ∀ other ∈ b.manager.servers, other ≠ server → ∀ t, b.manager.heap other = some t →
        ∀ path ∈ s.paths, path ∉ t.paths := by
  unfold Exported
  refine forall₂_congr fun server listed => forall₂_congr fun s there => ?_
  rw [serverPath_listed listed there, validPath_objectPath]
  refine and_congr_right fun valid => ?_
  have same : objectPath s.dbusPath = s.dbusPath := if_pos valid
  rw [same]

/-- A server that is listed after an event that adds none was so before, under
the same name. -/
theorem listed_before {m v : ServerManager} {e : ManagerEvent} (hm : m.Sound)
    (moves : m.step env e = some v)
    (refused : ∀ s, ServerManager.brought env m e = some s → m.find s.name ≠ none)
    {server : ServerId} {s : Server} (listed : server ∈ v.servers) (there : v.heap server = some s) :
    server ∈ m.servers ∧ ∃ t, m.heap server = some t ∧ t.name = s.name := by
  have he := ServerManager.step_effect hm.fresh moves
  have old : server ∈ m.servers := by
    cases he with
    | added e s brings free => exact absurd free (refused s brings)
    | removed => exact List.mem_of_mem_filter listed
    | _ => exact listed
  refine ⟨old, ?_⟩
  rcases ServerManager.effect_heap hm he there with same | ⟨t, event, before, step, -⟩ | ⟨rfl, -⟩
  · exact ⟨s, same, rfl⟩
  · exact ⟨t, before, (Server.step_frame step).2.2.1.symm⟩
  · exact absurd old hm.fresh

theorem paths_congr {s t : Server} (name : s.name = t.name) : s.paths = t.paths := by
  unfold Server.paths
  rw [name]

/-- An event that adds no server keeps all of them exported. -/
theorem step_exported_old (hb : b.Sound) (hi : b.Exported) {e : ManagerEvent}
    (hu : b.step env e = some u)
    (refused : ∀ s, ServerManager.brought env b.manager e = some s → b.manager.find s.name ≠ none) :
    u.Exported := by
  rw [exported_iff_dbusPath] at hi ⊢
  obtain ⟨m, moves, rfl⟩ := Option.map_eq_some_iff.mp hu
  intro server listed s there
  obtain ⟨listed', s', there', name⟩ := listed_before hb.manager moves refused listed there
  obtain ⟨valid, here, apart⟩ := hi server listed' s' there'
  have path : s'.dbusPath = s.dbusPath := congrArg ("/servers/" ++ ·) name
  rw [path] at valid here
  have alive : e ≠ .deleteServer server := by
    rintro rfl
    obtain ⟨scheduled, -⟩ := Machine.some_of_ite moves
    exact (hb.manager.doomed server scheduled).2 listed'
  refine ⟨valid, exported_keeps hb here alive, fun other ho distinct t ht path mem => ?_⟩
  obtain ⟨ho', t', ht', name'⟩ := listed_before hb.manager moves refused ho ht
  rw [← paths_congr name] at mem
  rw [← paths_congr name']
  exact apart other ho' distinct t' ht' path mem

/-- A server that is added is exported, and the others still are, exactly if
its path is valid and free and its paths are its own. -/
theorem step_exported_new (hb : b.Sound) (hi : b.Exported) {e : ManagerEvent} {s : Server}
    (brings : ServerManager.brought env b.manager e = some s)
    (free : b.manager.find s.name = none) (hu : b.step env e = some u) :
    u.Exported ↔ validPath s.dbusPath = true ∧ b.objects s.dbusPath = none ∧
      ∀ other ∈ b.manager.servers, ∀ t, b.manager.heap other = some t →
        ∀ path ∈ s.paths, path ∉ t.paths := by
  rw [exported_iff_dbusPath] at hi ⊢
  obtain ⟨m, moves, rfl⟩ := Option.map_eq_some_iff.mp hu
  obtain ⟨servers, heap⟩ := ServerManager.step_adds hb.manager.fresh brings free moves
  have listed_iff {server : ServerId} {t : Server} :
      (server ∈ m.servers ∧ m.heap server = some t) ↔
        (server ∈ b.manager.servers ∧ b.manager.heap server = some t) ∨
          (server = b.manager.nextServer ∧ t = s) :=
    ServerManager.listed_added hb.manager.fresh servers heap
  have unused : b.objects s.dbusPath ≠ some (.server b.manager.nextServer) := by
    intro there
    have other := hb.fresh there
    simp [BusObject.isOf] at other
  have exported := exported_added hb brings free
  have first : b.exported env e s.dbusPath = some (.server b.manager.nextServer) ↔
      validPath s.dbusPath = true ∧ b.objects s.dbusPath = none := by
    rw [exported]
    exact Registry.registerAll_first _ unused
  constructor
  · intro all
    obtain ⟨listed, there⟩ := listed_iff.mpr (Or.inr ⟨rfl, rfl⟩)
    obtain ⟨valid, here, apart⟩ := all _ listed s there
    refine ⟨valid, (first.mp here).2, fun other listed t there path mem => ?_⟩
    have distinct : other ≠ b.manager.nextServer := fun same => hb.manager.fresh (same ▸ listed)
    obtain ⟨listed', there'⟩ := listed_iff.mpr (Or.inl ⟨listed, there⟩)
    exact apart other listed' distinct t there' path mem
  · rintro ⟨valid, unregistered, apart⟩ server listed t there
    rcases listed_iff.mp ⟨listed, there⟩ with ⟨listed, there⟩ | ⟨rfl, rfl⟩
    · obtain ⟨valid', here, apart'⟩ := hi server listed t there
      refine ⟨valid', ?_, fun other ho distinct r hr path mem => ?_⟩
      · change b.exported env e t.dbusPath = some (.server server)
        rw [exported]
        exact Registry.registerAll_keeps here
      · rcases listed_iff.mp ⟨ho, hr⟩ with ⟨ho, hr⟩ | ⟨rfl, rfl⟩
        · exact apart' other ho distinct r hr path mem
        · exact fun mem' => apart server listed t there path mem' mem
    · refine ⟨valid, first.mpr ⟨valid, unregistered⟩, fun other ho distinct r hr path mem => ?_⟩
      rcases listed_iff.mp ⟨ho, hr⟩ with ⟨ho, hr⟩ | ⟨same, -⟩
      · exact apart other ho r hr path mem
      · exact absurd same distinct

/-- Every server of the manager is exported at its path, and no two share a
path, in every state that a run reaches, exactly if each server that is added
finds its path valid and free, and its paths its own. -/
theorem exported_iff (env : Environment) (es : List ManagerEvent) :
    Machine.Throughout (step env) Exported {} es ↔
      Machine.EachStep (step env) (FindsPathFree env) {} es := by
  apply Machine.throughout_iff_eachStep (A := Sound)
  · intro b e _ u hb hu
    exact step_sound hb hu
  · intro b e _ u hb hi hu
    by_cases added : ∃ s, ServerManager.brought env b.manager e = some s ∧
        b.manager.find s.name = none
    · obtain ⟨s, brings, free⟩ := added
      rw [step_exported_new hb hi brings free hu]
      constructor
      · intro good s' brings' _
        obtain rfl := Option.some.inj (brings.symm.trans brings')
        exact good
      · exact fun good => good s brings free
    · have refused (s : Server) (brings : ServerManager.brought env b.manager e = some s) :
          b.manager.find s.name ≠ none := fun free => added ⟨s, brings, free⟩
      refine iff_of_true (step_exported_old hb hi hu refused) ?_
      exact fun s brings free => absurd free (refused s brings)
  · exact init_sound
  · exact fun server listed => by cases listed

/-- A name from the documentation has no valid path, and no object of the
server is on the bus under its name. A server that is added again in the turn
in which it was removed finds its path taken, and still has none when the old
object is gone. -/
theorem readme_name_not_exported :
    (∃ b, run .ideal {} [.add { path := "/home/tf2/servers/fancy" } "my-fancy-server"] = some b ∧
      b.manager.servers = [0] ∧ b.manager.serverPath "my-fancy-server" = "" ∧
      b.objects "/servers/my-fancy-server" = none ∧ ¬ b.Exported) ∧
    ∃ b, run .ideal {} [.add { path := "/srv/tf2" } "tf2", .remove "tf2",
        .add { path := "/srv/tf2" } "tf2", .deleteServer 0] = some b ∧
      b.manager.servers = [1] ∧ b.manager.serverPath "tf2" = "/servers/tf2" ∧
      b.objects "/servers/tf2" = none ∧ ¬ b.Exported := by
  constructor
  · refine ⟨_, rfl, rfl, rfl, rfl, fun exported => ?_⟩
    obtain ⟨valid, -⟩ := exported 0 List.mem_cons_self _ rfl
    cases valid
  · refine ⟨_, rfl, rfl, rfl, rfl, fun exported => ?_⟩
    obtain ⟨-, here, -⟩ := exported 1 List.mem_cons_self _ rfl
    cases here

end Bus

end Morgoth
