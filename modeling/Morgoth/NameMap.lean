import Mathlib.Data.List.Find
import Morgoth.Bookkeeping
import Morgoth.OrderedMap

/-!
# ServerManager as a map from names to servers

`add` and `remove` once more, with what they emit: each signal with the manager
as its slots find it.

* `callAdd_eq`, `callRemove_eq`: they are the calls of `Manager`;
* `step_refines`: the manager moves as a map from names to servers does that
  keeps its order;
* `refines_name_map`: what that means for every call and every lookup.
-/

namespace Morgoth

/-- The manager that a call leaves, what it returns, and what it emits. -/
structure CallResult (α : Type) where
  manager : ServerManager
  result : α
  emitted : List (ManagerSignal × ServerManager)

namespace ServerManager

/-- `add(Server*)`. -/
def callAddServer (m : ServerManager) (server : ServerId) (s : Server) : CallResult Bool :=
  if server ∈ m.servers then ⟨m, false, []⟩
  else if (m.find s.name).isSome then ⟨m, false, []⟩
  else
    let m : ServerManager :=
      { m with
        heap := Function.update m.heap server (some s)
        servers := m.servers ++ [server]
        signals := m.signals ++ [.serverAdded server] }
    ⟨m, true, [(.serverAdded server, m)]⟩

/-- `add(const QUrl&, const QString&)`. -/
def callAdd (env : Environment) (m : ServerManager) (path : QUrl) (name : String) :
    CallResult (Option ServerId) :=
  let server := m.nextServer
  let call := callAddServer { m with nextServer := m.nextServer + 1 } server
    (.create (env.host server) (fixedPath env server path) name)
  ⟨call.manager, if call.result then some server else none, call.emitted⟩

/-- The signal is emitted while the server is still in the list. -/
def callRemove (m : ServerManager) (serverName : String) : CallResult Bool :=
  match m.find serverName with
  | none => ⟨m, false, []⟩
  | some server =>
    let m : ServerManager :=
      { m with signals := m.signals ++ [.serverAboutToBeRemoved server] }
    ⟨{ m with
      servers := m.servers.filter (· != server)
      doomed := m.doomed ++ [server] }, true, [(.serverAboutToBeRemoved server, m)]⟩

def serverNames (m : ServerManager) : List String :=
  m.servers.filterMap fun server => (m.heap server).map Server.name

/-! ## The calls -/

theorem callAdd_eq (env : Environment) (m : ServerManager) (path : QUrl) (name : String) :
    ((callAdd env m path name).manager, (callAdd env m path name).result) =
      m.add env path name := by
  unfold callAdd callAddServer add newServer addServer
  dsimp only
  split
  · rfl
  · split <;> rfl

theorem callRemove_eq (m : ServerManager) (serverName : String) :
    ((m.callRemove serverName).manager, (m.callRemove serverName).result) =
      m.remove serverName := by
  unfold callRemove remove
  cases m.find serverName <;> rfl

/-- What a call of `add` leaves where the name is free. -/
def withAdded (env : Environment) (m : ServerManager) (path : QUrl) (name : String) :
    ServerManager :=
  { m with
    heap := Function.update m.heap m.nextServer
      (some (.create (env.host m.nextServer) (fixedPath env m.nextServer path) name))
    nextServer := m.nextServer + 1
    servers := m.servers ++ [m.nextServer]
    signals := m.signals ++ [.serverAdded m.nextServer] }

theorem callAdd_free (env : Environment) {m : ServerManager} (fresh : m.nextServer ∉ m.servers)
    {name : String} (free : m.find name = none) (path : QUrl) :
    callAdd env m path name =
      ⟨withAdded env m path name, some m.nextServer,
        [(.serverAdded m.nextServer, withAdded env m path name)]⟩ := by
  have free' : ¬ (find { m with nextServer := m.nextServer + 1 } name).isSome := by
    have same : find { m with nextServer := m.nextServer + 1 } name = m.find name := rfl
    rw [same, free]
    nofun
  have unnamed : (Server.create (env.host m.nextServer) (fixedPath env m.nextServer path)
    name).name = name := rfl
  unfold callAdd callAddServer
  simp only [if_neg fresh, unnamed, if_neg free', if_true]
  rfl

/-- A name that is taken costs the object that was made for it, and nothing
else. -/
theorem callAdd_taken (env : Environment) {m : ServerManager} {name : String}
    (taken : (m.find name).isSome) (path : QUrl) :
    callAdd env m path name = ⟨{ m with nextServer := m.nextServer + 1 }, none, []⟩ := by
  have taken' : (find { m with nextServer := m.nextServer + 1 } name).isSome := taken
  have unnamed : (Server.create (env.host m.nextServer) (fixedPath env m.nextServer path)
    name).name = name := rfl
  unfold callAdd callAddServer
  by_cases listed : m.nextServer ∈ m.servers
  · simp only [if_pos listed]
    rfl
  · simp only [if_neg listed, unnamed, if_pos taken']
    rfl

/-- What a call of `remove` leaves where the name is that of a server. -/
def withRemoved (m : ServerManager) (server : ServerId) : ServerManager :=
  { m with
    servers := m.servers.filter (· != server)
    doomed := m.doomed ++ [server]
    signals := m.signals ++ [.serverAboutToBeRemoved server] }

theorem callRemove_found {m : ServerManager} {serverName : String} {server : ServerId}
    (found : m.find serverName = some server) :
    m.callRemove serverName =
      ⟨m.withRemoved server, true, [(.serverAboutToBeRemoved server,
        { m with signals := m.signals ++ [.serverAboutToBeRemoved server] })]⟩ := by
  unfold callRemove
  rw [found]
  rfl

theorem callRemove_missing {m : ServerManager} {serverName : String}
    (missing : m.find serverName = none) : m.callRemove serverName = ⟨m, false, []⟩ := by
  unfold callRemove
  rw [missing]

/-! ## The map -/

/-- The servers in their order, with their names. -/
def named (m : ServerManager) : List (Option String × ServerId) :=
  m.servers.map fun server => ((m.heap server).map Server.name, server)

/-- The list of servers and their names are those of the map. -/
def Refines (m : ServerManager) (map : OrderedMap String ServerId) : Prop :=
  m.named = map.entries.map fun entry => (some entry.1, entry.2)

variable {env : Environment} {m u : ServerManager} {map : OrderedMap String ServerId}

theorem Refines.servers_eq (hm : m.Refines map) : m.servers = map.values := by
  have seconds := congrArg (List.map Prod.snd) hm
  unfold named at seconds
  rw [List.map_map, List.map_map] at seconds
  exact (List.map_id m.servers).symm.trans seconds

theorem Refines.name_eq (hm : m.Refines map) {name : String} {server : ServerId}
    (listed : (name, server) ∈ map.entries) : (m.heap server).map Server.name = some name := by
  have there : (some name, server) ∈ m.named := by
    rw [hm]
    exact List.mem_map.mpr ⟨_, listed, rfl⟩
  obtain ⟨t, -, same⟩ := List.mem_map.mp there
  obtain ⟨here, rfl⟩ := Prod.mk.inj same
  exact here

theorem Refines.serverNames_eq (hm : m.Refines map) : m.serverNames = map.keys := by
  unfold serverNames OrderedMap.keys
  rw [hm.servers_eq, OrderedMap.values, List.filterMap_map, ← List.filterMap_eq_map]
  apply List.filterMap_congr
  rintro ⟨name, server⟩ listed
  exact hm.name_eq listed

/-- A lookup finds the same server. -/
theorem Refines.find_eq (hm : m.Refines map) (name : String) : m.find name = map.lookup name := by
  unfold find OrderedMap.lookup
  rw [hm.servers_eq, OrderedMap.values, List.find?_map]
  congr 1
  apply List.find?_congr
  intro entry listed
  obtain ⟨s, there, here⟩ := Option.map_eq_some_iff.mp (hm.name_eq listed)
  rw [Function.comp_apply, there, ← here]
  rfl

theorem init_refines : Refines {} .empty := rfl

/-- Where no server comes or goes, the names are as before. -/
theorem named_quiet {e : ManagerEvent} (hm : m.Sound) (he : Effect env m e u)
    (servers : u.servers = m.servers) : u.named = m.named := by
  unfold named
  rw [servers]
  apply List.map_congr_left
  intro t listed
  have alive := (effect_sound hm he).alive t (servers ▸ listed)
  obtain ⟨s, there⟩ := Option.isSome_iff_exists.mp alive
  rw [there]
  obtain old | ⟨s', event, old, moves, -⟩ | ⟨rfl, -⟩ := effect_heap hm he there
  · rw [old]
  · rw [old, Option.map_some, Option.map_some, (Server.step_frame moves).2.2.1]
  · exact absurd listed hm.fresh

/-- The edit of the map that an event is. -/
def edit (m : ServerManager) : ManagerEvent → Option (OrderedMap.Edit String ServerId)
  | .add _ name | .addServer _ name => some (.add name m.nextServer)
  | .remove serverName => some (.erase serverName)
  | _ => none

theorem edit_brought {e : ManagerEvent} {s : Server} (brings : brought env m e = some s) :
    m.edit e = some (.add s.name m.nextServer) := by
  cases e with
  | add path name | addServer path name =>
    obtain rfl := Option.some.inj brings
    rfl
  | _ => cases brings

/-- A server that is appended under a new identity leaves the others named as before. -/
theorem named_append (fresh : m.nextServer ∉ m.servers) (s : Server)
    (heap : u.heap = Function.update m.heap m.nextServer (some s))
    (servers : u.servers = m.servers ++ [m.nextServer]) :
    u.named = m.named ++ [(some s.name, m.nextServer)] := by
  have kept : (m.servers.map fun server => ((u.heap server).map Server.name, server)) =
      m.named := by
    apply List.map_congr_left
    intro t listed
    have other : t ≠ m.nextServer := fun same => fresh (same ▸ listed)
    rw [heap, Function.update_of_ne other]
  rw [named, servers, List.map_append, kept, List.map_singleton, heap, Function.update_self]
  rfl

/-- To take out a server is to take out its name. -/
theorem Refines.named_without (refines : m.Refines map) {name : String} {server : ServerId}
    (listed : (name, server) ∈ map.entries) :
    (m.named.filter fun entry => entry.2 != server) =
      (map.erase name).entries.map fun entry => (some entry.1, entry.2) := by
  rw [refines, List.filter_map]
  unfold OrderedMap.erase
  congr 1
  apply List.filter_congr
  rintro ⟨n, t⟩ there
  have same : t = server ↔ n = name := by
    constructor
    · rintro rfl
      exact Option.some.inj ((refines.name_eq there).symm.trans (refines.name_eq listed))
    · rintro rfl
      exact OrderedMap.entry_unique there listed
  rw [Function.comp_apply, Bool.eq_iff_iff, bne_iff_ne, bne_iff_ne]
  exact not_congr same

/-- The manager moves as the map does. -/
theorem step_refines {e : ManagerEvent} (hm : m.Sound) (refines : m.Refines map)
    (hu : m.step env e = some u) : u.Refines ((m.edit e).elim map map.apply) := by
  have he := step_effect hm.fresh hu
  cases he with
  | added e s brings free =>
    rw [edit_brought brings]
    unfold Refines
    dsimp only [Option.elim, OrderedMap.apply]
    rw [OrderedMap.add_new ((refines.find_eq s.name).symm.trans free), List.map_append, ← refines]
    exact named_append hm.fresh s rfl rfl
  | refused e s brings taken =>
    obtain ⟨server, found⟩ := Option.isSome_iff_exists.mp taken
    rw [edit_brought brings]
    dsimp only [Option.elim, OrderedMap.apply]
    rw [OrderedMap.add_old ((refines.find_eq s.name).symm.trans found)]
    exact refines
  | removed name server found =>
    have listed := OrderedMap.lookup_some.mp ((refines.find_eq name).symm.trans found)
    have rest := refines.named_without listed
    unfold Refines
    dsimp only [edit, Option.elim, OrderedMap.apply]
    rw [← rest]
    unfold named
    rw [List.filter_map]
    rfl
  | unknown name missing =>
    dsimp only [edit, Option.elim, OrderedMap.apply]
    rw [OrderedMap.erase_absent ((refines.find_eq name).symm.trans missing)]
    exact refines
  | _ => exact (named_quiet hm (step_effect hm.fresh hu) rfl).trans refines

/-- The edits along a run. -/
def edits (env : Environment) : ServerManager → List ManagerEvent →
    List (OrderedMap.Edit String ServerId)
  | _, [] => []
  | m, e :: es => (m.edit e).toList ++ ((m.step env e).elim [] fun u => edits env u es)

theorem run_refines {map : OrderedMap String ServerId} {es : List ManagerEvent} (hm : m.Sound)
    (refines : m.Refines map) (h : run env m es = some u) :
    u.Refines ((edits env m es).foldl OrderedMap.apply map) := by
  induction es generalizing m map with
  | nil =>
    obtain rfl : m = u := Option.some.inj h
    exact refines
  | cons e es ih =>
    obtain ⟨w, hw, rest⟩ := Option.bind_eq_some_iff.mp h
    have later := ih (step_sound hm hw) (step_refines hm refines hw) rest
    unfold edits
    rw [hw, List.foldl_append]
    cases one : m.edit e <;> simpa [one] using later

/-! ## What callers see -/

/-- The manager is the map. What is called next finds an entry or finds none:
`add` then appends the new server and says so once, or it leaves nothing but an
object that was used up; `remove` says so once, while the server is still found,
and then takes out that entry, or it leaves the manager as it is. -/
structure IsMap (env : Environment) (m : ServerManager) (map : OrderedMap String ServerId) :
    Prop where
  servers : m.servers = map.values
  serverNames : m.serverNames = map.keys
  distinct : m.serverNames.Nodup
  find : ∀ name, m.find name = map.lookup name
  add_absent : ∀ path name, m.find name = none → ∃ u,
    callAdd env m path name =
      ⟨u, some m.nextServer, [(.serverAdded m.nextServer, u)]⟩ ∧
    u.named = m.named ++ [(some name, m.nextServer)] ∧
    u.Refines (map.add name m.nextServer)
  add_present : ∀ path name server, m.find name = some server →
    callAdd env m path name = ⟨{ m with nextServer := m.nextServer + 1 }, none, []⟩
  remove_present : ∀ name server, m.find name = some server → ∃ u w,
    m.callRemove name = ⟨u, true, [(.serverAboutToBeRemoved server, w)]⟩ ∧
    w.find name = some server ∧ w.named = m.named ∧
    u.named = (m.named.filter fun entry => entry.1 != some name) ∧
    u.Refines (map.erase name)
  remove_absent : ∀ name, m.find name = none → m.callRemove name = ⟨m, false, []⟩

theorem Refines.named_filter (refines : m.Refines map) (name : String) :
    (m.named.filter fun entry => entry.1 != some name) =
      (map.erase name).entries.map fun entry => (some entry.1, entry.2) := by
  rw [refines, List.filter_map]
  rfl

theorem Refines.isMap (hm : m.Sound) (refines : m.Refines map) : IsMap env m map where
  servers := refines.servers_eq
  serverNames := refines.serverNames_eq
  distinct := by
    rw [refines.serverNames_eq]
    exact map.distinct
  find := refines.find_eq
  add_absent path name free := by
    have moved := callAdd_free env hm.fresh free path
    have steps : m.step env (.add path name) = some (withAdded env m path name) := by
      rw [step, ← callAdd_eq, moved]
    have later := step_refines hm refines steps
    have appended := OrderedMap.add_new ((refines.find_eq name).symm.trans free) m.nextServer
    refine ⟨_, moved, ?_, later⟩
    calc (withAdded env m path name).named
        = (map.add name m.nextServer).entries.map fun entry => (some entry.1, entry.2) := later
      _ = m.named ++ [(some name, m.nextServer)] := by
        rw [appended, List.map_append, ← refines]
        rfl
  add_present path name server found := by
    apply callAdd_taken env
    rw [found]
    rfl
  remove_present name server found := by
    have moved := callRemove_found found
    have steps : m.step env (.remove name) = some (m.withRemoved server) := by
      rw [step, ← callRemove_eq, moved]
    have later := step_refines hm refines steps
    refine ⟨_, _, moved, found, rfl, ?_, later⟩
    rw [refines.named_filter name]
    exact later
  remove_absent name missing := callRemove_missing missing

/-- After any calls the manager is the map that the calls make, and a name is
that of the server that the last successful `add` brought, if it has not been
removed since. -/
theorem refines_name_map {es : List ManagerEvent} (h : run env {} es = some m) :
    IsMap env m (OrderedMap.run (edits env {} es)) ∧
    ∀ name server, m.find name = some server ↔
      ∃ before after, edits env {} es = before ++ .add name server :: after ∧
        (OrderedMap.run before).lookup name = none ∧ .erase name ∉ after := by
  have refines := run_refines init_sound init_refines h
  refine ⟨refines.isMap (run_sound h), ?_⟩
  intro name server
  rw [refines.find_eq]
  exact OrderedMap.lookup_run_iff

theorem refines_name_map_readded :
    ∃ m, run .ideal {} [.add {} "a", .add {} "b", .add {} "a", .remove "a", .add {} "a"] = some m ∧
      m.serverNames = ["b", "a"] ∧ m.find "a" = some 3 := by
  have ran : run .ideal {} [.add {} "a", .add {} "b", .add {} "a", .remove "a", .add {} "a"] =
    some _ := rfl
  obtain ⟨map, found⟩ := refines_name_map ran
  exact ⟨_, ran, map.serverNames, (found "a" 3).mpr
    ⟨[.add "a" 0, .add "b" 1, .add "a" 2, .erase "a"], [], rfl, rfl, List.not_mem_nil⟩⟩

end ServerManager

end Morgoth
