import Morgoth.Durability
import Morgoth.Offers

/-!
# The daemon with its database and its objects

What clients talk to, through kills and restarts: a start puts the servers of the
database back on the bus before it takes calls.

* `step_daemon`, `power_daemon`, `step_bus`: the service is the daemon with its
  database, and the manager on the bus;
* `restoreServers_complete`: after a start every server has all its objects, if their
  names have no slash in them.
-/

namespace Morgoth

/-! ## Names that are one element of a path -/

/-- No server of such a name is at a path below another one. -/
def plainName (name : String) : Bool := validElement name.toList

theorem plain_noSlash {name : String} (plain : plainName name = true) : '/' ∉ name.toList := by
  intro there
  obtain ⟨-, all⟩ := (Bool.and_eq_true _ _).mp plain
  have slash := List.all_eq_true.mp all '/' there
  exact absurd slash (by decide)

/-- The elements of the paths of a server with such a name. -/
theorem path_elements {s : Server} (plain : plainName s.name = true) {path : String}
    (own : path ∈ s.paths) :
    ∃ rest tail, path.toList = '/' :: rest ∧
      rest.splitOn '/' = "servers".toList :: s.name.toList :: tail ∧
      tail.all validElement = true := by
  have single := plain_noSlash plain
  have below (tail : String) (one : '/' ∉ tail.toList) (valid : validElement tail.toList = true)
      (same : path = "/servers/" ++ s.name ++ "/" ++ tail) :
      ∃ rest tail, path.toList = '/' :: rest ∧
        rest.splitOn '/' = "servers".toList :: s.name.toList :: tail ∧
        tail.all validElement = true := by
    refine ⟨"servers".toList ++ '/' :: (s.name.toList ++ '/' :: tail.toList), [tail.toList], ?_, ?_, ?_⟩
    · rw [same]
      simp
    · rw [List.splitOn_append_cons_self, List.splitOn_append_cons_self,
        List.splitOn_eq_singleton single, List.splitOn_eq_singleton one]
      rfl
    · simpa using valid
  simp only [Server.paths, List.mem_cons, List.not_mem_nil, or_false] at own
  rcases own with same | same | same | same
  · refine ⟨"servers".toList ++ '/' :: s.name.toList, [], ?_, ?_, rfl⟩
    · rw [same]
      simp
    · rw [List.splitOn_append_cons_self, List.splitOn_eq_singleton single]
      rfl
  · exact below "configuration" (by decide) (by decide) (by rw [same]; simp [String.ext_iff])
  · exact below "coordinator" (by decide) (by decide) (by rw [same]; simp [String.ext_iff])
  · exact below "status" (by decide) (by decide) (by rw [same]; simp [String.ext_iff])

theorem path_valid {s : Server} (plain : plainName s.name = true) {path : String}
    (own : path ∈ s.paths) : validPath path = true := by
  obtain ⟨rest, tail, path_eq, elements, valid⟩ := path_elements plain own
  unfold validPath
  rw [path_eq]
  split
  · next root =>
    obtain rfl := (List.cons.inj root).2
    cases elements
  · next same =>
    obtain rfl := (List.cons.inj same).2
    rw [elements]
    have name : validElement s.name.toList = true := plain
    simpa [name, valid] using (by decide : validElement "servers".toList = true)
  · next other => exact absurd rfl (other rest)

/-- Servers with different names share no path. -/
theorem paths_apart {s t : Server} (hs : plainName s.name = true) (ht : plainName t.name = true)
    {path : String} (mine : path ∈ s.paths) (other : path ∈ t.paths) : s.name = t.name := by
  obtain ⟨rest, tail, path_eq, elements, -⟩ := path_elements hs mine
  obtain ⟨rest', tail', path_eq', elements', -⟩ := path_elements ht other
  obtain rfl := (List.cons.inj (path_eq.symm.trans path_eq')).2
  have same := elements.symm.trans elements'
  simp only [List.cons.injEq] at same
  exact String.ext same.2.1

theorem plain_literal {name : String} (plain : plainName name = true) : Literal name := by
  obtain ⟨-, all⟩ := (Bool.and_eq_true _ _).mp plain
  constructor
  · intro there
    exact absurd (List.all_eq_true.mp all _ there) (by decide)
  · intro there
    exact absurd (List.all_eq_true.mp all _ there) (by decide)

/-- The paths of objects that are registered are those that are said to be taken. -/
theorem objects_paths {server : ServerId} {s : Server} (plain : plainName s.name = true)
    {x : String × BusObject} (listed : x ∈ s.objects server) : x.1 ∈ s.paths := by
  have raw (path : String) (own : path ∈ s.paths) : objectPath path = path :=
    if_pos (path_valid plain own)
  have second := raw ("/servers/" ++ s.name ++ "/configuration") (by simp [Server.paths])
  have third := raw ("/servers/" ++ s.name ++ "/coordinator") (by simp [Server.paths])
  have fourth := raw ("/servers/" ++ s.name ++ "/status") (by simp [Server.paths])
  simp only [Server.objects, Server.configurationPath, Server.coordinatorPath, Server.statusPath,
    second, third, fourth, Server.dbusPath] at listed
  split at listed
  · simp only [List.cons_append, List.nil_append, List.mem_cons, List.not_mem_nil, or_false] at listed
    rcases listed with rfl | rfl | rfl | rfl <;> simp [Server.paths]
  · simp only [List.append_nil, List.mem_cons, List.not_mem_nil, or_false] at listed
    rcases listed with rfl | rfl <;> simp [Server.paths]

structure Service where
  bus : Bus := {}
  db : Database := {}
  connected : List ServerId := []

/-- The daemon is started, or killed and started again. -/
def Daemon.PowerEvent.starts : Daemon.PowerEvent → Bool
  | .event .restart | .killed .. => true
  | _ => false

namespace Service

/-- Without the bus. -/
def daemon (s : Service) : Daemon :=
  { manager := s.bus.manager, db := s.db, connected := s.connected }

/-- `Persistor::restoreServers`, with the objects of the servers that it adds. -/
def restoreServers (env : Environment) (sql : Sqlite) (db : Database) :
    List (Nat × ServerRow) → Bus → List ServerId → Option (Bus × List ServerId)
  | [], b, connected => some (b, connected)
  | (id, row) :: rows, b, connected =>
    match b.manager.add env (sql.toUrl row.path) row.name with
    | (_, none) => none
    | (m, some server) =>
      restoreServers env sql db rows
        { manager := Persistor.restoreEntries server (db.entriesOf id) m
          objects := b.exported env (.add (sql.toUrl row.path) row.name) }
        (connected ++ [server])

def step (env : Environment) (sql : Sqlite) (s : Service) : DaemonEvent → Option Service
  | .turn event fails => (s.daemon.step env sql (.turn event fails)).map fun d =>
    { bus := { manager := d.manager, objects := s.bus.exported env event }
      db := d.db
      connected := d.connected }
  | .pluginStatusChanged name enabled fails =>
    some { s with db := Persistor.storePluginState sql fails s.db name enabled }
  | .restart => (restoreServers env sql s.db s.db.servers.rows {} []).map fun (bus, connected) =>
    { bus := bus, db := s.db, connected := connected }

/-- The process is killed after the first statements of an event, and started again. -/
def kill (env : Environment) (sql : Sqlite) (s : Service) (e : DaemonEvent) (n : Nat) :
    Option Service :=
  (s.daemon.script env sql e).bind fun script =>
    step env sql { s with db := (script.killed n ⟨s.db, none⟩).durable } .restart

def power (env : Environment) (sql : Sqlite) (s : Service) : Daemon.PowerEvent → Option Service
  | .event e => s.step env sql e
  | .killed e n => s.kill env sql e n

variable {env : Environment} {sql : Sqlite} {s u : Service}

/-! ## The daemon and the bus in it -/

theorem restoreServers_manager (db : Database) (rows : List (Nat × ServerRow)) (b : Bus)
    (connected : List ServerId) :
    (restoreServers env sql db rows b connected).map (fun made => (made.1.manager, made.2)) =
      Persistor.restoreServers env sql db rows b.manager connected := by
  induction rows generalizing b connected with
  | nil => rfl
  | cons row rows ih =>
    obtain ⟨id, row⟩ := row
    unfold restoreServers Persistor.restoreServers
    cases b.manager.add env (sql.toUrl row.path) row.name with
    | mk m server =>
      cases server with
      | none => rfl
      | some server => exact ih _ _

theorem step_daemon {e : DaemonEvent} (hu : s.step env sql e = some u) :
    s.daemon.step env sql e = some u.daemon := by
  cases e with
  | turn event fails =>
    obtain ⟨d, hd, rfl⟩ := Option.map_eq_some_iff.mp hu
    exact hd
  | pluginStatusChanged name enabled fails =>
    obtain rfl := Option.some.inj hu
    rfl
  | restart =>
    obtain ⟨⟨b, connected⟩, made, rfl⟩ := Option.map_eq_some_iff.mp hu
    have init : Persistor.init env sql s.daemon.db = some (b.manager, connected) := by
      rw [Persistor.init, ← restoreServers_manager s.daemon.db s.daemon.db.servers.rows {} []]
      exact Option.map_eq_some_iff.mpr ⟨_, made, rfl⟩
    unfold Daemon.step
    exact Option.map_eq_some_iff.mpr ⟨_, init, rfl⟩

theorem power_daemon {e : Daemon.PowerEvent} (hu : s.power env sql e = some u) :
    s.daemon.power env sql e = some u.daemon := by
  cases e with
  | event e => exact step_daemon hu
  | killed e n =>
    obtain ⟨script, statements, started⟩ := Option.bind_eq_some_iff.mp hu
    exact Option.bind_eq_some_iff.mpr ⟨script, statements, step_daemon started⟩

/-- Every turn of the manager is one of the service. -/
theorem step_map_bus (env : Environment) (sql : Sqlite) (s : Service) (e : ManagerEvent)
    (fails : Nat → Bool) : (s.step env sql (.turn e fails)).map bus = s.bus.step env e := by
  cases hd : s.daemon.step env sql (.turn e fails) with
  | none =>
    have stays : s.bus.manager.step env e = none := Option.map_eq_none_iff.mp hd
    rw [step, hd, Bus.step, stays]
    rfl
  | some d =>
    have moves : s.bus.manager.step env e = some d.manager := Daemon.turn_manager hd
    rw [step, hd, Bus.step, moves]
    rfl

theorem step_bus {e : ManagerEvent} {fails : Nat → Bool}
    (hu : s.step env sql (.turn e fails) = some u) : s.bus.step env e = some u.bus := by
  rw [← step_map_bus env sql s e fails, hu, Option.map_some]

/-! ## A start -/

/-- Nothing is on the bus but the daemon and the servers that it has. -/
def Tidy (b : Bus) : Prop :=
  ∀ path o, b.objects path = some o → path ∈ ["/daemon", "/servers", "/plugins"] ∨
    ∃ t : Server, plainName t.name = true ∧ (b.manager.find t.name).isSome ∧ path ∈ t.paths

variable {b v : Bus}

theorem init_tidy : Tidy {} := by
  intro path o there
  rcases Registry.registerAll_some there with old | ⟨-, -, listed⟩
  · cases old
  · refine .inl ?_
    simp only [List.mem_cons, List.not_mem_nil, or_false, Prod.mk.injEq] at listed ⊢
    rcases listed with ⟨rfl, -⟩ | ⟨rfl, -⟩ | ⟨rfl, -⟩ <;> simp

/-- A name that is free leaves room for its server. -/
theorem tidy_room (tidy : Tidy b) {t : Server} (plain : plainName t.name = true)
    (free : b.manager.find t.name = none) {server : ServerId} :
    ∀ x ∈ t.objects server, validPath x.1 = true ∧ b.objects x.1 = none := by
  intro x listed
  have own := objects_paths plain listed
  refine ⟨path_valid plain own, Option.eq_none_iff_forall_ne_some.mpr fun o there => ?_⟩
  rcases tidy x.1 o there with fixed | ⟨other, plain', found, path⟩
  · obtain ⟨rest, tail, path, elements, -⟩ := path_elements plain own
    have short : ∀ path ∈ ["/daemon", "/servers", "/plugins"],
        (path.toList.splitOn '/').length = 2 := by decide
    have lengths := short x.1 fixed
    rw [path, List.splitOn_cons_eq_if_modifyHead, elements] at lengths
    simp at lengths
  · rw [paths_apart plain' plain path own, free] at found
    cases found

theorem tidy_added (orderly : b.Orderly) (tidy : Tidy b) {e : ManagerEvent} {t : Server}
    (brings : ServerManager.brought env b.manager e = some t) (plain : plainName t.name = true)
    (free : b.manager.find t.name = none) (hv : b.step env e = some v) : Tidy v := by
  have objects : v.objects = b.exported env e := by
    obtain ⟨m, -, rfl⟩ := Option.map_eq_some_iff.mp hv
    rfl
  have spared (name : String) : e ≠ .remove name := by
    rintro rfl
    cases brings
  intro path o there
  rw [objects, Bus.exported_added orderly.sound brings free] at there
  rcases Registry.registerAll_some there with old | ⟨-, -, listed⟩
  · refine (tidy path o old).imp_right ?_
    rintro ⟨other, plain', found, own⟩
    obtain ⟨server, found⟩ := Option.isSome_iff_exists.mp found
    have still := Bus.step_found orderly hv found (spared other.name)
    exact ⟨other, plain', by rw [still]; rfl, own⟩
  · obtain ⟨found, -⟩ := Bus.step_finds_new orderly brings free hv
    exact .inr ⟨t, plain, by rw [found]; rfl, objects_paths plain listed⟩

/-- The values of a server that is restored. -/
theorem restoreEntries_kept (server : ServerId) (entries : List (Nat × Entry))
    (complete : b.Complete) (tidy : Tidy b) :
    Bus.Complete { b with manager := Persistor.restoreEntries server entries b.manager } ∧
      Tidy { b with manager := Persistor.restoreEntries server entries b.manager } := by
  induction entries generalizing b with
  | nil => exact ⟨complete, tidy⟩
  | cons row entries ih =>
    cases there : b.manager.heap server with
    | none =>
      have absent : (b.manager.reach server fun s => s.setValue row.2.key row.2.value) = b.manager := by
        have gone : Function.update b.manager.heap server none = b.manager.heap :=
          there ▸ Function.update_eq_self _ _
        simp [ServerManager.reach, there, gone]
      have rest := ih complete tidy
      rw [← absent] at rest
      exact rest
    | some t =>
      have moves := Bus.step_setValue .ideal there row.2.key row.2.value
      refine ih ((Bus.step_complete complete moves).mpr fun _ brings => by cases brings) ?_
      intro path o registered
      refine (tidy path o registered).imp_right ?_
      rintro ⟨other, plain, found, own⟩
      obtain ⟨mine, found⟩ := Option.isSome_iff_exists.mp found
      have still := Bus.step_found complete.orderly moves found (by simp)
      exact ⟨other, plain, by rw [still]; rfl, own⟩

/-- A start puts every server on the bus, with all its objects. -/
theorem restoreServers_complete {db : Database} {rows : List (Nat × ServerRow)}
    (complete : b.Complete) (tidy : Tidy b) (plain : ∀ row ∈ rows, plainName row.2.name = true)
    {connected : List ServerId} {made : Bus × List ServerId}
    (start : restoreServers env sql db rows b connected = some made) : made.1.Complete := by
  induction rows generalizing b connected with
  | nil =>
    obtain rfl := Option.some.inj start
    exact complete
  | cons row rows ih =>
    obtain ⟨id, row⟩ := row
    have plain' : plainName row.name = true := plain _ List.mem_cons_self
    have adds : b.step env (.add (sql.toUrl row.path) row.name) =
        some { manager := (b.manager.add env (sql.toUrl row.path) row.name).1
               objects := b.exported env (.add (sql.toUrl row.path) row.name) } := rfl
    unfold restoreServers at start
    split at start
    case h_1 => cases start
    case h_2 m server added =>
      rw [added] at adds
      have free : b.manager.find row.name = none := by
        refine Option.not_isSome_iff_eq_none.mp fun taken => ?_
        have refused := ServerManager.add_taken env taken (sql.toUrl row.path)
        rw [added] at refused
        cases refused
      obtain ⟨t, brings, named⟩ : ∃ t, ServerManager.brought env b.manager
          (.add (sql.toUrl row.path) row.name) = some t ∧ t.name = row.name := ⟨_, rfl, rfl⟩
      rw [← named] at plain' free
      have room := (Bus.step_complete complete adds).mpr fun t' brings' free' => by
        obtain rfl := Option.some.inj (brings.symm.trans brings')
        exact tidy_room tidy plain' free
      obtain ⟨complete', tidy'⟩ := restoreEntries_kept server (db.entriesOf id) room
        (tidy_added complete.orderly tidy brings plain' free adds)
      exact ih complete' tidy' (fun row listed => plain row (List.mem_cons_of_mem _ listed)) start

/-! ## What every run keeps -/

/-- The event brings a server of the name. -/
def Brings (env : Environment) (s : Service) (name : String) : DaemonEvent → Prop
  | .turn e _ => ∃ t, ServerManager.brought env s.bus.manager e = some t ∧ t.name = name
  | _ => False

/-- The database is up to date, the bus is in order, and no name has a slash. -/
structure Healthy (env : Environment) (sql : Sqlite) (s : Service) : Prop where
  sound : s.daemon.Sound
  stored : s.daemon.Stored env sql
  orderly : s.bus.Orderly
  plain : ∀ name, some name ∈ s.bus.manager.names → plainName name = true

theorem init_healthy : Healthy env sql {} where
  sound := Daemon.init_sound
  stored := Daemon.stored_init.2
  orderly := Bus.init_orderly
  plain _ there := by cases there

theorem names_congr {m : ServerManager} (records : m.records = s.bus.manager.records) :
    m.names = s.bus.manager.names :=
  congrArg (List.map (Option.map Record.name)) records

/-- A name that is there after an event was there, or has been brought by it. -/
theorem step_names (same : env.SameFiles) (hs : s.Healthy env sql) {e : DaemonEvent} {d : Daemon}
    (hd : s.daemon.step env sql e = some d) {name : String} (there : some name ∈ d.manager.names) :
    some name ∈ s.bus.manager.names ∨ s.Brings env name e := by
  cases e with
  | turn e fails =>
    by_contra new
    obtain ⟨absent, others⟩ := not_or.mp new
    obtain ⟨map, refines⟩ := hs.orderly.map
    have free := (ServerManager.find_none_iff name).mpr absent
    have still := ServerManager.find_free hs.orderly.sound.manager refines (Daemon.turn_manager hd)
      free fun t brought named => others ⟨t, brought, named⟩
    exact (ServerManager.find_none_iff name).mp still there
  | pluginStatusChanged plugin enabled fails =>
    obtain rfl := Option.some.inj hd
    exact .inl there
  | restart =>
    obtain ⟨⟨m, connected⟩, start, rfl⟩ := Option.map_eq_some_iff.mp hd
    obtain ⟨-, -, -, records⟩ := Persistor.init_made start
    rw [Database.records_saved same, hs.stored.records] at records
    exact .inl (names_congr records ▸ there)

/-- The same of an event that is killed. -/
theorem power_names (same : env.SameFiles) (hs : s.Healthy env sql) {e : Daemon.PowerEvent}
    (careful : s.daemon.Careful env sql e) (hu : s.power env sql e = some u) {name : String}
    (there : some name ∈ u.bus.manager.names) :
    some name ∈ s.bus.manager.names ∨ s.Brings env name e.turn := by
  cases e with
  | event e => exact step_names same hs (step_daemon hu) there
  | killed e n =>
    have killed : s.daemon.kill env sql e n = some u.daemon := power_daemon (e := .killed e n) hu
    obtain ⟨v, hv⟩ := Daemon.kill_possible killed
    obtain ⟨w, hw, -, -, back⟩ := Daemon.kill_stored same hs.sound hs.stored careful hv n
    obtain rfl := Option.some.inj (killed.symm.trans hw)
    rcases back with before | after | ⟨other, fails, -, reset⟩
    · have names : u.bus.manager.names = s.bus.manager.names := names_congr before
      exact .inl (names ▸ there)
    · have names : u.bus.manager.names = v.manager.names :=
        congrArg (List.map (Option.map Record.name)) after
      exact step_names same hs hv (names ▸ there)
    · have names : u.bus.manager.names = s.bus.manager.names :=
        (congrArg (List.map (Option.map Record.name)) reset).trans
          (by simp [ServerManager.names, daemon, Function.comp_def])
      exact .inl (names ▸ there)

/-- After a start there is every server, with all its objects. -/
theorem restart_complete (hu : s.step env sql .restart = some u)
    (plain : ∀ name, some name ∈ u.bus.manager.names → plainName name = true) :
    u.bus.Complete := by
  obtain ⟨⟨m, connected⟩, start, same⟩ := Option.map_eq_some_iff.mp (step_daemon hu)
  obtain ⟨⟨b, connected'⟩, made, rfl⟩ := Option.map_eq_some_iff.mp hu
  obtain ⟨-, -, -, records⟩ := Persistor.init_made start
  have names : b.manager.names = s.db.names.map some := by
    obtain rfl : m = b.manager := congrArg Daemon.manager same
    rw [ServerManager.names, records, ← Database.records_names env sql, List.map_map, List.map_map]
    rfl
  refine restoreServers_complete Bus.init_complete init_tidy (fun row listed => ?_) made
  refine plain row.2.name ?_
  rw [names]
  exact List.mem_map_of_mem (List.mem_map_of_mem listed)

/-- A start, or the start after a kill. -/
theorem power_complete {e : Daemon.PowerEvent} (hu : s.power env sql e = some u)
    (starts : e.starts = true)
    (plain : ∀ name, some name ∈ u.bus.manager.names → plainName name = true) :
    u.bus.Complete := by
  cases e with
  | event e =>
    cases e with
    | restart => exact restart_complete hu plain
    | _ => cases starts
  | killed e n =>
    obtain ⟨script, -, started⟩ := Option.bind_eq_some_iff.mp hu
    exact restart_complete started plain

/-- What is completed has been executed, texts survive, and names are plain. -/
def Careful (env : Environment) (sql : Sqlite) (s : Service) (e : Daemon.PowerEvent) : Prop :=
  s.daemon.Careful env sql e ∧ ∀ name, s.Brings env name e.turn → plainName name = true

theorem power_healthy (same : env.SameFiles) (hs : s.Healthy env sql) {e : Daemon.PowerEvent}
    (careful : s.Careful env sql e) (hu : s.power env sql e = some u) : u.Healthy env sql := by
  obtain ⟨sound, stored⟩ :=
    Daemon.power_stored same ⟨hs.sound, hs.stored⟩ careful.1 (power_daemon hu)
  have plain (name : String) (there : some name ∈ u.bus.manager.names) : plainName name = true := by
    rcases power_names same hs careful.1 hu there with old | new
    · exact hs.plain name old
    · exact careful.2 name new
  refine ⟨sound, stored, ?_, plain⟩
  cases starts : e.starts with
  | true => exact (power_complete hu starts plain).orderly
  | false =>
    cases e with
    | killed => cases starts
    | event e =>
      cases e with
      | restart => cases starts
      | turn e fails => exact Bus.step_orderly hs.orderly (step_bus hu)
      | pluginStatusChanged plugin enabled fails =>
        obtain rfl := Option.some.inj hu
        exact hs.orderly

end Service

end Morgoth
