import Morgoth.Bookkeeping
import Morgoth.Persistor

/-!
# The start of the daemon

`Persistor::initialize` on a database, as a fact about the manager that comes
out of it.

* `init_isSome`, `init_made`: a start succeeds exactly on a database whose names
  are distinct, and brings back its rows.
-/

namespace Morgoth

/-- What a restart should bring back of a server. -/
structure Record where
  name : String
  path : QUrl
  value : String → String

def Record.place (record : Record) : String × QUrl := (record.name, record.path)

def Server.record (s : Server) : Record where
  name := s.name
  path := s.path
  value key := (s.configuration.map fun c => c.value key).getD ""

/-- The servers of the manager, in their order. -/
def ServerManager.records (m : ServerManager) : List (Option Record) :=
  m.servers.map fun server => (m.heap server).map Server.record

/-- What exists on the disk is the same whoever looks, and whenever. -/
def Environment.SameFiles (env : Environment) : Prop :=
  ∀ a b, (env.host a).fileExists = (env.host b).fileExists

namespace Server

theorem setValue_record (s : Server) (key value : String) (configured : s.configuration.isSome) :
    (s.setValue key value).record =
      { s.record with value := Function.update s.record.value key value } := by
  obtain ⟨c, hc⟩ := Option.isSome_iff_exists.mp configured
  simp only [record, setValue, hc, Option.map_some, Option.getD_some,
    ServerConfiguration.setValue_value]

theorem step_configuration {h : Host} {s u : Server} {e : ServerEvent}
    (other : ∀ key value, e ≠ .setValue key value) (hu : s.step h e = some u) :
    u.configuration = s.configuration := by
  cases step_effect hu with
  | start => exact (start_frame h s).2.1
  | setValue key value => exact absurd rfl (other key value)
  | startTimeout i => rw [timeoutStart_eq]
  | gameServerOnline iface gameServer =>
    exact (gameServerOnline_frame h iface gameServer s).2.2.2.1
  | gameServerTimedOut =>
    exact gameServerTimedOut_keeps (P := fun t => t.configuration = s.configuration) rfl
      fun _ kept => kept
  | aboutToQuit iface => exact aboutToQuit_frame (f := configuration) (fun _ => rfl) s
  | _ => rfl

/-- Nothing but `setValue` changes what a restart should bring back. -/
theorem step_record {h : Host} {s u : Server} {e : ServerEvent}
    (other : ∀ key value, e ≠ .setValue key value) (hu : s.step h e = some u) :
    u.record = s.record := by
  obtain ⟨-, path, name, -⟩ := step_frame hu
  have configuration := step_configuration other hu
  simp only [record, path, name, configuration]

theorem gameServerOnline_record (h : Host) (iface : GameServerId) (gameServer : GameServer)
    (s : Server) : (s.gameServerOnline h iface gameServer).record = s.record := by
  obtain ⟨-, path, name, configuration, -⟩ := gameServerOnline_frame h iface gameServer s
  simp only [record, path, name, configuration]

theorem gameServerTimedOut_record (h : Host) (s : Server) :
    (s.gameServerTimedOut h).record = s.record :=
  step_record (h := h) (e := .gameServerTimedOut) nofun rfl

theorem aboutToQuit_record (h : Host) (iface : GameServerId) (s : Server) :
    (s.aboutToQuit h iface).record = s.record :=
  step_record (h := h) (e := .aboutToQuit iface) nofun rfl

end Server

namespace ServerManager

variable {env : Environment} {m u : ServerManager}

/-- The names of the servers, in their order. -/
def names (m : ServerManager) : List (Option String) := m.records.map (Option.map Record.name)

/-- Their names and paths. -/
def places (m : ServerManager) : List (Option (String × QUrl)) :=
  m.records.map (Option.map Record.place)

theorem names_places (m : ServerManager) : m.names = m.places.map (Option.map Prod.fst) := by
  unfold names places
  rw [List.map_map]
  apply List.map_congr_left
  intro record _
  cases record <;> rfl

theorem find_none_iff (name : String) : m.find name = none ↔ some name ∉ m.names := by
  unfold find names records
  rw [List.find?_eq_none]
  constructor
  · intro missing there
    obtain ⟨record, hr, same⟩ := List.mem_map.mp there
    obtain ⟨server, listed, rfl⟩ := List.mem_map.mp hr
    have other := missing server listed
    cases found : m.heap server with
    | none =>
      rw [found] at same
      cases same
    | some s =>
      rw [found] at same
      have here : s.name = name := Option.some.inj same
      simp [found, here] at other
  · intro missing server listed there
    obtain ⟨s, found, here⟩ := Option.any_eq_true _ _ |>.mp there
    apply missing
    refine List.mem_map.mpr ⟨_, List.mem_map.mpr ⟨server, listed, rfl⟩, ?_⟩
    rw [found]
    exact congrArg some (beq_iff_eq.mp here)

/-- With distinct names, a server of the list is found by its name. -/
theorem find_listed (distinct : m.names.Nodup) {server : ServerId} (listed : server ∈ m.servers)
    {s : Server} (there : m.heap server = some s) : m.find s.name = some server := by
  have named {server : ServerId} {s : Server} (there : m.heap server = some s) :
      ((m.heap server).map Server.record).map Record.name = some s.name := by
    rw [there]
    rfl
  have present : some s.name ∈ m.names :=
    List.mem_map.mpr ⟨_, List.mem_map_of_mem listed, named there⟩
  obtain ⟨other, found⟩ := Option.ne_none_iff_exists'.mp
    (mt (find_none_iff s.name).mp (not_not.mpr present))
  obtain ⟨listed', s', there', same⟩ := find_some found
  rw [names, records, List.map_map] at distinct
  have equal := List.inj_on_of_nodup_map distinct listed listed'
    ((named there).trans ((named there').trans (congrArg some same)).symm)
  rw [equal, found]

/-- The records of two managers with the same list agree where their heaps do. -/
theorem records_congr (servers : u.servers = m.servers)
    (same : ∀ server ∈ m.servers,
      (u.heap server).map Server.record = (m.heap server).map Server.record) :
    u.records = m.records := by
  unfold records
  rw [servers]
  exact List.map_congr_left same

theorem reach_records {server : ServerId} {signal : Server → Server}
    (keeps : ∀ s, m.heap server = some s → (signal s).record = s.record) :
    (m.reach server signal).records = m.records := by
  refine records_congr (u := m.reach server signal) rfl ?_
  intro t _
  by_cases here : t = server
  · subst here
    cases found : m.heap t with
    | none => simp [reach, found]
    | some s => simp [reach, found, keeps s found]
  · rw [reach_elsewhere here]

theorem reach_reach (m : ServerManager) (server : ServerId) (f g : Server → Server) :
    (m.reach server f).reach server g = m.reach server (g ∘ f) := by
  simp [reach, Option.map_map]

theorem reach_id (m : ServerManager) (server : ServerId) : m.reach server id = m := by
  simp [reach]

/-- A server that is added goes to the end. -/
theorem added_records (fresh : m.nextServer ∉ m.servers) {s : Server}
    (heap : u.heap = Function.update m.heap m.nextServer (some s))
    (servers : u.servers = m.servers ++ [m.nextServer]) :
    u.records = m.records ++ [some s.record] := by
  have old : ∀ server ∈ m.servers, u.heap server = m.heap server := by
    intro server listed
    rw [heap]
    apply Function.update_of_ne
    rintro rfl
    exact fresh listed
  unfold records
  rw [servers, List.map_append, List.map_singleton, heap, Function.update_self]
  congr 1
  apply List.map_congr_left
  intro server listed
  rw [← heap, old server listed]

/-- A call of `setValue` moves and renames no server. -/
theorem setValue_places {server : ServerId} {s : Server} (there : m.heap server = some s)
    {key value : String}
    (heap : u.heap = Function.update m.heap server (some (s.setValue key value)))
    (servers : u.servers = m.servers) : u.places = m.places := by
  unfold places records
  rw [servers, heap, List.map_map, List.map_map]
  apply List.map_congr_left
  intro t _
  rw [Function.comp_apply, Function.comp_apply]
  by_cases here : t = server
  · subst here
    rw [Function.update_self, there]
    rfl
  · rw [Function.update_of_ne here]

/-- With distinct names, a server that is removed takes the record of its name
away. -/
theorem removed_records (distinct : m.names.Nodup) {name : String} {server : ServerId}
    (found : m.find name = some server) (heap : u.heap = m.heap)
    (servers : u.servers = m.servers.filter (· != server)) :
    u.records = m.records.filter fun record => record.map Record.name != some name := by
  obtain ⟨listed, s, there, named⟩ := find_some found
  unfold records
  rw [servers, heap, List.filter_map]
  congr 1
  apply List.filter_congr
  intro t ht
  have distinct' : (m.servers.map fun t =>
      ((m.heap t).map Server.record).map Record.name).Nodup := by
    rw [names, records, List.map_map] at distinct
    exact distinct
  have same : t = server ↔ ((m.heap t).map Server.record).map Record.name = some name := by
    constructor
    · rintro rfl
      rw [there, Option.map_some, Option.map_some, ← named]
      rfl
    · intro here
      apply List.inj_on_of_nodup_map distinct' ht listed
      rw [here, there, Option.map_some, Option.map_some, ← named]
      rfl
  rw [Function.comp_apply, Bool.eq_iff_iff, bne_iff_ne, bne_iff_ne]
  exact not_congr same

theorem Sound.setValue (hm : m.Sound) (server : ServerId) (key value : String) :
    (m.reach server fun s => s.setValue key value).Sound := by
  cases there : m.heap server with
  | none =>
    have same : (m.reach server fun s => s.setValue key value) = m := by
      have gone : Function.update m.heap server none = m.heap := there ▸ Function.update_eq_self _ _
      simp [reach, there, gone]
    rw [same]
    exact hm
  | some s =>
    have moves : m.step .ideal (.server server (.setValue key value)) =
        some (m.reach server fun s => s.setValue key value) := by
      simp [step, ServerEvent.managed, Server.step, reach, there, Server.setValue]
    exact step_sound hm moves

end ServerManager

/-! ## What a start makes of a database -/

namespace Database

/-- The configuration that the stored entries of a server amount to. -/
def valueOf (db : Database) (id : Nat) : String → String :=
  (db.entriesOf id).foldl (fun value row => Function.update value row.2.key row.2.value)
    ServerConfiguration.default.value

/-- What a start brings back of a row, as the given server. -/
def record (env : Environment) (sql : Sqlite) (db : Database) (server : ServerId)
    (row : Nat × ServerRow) : Record where
  name := row.2.name
  path := ServerManager.fixedPath env server (sql.toUrl row.2.path)
  value := db.valueOf row.1

/-- What a start brings back of all rows: the first one becomes server 0. -/
def records (env : Environment) (sql : Sqlite) (db : Database) : List Record :=
  db.servers.rows.zipIdx.map fun row => db.record env sql row.2 row.1

def names (db : Database) : List String := db.servers.rows.map fun row => row.2.name

theorem records_names (env : Environment) (sql : Sqlite) (db : Database) :
    (db.records env sql).map Record.name = db.names := by
  unfold records names
  rw [List.map_map]
  conv_rhs => rw [← List.zipIdx_map_fst 0 db.servers.rows, List.map_map]
  rfl

end Database

namespace Persistor

open ServerManager

variable {env : Environment} {m : ServerManager}

theorem restoreEntries_eq (server : ServerId) (entries : List (Nat × Entry)) (m : ServerManager) :
    restoreEntries server entries m =
      m.reach server fun s => entries.foldl (fun s row => s.setValue row.2.key row.2.value) s := by
  induction entries generalizing m with
  | nil => exact (reach_id m server).symm
  | cons row entries ih =>
    have first : restoreEntries server (row :: entries) m =
        restoreEntries server entries (m.reach server fun s => s.setValue row.2.key row.2.value) :=
      rfl
    rw [first, ih, reach_reach]
    rfl

theorem restoreEntries_sound (server : ServerId) (entries : List (Nat × Entry)) (hm : m.Sound) :
    (restoreEntries server entries m).Sound := by
  induction entries generalizing m with
  | nil => exact hm
  | cons row entries ih => exact ih (hm.setValue server row.2.key row.2.value)

theorem foldl_setValue_record (entries : List (Nat × Entry)) {s : Server}
    (configured : s.configuration.isSome) :
    (entries.foldl (fun s row => s.setValue row.2.key row.2.value) s).record =
      { s.record with
        value := entries.foldl (fun value row => Function.update value row.2.key row.2.value)
          s.record.value } := by
  induction entries generalizing s with
  | nil => rfl
  | cons row entries ih =>
    have still : (s.setValue row.2.key row.2.value).configuration.isSome := by
      simpa [Server.setValue] using configured
    rw [List.foldl_cons, ih still, Server.setValue_record s _ _ configured]
    rfl

@[simp] theorem restoreEntries_nextServer (server : ServerId) (entries : List (Nat × Entry))
    (m : ServerManager) : (restoreEntries server entries m).nextServer = m.nextServer := by
  rw [restoreEntries_eq]
  rfl

/-- The loop stops at a name that is taken. -/
theorem restoreServers_taken (sql : Sqlite) (db : Database) {row : Nat × ServerRow}
    (taken : (m.find row.2.name).isSome) (rows : List (Nat × ServerRow))
    (connected : List ServerId) : restoreServers env sql db (row :: rows) m connected = none := by
  obtain ⟨id, row⟩ := row
  have refused := add_taken env taken (sql.toUrl row.path)
  unfold restoreServers
  cases result : m.add env (sql.toUrl row.path) row.name with
  | mk u server =>
    rw [result] at refused
    obtain rfl : server = none := refused
    rfl

/-- One turn of the loop, where the name is free. -/
theorem restoreServers_cons (sql : Sqlite) (db : Database) (row : Nat × ServerRow) (hm : m.Sound)
    (free : m.find row.2.name = none) :
    ∃ w : ServerManager,
      (∀ rows connected, restoreServers env sql db (row :: rows) m connected =
        restoreServers env sql db rows w (connected ++ [m.nextServer])) ∧
      w.Sound ∧ w.nextServer = m.nextServer + 1 ∧ w.servers = m.servers ++ [m.nextServer] ∧
      w.records = m.records ++ [some (db.record env sql m.nextServer row)] := by
  obtain ⟨id, row⟩ := row
  have added := add_free env hm.fresh free (sql.toUrl row.path)
  have moves : m.step env (.add (sql.toUrl row.path) row.name) =
      some (m.add env (sql.toUrl row.path) row.name).1 := rfl
  refine ⟨restoreEntries m.nextServer (db.entriesOf id)
    (m.add env (sql.toUrl row.path) row.name).1, ?_, ?_, ?_, ?_, ?_⟩
  · intro rows connected
    simp only [restoreServers, added]
  · exact restoreEntries_sound _ _ (step_sound hm moves)
  · rw [restoreEntries_nextServer, added]
  · rw [restoreEntries_eq, added]
    rfl
  · rw [restoreEntries_eq, added]
    have brought := added_records (m := m) hm.fresh
      (u := (m.add env (sql.toUrl row.path) row.name).1.reach m.nextServer fun s =>
        (db.entriesOf id).foldl (fun s row => s.setValue row.2.key row.2.value) s)
      (s := (db.entriesOf id).foldl (fun s row => s.setValue row.2.key row.2.value)
        (.create (env.host m.nextServer)
          (fixedPath env m.nextServer (sql.toUrl row.path)) row.name))
      (by simp [added, reach]) (by simp [added, reach])
    rw [added] at brought
    rw [brought, foldl_setValue_record _ rfl]
    rfl

/-- The servers with distinct names are all restored, in the order of their
rows. -/
theorem restoreServers_some (env : Environment) (sql : Sqlite) (db : Database)
    {rows : List (Nat × ServerRow)} (hm : m.Sound) (free : ∀ row ∈ rows, some row.2.name ∉ m.names)
    (distinct : (rows.map fun row => row.2.name).Nodup) (connected : List ServerId) :
    ∃ u ids, restoreServers env sql db rows m connected = some (u, connected ++ ids) ∧
      u.Sound ∧ u.servers = m.servers ++ ids ∧
      u.records = m.records ++
        (rows.zipIdx m.nextServer).map fun row => some (db.record env sql row.2 row.1) := by
  induction rows generalizing m connected with
  | nil => exact ⟨m, [], by simp [restoreServers], hm, by simp, by simp⟩
  | cons row rows ih =>
    obtain ⟨once, distinct⟩ := List.nodup_cons.mp distinct
    have here : m.find row.2.name = none :=
      (find_none_iff row.2.name).mpr (free _ List.mem_cons_self)
    obtain ⟨w, turn, hw, next, servers, records⟩ := restoreServers_cons sql db row hm here
    have free' : ∀ other ∈ rows, some other.2.name ∉ w.names := by
      intro other later there
      rw [names, records, List.map_append] at there
      rcases List.mem_append.mp there with old | new
      · exact free other (List.mem_cons_of_mem _ later) old
      · have twice : other.2.name = row.2.name := Option.some.inj (List.mem_singleton.mp new)
        exact once (List.mem_map.mpr ⟨other, later, twice⟩)
    obtain ⟨u, ids, result, hu, list, all⟩ :=
      ih hw free' distinct (connected ++ [m.nextServer])
    refine ⟨u, m.nextServer :: ids, ?_, hu, ?_, ?_⟩
    · rw [turn, result, List.append_assoc]
      rfl
    · rw [list, servers, List.append_assoc]
      rfl
    · rw [all, records, next, List.append_assoc]
      rfl

/-- A name that is taken stops the daemon. -/
theorem restoreServers_none (sql : Sqlite) (db : Database) {rows : List (Nat × ServerRow)}
    (hm : m.Sound)
    (clash : ¬((∀ row ∈ rows, some row.2.name ∉ m.names) ∧
      (rows.map fun row => row.2.name).Nodup)) (connected : List ServerId) :
    restoreServers env sql db rows m connected = none := by
  induction rows generalizing m connected with
  | nil => exact absurd ⟨by simp, List.nodup_nil⟩ clash
  | cons row rows ih =>
    cases found : m.find row.2.name with
    | some server =>
      have taken : (m.find row.2.name).isSome := by
        rw [found]
        rfl
      exact restoreServers_taken sql db taken rows connected
    | none =>
      obtain ⟨w, turn, hw, -, -, records⟩ := restoreServers_cons sql db row hm found
      rw [turn]
      apply ih hw
      rintro ⟨free, distinct⟩
      have names : w.names = m.names ++ [some row.2.name] := by
        rw [ServerManager.names, records, List.map_append]
        rfl
      rw [names] at free
      apply clash
      constructor
      · intro other listed
        rcases List.mem_cons.mp listed with rfl | later
        · exact (find_none_iff other.2.name).mp found
        · intro there
          exact free other later (List.mem_append_left _ there)
      · apply List.nodup_cons.mpr
        refine ⟨?_, distinct⟩
        intro there
        obtain ⟨other, later, twice⟩ := List.mem_map.mp there
        exact free other later (List.mem_append_right _ (by simp [twice]))

/-- A start succeeds on a database whose names are distinct, and brings back
its rows. -/
theorem init_some (env : Environment) (sql : Sqlite) {db : Database} (distinct : db.names.Nodup) :
    ∃ u, init env sql db = some (u, u.servers) ∧ u.Sound ∧
      u.records = (db.records env sql).map some := by
  obtain ⟨u, ids, result, hu, servers, records⟩ := restoreServers_some env sql db
    (m := {}) init_sound (fun _ _ there => by cases there) distinct []
  refine ⟨u, ?_, hu, ?_⟩
  · rw [servers]
    exact result
  · rw [records, Database.records, List.map_map]
    rfl

theorem init_none (env : Environment) (sql : Sqlite) {db : Database} (twice : ¬ db.names.Nodup) :
    init env sql db = none :=
  restoreServers_none sql db (m := {}) init_sound (fun all => twice all.2) []

/-- A start fails on any other database: the loop uses the null pointer. -/
theorem init_isSome (env : Environment) (sql : Sqlite) (db : Database) :
    (init env sql db).isSome ↔ db.names.Nodup := by
  constructor
  · intro starts
    by_contra twice
    rw [init_none env sql twice] at starts
    cases starts
  · intro distinct
    obtain ⟨u, start, -⟩ := init_some env sql distinct
    rw [start]
    rfl

/-- What a start that succeeds has made. -/
theorem init_made {sql : Sqlite} {db : Database} {connected : List ServerId}
    (start : init env sql db = some (m, connected)) :
    db.names.Nodup ∧ m.Sound ∧ connected = m.servers ∧
      m.records = (db.records env sql).map some := by
  have distinct : db.names.Nodup := by
    rw [← init_isSome env sql, start]
    rfl
  obtain ⟨u, start', hu, records⟩ := init_some env sql distinct
  obtain ⟨rfl, rfl⟩ := Prod.mk.inj (Option.some.inj (start.symm.trans start'))
  exact ⟨distinct, hu, rfl, records⟩

end Persistor

end Morgoth
