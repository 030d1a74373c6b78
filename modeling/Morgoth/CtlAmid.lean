import Morgoth.Ctl
import Morgoth.Offers

/-!
# The commands amid what others do

The daemon goes on between the requests of a command, and other clients ask it for
other things.

* `set_then_get`, `config_amid`, `add_amid`, `remove_amid`: what the commands do as long
  as others leave alone what they are about.
-/

namespace Morgoth

open Bus (serve)
open QString (size)

section
variable {α : Type} {env : Environment} {name : String} {b : Bus} {others : Bus → Bus → Prop}
  {post : α → Bus → Prop} {P : Bus → Prop}

/-- The requests that the commands begin with, for a server that is listed. -/
theorem ensures_server (server : String) (stable : ∀ s t, P s → others s t → P t) (start : P b)
    (found : ∀ t, P t → name ∈ t.manager.serverNames ∧ t.manager.serverPath name = server)
    {missing : Dialogue Request Request.Answer α}
    {next : String → Dialogue Request Request.Answer α}
    (rest : ∀ t, P t → (next server).Ensures (serve env) others post t) :
    Dialogue.Ensures (serve env) others post
      (Dialogue.ask .servers fun (servers : List String) =>
        if name ∉ servers then missing else Dialogue.ask (.serverPath name) next) b := by
  refine Dialogue.ensures_ask stable start fun t ht => ?_
  have there : ¬ name ∉ (serve env .servers t).1 := not_not.mpr (found t ht).1
  rw [if_neg there]
  refine Dialogue.ensures_known stable ht server (fun u hu => ?_) rest
  exact Prod.ext (found u hu).2 rfl

end

/-! ## config -/

namespace ConfigCommand

open QTextStream (right widest)

variable {env : Environment} {name key value : String} {b u : Bus} {server : ServerId}

/-- Others neither remove the server nor set one of the values. -/
def Spares (env : Environment) (name : String) (keys : String → Prop) (b u : Bus) : Prop :=
  ∃ e : ManagerEvent, b.step env e = some u ∧ e ≠ .remove name ∧
    ∀ server key value, keys key → b.manager.find name = some server →
      e ≠ .server server (.setValue key value)

/-- The server is there and has the value. -/
def Has (name key value : String) (b : Bus) : Prop :=
  ∃ server s, b.Offers name server s ∧ s.record.value key = value

/-- The server is there, with this configuration. -/
def Holds (name : String) (server : ServerId) (c : ServerConfiguration) (b : Bus) : Prop :=
  ∃ s, b.Offers name server s ∧ s.configuration = some c

/-- Others leave its configuration alone, or set another value. -/
theorem spared_offers {keys : String → Prop} {s : Server} (hb : b.Offers name server s)
    (spares : Spares env name keys b u) :
    ∃ t, u.Offers name server t ∧ (t.configuration = s.configuration ∨
      ∃ other value, ¬ keys other ∧ t = s.setValue other value) := by
  obtain ⟨e, hu, kept, unset⟩ := spares
  obtain ⟨t, offers, -⟩ := Bus.step_offers hb hu kept
  refine ⟨t, offers, ?_⟩
  obtain ⟨m, moves, rfl⟩ := Option.map_eq_some_iff.mp hu
  have hm := hb.orderly.sound.manager
  have effect := ServerManager.step_effect hm.fresh moves
  rcases ServerManager.effect_configuration hm effect hb.there offers.there with
    same | ⟨other, value, rfl, set⟩
  · exact .inl same
  · exact .inr ⟨other, value, fun spared => unset server other value spared hb.found rfl, set⟩

theorem setValue_value {s : Server} (hs : s.HasKeys) (key value : String) :
    (s.setValue key value).record.value = Function.update s.record.value key value := by
  obtain ⟨c, hc, -⟩ := hs
  rw [Server.setValue_record s key value (by rw [hc]; rfl)]

theorem has_spared (b u : Bus) (hb : Has name key value b) (spares : Spares env name (· = key) b u) :
    Has name key value u := by
  obtain ⟨server, s, offers, rfl⟩ := hb
  obtain ⟨t, offers', same | ⟨other, value, apart, rfl⟩⟩ := spared_offers offers spares
  · refine ⟨server, t, offers', ?_⟩
    simp only [Server.record, same]
  · refine ⟨server, _, offers', ?_⟩
    rw [setValue_value (offers.orderly.configured server s offers.there)]
    exact Function.update_of_ne (fun same => apart same.symm) _ _

theorem holds_spared {c : ServerConfiguration} (b u : Bus) (hb : Holds name server c b)
    (spares : Spares env name (fun _ => True) b u) : Holds name server c u := by
  obtain ⟨s, offers, hc⟩ := hb
  obtain ⟨t, offers', same | ⟨other, value, unspared, -⟩⟩ := spared_offers offers spares
  · exact ⟨t, offers', same.trans hc⟩
  · exact absurd trivial unspared

theorem pathless_spared {keys : String → Prop} (b u : Bus) (hb : b.Pathless name)
    (spares : Spares env name keys b u) : u.Pathless name := by
  obtain ⟨e, hu, kept, -⟩ := spares
  exact Bus.step_pathless hb hu kept

/-! ### What clients find -/

/-- The server is listed, and clients find it and its configuration at these paths. -/
structure Found (env : Environment) (name path configuration : String) (b : Bus) : Prop where
  listed : name ∈ b.manager.serverNames
  named : b.manager.serverPath name = path
  configured : (serve env (.configurationPath path) b).1 = configuration

theorem offers_found {s : Server} (hb : b.Offers name server s) :
    Found env name (objectPath ("/servers/" ++ name))
      (objectPath ("/servers/" ++ name ++ "/configuration")) b where
  listed := hb.listed
  named := hb.serverPath
  configured := by simp [serve, hb.serverAt, Server.configurationPath, hb.named]

theorem has_found (b : Bus) (hb : Has name key value b) :
    Found env name (objectPath ("/servers/" ++ name))
      (objectPath ("/servers/" ++ name ++ "/configuration")) b := by
  obtain ⟨server, s, offers, -⟩ := hb
  exact offers_found offers

theorem holds_found {c : ServerConfiguration} (b : Bus) (hb : Holds name server c b) :
    Found env name (objectPath ("/servers/" ++ name))
      (objectPath ("/servers/" ++ name ++ "/configuration")) b := by
  obtain ⟨s, offers, -⟩ := hb
  exact offers_found offers

theorem pathless_found (b : Bus) (hb : b.Pathless name) : Found env name "" "" b where
  listed := hb.listed
  named := hb.serverPath
  configured := by simp [serve, Bus.serverAt, hb.orderly.nowhere]

/-- The requests before the one that the command is about. -/
theorem ensures_perform {others : Bus → Bus → Prop} {post : Option CommandResult → Bus → Prop}
    {P : Bus → Prop} {path configuration : String} (stable : ∀ s t, P s → others s t → P t)
    (start : P b) (found : ∀ t, P t → Found env name path configuration t) {rest : List String}
    (performs : ∀ t, P t → (perform configuration (serve env (.keys configuration) t).1 rest).Ensures
      (serve env) others post t) :
    (execute (name :: rest)).Ensures (serve env) others post b := by
  refine ensures_server path stable start (fun t ht => ⟨(found t ht).listed, (found t ht).named⟩)
    fun t ht => ?_
  refine Dialogue.ensures_known stable ht configuration (fun u hu => ?_) fun u hu => ?_
  · exact Prod.ext (found u hu).configured rfl
  · exact Dialogue.ensures_ask stable hu performs

/-! ### One value -/

/-- What a request for the value is answered. -/
theorem value_has (hb : Has name key value b) :
    (serve env (.value (objectPath ("/servers/" ++ name ++ "/configuration")) key) b).1 =
      value := by
  obtain ⟨server, s, offers, holds⟩ := hb
  simpa [serve, Bus.configurationAt, offers.configured, offers.there, Server.record] using holds

/-- What a request that sets the value leaves. -/
theorem setValue_has {old : String} (hb : Has name key old b) :
    Has name key value (serve env
      (.setValue (objectPath ("/servers/" ++ name ++ "/configuration")) key value) b).2 := by
  obtain ⟨server, s, offers, -⟩ := hb
  have moves := Bus.step_setValue env offers.there key value
  have set : serve env (.setValue (objectPath ("/servers/" ++ name ++ "/configuration")) key value) b =
      ((), { b with manager := b.manager.reach server fun s => s.setValue key value }) := by
    simp [serve, offers.configured, moves]
  obtain ⟨t, offers', -⟩ := Bus.step_offers offers moves (by simp)
  have after : (b.manager.reach server fun s => s.setValue key value).heap server =
      some (s.setValue key value) := by
    simp [ServerManager.reach, offers.there]
  obtain rfl := Option.some.inj (offers'.there.symm.trans after)
  rw [set]
  refine ⟨server, _, offers', ?_⟩
  rw [setValue_value (offers.orderly.configured server s offers.there)]
  exact Function.update_self ..

theorem get_ensures (env : Environment) (hb : Has name key value b) :
    (execute [name, key]).Ensures (serve env) (Spares env name (· = key))
      (fun r u => r = some { out := [value ++ "\n"] } ∧ Has name key value u) b := by
  refine ensures_perform has_spared hb has_found fun t ht => ?_
  refine Dialogue.ensures_known has_spared ht value
    (fun u hu => Prod.ext (value_has hu) rfl) fun u hu => ?_
  exact Dialogue.ensures_done has_spared hu fun v hv => ⟨rfl, hv⟩

theorem set_ensures (env : Environment) (value : String) {old : String} (hb : Has name key old b) :
    (execute [name, key, value]).Ensures (serve env) (Spares env name (· = key))
      (fun r u => r = some {} ∧ Has name key value u) b := by
  refine ensures_perform has_spared hb has_found fun t ht => ?_
  refine Dialogue.ensures_ask has_spared ht fun u hu => ?_
  exact Dialogue.ensures_done has_spared (setValue_has hu) fun v hv => ⟨rfl, hv⟩

/-- A line of the list. -/
def entry (padding : Nat) (c : ServerConfiguration) (key : String) : String :=
  right padding key ++ ": " ++ c.value key ++ "\n"

theorem list_ensures (env : Environment) {c : ServerConfiguration} (hb : Holds name server c b)
    (some_key : c.keys ≠ []) :
    (execute [name]).Ensures (serve env) (Spares env name fun _ => True)
      (fun r u => (∃ padding, r = some { out := c.keys.map (entry padding c) } ∧
        ∀ key ∈ c.keys, size (right padding key) = padding) ∧ Holds name server c u) b := by
  refine ensures_perform holds_spared hb holds_found fun t ht => ?_
  have at_path (u : Bus) (hu : Holds name server c u) :
      u.configurationAt (objectPath ("/servers/" ++ name ++ "/configuration")) = some c := by
    obtain ⟨s, offers, hc⟩ := hu
    simp [Bus.configurationAt, offers.configured, offers.there, hc]
  have keys : (serve env (.keys (objectPath ("/servers/" ++ name ++ "/configuration"))) t).1 =
      c.keys := by
    simp [serve, at_path t ht]
  obtain ⟨padding, wide⟩ : ∃ padding, widest c.keys = some padding :=
    Option.ne_none_iff_exists'.mp (mt QTextStream.widest_eq_none.mp some_key)
  simp only [keys, perform, list, wide]
  rw [Dialogue.ensures_bind]
  refine (Dialogue.ensures_forEach (entry padding c) holds_spared (fun key _ t ht => ?_) ht).mono
    fun out u there => ?_
  · refine Dialogue.ensures_known holds_spared ht (c.value key) (fun u hu => ?_)
      fun u hu => Dialogue.ensures_done holds_spared hu fun v hv => ⟨?_, hv⟩
    · simp [serve, at_path u hu]
    · rfl
  · obtain ⟨printed, hu⟩ := there
    refine Dialogue.ensures_done holds_spared hu fun v hv => ⟨⟨padding, ?_, ?_⟩, hv⟩
    · rw [printed]
    · intro key listed
      rw [QTextStream.size_right]
      exact max_eq_left (QTextStream.size_le_widest wide listed)

theorem list_pathless (env : Environment) (hb : b.Pathless name) :
    (execute [name]).Ensures (serve env) (Spares env name fun _ => True)
      (fun r _ => r = none) b := by
  refine ensures_perform pathless_spared hb pathless_found fun t ht => ?_
  have keys : (serve env (.keys "") t).1 = [] := by
    simp [serve, Bus.configurationAt, Bus.configured, ht.orderly.nowhere]
  rw [keys]
  exact Dialogue.ensures_done pathless_spared ht fun _ _ => rfl

/-- The whole configuration is printed in columns, as long as others neither remove the
server nor set a value. Where the name makes no path, the command looks for the longest
of no keys. -/
theorem config_amid {r : Option CommandResult} (hb : b.Orderly)
    (found : b.manager.find name = some server)
    (ends : (execute [name]).Amid (serve env) (Spares env name fun _ => True) b r u) :
    (∀ s c, b.Offers name server s → s.configuration = some c →
      ∃ padding, r = some { out := c.keys.map (entry padding c) } ∧
        ∀ key ∈ c.keys, size (right padding key) = padding) ∧
    (validPath ("/servers/" ++ name) = false → r = none) := by
  constructor
  · intro s c offers hc
    obtain ⟨c', hc', some_key⟩ := hb.configured server s offers.there
    obtain rfl := Option.some.inj (hc'.symm.trans hc)
    exact ((Dialogue.ensures_iff _).mp (list_ensures env ⟨s, offers, hc⟩ some_key) r u ends).1
  · intro invalid
    exact (Dialogue.ensures_iff _).mp (list_pathless env ⟨hb, ⟨server, found⟩, invalid⟩) r u ends

/-- Others add a server before the first request. -/
theorem config_amid_sample :
    (∃ padding, ((execute ["tf2"]).alone (serve .ideal) Bus.second).1 =
      some { out := ServerConfiguration.default.keys.map (entry padding .default) }) ∧
    ((execute ["my-fancy-server"]).alone (serve .ideal) Bus.fancy).1 = none := by
  constructor
  · obtain ⟨s, offers, -⟩ := Bus.sample_offers
    have there : Bus.sample.manager.heap 0 = some _ := rfl
    obtain rfl := Option.some.inj (there.symm.trans offers.there)
    have spares : Spares .ideal "tf2" (fun _ => True) Bus.sample Bus.second :=
      ⟨_, Bus.sample_second, by simp, by simp⟩
    obtain ⟨padding, printed, -⟩ := (config_amid offers.orderly offers.found
      (.earlier (.single spares) (Dialogue.alone_amid (serve .ideal) _ Bus.second))).1 _
        .default offers rfl
    exact ⟨padding, printed⟩
  · exact (config_amid Bus.fancy_orderly Bus.fancy_found
      (Dialogue.alone_amid (serve .ideal) _ Bus.fancy)).2 (by decide)

end ConfigCommand

/-! ## add -/

namespace AddCommand

variable {env : Environment} {toUrl : String → QUrl} {name path : String} {b u : Bus}
  {server : ServerId} {dir : QUrl}

/-- Others neither bring nor remove a server of the name. -/
def Spares (env : Environment) (name : String) (b u : Bus) : Prop :=
  ∃ e : ManagerEvent, b.step env e = some u ∧ e ≠ .remove name ∧
    ∀ s, ServerManager.brought env b.manager e = some s → s.name ≠ name

/-- The server has the name, and is at the path. -/
def Taken (name : String) (server : ServerId) (dir : QUrl) (b : Bus) : Prop :=
  b.Orderly ∧ b.manager.find name = some server ∧
    ∃ s, b.manager.heap server = some s ∧ s.path = dir

theorem free_spared (b u : Bus) (hb : b.Free name) (spares : Spares env name b u) :
    u.Free name := by
  obtain ⟨e, hu, -, unnamed⟩ := spares
  exact Bus.step_free hb hu unnamed

theorem step_taken (hb : Taken name server dir b) {e : ManagerEvent} (hu : b.step env e = some u)
    (kept : e ≠ .remove name) : Taken name server dir u := by
  obtain ⟨orderly, found, s, there, rfl⟩ := hb
  obtain ⟨t, after, how⟩ := Bus.step_there orderly hu found there
  refine ⟨Bus.step_orderly orderly hu, Bus.step_found orderly hu found kept, t, after, ?_⟩
  rcases how with rfl | ⟨event, steps⟩
  · rfl
  · exact (Server.step_frame steps).2.1

theorem taken_spared (b u : Bus) (hb : Taken name server dir b) (spares : Spares env name b u) :
    Taken name server dir u := by
  obtain ⟨e, hu, kept, -⟩ := spares
  exact step_taken hb hu kept

/-- The request to add it, where the name is free. -/
theorem adds (env : Environment) (path : QUrl) (hb : b.Free name) :
    (serve env (.add path name) b).1 = true ∧ ∃ server,
      Taken name server (ServerManager.fixedPath env server path)
        (serve env (.add path name) b).2 := by
  obtain ⟨orderly, free⟩ := hb
  obtain ⟨u, hu⟩ : ∃ u, b.step env (.add path name) = some u := ⟨_, rfl⟩
  have after : (serve env (.add path name) b).2 = u := by simp [serve, hu]
  have accepted := ServerManager.add_free env orderly.sound.manager.fresh free path
  refine ⟨by simp [serve, accepted], b.manager.nextServer, ?_⟩
  rw [after]
  obtain ⟨found, there⟩ := Bus.step_finds_new orderly (e := .add path name) rfl free hu
  exact ⟨Bus.step_orderly orderly hu, found, _, there, rfl⟩

/-- The request where it is not. -/
theorem refuses (env : Environment) (path : QUrl) (hb : Taken name server dir b) :
    (serve env (.add path name) b).1 = false ∧
      Taken name server dir (serve env (.add path name) b).2 := by
  obtain ⟨u, hu⟩ : ∃ u, b.step env (.add path name) = some u := ⟨_, rfl⟩
  have after : (serve env (.add path name) b).2 = u := by simp [serve, hu]
  have refused := ServerManager.add_taken env (show (b.manager.find name).isSome by rw [hb.2.1]; rfl)
    path
  refine ⟨by simp [serve, refused], ?_⟩
  rw [after]
  exact step_taken hb hu (by simp)

/-- The command adds the server, or finds that there is one of its name, and leaves that
one as it is; its exit code says which. -/
theorem add_amid {r : Option CommandResult} (hb : b.Orderly)
    (ends : (execute toUrl [name, path]).Amid (serve env) (Spares env name) b r u) :
    (b.manager.find name = none → r = some {} ∧ ∃ server,
      Taken name server (ServerManager.fixedPath env server (toUrl path)) u) ∧
    ∀ server dir, Taken name server dir b → r = some { code := 2 } ∧ Taken name server dir u := by
  constructor
  · intro free
    suffices ensures : (execute toUrl [name, path]).Ensures (serve env) (Spares env name)
        (fun r u => r = some {} ∧ ∃ server,
          Taken name server (ServerManager.fixedPath env server (toUrl path)) u) b from
      (Dialogue.ensures_iff _).mp ensures r u ends
    refine Dialogue.ensures_ask free_spared ⟨hb, free⟩ fun t ht => ?_
    obtain ⟨answer, server, there⟩ := adds env (toUrl path) ht
    rw [answer]
    exact Dialogue.ensures_done taken_spared there fun v hv => ⟨rfl, server, hv⟩
  · intro server dir taken
    suffices ensures : (execute toUrl [name, path]).Ensures (serve env) (Spares env name)
        (fun r u => r = some { code := 2 } ∧ Taken name server dir u) b from
      (Dialogue.ensures_iff _).mp ensures r u ends
    refine Dialogue.ensures_ask taken_spared taken fun t ht => ?_
    obtain ⟨answer, there⟩ := refuses env (toUrl path) ht
    rw [answer]
    exact Dialogue.ensures_done taken_spared there fun v hv => ⟨rfl, hv⟩

/-- A new name, where others set a value before the request, and one that is taken, where
they add another server. -/
theorem add_amid_sample :
    ((execute (fun text => { path := text }) ["css", "/srv/css"]).alone (serve .ideal) Bus.told).1 =
      some {} ∧
    ((execute (fun text => { path := text }) ["tf2", "/srv/css"]).alone (serve .ideal)
      Bus.second).1 = some { code := 2 } := by
  have orderly := Bus.sample_complete.orderly
  constructor
  · have spares : Spares .ideal "css" Bus.sample Bus.told := by
      refine ⟨_, Bus.sample_told, by simp, fun s brings => ?_⟩
      cases brings
    exact ((add_amid orderly (.earlier (.single spares)
      (Dialogue.alone_amid (serve .ideal) _ Bus.told))).1 rfl).1
  · have spares : Spares .ideal "tf2" Bus.sample Bus.second := by
      refine ⟨_, Bus.sample_second, by simp, fun s brings => ?_⟩
      obtain rfl := Option.some.inj brings
      decide
    have ends := add_amid orderly (.earlier (.single spares) (Dialogue.alone_amid (serve .ideal)
      (execute (fun text => { path := text }) ["tf2", "/srv/css"]) Bus.second))
    exact (ends.2 0 _ ⟨orderly, rfl, _, rfl, rfl⟩).1

end AddCommand

/-! ## remove -/

namespace RemoveCommand

variable {env : Environment} {name : String} {b u : Bus} {server : ServerId}

/-- A valid server of the name is running. -/
def Runs (name : String) (b : Bus) : Prop :=
  ∃ server s, b.manager.find name = some server ∧ b.manager.heap server = some s ∧
    s.valid = true ∧ s.state = .running

/-- Others neither remove nor add a server of the name, nor does it come up or go down. -/
def Spares (env : Environment) (name : String) (b u : Bus) : Prop :=
  ∃ e : ManagerEvent, b.step env e = some u ∧ e ≠ .remove name ∧
    (∀ s, ServerManager.brought env b.manager e = some s → s.name ≠ name) ∧
    (Runs name b ↔ Runs name u)

theorem runs_found {s : Server} (found : b.manager.find name = some server)
    (there : b.manager.heap server = some s) :
    Runs name b ↔ s.valid = true ∧ s.state = .running := by
  constructor
  · rintro ⟨t, s', found', there', up⟩
    obtain rfl := Option.some.inj (found.symm.trans found')
    obtain rfl := Option.some.inj (there.symm.trans there')
    exact up
  · exact fun up => ⟨server, s, found, there, up⟩

theorem runs_offered {s : Server} (hb : b.Offers name server s) :
    Runs name b ↔ s.valid = true ∧ s.state = .running := runs_found hb.found hb.there

theorem not_runs_free (free : b.manager.find name = none) : ¬ Runs name b := by
  rintro ⟨server, s, found, -⟩
  rw [free] at found
  cases found

/-- There is one, which is running or is not. -/
def Stays (name : String) (server : ServerId) (valid : Bool) (runs : Prop) (b : Bus) : Prop :=
  ∃ s, b.Offers name server s ∧ s.valid = valid ∧ (Runs name b ↔ runs)

theorem free_spared (b u : Bus) (hb : b.Free name) (spares : Spares env name b u) :
    u.Free name := by
  obtain ⟨e, hu, -, unnamed, -⟩ := spares
  exact Bus.step_free hb hu unnamed

theorem stays_spared {valid : Bool} {runs : Prop} (b u : Bus) (hb : Stays name server valid runs b)
    (spares : Spares env name b u) : Stays name server valid runs u := by
  obtain ⟨s, offers, rfl, up⟩ := hb
  obtain ⟨e, hu, kept, -, same⟩ := spares
  obtain ⟨t, offers', how⟩ := Bus.step_offers offers hu kept
  refine ⟨t, offers', ?_, same.symm.trans up⟩
  rcases how with rfl | ⟨event, steps⟩
  · rfl
  · exact (Server.step_frame steps).1

theorem pathless_spared (b u : Bus) (hb : b.Pathless name) (spares : Spares env name b u) :
    u.Pathless name := by
  obtain ⟨e, hu, kept, -⟩ := spares
  exact Bus.step_pathless hb hu kept

/-- The request to remove it. -/
theorem removes (env : Environment) (hb : b.Orderly) (found : b.manager.find name = some server) :
    (serve env (.remove name) b).1 = true ∧ (serve env (.remove name) b).2.Free name := by
  obtain ⟨u, hu⟩ : ∃ u, b.step env (.remove name) = some u := ⟨_, rfl⟩
  have after : (serve env (.remove name) b).2 = u := by simp [serve, hu]
  refine ⟨by simp [serve, ServerManager.remove, found], ?_⟩
  rw [after]
  exact Bus.step_removed hb hu

theorem removed_ensures {P : Bus → Prop} (stable : ∀ s t, P s → Spares env name s t → P t)
    (start : P b)
    (there : ∀ t, P t → t.Orderly ∧ ∃ server, t.manager.find name = some server) :
    Dialogue.Ensures (serve env) (Spares env name)
      (fun r u => r = some {} ∧ u.manager.find name = none)
      (Dialogue.ask (.remove name) fun (ret : Bool) => exits [] (if ret then 0 else 4)) b := by
  refine Dialogue.ensures_ask stable start fun u hu => ?_
  obtain ⟨orderly, server, found⟩ := there u hu
  obtain ⟨answer, gone⟩ := removes env orderly found
  rw [answer]
  exact Dialogue.ensures_done free_spared gone fun v hv => ⟨rfl, hv.2⟩

theorem missing_ensures (rest : List String) (hb : b.Free name) :
    (execute (name :: rest)).Ensures (serve env) (Spares env name)
      (fun r u => r = some { out := ["Server \"" ++ name ++ "\" does not exist.\n"], code := 2 } ∧
        u.Free name) b := by
  refine Dialogue.ensures_ask free_spared hb fun t ht => ?_
  have unlisted : name ∉ (serve env .servers t).1 := by
    change name ∉ t.manager.serverNames
    rw [Bus.orderly_listed ht.1, ht.2]
    exact Bool.false_ne_true
  rw [if_pos unlisted]
  exact Dialogue.ensures_done free_spared ht fun u hu => ⟨rfl, hu⟩

/-- Without a path, nobody looks whether the server is running. -/
theorem pathless_ensures (rest : List String) (hb : b.Pathless name) :
    (execute (name :: rest)).Ensures (serve env) (Spares env name)
      (fun r u => r = some {} ∧ u.manager.find name = none) b := by
  refine ensures_server "" pathless_spared hb (fun t ht => ⟨ht.listed, ht.serverPath⟩)
    fun t ht => ?_
  refine Dialogue.ensures_known pathless_spared ht false (fun u hu => hu.orderly.serve_valid)
    fun u hu => ?_
  exact removed_ensures pathless_spared hu fun v hv => ⟨hv.orderly, hv.found⟩

/-- What becomes of a server that is running, or is not. -/
def Ends (name : String) (server : ServerId) (runs : Prop) (r : Option CommandResult) (u : Bus) :
    Prop :=
  (runs → r = some { out := ["Server \"" ++ name ++ "\" is currently running.\n"], code := 3 } ∧
    u.manager.find name = some server) ∧
  (¬ runs → r = some {} ∧ u.manager.find name = none)

theorem offered_ensures {valid : Bool} {runs : Prop} (rest : List String)
    (hb : Stays name server valid runs b) :
    (execute (name :: rest)).Ensures (serve env) (Spares env name) (Ends name server runs) b := by
  have removed (down : ¬ runs) {t : Bus} (ht : Stays name server valid runs t) :
      Dialogue.Ensures (serve env) (Spares env name) (Ends name server runs)
        (Dialogue.ask (.remove name) fun (ret : Bool) => exits [] (if ret then 0 else 4)) t := by
    refine (removed_ensures stays_spared ht fun u hu => ?_).mono fun r u gone => ?_
    · obtain ⟨s, offers, -⟩ := hu
      exact ⟨offers.orderly, server, offers.found⟩
    · exact ⟨fun up => absurd up down, fun _ => gone⟩
  refine ensures_server (objectPath ("/servers/" ++ name)) stays_spared hb (fun t ht => ?_)
    fun t ht => ?_
  · obtain ⟨s, offers, -⟩ := ht
    exact ⟨offers.listed, offers.serverPath⟩
  refine Dialogue.ensures_known stays_spared ht valid (fun u hu => ?_) fun u hu => ?_
  · obtain ⟨s, offers, rfl, -⟩ := hu
    exact offers.serve_valid
  cases valid with
  | false =>
    obtain ⟨s, offers, invalid, same⟩ := id hu
    refine removed (fun up => ?_) hu
    have valid := ((runs_offered offers).mp (same.mpr up)).1
    rw [invalid] at valid
    cases valid
  | true =>
    rw [if_pos rfl]
    refine Dialogue.ensures_known stays_spared hu
      (objectPath ("/servers/" ++ name ++ "/coordinator")) (fun v hv => ?_) fun v hv => ?_
    · obtain ⟨s, offers, valid, -⟩ := hv
      exact offers.serve_coordinatorPath valid
    refine Dialogue.ensures_ask stays_spared hv fun w hw => ?_
    obtain ⟨s, offers, valid, same⟩ := id hw
    have running : (serve env (.state (objectPath ("/servers/" ++ name ++ "/coordinator"))) w).1 =
        .running ↔ runs := by
      rw [← same, runs_offered offers, offers.serve_state valid]
      simp [valid]
    by_cases up : runs
    · rw [if_pos (running.mpr up)]
      refine Dialogue.ensures_done stays_spared hw fun v hv => ?_
      obtain ⟨s, offers, -⟩ := hv
      exact ⟨fun _ => ⟨rfl, offers.found⟩, fun down => absurd up down⟩
    · rw [if_neg (mt running.mp up)]
      exact removed up hw

/-- The command acts at one moment, as it were: as long as others neither bring nor
remove a server of the name, and it neither comes up nor goes down, it says that there is
none, says that it runs, or removes it, and says so by its exit code. A server whose name
makes no path is removed even if it runs. -/
theorem remove_amid {r : Option CommandResult} (rest : List String) (hb : b.Orderly)
    (ends : (execute (name :: rest)).Amid (serve env) (Spares env name) b r u) :
    (b.manager.find name = none →
      r = some { out := ["Server \"" ++ name ++ "\" does not exist.\n"], code := 2 } ∧
      u.manager.find name = none) ∧
    (∀ server s, b.Offers name server s →
      Ends name server (s.valid = true ∧ s.state = .running) r u) ∧
    ∀ server, b.manager.find name = some server → validPath ("/servers/" ++ name) = false →
      r = some {} ∧ u.manager.find name = none := by
  refine ⟨fun free => ?_, fun server s offers => ?_, fun server found invalid => ?_⟩
  · obtain ⟨result, -, gone⟩ :=
      (Dialogue.ensures_iff _).mp (missing_ensures rest ⟨hb, free⟩) r u ends
    exact ⟨result, gone⟩
  · exact (Dialogue.ensures_iff _).mp
      (offered_ensures rest ⟨s, offers, rfl, runs_offered offers⟩) r u ends
  · exact (Dialogue.ensures_iff _).mp
      (pathless_ensures rest ⟨hb, ⟨server, found⟩, invalid⟩) r u ends

/-- Others add a server before the first request. -/
theorem remove_amid_sample :
    ((execute ["tf2"]).alone (serve .ideal) Bus.second).1 = some {} ∧
    ((execute ["css"]).alone (serve .ideal) Bus.told).1 =
      some { out := ["Server \"" ++ "css" ++ "\" does not exist.\n"], code := 2 } ∧
    ((execute ["my-fancy-server"]).alone (serve .ideal) Bus.fancy).1 = some {} := by
  have orderly := Bus.sample_complete.orderly
  refine ⟨?_, ?_, ?_⟩
  · obtain ⟨s, offers, -, offline⟩ := Bus.sample_offers
    have spares : Spares .ideal "tf2" Bus.sample Bus.second := by
      refine ⟨_, Bus.sample_second, by simp, fun s brings => ?_, ?_⟩
      · obtain rfl := Option.some.inj brings
        decide
      · have before : Bus.sample.manager.heap 0 = some _ := rfl
        have after : Bus.second.manager.heap 0 = some _ := rfl
        rw [runs_found rfl before, runs_found rfl after]
    have ends := remove_amid [] orderly (.earlier (.single spares)
      (Dialogue.alone_amid (serve .ideal) (execute ["tf2"]) Bus.second))
    refine ((ends.2.1 0 s offers).2 fun up => ?_).1
    rw [offline] at up
    cases up.2
  · have spares : Spares .ideal "css" Bus.sample Bus.told := by
      refine ⟨_, Bus.sample_told, by simp, fun s brings => ?_, ?_⟩
      · cases brings
      · exact iff_of_false (not_runs_free rfl) (not_runs_free rfl)
    exact ((remove_amid [] orderly (.earlier (.single spares)
      (Dialogue.alone_amid (serve .ideal) _ Bus.told))).1 rfl).1
  · have ends := remove_amid [] Bus.fancy_orderly
      (Dialogue.alone_amid (serve .ideal) (execute ["my-fancy-server"]) Bus.fancy)
    exact (ends.2.2 0 Bus.fancy_found (by decide)).1

end RemoveCommand

end Morgoth
