import Morgoth.CtlAmid
import Morgoth.Service

/-!
# What clients set outlives the daemon

The commands against a daemon that stores what it is told, and may be killed.

* `power_has`: a value that a client would read is the one that it would read after an
  event, and after a kill;
* `set_lasts`: so a value that a command has set is printed by a later one.
-/

namespace Morgoth

open ConfigCommand (Has)
open Daemon (PowerEvent)

namespace Service

/-! ## Requests -/

/-- The turn of the event loop that a request is, if it changes anything. -/
def turn (b : Bus) : Request → Option ManagerEvent
  | .add path name => some (.add path name)
  | .remove serverName => some (.remove serverName)
  | .setValue configuration key value => (b.configured configuration).map fun server =>
    .server server (.setValue key value)
  | _ => none

/-- A call that arrives, and what it is answered. No statement of the slots that it runs
fails. -/
def serve (env : Environment) (sql : Sqlite) (r : Request) (s : Service) : r.Answer × Service :=
  ((s.bus.serve env r).1,
    ((turn s.bus r).bind fun e => s.step env sql (.turn e fun _ => false)).getD s)

variable {env : Environment} {sql : Sqlite} {s u v w : Service} {name key value : String}

theorem step_getD_bus (env : Environment) (sql : Sqlite) (s : Service) (e : ManagerEvent) :
    ((s.step env sql (.turn e fun _ => false)).getD s).bus = (s.bus.step env e).getD s.bus := by
  rw [← step_map_bus env sql s e fun _ => false]
  cases s.step env sql (.turn e fun _ => false) <;> rfl

/-- Clients are answered as they would be without the database. -/
theorem serve_bus (r : Request) (s : Service) :
    Bus.serve env r s.bus = ((serve env sql r s).1, (serve env sql r s).2.bus) := by
  refine Prod.ext rfl ?_
  cases r with
  | add path name => exact (step_getD_bus env sql s (.add path name)).symm
  | remove serverName => exact (step_getD_bus env sql s (.remove serverName)).symm
  | setValue configuration key value =>
    cases found : s.bus.configured configuration with
    | none => simp [serve, turn, Bus.serve, found]
    | some server =>
      have set := (step_getD_bus env sql s (.server server (.setValue key value))).symm
      simpa [serve, turn, Bus.serve, found] using set
  | _ => rfl

/-! ## Events -/

/-- Others may do anything but remove the server or set the value, and but stop the
daemon. -/
def Spares (env : Environment) (sql : Sqlite) (name key : String) (s u : Service) : Prop :=
  ∃ e fails, s.step env sql (.turn e fails) = some u ∧
    s.Careful env sql (.event (.turn e fails)) ∧ s.daemon.Leaves name key (.turn e fails)

theorem leaves_spares {e : ManagerEvent} {fails : Nat → Bool}
    (hu : s.step env sql (.turn e fails) = some u)
    (leaves : s.daemon.Leaves name key (.turn e fails)) :
    ConfigCommand.Spares env name (· = key) s.bus u.bus := by
  refine ⟨e, step_bus hu, ?_, ?_⟩
  · rintro rfl
    exact leaves rfl
  · rintro server _ value rfl found rfl
    obtain ⟨-, t, there, named⟩ := ServerManager.find_some found
    rcases leaves t there with other | other
    · exact other named
    · exact other rfl

theorem has_holds (has : Has name key value s.bus) :
    ∃ path, s.daemon.Holds name path key value := by
  obtain ⟨server, t, offers, rfl⟩ := has
  have listed := ServerManager.find_mem offers.found
  have there : s.bus.manager.heap server = some t := offers.there
  refine ⟨t.path, t.record, List.mem_map.mpr ⟨server, listed, ?_⟩, offers.named, rfl, rfl⟩
  exact congrArg (Option.map Server.record) there

/-- Where every server has its objects, clients read what is in the manager. -/
theorem holds_has (sound : s.daemon.Sound) (complete : s.bus.Complete) {path : QUrl}
    (holds : s.daemon.Holds name path key value) : Has name key value s.bus := by
  obtain ⟨record, stored, rfl, -, rfl⟩ := holds
  obtain ⟨server, listed, stored⟩ := List.mem_map.mp stored
  obtain ⟨t, there, rfl⟩ := Option.map_eq_some_iff.mp stored
  have found : s.bus.manager.find t.name = some server :=
    ServerManager.find_listed sound.distinct listed there
  obtain ⟨server', t', offers⟩ := complete.offered t.name
    ((Bus.orderly_listed complete.orderly t.name).mpr (by rw [found]; rfl))
  obtain rfl := Option.some.inj (found.symm.trans offers.found)
  obtain rfl := Option.some.inj (there.symm.trans offers.there)
  exact ⟨server, t, offers, rfl⟩

/-- A value that clients read is the one that they read after any event that is not about
it, and after a kill in any event that is not. -/
theorem power_has (same : env.SameFiles) (hs : s.Healthy env sql) {e : PowerEvent}
    (careful : s.Careful env sql e) (leaves : s.daemon.Leaves name key e.turn)
    (hu : s.power env sql e = some u) (has : Has name key value s.bus) :
    Has name key value u.bus := by
  have healthy := power_healthy same hs careful hu
  cases starts : e.starts with
  | true =>
    obtain ⟨path, holds⟩ := has_holds has
    have kept := Daemon.power_holds same ⟨hs.sound, hs.stored⟩ careful.1 leaves (power_daemon hu) holds
    exact holds_has healthy.sound (power_complete hu starts healthy.plain) kept
  | false =>
    cases e with
    | killed => cases starts
    | event e =>
      cases e with
      | restart => cases starts
      | turn e fails => exact ConfigCommand.has_spared s.bus u.bus has (leaves_spares hu leaves)
      | pluginStatusChanged plugin enabled fails =>
        obtain rfl := Option.some.inj hu
        exact has

/-! ## config -/

/-- The text survives the statements, and SQLite does not take it for a number. -/
def Survives (sql : Sqlite) (text : String) : Prop := Literal text ∧ sql.numeric text = text

/-- The server has the value, and a start would bring it back. -/
def Keeps (env : Environment) (sql : Sqlite) (name key value : String) (s : Service) : Prop :=
  s.Healthy env sql ∧ Has name key value s.bus

theorem spares_keeps (same : env.SameFiles) (s u : Service) (hs : s.Keeps env sql name key value)
    (spares : Spares env sql name key s u) : u.Keeps env sql name key value := by
  obtain ⟨e, fails, hu, careful, leaves⟩ := spares
  exact ⟨power_healthy (e := .event (.turn e fails)) same hs.1 careful hu,
    power_has (e := .event (.turn e fails)) same hs.1 careful leaves hu hs.2⟩

/-- The request that sets the value. -/
theorem setValue_keeps (same : env.SameFiles) (textKey : Survives sql key)
    (textValue : Survives sql value) {old : String} (hs : s.Keeps env sql name key old) :
    (serve env sql (.setValue (objectPath ("/servers/" ++ name ++ "/configuration")) key value)
      s).2.Keeps env sql name key value := by
  obtain ⟨healthy, has⟩ := hs
  constructor
  · obtain ⟨server, t, offers, -⟩ := has
    have moves := Bus.step_setValue env offers.there key value
    rw [← step_map_bus env sql s _ fun _ => false] at moves
    obtain ⟨u, hu, -⟩ := Option.map_eq_some_iff.mp moves
    have turns : (serve env sql
        (.setValue (objectPath ("/servers/" ++ name ++ "/configuration")) key value) s).2 = u := by
      simp [serve, turn, offers.configured, hu]
    rw [turns]
    refine power_healthy (e := .event (.turn (.server server (.setValue key value)) fun _ => false))
      same healthy ⟨⟨?_, fun _ => rfl⟩, ?_⟩ hu
    rotate_left
    · rintro _ ⟨_, brings, -⟩
      cases brings
    intro t' there
    obtain rfl := Option.some.inj (there.symm.trans offers.there)
    have listed := ServerManager.find_mem offers.found
    have plain : plainName t'.name = true := by
      refine healthy.plain t'.name (List.mem_map.mpr ⟨some t'.record, ?_, rfl⟩)
      exact List.mem_map.mpr ⟨server, listed, by rw [offers.there]; rfl⟩
    exact ⟨.inl listed, plain_literal plain, textKey.1, textValue.1, textKey.2, textValue.2⟩
  · have set : Has name key value (Bus.serve env (.setValue
        (objectPath ("/servers/" ++ name ++ "/configuration")) key value) s.bus).2 :=
      ConfigCommand.setValue_has has
    rw [serve_bus] at set
    exact set

/-- The command sets the value, whatever others do meanwhile. -/
theorem set_ensures (same : env.SameFiles) (textKey : Survives sql key)
    (textValue : Survives sql value) {old : String} (hs : s.Keeps env sql name key old) :
    (ConfigCommand.execute [name, key, value]).Ensures (serve env sql) (Spares env sql name key)
      (fun r u => r = some {} ∧ u.Keeps env sql name key value) s := by
  have stable (s t : Service) (hs : s.Keeps env sql name key old) := spares_keeps same s t hs
  have found (t : Service) (ht : t.Keeps env sql name key old) :
      ConfigCommand.Found env name (objectPath ("/servers/" ++ name))
        (objectPath ("/servers/" ++ name ++ "/configuration")) t.bus :=
    ConfigCommand.has_found t.bus ht.2
  refine Dialogue.ensures_ask stable hs fun t ht => ?_
  rw [if_neg (not_not.mpr (show name ∈ (serve env sql .servers t).1 from (found t ht).listed))]
  refine Dialogue.ensures_known stable ht (objectPath ("/servers/" ++ name))
    (fun u hu => Prod.ext (found u hu).named rfl) fun u hu => ?_
  refine Dialogue.ensures_known stable hu (objectPath ("/servers/" ++ name ++ "/configuration"))
    (fun v hv => Prod.ext (found v hv).configured rfl) fun v hv => ?_
  refine Dialogue.ensures_ask stable hv fun w hw => ?_
  refine Dialogue.ensures_ask stable hw fun x hx => ?_
  exact Dialogue.ensures_done (spares_keeps same) (setValue_keeps same textKey textValue hx)
    fun y hy => ⟨rfl, hy⟩

/-- What a command has set is what a later one prints, however often the daemon has been
killed and started again in between, and whatever others do to it, as long as they
neither remove the server nor set the value. -/
theorem set_lasts (same : env.SameFiles) {es later : List PowerEvent} {server : ServerId}
    {t : Server} {r r' : Option CommandResult} {x : Service}
    (reached : Machine.run (power env sql) {} es = some s)
    (careful : Machine.EachStep (power env sql) (Careful env sql) {} es)
    (offers : s.bus.Offers name server t)
    (textKey : Survives sql key) (textValue : Survives sql value)
    (sets : (ConfigCommand.execute [name, key, value]).Amid (serve env sql)
      (Spares env sql name key) s r v)
    (goes : Machine.run (power env sql) v later = some u)
    (careful' : Machine.EachStep (power env sql) (Careful env sql) v later)
    (leaves : Machine.EachStep (power env sql) (fun s e => s.daemon.Leaves name key e.turn) v later)
    (gets : (ConfigCommand.execute [name, key]).Amid (serve env sql) (Spares env sql name key)
      u r' x) :
    r = some {} ∧ r' = some { out := [value ++ "\n"] } := by
  have healthy : s.Healthy env sql :=
    careful.throughout (fun _ _ _ hs careful hu => power_healthy same hs careful hu)
      init_healthy es s List.prefix_rfl reached
  have start : s.Keeps env sql name key (t.record.value key) := ⟨healthy, server, t, offers, rfl⟩
  obtain ⟨success, set⟩ :=
    (Dialogue.ensures_iff _).mp (set_ensures same textKey textValue start) r v sets
  have kept : u.Keeps env sql name key value :=
    (careful'.and leaves).throughout (fun _ _ _ hs meets hu =>
      ⟨power_healthy same hs.1 meets.1 hu,
        power_has same hs.1 meets.1 meets.2 hu hs.2⟩) set later u List.prefix_rfl goes
  -- the second command sees nothing of the database
  have read := gets.map bus (fun r s => serve_bus r s) fun s u spares => by
    obtain ⟨e, fails, hu, -, leaves⟩ := spares
    exact leaves_spares hu leaves
  exact ⟨success, ((Dialogue.ensures_iff _).mp (ConfigCommand.get_ensures env kept.2) r' _ read).1⟩

theorem adds_careful (s : Service) (name : String) (plain : plainName name = true) (path : QUrl)
    (reads : ServerManager.fixedPath .ideal 0 (Sqlite.plain.toUrl (Environment.ideal.urlToString
      (ServerManager.fixedPath .ideal 0 path))) = ServerManager.fixedPath .ideal 0 path) :
    s.Careful .ideal .plain (.event (.turn (.add path name) fun _ => false)) := by
  refine ⟨⟨?_, fun _ => rfl⟩, ?_⟩
  · rintro t brings -
    obtain rfl := Option.some.inj brings
    exact reads
  · rintro _ ⟨t, brings, rfl⟩
    obtain rfl := Option.some.inj brings
    exact plain

/-- Others add a server before the first request, and the daemon is killed while it adds a
third one. -/
theorem set_lasts_killed :
    let first : PowerEvent := .event (.turn (.add { path := "/srv/tf2" } "tf2") fun _ => false)
    let second : DaemonEvent := .turn (.add { path := "/srv/css" } "css") fun _ => false
    let killed : PowerEvent := .killed (.turn (.add { path := "/srv/dod" } "dod") fun _ => false) 1
    ∃ s t u, Machine.run (power .ideal .plain) {} [first] = some s ∧
      s.step .ideal .plain second = some t ∧
      Machine.run (power .ideal .plain)
        ((ConfigCommand.execute ["tf2", "password", "secret"]).alone (serve .ideal .plain) t).2
        [killed] = some u ∧
      ((ConfigCommand.execute ["tf2", "password", "secret"]).alone (serve .ideal .plain) t).1 =
        some {} ∧
      ((ConfigCommand.execute ["tf2", "password"]).alone (serve .ideal .plain) u).1 =
        some { out := ["secret" ++ "\n"] } := by
  intro first second killed
  obtain ⟨u, hu⟩ : ∃ u, ((Machine.run (power .ideal .plain) {} [first]).bind fun s =>
      (s.step .ideal .plain second).bind fun t =>
      Machine.run (power .ideal .plain)
        ((ConfigCommand.execute ["tf2", "password", "secret"]).alone (serve .ideal .plain) t).2
        [killed]) = some u :=
    Option.isSome_iff_exists.mp (by decide +kernel)
  obtain ⟨s, reached, rest⟩ := Option.bind_eq_some_iff.mp hu
  obtain ⟨t, others, goes⟩ := Option.bind_eq_some_iff.mp rest
  have adds : step .ideal .plain {} (.turn (.add { path := "/srv/tf2" } "tf2") fun _ => false) =
      some s := by
    simpa [Machine.run, power, first] using reached
  have here : Bus.sample = s.bus := Option.some.inj (step_bus adds)
  obtain ⟨tf2, offers, -⟩ := Bus.sample_offers
  rw [here] at offers
  have spares : Spares .ideal .plain "tf2" "password" s t :=
    ⟨_, _, others, adds_careful s "css" (by decide) _ rfl, trivial⟩
  refine ⟨s, t, u, reached, others, goes, set_lasts (fun _ _ => rfl) reached ?_ offers ?_ ?_
    (.earlier (.single spares) (Dialogue.alone_amid _ _ t)) goes ?_ ?_ (Dialogue.alone_amid _ _ u)⟩
  · exact Machine.eachStep_cons.mpr fun _ _ =>
      ⟨adds_careful {} "tf2" (by decide) _ rfl, Machine.eachStep_nil⟩
  · exact ⟨by decide, rfl⟩
  · exact ⟨by decide, rfl⟩
  · refine Machine.eachStep_cons.mpr fun _ _ => ⟨?_, Machine.eachStep_nil⟩
    obtain ⟨⟨legible, -⟩, plain⟩ := adds_careful
      ((ConfigCommand.execute ["tf2", "password", "secret"]).alone (serve .ideal .plain) t).2
      "dod" (by decide) { path := "/srv/dod" } rfl
    exact ⟨legible, plain⟩
  · exact Machine.eachStep_cons.mpr fun _ _ => ⟨trivial, Machine.eachStep_nil⟩

end Service

end Morgoth
