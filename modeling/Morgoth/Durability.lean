import Morgoth.Recovery

/-!
# The daemon as a book of servers

What the daemon is for, with all its restarts and kills left out: a list of
servers with their paths and values, which is amended. A turn amends it as a
whole, or not at all if it is killed.

* `step_book`: a turn that is completed amends the book as its event says;
* `refines_book`: a run with kills anywhere reads like the amendments of its turns, in
  their order, where a turn that was killed may be missing, and a removal that was
  killed may have left the server without its values;
* `value_lasts`: a value that has been set is there until it is set again or the server
  is removed.
-/

namespace Morgoth

inductive Amendment
  | add (record : Record)
  | remove (name : String)
  | set (name key value : String)
  | reset (name : String)

/-- A name that is taken is not added again. -/
def Amendment.apply (book : List Record) : Amendment → List Record
  | .add record => if record.name ∈ book.map Record.name then book else book ++ [record]
  | .remove name => book.filter fun record => record.name != name
  | .set name key value => book.map (Record.set name key value)
  | .reset name => book.map (Record.reset name)

def amend : List Record → List Amendment → List Record := List.foldl Amendment.apply

namespace Daemon

variable {env : Environment} {sql : Sqlite} {d u : Daemon}

/-- What an event is meant to do. -/
def amendments (env : Environment) (d : Daemon) : DaemonEvent → List Amendment
  | .turn (.remove name) _ => [.remove name]
  | .turn (.server server (.setValue key value)) _ =>
    match d.manager.heap server with
    | some s => if s.configuration.isSome then [.set s.name key value] else []
    | none => []
  | .turn e _ => ((ServerManager.brought env d.manager e).map fun s => .add s.record).toList
  | _ => []

/-- The servers of the manager, as a book. -/
def Reads (d : Daemon) (book : List Record) : Prop := d.manager.records = book.map some

theorem Reads.names {book : List Record} (reads : d.Reads book) :
    d.manager.names = (book.map Record.name).map some := by
  unfold ServerManager.names
  rw [reads, List.map_map, List.map_map]
  rfl

theorem Reads.find {book : List Record} (reads : d.Reads book) (name : String) :
    d.manager.find name = none ↔ name ∉ book.map Record.name := by
  rw [ServerManager.find_none_iff, reads.names, List.mem_map_of_injective (Option.some_injective _)]

/-- A value that is set again is not a change. -/
theorem set_again {server : ServerId} {s : Server} {key value : String} (hd : d.Sound)
    (there : d.manager.heap server = some s) (configured : s.configuration.isSome)
    (old : s.record.value key = value)
    (own : server ∈ d.manager.servers ∨ d.manager.find s.name = none) :
    d.manager.records.map (Option.map (Record.set s.name key value)) = d.manager.records := by
  let u : ServerManager :=
    { d.manager with
      heap := Function.update d.manager.heap server (some (s.setValue key value)) }
  have changed : u.records = _ :=
    ServerManager.setValue_records hd.distinct there configured rfl rfl own
  rw [← changed]
  refine ServerManager.records_congr rfl fun t _ => ?_
  by_cases here : t = server
  · subst here
    have same : (s.setValue key value).record = s.record := by
      rw [Server.setValue_record s key value configured, ← old, Function.update_eq_self]
    simp [u, there, same]
  · simp [u, Function.update_of_ne here]

/-- A turn that is completed amends the book as its event says. -/
theorem step_book (same : env.SameFiles) {e : DaemonEvent} (hd : d.Sound)
    (hi : d.Stored env sql) (legible : d.Legible env sql e) (hu : d.step env sql e = some u)
    {book : List Record} (reads : d.Reads book) : u.Reads (amend book (d.amendments env e)) := by
  cases step_effect hd.manager hu with
  | added e fails s brings free u heap servers db connected =>
    have adds : d.amendments env (.turn e fails) = [.add s.record] := by
      cases e with
      | add | addServer => simp [amendments, brings]
      | _ => cases brings
    have new : s.record.name ∉ book.map Record.name := (reads.find s.name).mp free
    unfold Reads
    rw [ServerManager.added_records hd.manager.fresh heap servers, adds, reads]
    simp [amend, Amendment.apply, new]
  | removed name fails server found u heap servers db connected =>
    unfold Reads
    rw [ServerManager.removed_records hd.distinct found heap servers, reads, List.filter_map]
    rfl
  | changed server key value fails s there configured new u heap servers db connected =>
    obtain ⟨own, -⟩ := legible s there
    unfold Reads
    rw [ServerManager.setValue_records hd.distinct there configured heap servers own, reads]
    simp [amendments, there, configured, amend, Amendment.apply]
  | quiet e fails u records servers db connected idle =>
    refine records.trans ?_
    have untouched (none_due : d.amendments env (.turn e fails) = []) :
        d.manager.records = (amend book (d.amendments env (.turn e fails))).map some := by
      rw [none_due]
      exact reads
    cases e with
    | remove name =>
      have missing := (reads.find name).mp idle
      have kept : book.filter (fun record => record.name != name) = book := by
        refine List.filter_eq_self.mpr fun record listed => bne_iff_ne.mpr ?_
        rintro rfl
        exact missing (List.mem_map_of_mem listed)
      rw [reads]
      simp [amendments, amend, Amendment.apply, kept]
    | add path name | addServer path name =>
      have taken : (d.manager.find name).isSome := idle _ rfl
      have listed : name ∈ book.map Record.name := by
        by_contra missing
        rw [(reads.find name).mpr missing] at taken
        cases taken
      refine Eq.trans reads (congrArg (List.map some) ?_)
      exact (if_pos listed).symm
    | server server event =>
      cases event with
      | setValue key value =>
        cases there : d.manager.heap server with
        | none => exact untouched (by simp [amendments, there])
        | some s =>
          by_cases configured : s.configuration.isSome
          · obtain ⟨own, -⟩ := legible s there
            rw [← set_again hd there configured (idle s there configured) own, reads]
            simp [amendments, there, configured, amend, Amendment.apply]
          · exact untouched (by simp [amendments, there, configured])
      | _ => exact untouched rfl
    | _ => exact untouched rfl
  | plugin name enabled fails => exact reads
  | restarted m connected start =>
    obtain ⟨-, -, -, records⟩ := Persistor.init_made start
    refine records.trans ?_
    rw [Database.records_saved same, hi.records]
    exact reads

def PowerEvent.turn : PowerEvent → DaemonEvent
  | .event e | .killed e _ => e

/-- What an event may have done by the time of the next one: a turn that was killed has
been done, or has not, or has only emptied the server that it was to remove. -/
inductive Explains (env : Environment) (d : Daemon) : PowerEvent → List Amendment → Prop
  | done (e : DaemonEvent) : Explains env d (.event e) (d.amendments env e)
  | killedAfter (e : DaemonEvent) (n : Nat) : Explains env d (.killed e n) (d.amendments env e)
  | killedBefore (e : DaemonEvent) (n : Nat) : Explains env d (.killed e n) []
  | killedWithin (name : String) (fails : Nat → Bool) (n : Nat) :
      Explains env d (.killed (.turn (.remove name) fails) n) [.reset name]

theorem power_book (same : env.SameFiles) {e : PowerEvent} (hi : d.Sound ∧ d.Stored env sql)
    (careful : d.Careful env sql e) (hu : d.power env sql e = some u) {book : List Record}
    (reads : d.Reads book) : ∃ changes, Explains env d e changes ∧ u.Reads (amend book changes) := by
  cases e with
  | event e => exact ⟨_, .done e, step_book same hi.1 hi.2 careful.1 hu reads⟩
  | killed e n =>
    obtain ⟨v, hv⟩ := kill_possible hu
    obtain ⟨w, hw, -, -, back⟩ := kill_stored same hi.1 hi.2 careful hv n
    obtain rfl := Option.some.inj (hu.symm.trans hw)
    rcases back with before | after | ⟨name, fails, rfl, emptied⟩
    · exact ⟨[], .killedBefore e n, before.trans reads⟩
    · exact ⟨_, .killedAfter e n, after.trans (step_book same hi.1 hi.2 careful hv reads)⟩
    · refine ⟨_, .killedWithin name fails n, emptied.trans ?_⟩
      rw [reads]
      simp [amend, Amendment.apply]

/-- What a run of events may have done. -/
inductive ExplainsAll (env : Environment) (sql : Sqlite) :
    Daemon → List PowerEvent → List Amendment → Prop
  | nil (d : Daemon) : ExplainsAll env sql d [] []
  | cons {d u : Daemon} {e : PowerEvent} {es : List PowerEvent} {now later : List Amendment} :
      d.power env sql e = some u → Explains env d e now → ExplainsAll env sql u es later →
      ExplainsAll env sql d (e :: es) (now ++ later)

theorem reads_init : Reads {} [] := rfl

theorem stored_init : Sound {} ∧ Stored env sql {} := ⟨init_sound, rfl, nofun, nofun⟩

theorem run_stored (same : env.SameFiles) {es : List PowerEvent} (hi : d.Sound ∧ d.Stored env sql)
    (run : Machine.run (power env sql) d es = some u)
    (careful : Machine.EachStep (power env sql) (Careful env sql) d es) :
    u.Sound ∧ u.Stored env sql :=
  careful.throughout (fun _ _ _ hi careful hu => power_stored same hi careful hu) hi es u
    List.prefix_rfl run

theorem run_book (same : env.SameFiles) {es : List PowerEvent} (hi : d.Sound ∧ d.Stored env sql)
    (run : Machine.run (power env sql) d es = some u)
    (careful : Machine.EachStep (power env sql) (Careful env sql) d es) {book : List Record}
    (reads : d.Reads book) :
    ∃ changes, ExplainsAll env sql d es changes ∧ u.Reads (amend book changes) := by
  induction es generalizing d book with
  | nil =>
    obtain rfl := Option.some.inj run
    exact ⟨[], .nil d, reads⟩
  | cons e es ih =>
    obtain ⟨w, hw, run⟩ := Option.bind_eq_some_iff.mp run
    obtain ⟨now, later⟩ := Machine.eachStep_cons.mp careful w hw
    obtain ⟨first, explains, reads⟩ := power_book same hi now hw reads
    obtain ⟨rest, explained, reads⟩ := ih (power_stored same hi now hw) run later reads
    refine ⟨first ++ rest, .cons hw explains explained, ?_⟩
    rw [amend, List.foldl_append]
    exact reads

/-- However often the daemon is killed, between which statements, and started again: its
servers are what the amendments of its turns make of no servers, in their order, each
done as a whole or not at all. -/
theorem refines_book (same : env.SameFiles) {es : List PowerEvent}
    (reached : Machine.run (power env sql) {} es = some d)
    (careful : Machine.EachStep (power env sql) (Careful env sql) {} es) :
    ∃ changes, ExplainsAll env sql {} es changes ∧ d.Reads (amend [] changes) :=
  run_book same stored_init reached careful reads_init

/-- A server with a password. -/
def protectedEvents : List PowerEvent :=
  [.event (.turn (.add { path := "/srv/tf2" } "tf2") fun _ => false),
    .event (.turn (.server 0 (.setValue "password" "secret")) fun _ => false)]

theorem protected_careful :
    Machine.EachStep (power .ideal .plain) (Careful .ideal .plain) {} protectedEvents := by
  refine Machine.eachStep_cons.mpr fun added hadded => ⟨⟨?_, fun _ => rfl⟩, ?_⟩
  · rintro s brings -
    obtain rfl := Option.some.inj brings
    decide
  · refine Machine.eachStep_cons.mpr fun _ _ => ⟨⟨?_, fun _ => rfl⟩, Machine.eachStep_nil⟩
    obtain rfl := Option.some.inj hadded
    rintro s there
    obtain rfl := Option.some.inj there
    decide

/-- The daemon is killed while it removes the server. -/
theorem refines_book_killed :
    let es : List PowerEvent :=
      protectedEvents ++ [.killed (.turn (.remove "tf2") fun _ => false) 2]
    ∃ d changes, Machine.run (power .ideal .plain) {} es = some d ∧
      d.manager.records.map (Option.map fun r => (r.name, r.value "password")) =
        [some ("tf2", "")] ∧
      ExplainsAll .ideal .plain {} es changes ∧ d.Reads (amend [] changes) := by
  intro es
  have lost : (Machine.run (power .ideal .plain) {} es).map (fun d : Daemon =>
      d.manager.records.map (Option.map fun r => (r.name, r.value "password"))) =
      some [some ("tf2", "")] := by decide +kernel
  obtain ⟨d, reached, left⟩ := Option.map_eq_some_iff.mp lost
  have careful : Machine.EachStep (power .ideal .plain) (Careful .ideal .plain) {} es :=
    protected_careful.append fun _ _ => Machine.eachStep_cons.mpr fun _ _ =>
      ⟨show Literal "tf2" by decide, Machine.eachStep_nil⟩
  obtain ⟨changes, explains⟩ := refines_book (fun _ _ => rfl) reached careful
  exact ⟨d, changes, reached, left, explains⟩

/-! ## What is written down lasts -/

/-- The daemon has a server of the name at the path, with the value. -/
def Holds (name : String) (path : QUrl) (key value : String) (d : Daemon) : Prop :=
  ∃ record, some record ∈ d.manager.records ∧ record.name = name ∧ record.path = path ∧
    record.value key = value

/-- The event does not remove the server and does not set the key. -/
def Leaves (name key : String) (d : Daemon) : DaemonEvent → Prop
  | .turn (.remove other) _ => other ≠ name
  | .turn (.server server (.setValue other _)) _ =>
    ∀ s, d.manager.heap server = some s → s.name ≠ name ∨ other ≠ key
  | _ => True

end Daemon

/-- The same of an amendment. -/
def Amendment.Leaves (name key : String) : Amendment → Prop
  | .add _ => True
  | .remove other | .reset other => other ≠ name
  | .set owner other _ => owner ≠ name ∨ other ≠ key

theorem Amendment.apply_leaves {name key value : String} {path : QUrl} {change : Amendment}
    (leaves : change.Leaves name key) {book : List Record}
    (there : ∃ record ∈ book, record.name = name ∧ record.path = path ∧ record.value key = value) :
    ∃ record ∈ change.apply book, record.name = name ∧ record.path = path ∧
      record.value key = value := by
  obtain ⟨record, listed, rfl, rfl, rfl⟩ := there
  cases change with
  | add new =>
    refine ⟨record, ?_, rfl, rfl, rfl⟩
    by_cases taken : new.name ∈ book.map Record.name
    · simpa only [apply, if_pos taken] using listed
    · simpa only [apply, if_neg taken] using List.mem_append_left _ listed
  | remove other =>
    exact ⟨record, List.mem_filter.mpr ⟨listed, bne_iff_ne.mpr (Ne.symm leaves)⟩, rfl, rfl, rfl⟩
  | set owner other value =>
    refine ⟨record.set owner other value, List.mem_map_of_mem listed, ?_⟩
    unfold Record.set
    split
    · next own =>
      have apart : other ≠ key := leaves.resolve_left fun foreign => foreign own.symm
      exact ⟨rfl, rfl, Function.update_of_ne apart.symm _ _⟩
    · exact ⟨rfl, rfl, rfl⟩
  | reset other =>
    refine ⟨record.reset other, List.mem_map_of_mem listed, ?_⟩
    unfold Record.reset
    rw [if_neg fun own => leaves own.symm]
    exact ⟨rfl, rfl, rfl⟩

theorem amend_leaves {name key value : String} {path : QUrl} {changes : List Amendment}
    (leaves : ∀ change ∈ changes, change.Leaves name key) {book : List Record}
    (there : ∃ record ∈ book, record.name = name ∧ record.path = path ∧ record.value key = value) :
    ∃ record ∈ amend book changes, record.name = name ∧ record.path = path ∧
      record.value key = value := by
  induction changes generalizing book with
  | nil => exact there
  | cons change changes ih =>
    obtain ⟨first, rest⟩ := List.forall_mem_cons.mp leaves
    exact ih rest (Amendment.apply_leaves first there)

namespace Daemon

variable {env : Environment} {sql : Sqlite} {d u : Daemon} {name key value : String} {path : QUrl}

theorem amendments_leaves {e : DaemonEvent} (leaves : d.Leaves name key e) :
    ∀ change ∈ d.amendments env e, change.Leaves name key := by
  intro change listed
  unfold amendments at listed
  split at listed
  case h_1 other fails =>
    obtain rfl := List.mem_singleton.mp listed
    exact leaves
  case h_2 server other value fails =>
    cases there : d.manager.heap server with
    | none => simp [there] at listed
    | some s =>
      obtain ⟨-, rfl⟩ : s.configuration.isSome ∧ change = .set s.name other value := by
        simpa [there] using listed
      exact leaves s there
  case h_3 =>
    obtain ⟨s, -, rfl⟩ := Option.map_eq_some_iff.mp (Option.mem_toList.mp listed)
    trivial
  case h_4 => cases listed

theorem explains_leaves {e : PowerEvent} {changes : List Amendment}
    (explains : Explains env d e changes) (leaves : d.Leaves name key e.turn) :
    ∀ change ∈ changes, change.Leaves name key := by
  cases explains with
  | done e | killedAfter e n => exact amendments_leaves leaves
  | killedBefore => exact nofun
  | killedWithin other fails n => exact List.forall_mem_singleton.mpr leaves

/-- What is written down outlives an event, and a kill. -/
theorem power_holds (same : env.SameFiles) {e : PowerEvent} (hi : d.Sound ∧ d.Stored env sql)
    (careful : d.Careful env sql e) (leaves : d.Leaves name key e.turn)
    (hu : d.power env sql e = some u) (holds : d.Holds name path key value) :
    u.Holds name path key value := by
  have reads : d.Reads (d.db.saved env sql) := hi.2.records.symm
  obtain ⟨changes, explains, reads'⟩ := power_book same hi careful hu reads
  obtain ⟨record, listed, is⟩ := holds
  rw [reads] at listed
  obtain ⟨record', listed', is'⟩ := amend_leaves (explains_leaves explains leaves)
    ⟨record, by simpa using listed, is⟩
  exact ⟨record', reads' ▸ List.mem_map_of_mem listed', is'⟩

/-- What is written down lasts, through kills and restarts, until it is set again or the
server is removed. -/
theorem value_lasts (same : env.SameFiles) {es later : List PowerEvent}
    (reached : Machine.run (power env sql) {} es = some d)
    (careful : Machine.EachStep (power env sql) (Careful env sql) {} es)
    (holds : d.Holds name path key value) (goes : Machine.run (power env sql) d later = some u)
    (careful' : Machine.EachStep (power env sql) (Careful env sql) d later)
    (leaves : Machine.EachStep (power env sql) (fun d e => d.Leaves name key e.turn) d later) :
    u.Holds name path key value := by
  have hi := run_stored same stored_init reached careful
  have kept := (careful'.and leaves).throughout
    (I := fun d => (d.Sound ∧ d.Stored env sql) ∧ d.Holds name path key value)
    (fun _ _ _ hi meets hu => ⟨power_stored same hi.1 meets.1 hu,
      power_holds same hi.1 meets.1 meets.2 hu hi.2⟩) ⟨hi, holds⟩
  exact (kept later u List.prefix_rfl goes).2

/-- The daemon is killed while it adds another server. -/
theorem value_lasts_killed :
    let later : List PowerEvent :=
      [.killed (.turn (.add { path := "/srv/css" } "css") fun _ => false) 1]
    ∃ d u, Machine.run (power .ideal .plain) {} protectedEvents = some d ∧
      Machine.run (power .ideal .plain) d later = some u ∧
      u.Holds "tf2" { scheme := "file", path := "/srv/tf2" } "password" "secret" := by
  intro later
  obtain ⟨u, hu⟩ : ∃ u, Machine.run (power .ideal .plain) {} (protectedEvents ++ later) = some u :=
    Option.isSome_iff_exists.mp (by decide +kernel)
  rw [Machine.run_append] at hu
  obtain ⟨d, hd, hu⟩ := Option.bind_eq_some_iff.mp hu
  refine ⟨d, u, hd, hu, value_lasts (fun _ _ => rfl) hd protected_careful ?_ hu ?_ ?_⟩
  · obtain rfl := Option.some.inj hd
    exact ⟨_, List.mem_cons_self, rfl, rfl, by decide +kernel⟩
  · refine Machine.eachStep_cons.mpr fun _ _ => ⟨?_, Machine.eachStep_nil⟩
    obtain rfl := Option.some.inj hd
    rintro s brings -
    obtain rfl := Option.some.inj brings
    decide
  · exact Machine.eachStep_cons.mpr fun _ _ => ⟨trivial, Machine.eachStep_nil⟩

end Daemon

end Morgoth
