import Morgoth.Roundtrip

/-!
# One entry for each key

No constraint of the table says that a server has one entry for each key; the
test before each write should, and a changed value should go into the entry that
there is. The test asks for the size of a result that QSQLITE does not report,
so that the UPDATE behind it is never reached.

* `step_one_each`: when a turn leaves one entry for each key;
* `step_replaces`: when a changed value is the one entry of its key;
* `one_entry_each_iff`: both in a run.
-/

namespace Morgoth

namespace Database

/-- What an entry is about; NULL counts as a server. -/
def about (e : Entry) : Option Nat × String := (e.serverid, e.key)

/-- The entries are about different things, and about none that is in the
table. -/
def New (db : Database) (entries : List Entry) : Prop :=
  (entries.map about).Nodup ∧
  ∀ e ∈ entries, ∀ row ∈ db.entries.rows, about row.2 ≠ about e

/-- At most one row for each server and key. -/
def OneEach (db : Database) : Prop := (db.entries.rows.map fun row => about row.2).Nodup

theorem oneEach_insertEntries {db : Database} (hi : db.OneEach) (sql : Sqlite)
    (entries : List Entry) :
    (db.insertEntries sql entries).OneEach ↔ db.New (entries.map sql.stored) := by
  have rows : (db.insertEntries sql entries).entries.rows.map (fun row => about row.2) =
      db.entries.rows.map (fun row => about row.2) ++ (entries.map sql.stored).map about := by
    have contents := Table.insertAll_contents db.entries (entries.map sql.stored)
    have all := congrArg (List.map about) contents
    rw [List.map_append, List.map_map, List.map_map] at all
    exact all
  unfold OneEach at hi ⊢
  rw [rows, List.nodup_append]
  constructor
  · rintro ⟨-, distinct, apart⟩
    refine ⟨distinct, fun e he row hr => ?_⟩
    exact apart _ (List.mem_map.mpr ⟨row, hr, rfl⟩) _ (List.mem_map_of_mem he)
  · rintro ⟨distinct, apart⟩
    refine ⟨hi, distinct, ?_⟩
    intro a ha b hb
    obtain ⟨row, hr, rfl⟩ := List.mem_map.mp ha
    obtain ⟨e, he, rfl⟩ := List.mem_map.mp hb
    exact apart e he row hr

/-- The values in the table for a key of a server. -/
def valuesAt (db : Database) (serverid : Option Nat) (key : String) : List String :=
  ((db.entries.rows.map Prod.snd).filter fun e => about e == (serverid, key)).map Entry.value

theorem valuesAt_nil {db : Database} {serverid : Option Nat} {key : String} :
    db.valuesAt serverid key = [] ↔ ∀ row ∈ db.entries.rows, about row.2 ≠ (serverid, key) := by
  unfold valuesAt
  rw [List.map_eq_nil_iff, List.filter_eq_nil_iff, List.forall_mem_map]
  simp only [beq_iff_eq]

theorem valuesAt_inserted (sql : Sqlite) (db : Database) (e : Entry) :
    (db.insertEntries sql [e]).valuesAt e.serverid (sql.numeric e.key) =
      db.valuesAt e.serverid (sql.numeric e.key) ++ [sql.numeric e.value] := by
  have contents := Table.insertAll_contents db.entries ([e].map sql.stored)
  unfold valuesAt insertEntries
  rw [contents, List.filter_append, List.map_append]
  simp [about, Sqlite.stored]

/-- The defaults are different things, and new ones for a new server. -/
theorem new_defaults (sql : Sqlite) {db : Database} (owned : db.Owned) :
    db.New ((Persistor.defaults.map fun kv =>
      ⟨some db.servers.next, kv.1, kv.2⟩).map sql.stored) := by
  rw [Persistor.defaults_stored]
  constructor
  · simp [Persistor.defaults, about]
  · intro e listed row there same
    obtain ⟨kv, -, rfl⟩ := List.mem_map.mp listed
    exact Nat.lt_irrefl _ (owned row there _ (congrArg Prod.fst same))

end Database

namespace Daemon

open Persistor (newEntries Stores)

variable {env : Environment} {sql : Sqlite} {d u : Daemon}

def OneEach (d : Daemon) : Prop := d.db.OneEach

/-- The new value is the one that the table has for the key. -/
def Replaces (env : Environment) (sql : Sqlite) (d : Daemon) : DaemonEvent → Prop
  | .turn (.server t (.setValue key value)) fails => ∀ s u, d.Changes t key value s →
      d.step env sql (.turn (.server t (.setValue key value)) fails) = some u →
      u.db.valuesAt (d.db.idOf s.name) (sql.numeric key) = [sql.numeric value]
  | _ => True

/-- The table has no row for the key, and the statements of the change succeed. Where one
fails, the table has the value already. -/
def WritesFirst (sql : Sqlite) (d : Daemon) : DaemonEvent → Prop
  | .turn (.server t (.setValue key value)) fails => ∀ s, d.Changes t key value s →
      d.db.valuesAt (d.db.idOf s.name) (sql.numeric key) =
        if fails 0 || fails 1 then [sql.numeric value] else []
  | _ => True

/-- The database after a change that the persistor hears of. -/
theorem changed_db (hd : d.Sound) {t : ServerId} {key value : String} {s : Server}
    (changes : d.Changes t key value s) {fails : Nat → Bool}
    (texts : Literal s.name ∧ Literal key ∧ Literal value)
    (hu : d.step env sql (.turn (.server t (.setValue key value)) fails) = some u) :
    u.db = if fails 0 || fails 1 then d.db
      else d.db.insertEntries sql [⟨d.db.idOf s.name, key, value⟩] := by
  cases step_effect hd.manager hu with
  | added e fails s brings => cases brings
  | changed t key value fails s' there configured new u heap servers db connected =>
    obtain rfl := Option.some.inj (changes.there.symm.trans there)
    obtain ⟨hn, hk, hv⟩ := texts
    rw [db, stored_change hd, if_pos changes.connected,
      Persistor.newEntries_literal sql fails d.db hn hk hv]
    split <;> rfl
  | quiet e fails u records servers db connected idle => exact absurd changes idle.unchanged

theorem step_replaces {e : DaemonEvent} (hd : d.Sound) (unquoted : d.Unquoted e)
    (hu : d.step env sql e = some u) : d.Replaces env sql e ↔ d.WritesFirst sql e := by
  cases e with
  | turn e fails =>
    cases e with
    | server t event =>
      cases event with
      | setValue key value =>
        have each (s : Server) (changes : d.Changes t key value s) :
            u.db.valuesAt (d.db.idOf s.name) (sql.numeric key) = [sql.numeric value] ↔
              d.db.valuesAt (d.db.idOf s.name) (sql.numeric key) =
                if fails 0 || fails 1 then [sql.numeric value] else [] := by
          rw [changed_db hd changes (unquoted s changes) hu]
          split
          · rfl
          · rw [Database.valuesAt_inserted sql d.db ⟨d.db.idOf s.name, key, value⟩]
            simp
        constructor
        · exact fun replaces s changes => (each s changes).mp (replaces s u changes hu)
        · intro first s u' changes hu'
          obtain rfl := Option.some.inj (hu.symm.trans hu')
          exact (each s changes).mpr (first s changes)
      | _ => exact Iff.rfl
    | _ => exact Iff.rfl
  | _ => exact Iff.rfl

/-- A table with one entry for each key keeps one for each. -/
theorem step_one_each {e : DaemonEvent} (hd : d.Sound) (owned : d.db.Owned) (hi : d.OneEach)
    (unquoted : d.Unquoted e) (first : d.WritesFirst sql e) (hu : d.step env sql e = some u) :
    u.OneEach := by
  unfold OneEach at hi ⊢
  have moves := hu
  cases step_effect hd.manager hu with
  | added e fails s brings free u heap servers db connected =>
    rw [db]
    split
    · obtain ⟨path, name, made⟩ := ServerManager.brought_created brings
      have row : (d.db.insertServer ⟨env.urlToString s.path, s.name⟩).OneEach := hi
      unfold Persistor.withServer
      rw [Database.oneEach_insertEntries row, ← made, Persistor.create_keyValues]
      exact Database.new_defaults sql owned
    · exact hi
  | removed name fails server found u heap servers db connected =>
    rw [db, Persistor.deleteServer_eq]
    exact hi.sublist ((Persistor.deleteConfigurations_entries _ _ _ _).map _)
  | changed t key value fails s there configured new u heap servers db connected =>
    by_cases connected' : t ∈ d.connected
    · have changes : d.Changes t key value s := ⟨connected', there, configured, new⟩
      have free := first s changes
      rw [changed_db hd changes (unquoted s changes) moves]
      split at free
      · next failed =>
        rw [if_pos failed]
        exact hi
      · next succeed =>
        rw [if_neg succeed, Database.oneEach_insertEntries hi, List.map_singleton]
        refine ⟨List.nodup_singleton _, fun e listed row there => ?_⟩
        rw [List.mem_singleton.mp listed]
        exact Database.valuesAt_nil.mp free row there
    · rw [db, stored_change hd, if_neg connected']
      exact hi
  | quiet e fails u records servers db connected idle =>
    rw [db]
    exact hi
  | plugin name enabled fails =>
    rw [Persistor.storePluginState_eq]
    exact hi
  | restarted m connected start => exact hi

/-- In a run whose changes are each the first one of their key, the table has one entry
for each server and key, and after each change the one of its key has the new value. If
the texts of the changes hold no quote, this is so only then. -/
theorem one_entry_each_iff (env : Environment) (sql : Sqlite) (es : List DaemonEvent) :
    (Machine.EachStep (step env sql) (fun d e => d.Unquoted e ∧ d.WritesFirst sql e) {} es →
      Machine.Throughout (step env sql) OneEach {} es ∧
        Machine.EachStep (step env sql) (Replaces env sql) {} es) ∧
    (Machine.EachStep (step env sql) Unquoted {} es →
      Machine.EachStep (step env sql) (Replaces env sql) {} es →
      Machine.EachStep (step env sql) (WritesFirst sql) {} es) := by
  have start : Sound {} ∧ Database.Owned {} := ⟨init_sound, fun _ there => by cases there⟩
  have carried (d : Daemon) (e : DaemonEvent) (u : Daemon) (now : d.Sound ∧ d.db.Owned)
      (unquoted : d.Unquoted e) (hu : d.step env sql e = some u) : u.Sound ∧ u.db.Owned :=
    ⟨step_sound now.1 hu, step_owned now.1 now.2 unquoted hu⟩
  have same (unquoted : Machine.EachStep (step env sql) Unquoted {} es) :
      Machine.EachStep (step env sql) (Replaces env sql) {} es ↔
        Machine.EachStep (step env sql) (WritesFirst sql) {} es :=
    Machine.eachStep_congr_under carried
      (fun d e u now unquoted hu => step_replaces now.1 unquoted hu) start unquoted
  constructor
  · intro conditions
    have unquoted := conditions.imp fun _ _ => And.left
    refine ⟨fun pre d before reached => ?_,
      (same unquoted).mpr (conditions.imp fun _ _ => And.right)⟩
    refine (conditions.throughout (I := fun d => (d.Sound ∧ d.db.Owned) ∧ d.OneEach)
      (fun d e u now condition hu => ⟨carried d e u now.1 condition.1 hu, ?_⟩)
      ⟨start, List.nodup_nil⟩ pre d before reached).2
    exact step_one_each now.1.1 now.1.2 now.2 condition.1 condition.2 hu
  · exact fun unquoted => (same unquoted).mp

/-- The first password of a server. -/
theorem one_entry_each_iff_password :
    let es := added ++ [SetValue.event ⟨0, "password", "a", fun _ => false⟩]
    Machine.Throughout (step .ideal .plain) OneEach {} es ∧
      Machine.EachStep (step .ideal .plain) (Replaces .ideal .plain) {} es := by
  refine (one_entry_each_iff .ideal .plain _).1 (Machine.eachStep_cons.mpr fun d hd => ⟨?_, ?_⟩)
  · exact ⟨trivial, trivial⟩
  · obtain rfl := Option.some.inj hd
    refine Machine.eachStep_cons.mpr fun u hu => ⟨⟨?_, ?_⟩, Machine.eachStep_nil⟩
    · intro s changes
      obtain rfl := Option.some.inj changes.there
      decide
    · intro s changes
      obtain rfl := Option.some.inj changes.there
      rfl

/-- The second value of a key is a second row, as the first value of a default
is. -/
theorem second_value_adds_row :
    ∃ d, run .ideal .plain {} [
        .turn (.add { path := "/srv/tf2" } "tf2") fun _ => false,
        SetValue.event ⟨0, "password", "a", fun _ => false⟩,
        SetValue.event ⟨0, "password", "b", fun _ => false⟩] = some d ∧
      (d.db.entries.rows.filter fun row => row.2.key == "password") =
        [(3, ⟨some 1, "password", "a"⟩), (4, ⟨some 1, "password", "b"⟩)] ∧
      ¬ d.OneEach := by
  refine ⟨_, rfl, rfl, fun once => ?_⟩
  have listed : [(some 1, "org.morgoth.Server.launchArguments"),
      (some 1, "org.morgoth.Server.logDirectory"), (some 1, "password"),
      (some 1, "password")].Nodup := once
  exact absurd listed (by decide)

end Daemon

end Morgoth
