import Morgoth.Machine
import Morgoth.Persistor
import Morgoth.Signal

/-!
# Plugins

`PluginManager`, with `QPluginLoader` as far as it is used: what `instance` and
`unload` come to is part of the event. The signals say which plugins run, the
loaders know, and the database remembers.

* `setPluginStatus_effect`: what a call does, guards included;
* `views_agree_iff`: in which runs the three views agree.
-/

namespace Morgoth

/-- `isLoaded` is `true` from a successful load until a successful unload. -/
structure QPluginLoader where
  isLoaded : Bool := false
  deriving DecidableEq, Repr

/-- What `instance` comes to: the library is not loaded, or it is and its root
object is of some other type, or of the right one. -/
inductive InstanceResult
  | notLoaded
  | otherType
  | morgothPlugin
  deriving DecidableEq, Repr

namespace QPluginLoader

/-- `instance` loads the library first. -/
def loadInstance (result : InstanceResult) (_ : QPluginLoader) : QPluginLoader :=
  ⟨result != .notLoaded⟩

def unload (succeeds : Bool) (l : QPluginLoader) : Bool × QPluginLoader :=
  if l.isLoaded && succeeds then (true, ⟨false⟩) else (false, l)

end QPluginLoader

structure PluginData where
  name : String
  loader : QPluginLoader := {}
  deriving DecidableEq, Repr

/-- A file that `addPluginsDir` comes across. `metaData` is the name in its
metadata, where there is one and it is a string. -/
structure PluginFile where
  isLibrary : Bool
  metaData : Option String
  deriving DecidableEq, Repr

/-- `signals` are the emissions of `pluginStatusChanged`. -/
structure PluginManager where
  plugins : List PluginData := []
  signals : List (String × Bool) := []
  deriving DecidableEq, Repr

namespace PluginManager

def readPlugin (m : PluginManager) (file : PluginFile) : PluginManager :=
  if !file.isLibrary then m
  else match file.metaData with
    | some name => { m with plugins := m.plugins ++ [{ name := name }] }
    | none => m

def addPluginsDir (files : List PluginFile) (m : PluginManager) : PluginManager :=
  files.foldl readPlugin m

def availablePlugins (m : PluginManager) : List String := m.plugins.map PluginData.name

/-- The plugin that a name resolves to: `std::find_if` stops at the first. -/
def find (m : PluginManager) (name : String) : Option PluginData :=
  m.plugins.find? fun p => p.name == name

/-- The list with another loader at the plugin that the name resolves to. -/
def replaceLoader (name : String) (loader : QPluginLoader) : List PluginData → List PluginData
  | [] => []
  | p :: ps =>
    if p.name == name then { p with loader := loader } :: ps
    else p :: replaceLoader name loader ps

def setLoader (m : PluginManager) (name : String) (loader : QPluginLoader) : PluginManager :=
  { m with plugins := replaceLoader name loader m.plugins }

/-- `emit pluginStatusChanged(name, enabled)`. -/
def pluginStatusChanged (m : PluginManager) (name : String) (enabled : Bool) : PluginManager :=
  { m with signals := m.signals ++ [(name, enabled)] }

def loadPlugin (name : String) (result : InstanceResult) (unloads : Bool) (m : PluginManager) :
    PluginManager :=
  match m.find name with
  | none => m
  | some p =>
    if p.loader.isLoaded then m
    else
      let loader := p.loader.loadInstance result
      match result with
      | .morgothPlugin => (m.setLoader name loader).pluginStatusChanged name true
      -- whether this unload succeeds is not looked at
      | .notLoaded | .otherType => m.setLoader name (loader.unload unloads).2

def unloadPlugin (name : String) (unloads : Bool) (m : PluginManager) : PluginManager :=
  match m.find name with
  | none => m
  | some p =>
    if !p.loader.isLoaded then m
    else match p.loader.unload unloads with
      | (true, loader) => (m.setLoader name loader).pluginStatusChanged name false
      | (false, loader) => m.setLoader name loader

def setPluginStatus (name : String) (enabled : Bool) (result : InstanceResult) (unloads : Bool)
    (m : PluginManager) : PluginManager :=
  if enabled then m.loadPlugin name result unloads else m.unloadPlugin name unloads

/-- Whether the loader that a name resolves to is loaded. -/
def loaded (m : PluginManager) (name : String) : Bool := (m.find name).any (·.loader.isLoaded)

/-! ## What a call does -/

variable {m u : PluginManager} {name : String}

theorem find_replaceLoader (name other : String) (loader : QPluginLoader) (ps : List PluginData) :
    (replaceLoader name loader ps).find? (fun p => p.name == other) =
      if other = name then (ps.find? fun p => p.name == other).map fun p => { p with loader := loader }
      else ps.find? fun p => p.name == other := by
  induction ps with
  | nil => simp [replaceLoader]
  | cons p ps ih =>
    unfold replaceLoader
    by_cases here : p.name = name
    · by_cases same : other = name
      · simp [here, same]
      · simp [here, same, Ne.symm same]
    · by_cases same : other = name
      · subst same
        simpa [here] using ih
      · by_cases there : p.name = other
        · simp [same, there]
        · simpa [here, same, there] using ih

theorem setLoader_availablePlugins (name : String) (loader : QPluginLoader) (m : PluginManager) :
    (m.setLoader name loader).availablePlugins = m.availablePlugins := by
  unfold availablePlugins setLoader
  dsimp only
  induction m.plugins with
  | nil => rfl
  | cons p ps ih =>
    unfold replaceLoader
    cases p.name == name with
    | true => rfl
    | false => exact congrArg (p.name :: ·) ih

theorem setLoader_loaded {p : PluginData} (found : m.find name = some p) (loader : QPluginLoader) :
    (m.setLoader name loader).loaded = Function.update m.loaded name loader.isLoaded := by
  funext other
  have searched := find_replaceLoader name other loader m.plugins
  unfold loaded find setLoader at *
  rw [searched]
  by_cases here : other = name
  · subst here
    simp [found]
  · simp [here]

theorem find_available (known : (m.find name).isSome) : name ∈ m.availablePlugins := by
  obtain ⟨p, found⟩ := Option.isSome_iff_exists.mp known
  have named := List.find?_some found
  obtain rfl : p.name = name := beq_iff_eq.mp named
  exact List.mem_map_of_mem (List.mem_of_find?_eq_some found)

theorem loaded_found {p : PluginData} (found : m.find name = some p) :
    m.loaded name = p.loader.isLoaded := by
  rw [loaded, found]
  rfl

/-- If the library that the call loads turns out to be no plugin, it can be unloaded
again. -/
def UnloadsInvalid (m : PluginManager) (name : String) (enabled : Bool) (result : InstanceResult)
    (unloads : Bool) : Prop :=
  enabled = true → result = .otherType → (m.find name).isSome → m.loaded name = false →
    unloads = true

/-- What becomes of the plugin a call is for: nothing, or it is loaded or unloaded
and this is announced, or it is left in memory without a word. -/
inductive Effect (m : PluginManager) (name : String) : Bool → InstanceResult → Bool →
    PluginManager → Prop
  | kept (enabled : Bool) (result : InstanceResult) (unloads : Bool) (u : PluginManager)
      (signals : u.signals = m.signals) (loaded : u.loaded = m.loaded)
      (unloaded : m.UnloadsInvalid name enabled result unloads) :
      Effect m name enabled result unloads u
  | loaded (unloads : Bool) (u : PluginManager) (known : (m.find name).isSome)
      (signals : u.signals = m.signals ++ [(name, true)])
      (loaded : u.loaded = Function.update m.loaded name true) :
      Effect m name true .morgothPlugin unloads u
  | stays (u : PluginManager) (known : (m.find name).isSome) (before : m.loaded name = false)
      (signals : u.signals = m.signals) (loaded : u.loaded = Function.update m.loaded name true) :
      Effect m name true .otherType false u
  | unloaded (result : InstanceResult) (u : PluginManager) (known : (m.find name).isSome)
      (signals : u.signals = m.signals ++ [(name, false)])
      (loaded : u.loaded = Function.update m.loaded name false) :
      Effect m name false result true u

theorem loadPlugin_effect (name : String) (result : InstanceResult) (unloads : Bool)
    (m : PluginManager) : Effect m name true result unloads (m.loadPlugin name result unloads) := by
  unfold loadPlugin
  cases found : m.find name with
  | none =>
    refine .kept _ _ _ _ rfl rfl fun _ _ known => ?_
    rw [found] at known
    cases known
  | some p =>
    have known : (m.find name).isSome := by rw [found]; rfl
    have before := loaded_found found
    dsimp only
    by_cases running : p.loader.isLoaded = true
    · rw [if_pos running]
      refine .kept _ _ _ _ rfl rfl fun _ _ _ idle => ?_
      rw [before, running] at idle
      cases idle
    · rw [Bool.not_eq_true] at running
      rw [running] at before
      have again : Function.update m.loaded name false = m.loaded := by
        rw [← before, Function.update_eq_self]
      rw [running, if_neg Bool.false_ne_true]
      cases result with
      | morgothPlugin => exact .loaded unloads _ known rfl (setLoader_loaded found _)
      | notLoaded => exact .kept _ _ _ _ rfl ((setLoader_loaded found _).trans again) nofun
      | otherType =>
        cases unloads with
        | true => exact .kept _ _ _ _ rfl ((setLoader_loaded found _).trans again) fun _ _ _ _ => rfl
        | false => exact .stays _ known before rfl (setLoader_loaded found _)

theorem unloadPlugin_effect (name : String) (result : InstanceResult) (unloads : Bool)
    (m : PluginManager) : Effect m name false result unloads (m.unloadPlugin name unloads) := by
  unfold unloadPlugin
  cases found : m.find name with
  | none => exact .kept _ _ _ _ rfl rfl nofun
  | some p =>
    have known : (m.find name).isSome := by rw [found]; rfl
    have before := loaded_found found
    dsimp only
    cases running : p.loader.isLoaded with
    | false => exact .kept _ _ _ _ rfl rfl nofun
    | true =>
      unfold QPluginLoader.unload
      rw [running]
      cases unloads with
      | true => exact .unloaded result _ known rfl (setLoader_loaded found _)
      | false =>
        refine .kept _ _ _ _ rfl ((setLoader_loaded found _).trans ?_) nofun
        rw [← before, Function.update_eq_self]

theorem setPluginStatus_effect (name : String) (enabled : Bool) (result : InstanceResult)
    (unloads : Bool) (m : PluginManager) :
    Effect m name enabled result unloads (m.setPluginStatus name enabled result unloads) := by
  unfold setPluginStatus
  cases enabled with
  | true => exact loadPlugin_effect name result unloads m
  | false => exact unloadPlugin_effect name result unloads m

theorem setPluginStatus_availablePlugins (name : String) (enabled : Bool)
    (result : InstanceResult) (unloads : Bool) (m : PluginManager) :
    (m.setPluginStatus name enabled result unloads).availablePlugins = m.availablePlugins := by
  have kept (loader : QPluginLoader) :
      (m.setLoader name loader).availablePlugins = m.availablePlugins :=
    setLoader_availablePlugins name loader m
  have announced (u : PluginManager) (status : Bool) :
      (u.pluginStatusChanged name status).availablePlugins = u.availablePlugins := rfl
  unfold setPluginStatus loadPlugin unloadPlugin
  cases m.find name with
  | none => cases enabled <;> rfl
  | some p =>
    cases enabled with
    | true => cases running : p.loader.isLoaded <;> cases result <;> simp [running, announced, kept]
    | false =>
      cases running : p.loader.isLoaded <;> cases unloads <;>
        simp [QPluginLoader.unload, running, announced, kept]

/-- New plugins come last, and none of them is loaded. -/
theorem addPluginsDir_eq (files : List PluginFile) (m : PluginManager) :
    (m.addPluginsDir files).signals = m.signals ∧ (m.addPluginsDir files).loaded = m.loaded ∧
      m.availablePlugins ⊆ (m.addPluginsDir files).availablePlugins := by
  induction files generalizing m with
  | nil => exact ⟨rfl, rfl, List.Subset.refl _⟩
  | cons file files ih =>
    have first : (m.readPlugin file).signals = m.signals ∧ (m.readPlugin file).loaded = m.loaded ∧
        m.availablePlugins ⊆ (m.readPlugin file).availablePlugins := by
      unfold readPlugin
      cases file.isLibrary with
      | false => exact ⟨rfl, rfl, List.Subset.refl _⟩
      | true =>
        cases file.metaData with
        | none => exact ⟨rfl, rfl, List.Subset.refl _⟩
        | some name =>
          refine ⟨rfl, ?_, List.map_subset _ (List.subset_append_left _ _)⟩
          funext other
          simp only [loaded, find, Bool.not_true, Bool.false_eq_true, if_false, List.find?_append]
          cases m.plugins.find? fun p => p.name == other with
          | some p => rfl
          | none =>
            by_cases here : name = other <;> simp [here]
    obtain ⟨signals, loaded, names⟩ := first
    obtain ⟨signals', loaded', names'⟩ := ih (m.readPlugin file)
    exact ⟨signals'.trans signals, loaded'.trans loaded, fun other there => names' (names there)⟩

end PluginManager

/-! ## Three views of the plugins -/

/-- The status of a plugin that was announced last. -/
def lastStatus (signals : List (String × Bool)) (name : String) : Option Bool :=
  (signals.filter fun signal => signal.1 == name).getLast?.map Prod.snd

theorem lastStatus_snoc (signals : List (String × Bool)) (name other : String) (enabled : Bool) :
    lastStatus (signals ++ [(name, enabled)]) other =
      if other = name then some enabled else lastStatus signals other := by
  unfold lastStatus
  by_cases here : other = name
  · subst here
    simp
  · simp [here, Ne.symm here]

namespace Database

/-- What the database has under the name of a plugin. -/
def pluginRows (db : Database) (name : String) : List PluginRow :=
  (db.plugins.rows.map Prod.snd).filter fun row => row.name == name

/-- `REPLACE` leaves one row of the name. -/
theorem replacePlugin_rows (db : Database) (row : PluginRow) (name : String) :
    (db.replacePlugin row).pluginRows name = if name = row.name then [row] else db.pluginRows name := by
  have rows : (db.replacePlugin row).plugins.rows.map Prod.snd =
      (db.plugins.rows.map Prod.snd).filter (fun old => !(old.name == row.name)) ++ [row] := by
    unfold replacePlugin Table.replace
    rw [Table.insert_rows, Table.deleteWhere_rows, List.map_append, List.filter_map]
    rfl
  unfold pluginRows
  rw [rows, List.filter_append, List.filter_filter]
  by_cases here : name = row.name
  · subst here
    simp
  · have others (old : PluginRow) (_ : old ∈ db.plugins.rows.map Prod.snd) :
        (old.name == name && !(old.name == row.name)) = (old.name == name) := by
      by_cases named : old.name = name <;> simp [named, here]
    rw [List.filter_congr others, if_neg here]
    simp [Ne.symm here]

end Database

/-- `storePluginState` of a name without a quote, where the statement does not
fail. -/
theorem Persistor.storePluginState_literal (sql : Sqlite) (db : Database) {name : String}
    (plain : Literal name) (enabled : Bool) :
    storePluginState sql (fun _ => false) db name enabled =
      db.replacePlugin ⟨name, if enabled then "1" else "0"⟩ := by
  have flag : Literal (if enabled then "1" else "0") := by cases enabled <;> decide
  unfold storePluginState
  rw [sql.valuesPlugins_literal name _ plain flag]
  rfl

inductive PluginEvent
  | addPluginsDir (files : List PluginFile)
  | setPluginStatus (name : String) (enabled : Bool) (result : InstanceResult) (unloads : Bool)

/-- The plugins and the database whose persistor hears of them. -/
structure Plugins where
  manager : PluginManager := {}
  db : Database := {}

namespace Plugins

open PluginManager

/-- The slots of the signals that a call emits. -/
def slots (sql : Sqlite) (m u : PluginManager) : List (Database → Database) :=
  (u.signals.drop m.signals.length).map fun signal db =>
    Persistor.storePluginState sql (fun _ => false) db signal.1 signal.2

def step (sql : Sqlite) (t : Plugins) : PluginEvent → Option Plugins
  | .addPluginsDir files => some { t with manager := t.manager.addPluginsDir files }
  | .setPluginStatus name enabled result unloads =>
    let u := t.manager.setPluginStatus name enabled result unloads
    some { manager := u, db := Signal.emit (slots sql t.manager u) t.db }

/-- What was announced of a plugin last is whether it is loaded, and, where the
names can be stored, what the database says of it. -/
structure Agrees (t : Plugins) : Prop where
  loaded : ∀ name, (lastStatus t.manager.signals name).getD false = t.manager.loaded name
  stored : (∀ name ∈ t.manager.availablePlugins, Literal name) → ∀ name enabled,
    lastStatus t.manager.signals name = some enabled →
      t.db.pluginRows name = [⟨name, if enabled then "1" else "0"⟩]

/-- A library that is no plugin can be unloaded again. -/
def Unloads (t : Plugins) : PluginEvent → Prop
  | .addPluginsDir _ => True
  | .setPluginStatus name enabled result unloads =>
    t.manager.UnloadsInvalid name enabled result unloads

variable {sql : Sqlite} {t u : Plugins}

/-- A call that announces nothing stores nothing. -/
theorem agrees_silent (ht : t.Agrees) {m : PluginManager}
    (names : m.availablePlugins = t.manager.availablePlugins)
    (signals : m.signals = t.manager.signals) (loaded : m.loaded = t.manager.loaded) :
    Agrees ⟨m, Signal.emit (slots sql t.manager m) t.db⟩ := by
  have nothing : slots sql t.manager m = [] := by
    unfold slots
    rw [signals, List.drop_length]
    rfl
  rw [nothing]
  constructor
  · intro name
    rw [signals, loaded]
    exact ht.loaded name
  · intro plain
    rw [signals]
    rw [names] at plain
    exact ht.stored plain

/-- What is announced and true of the loader is also stored. -/
theorem agrees_announced (ht : t.Agrees) {m : PluginManager} {name : String} {enabled : Bool}
    (names : m.availablePlugins = t.manager.availablePlugins)
    (known : (t.manager.find name).isSome)
    (signals : m.signals = t.manager.signals ++ [(name, enabled)])
    (loaded : m.loaded = Function.update t.manager.loaded name enabled) :
    Agrees ⟨m, Signal.emit (slots sql t.manager m) t.db⟩ := by
  have one : slots sql t.manager m =
      [fun db => Persistor.storePluginState sql (fun _ => false) db name enabled] := by
    unfold slots
    rw [signals, List.drop_left]
    rfl
  rw [one]
  constructor
  · intro other
    rw [signals, lastStatus_snoc, loaded]
    by_cases here : other = name
    · subst here
      simp
    · simpa [here] using ht.loaded other
  · intro plain other status last
    rw [names] at plain
    rw [signals, lastStatus_snoc] at last
    rw [Signal.emit_cons, Signal.emit_nil,
      Persistor.storePluginState_literal sql t.db (plain name (find_available known)),
      Database.replacePlugin_rows]
    by_cases here : other = name
    · subst here
      rw [if_pos rfl] at last ⊢
      rw [Option.some.inj last]
    · rw [if_neg here] at last ⊢
      exact ht.stored plain other status last

theorem step_agrees {e : PluginEvent} (ht : t.Agrees) (hu : t.step sql e = some u) :
    u.Agrees ↔ t.Unloads e := by
  cases e with
  | addPluginsDir files =>
    obtain rfl := Option.some.inj hu
    obtain ⟨signals, loaded, names⟩ := addPluginsDir_eq files t.manager
    refine iff_of_true ⟨?_, ?_⟩ trivial
    · intro name
      rw [signals, loaded]
      exact ht.loaded name
    · intro plain
      rw [signals]
      exact ht.stored fun name there => plain name (names there)
  | setPluginStatus name enabled result unloads =>
    obtain rfl := Option.some.inj hu
    have names := setPluginStatus_availablePlugins name enabled result unloads t.manager
    have effect := setPluginStatus_effect name enabled result unloads t.manager
    generalize t.manager.setPluginStatus name enabled result unloads = m at names effect ⊢
    cases effect with
    | kept _ _ _ _ signals loaded clean =>
      exact iff_of_true (agrees_silent ht names signals loaded) clean
    | loaded _ _ known signals loaded =>
      exact iff_of_true (agrees_announced ht names known signals loaded) nofun
    | unloaded _ _ known signals loaded =>
      exact iff_of_true (agrees_announced ht names known signals loaded) fun _ _ _ _ => rfl
    | stays _ known before signals loaded =>
      refine iff_of_false ?_ fun clean => ?_
      · intro agrees
        -- the last word on the plugin is that it is not loaded
        have status : (lastStatus t.manager.signals name).getD false = true := by
          rw [← signals]
          refine (agrees.loaded name).trans ?_
          rw [loaded, Function.update_self]
        rw [ht.loaded name, before] at status
        cases status
      · cases clean rfl rfl known before

/-- The signals, the loaders and the database agree throughout a run exactly if
every library that turns out to be no plugin is unloaded again. -/
theorem views_agree_iff (sql : Sqlite) (db : Database) (es : List PluginEvent) :
    Machine.Throughout (step sql) Agrees { db := db } es ↔
      Machine.EachStep (step sql) Unloads { db := db } es := by
  apply Machine.throughout_iff_eachStep (A := fun _ => True)
  · exact fun _ _ _ _ _ _ => trivial
  · exact fun _ _ _ _ _ ht hu => step_agrees ht hu
  · trivial
  · exact ⟨fun _ => rfl, fun _ _ _ last => nomatch last⟩

/-- A library of another type that cannot be unloaded stays in memory, and nobody
is told. -/
theorem invalid_stays_loaded :
    ∃ t : Plugins, Machine.run (step .plain) {} [.addPluginsDir [⟨true, some "motd"⟩],
        .setPluginStatus "motd" true .otherType false] = some t ∧
      t.manager.loaded "motd" = true ∧ t.manager.signals = [] ∧ t.db.pluginRows "motd" = [] ∧
      ¬ t.Agrees := by
  refine ⟨_, rfl, rfl, rfl, rfl, ?_⟩
  intro agrees
  have status := agrees.loaded "motd"
  exact absurd status (by decide)

end Plugins

end Morgoth
