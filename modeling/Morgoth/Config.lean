import Mathlib.Data.List.AList
import Morgoth.Machine

/-!
# The configuration of the daemon

The constructor loads the defaults and reads the configuration file; SIGHUP
reads the file again, into the configuration that is there. `QVariant` is any
type of values that texts can be stored in.

* `readConfig_config`: what one read does to the configuration;
* `history_free_iff`: in which histories the configuration is always that of a
  daemon that has just been started with the last file.
-/

namespace Morgoth

inductive QSettings.Status
  | noError
  | accessError
  | formatError
  deriving DecidableEq, Repr

/-- A file as `QSettings` reads it. -/
structure QSettings (QVariant : Type) where
  status : QSettings.Status := .noError
  values : AList fun _ : String => QVariant := ∅

inductive UnixSignal
  | sighup
  | sigterm
  | other (number : Int)
  deriving DecidableEq, Repr

structure MorgothDaemon (QVariant : Type) where
  configFileName : String
  config : String → Option QVariant := fun _ => none
  quitting : Bool := false

variable {QVariant : Type}

namespace QSettings

def allKeys (s : QSettings QVariant) : List String := s.values.keys

def value (s : QSettings QVariant) (key : String) : Option QVariant := s.values.lookup key

theorem value_none (s : QSettings QVariant) (key : String) :
    s.value key = none ↔ key ∉ s.allKeys := AList.lookup_eq_none

end QSettings

namespace MorgothDaemon

/-- `QMap::insert`. -/
def insert (key : String) (value : QVariant) (d : MorgothDaemon QVariant) :
    MorgothDaemon QVariant :=
  { d with config := Function.update d.config key (some value) }

def loadDefaults (ofString : String → QVariant) (d : MorgothDaemon QVariant) :
    MorgothDaemon QVariant :=
  (d.insert "dbus" (ofString "session")).insert "database" (ofString "morgoth.sqlite")

/-- The file is read, and without an error. -/
def reads (d : MorgothDaemon QVariant) (s : QSettings QVariant) : Bool :=
  !d.configFileName.isEmpty && s.status == .noError

/-- The loop over the keys of the file. -/
def insertKeys (s : QSettings QVariant) (keys : List String) (d : MorgothDaemon QVariant) :
    MorgothDaemon QVariant :=
  keys.foldl (fun d key =>
    match s.value key with
    | some value => d.insert key value
    | none => d) d

def readConfig (s : QSettings QVariant) (d : MorgothDaemon QVariant) : MorgothDaemon QVariant :=
  if d.configFileName.isEmpty then d
  else if s.status == .noError then d.insertKeys s s.allKeys
  else d

/-- The constructor. -/
def create (ofString : String → QVariant) (configFileName : String) (s : QSettings QVariant) :
    MorgothDaemon QVariant :=
  ((⟨configFileName, fun _ => none, false⟩ : MorgothDaemon QVariant).loadDefaults
    ofString).readConfig s

def handleSignal (signal : UnixSignal) (s : QSettings QVariant) (d : MorgothDaemon QVariant) :
    MorgothDaemon QVariant :=
  match signal with
  | .sigterm => { d with quitting := true }
  | .sighup => d.readConfig s
  | .other _ => d

/-! ## What a read does -/

/-- The values of a file, and those of `base` for the keys that it lacks. -/
def overlay (base : String → Option QVariant) (file : Option (QSettings QVariant)) :
    String → Option QVariant :=
  fun key => (file.bind fun s => s.value key).or (base key)

theorem insertKeys_config (s : QSettings QVariant) (keys : List String)
    (d : MorgothDaemon QVariant) (key : String) :
    (d.insertKeys s keys).config key =
      if key ∈ keys then (s.value key).or (d.config key) else d.config key := by
  induction keys generalizing d with
  | nil => rfl
  | cons first keys ih =>
    unfold insertKeys at ih ⊢
    rw [List.foldl_cons, ih]
    by_cases here : key = first
    · subst here
      cases s.value key <;> simp [insert]
    · cases s.value first <;> simp [insert, here]

theorem readConfig_frame (s : QSettings QVariant) (d : MorgothDaemon QVariant) :
    (d.readConfig s).configFileName = d.configFileName ∧
      (d.readConfig s).quitting = d.quitting := by
  have kept (keys : List String) (d : MorgothDaemon QVariant) :
      (d.insertKeys s keys).configFileName = d.configFileName ∧
        (d.insertKeys s keys).quitting = d.quitting := by
    induction keys generalizing d with
    | nil => exact ⟨rfl, rfl⟩
    | cons first keys ih =>
      unfold insertKeys at ih ⊢
      rw [List.foldl_cons]
      cases s.value first with
      | none => exact ih d
      | some value => exact ih (d.insert first value)
  unfold readConfig
  split
  · exact ⟨rfl, rfl⟩
  · split
    · exact kept s.allKeys d
    · exact ⟨rfl, rfl⟩

/-- A read only adds and replaces. -/
theorem readConfig_config (s : QSettings QVariant) (d : MorgothDaemon QVariant) :
    (d.readConfig s).config = if d.reads s then overlay d.config (some s) else d.config := by
  unfold readConfig reads
  cases d.configFileName.isEmpty with
  | true => rfl
  | false =>
    cases s.status == .noError with
    | false => rfl
    | true =>
      funext key
      simp only [Bool.false_eq_true, if_false, if_true, Bool.not_false, Bool.and_self,
        insertKeys_config, overlay, Option.bind_some]
      by_cases listed : key ∈ s.allKeys
      · rw [if_pos listed]
      · rw [if_neg listed, (s.value_none key).mpr listed, Option.none_or]

def defaults (ofString : String → QVariant) : String → Option QVariant
  | "dbus" => some (ofString "session")
  | "database" => some (ofString "morgoth.sqlite")
  | _ => none

theorem loadDefaults_config (ofString : String → QVariant) (configFileName : String) :
    ((⟨configFileName, fun _ => none, false⟩ : MorgothDaemon QVariant).loadDefaults
      ofString).config = defaults ofString := by
  funext key
  unfold defaults
  split
  · rfl
  · rfl
  · rename_i dbus database
    exact (Function.update_of_ne database _ _).trans (Function.update_of_ne dbus _ _)

end MorgothDaemon

open MorgothDaemon

/-! ## Histories of reads -/

/-- A signal, and what is read if it makes the daemon read. -/
structure SignalEvent (QVariant : Type) where
  signal : UnixSignal
  settings : QSettings QVariant

/-- The daemon, and the last file that it has read. -/
structure ConfigHistory (QVariant : Type) where
  daemon : MorgothDaemon QVariant
  last : Option (QSettings QVariant)

namespace ConfigHistory

variable {ofString : String → QVariant} {t u : ConfigHistory QVariant}

/-- The file that is the last one after another attempt to read one. -/
def lastRead (d : MorgothDaemon QVariant) (s : QSettings QVariant)
    (last : Option (QSettings QVariant)) : Option (QSettings QVariant) :=
  if d.reads s then some s else last

/-- Once the daemon quits, it handles no signal any more. -/
def step (t : ConfigHistory QVariant) (e : SignalEvent QVariant) : Option (ConfigHistory QVariant) :=
  if t.daemon.quitting then none
  else some {
    daemon := t.daemon.handleSignal e.signal e.settings
    last := if e.signal = .sighup then lastRead t.daemon e.settings t.last else t.last }

/-- A daemon whose constructor has just read the given file. -/
def begin (ofString : String → QVariant) (configFileName : String) (s : QSettings QVariant) :
    ConfigHistory QVariant where
  daemon := create ofString configFileName s
  last := lastRead (create ofString configFileName s) s none

/-- The configuration is the defaults with the last file on top of them. -/
def HistoryFree (ofString : String → QVariant) (t : ConfigHistory QVariant) : Prop :=
  t.daemon.config = overlay (defaults ofString) t.last

/-- A file that is read drops no key of the file before, unless the key had its
default value there. -/
def DropsDefaults (ofString : String → QVariant) (t : ConfigHistory QVariant)
    (e : SignalEvent QVariant) : Prop :=
  e.signal = .sighup → t.daemon.reads e.settings = true →
    ∀ key ∉ e.settings.allKeys, ∀ s, t.last = some s → key ∈ s.allKeys →
      s.value key = defaults ofString key

/-- Reading one file after another is reading the second, exactly if the first
has nothing to add. -/
theorem overlay_overlay (base : String → Option QVariant) (last : Option (QSettings QVariant))
    (s : QSettings QVariant) :
    overlay (overlay base last) (some s) = overlay base (some s) ↔
      ∀ key ∉ s.allKeys, ∀ old, last = some old → key ∈ old.allKeys → old.value key = base key := by
  rw [funext_iff]
  apply forall_congr'
  intro key
  by_cases listed : key ∈ s.allKeys
  · obtain ⟨value, there⟩ : ∃ value, s.value key = some value := by
      rw [← Option.ne_none_iff_exists', ne_eq, s.value_none, not_not]
      exact listed
    simp [overlay, there, listed]
  · have missing := (s.value_none key).mpr listed
    cases last with
    | none => simp [overlay, missing]
    | some old =>
      by_cases had : key ∈ old.allKeys
      · obtain ⟨value, there⟩ : ∃ value, old.value key = some value := by
          rw [← Option.ne_none_iff_exists', ne_eq, old.value_none, not_not]
          exact had
        simp [overlay, missing, listed, had, there]
      · simp [overlay, missing, listed, had, (old.value_none key).mpr had]

theorem begin_historyFree (configFileName : String) (s : QSettings QVariant) :
    (begin ofString configFileName s).HistoryFree ofString := by
  have read := readConfig_config s
    ((⟨configFileName, fun _ => none, false⟩ : MorgothDaemon QVariant).loadDefaults ofString)
  rw [loadDefaults_config] at read
  have same : (create ofString configFileName s).reads s =
      ((⟨configFileName, fun _ => none, false⟩ : MorgothDaemon QVariant).loadDefaults
        ofString).reads s := by
    unfold create reads
    rw [(readConfig_frame s _).1]
  unfold HistoryFree begin lastRead
  rw [same]
  refine Eq.trans read ?_
  split <;> rfl

/-- A read keeps the configuration free of its history exactly if it drops
nothing that mattered. -/
theorem step_historyFree {e : SignalEvent QVariant} (ht : t.HistoryFree ofString)
    (hu : t.step e = some u) : u.HistoryFree ofString ↔ t.DropsDefaults ofString e := by
  obtain ⟨signal, s⟩ := e
  unfold step at hu
  split at hu
  · cases hu
  · obtain rfl := Option.some.inj hu
    cases signal with
    | sigterm => exact iff_of_true ht nofun
    | other number => exact iff_of_true ht nofun
    | sighup =>
      unfold HistoryFree DropsDefaults at *
      simp only [handleSignal, if_true, readConfig_config, lastRead, forall_const]
      cases t.daemon.reads s with
      | false => simpa using ht
      | true =>
        rw [ht]
        simpa using overlay_overlay (defaults ofString) t.last s

/-- Two histories that are free of what came before, and end in the same file,
end in the same configuration. -/
theorem same_file_same_config {t u : ConfigHistory QVariant} (ht : t.HistoryFree ofString)
    (hu : u.HistoryFree ofString) (same : t.last = u.last) : t.daemon.config = u.daemon.config := by
  unfold HistoryFree at ht hu
  rw [ht, hu, same]

theorem runs_historyFree (ofString : String → QVariant) (configFileName : String)
    (first : QSettings QVariant) (es : List (SignalEvent QVariant)) :
    Machine.Throughout step (HistoryFree ofString) (begin ofString configFileName first) es ↔
      Machine.EachStep step (DropsDefaults ofString) (begin ofString configFileName first) es :=
  Machine.throughout_iff_eachStep (A := fun _ => True) (fun _ _ _ _ _ _ => trivial)
    (fun _ _ _ _ _ ht hu => step_historyFree ht hu) trivial (begin_historyFree configFileName first)

/-- The configuration never depends on the files before the last one exactly if
no read drops a key that the last file had set to another value than its
default. Two such daemons that have read the same file last have the same
configuration. A read that fails changes nothing. -/
theorem history_free_iff (ofString : String → QVariant) (configFileName : String)
    (first : QSettings QVariant) (es : List (SignalEvent QVariant)) :
    (Machine.Throughout step (HistoryFree ofString) (begin ofString configFileName first) es ↔
      Machine.EachStep step (DropsDefaults ofString) (begin ofString configFileName first) es) ∧
    (∀ configFileName' first' es' t u,
      Machine.EachStep step (DropsDefaults ofString) (begin ofString configFileName first) es →
      Machine.EachStep step (DropsDefaults ofString) (begin ofString configFileName' first') es' →
      Machine.run step (begin ofString configFileName first) es = some t →
      Machine.run step (begin ofString configFileName' first') es' = some u →
      t.last = u.last → t.daemon.config = u.daemon.config) ∧
    ∀ (t u : ConfigHistory QVariant) (e : SignalEvent QVariant), t.step e = some u →
      t.daemon.reads e.settings = false → u.daemon.config = t.daemon.config ∧ u.last = t.last := by
  refine ⟨runs_historyFree ofString configFileName first es, ?_, ?_⟩
  · intro configFileName' first' es' t u drops drops' ht hu same
    have free := (runs_historyFree ofString configFileName first es).mpr drops
    have free' := (runs_historyFree ofString configFileName' first' es').mpr drops'
    exact same_file_same_config (free es t List.prefix_rfl ht) (free' es' u List.prefix_rfl hu) same
  · intro t u e hu failed
    unfold step at hu
    split at hu
    · cases hu
    · obtain rfl := Option.some.inj hu
      cases signal : e.signal <;>
        simp [handleSignal, readConfig_config, lastRead, failed]

/-- A file that names a user, and one that does not. -/
def withUser : QSettings String where
  values := (∅ : AList fun _ : String => String).insert "user" "tf2"

/-- The servers run as the user of a file that is long replaced, unless the
daemon has been started since. -/
theorem user_outlives_its_file :
    ∃ t, Machine.run step (begin id "/etc/morgoth.conf" withUser) [⟨.sighup, {}⟩] = some t ∧
      t.last.map QSettings.allKeys = some [] ∧ t.daemon.config "user" = some "tf2" ∧
      (begin id "/etc/morgoth.conf" ({} : QSettings String)).daemon.config "user" = none ∧
      ¬ t.HistoryFree id := by
  refine ⟨_, rfl, rfl, rfl, rfl, ?_⟩
  intro free
  have user := congrFun free "user"
  cases user

end ConfigHistory

end Morgoth
