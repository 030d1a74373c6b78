import Morgoth.Path
import Morgoth.StarterCommands

/-!
# Log files

The log file of a server lies in its log directory, and a relative log
directory in the installation. The starter puts the one directly behind the
other.

* `log_files_apart_iff`: when two servers keep to log files of their own.
-/

namespace Morgoth.Server

open TmuxSessionWrapper

def logDirectory (configuration : ServerConfiguration) : String :=
  configuration.value "org.morgoth.Server.logDirectory"

/-- Where the server is installed: the directory that holds `srcds_run`. -/
def installation (s : Server) (cwd : List Path.Name) : List Path.Name :=
  Path.resolve cwd (s.path.toLocalFile ++ "/").toList

def logFile (s : Server) (configuration : ServerConfiguration) (cwd : List Path.Name) :
    List Path.Name :=
  Path.resolve cwd (s.logFileName configuration).toList

/-- A log directory that is meant to be in the installation. -/
structure LogsInside (configuration : ServerConfiguration) : Prop where
  relative : isRelativePath (logDirectory configuration) = true
  down : ['.', '.'] ∉ Path.names (logDirectory configuration).toList

/-- What is passed to `redirectOutput` names `gameserver.log` in the log
directory in the installation, wherever the daemon runs. -/
structure LogInPlace (s : Server) (configuration : ServerConfiguration) : Prop where
  passed : ∀ h, s.configuration = some configuration →
    Issues (s.startCommand configuration) s.tmux (s.bringUp h).1
  same : Path.Same (s.logFileName configuration).toList
    (s.path.toLocalFile ++ "/" ++ logDirectory configuration ++ "/gameserver.log").toList
  below : ∀ cwd, Path.Below (s.installation cwd) (s.logFile configuration cwd)

/-- The path ends with the slash that the starter does not put there, or there
is nothing to put behind it. -/
def LogSeparated (s : Server) (configuration : ServerConfiguration) : Prop :=
  s.path.toLocalFile.toList.getLast? = some '/' ∨ logDirectory configuration = ""

variable {s t : Server} {c e : ServerConfiguration}

theorem LogsInside.isAbsolute (hc : LogsInside c) :
    Path.isAbsolute (logDirectory c).toList = false := by
  have relative := hc.relative
  unfold isRelativePath at relative
  rw [Bool.not_eq_true', Bool.or_eq_false_iff] at relative
  exact relative.1

theorem logFileName_relative (hc : LogsInside c) :
    (s.logFileName c).toList =
      s.path.toLocalFile.toList ++ (logDirectory c).toList ++ '/' :: "gameserver.log".toList := by
  have relative := hc.relative
  unfold logDirectory at relative ⊢
  unfold logFileName
  simp only [relative, if_true, String.toList_append]
  rfl

theorem joined_toList (p d : String) : (p ++ "/" ++ d ++ "/gameserver.log").toList =
    p.toList ++ '/' :: (d.toList ++ '/' :: "gameserver.log".toList) := by
  simp only [String.toList_append, List.append_assoc]
  rfl

theorem logInPlace_iff (hc : LogsInside c) : LogInPlace s c ↔ LogSeparated s c := by
  have joined := Path.same_join_iff (a := s.path.toLocalFile.toList) hc.isAbsolute
    "gameserver.log".toList
  rw [← logFileName_relative hc, ← joined_toList, String.toList_eq_nil_iff] at joined
  constructor
  · intro inPlace
    exact joined.mp inPlace.same
  · intro separated
    have same := joined.mpr separated
    refine ⟨fun h => bringUp_issues h, same, ?_⟩
    intro cwd
    unfold logFile installation
    rw [same.resolve_eq, joined_toList, String.toList_append]
    exact Path.below_join hc.down (Path.names_single (by decide) (by decide)) (by decide) cwd _

/-- Two servers keep to log files of their own, each below its installation,
if and only if both have a slash between the installation and the log
directory. -/
theorem log_files_apart_iff (hc : LogsInside c) (he : LogsInside e) :
    (LogInPlace s c ∧ LogInPlace t e ∧
      ∀ cwd, Path.Apart (s.installation cwd) (t.installation cwd) →
        s.logFile c cwd ≠ t.logFile e cwd) ↔
    LogSeparated s c ∧ LogSeparated t e := by
  rw [← logInPlace_iff hc, ← logInPlace_iff he]
  constructor
  · rintro ⟨hs, ht, -⟩
    exact ⟨hs, ht⟩
  · rintro ⟨hs, ht⟩
    exact ⟨hs, ht, fun cwd apart => apart.ne (hs.below cwd) (ht.below cwd)⟩

/-- The servers of two installations, as they are created. -/
def atPath (path : String) : Server :=
  .create .ideal { scheme := "file", path := path } "tf2"

theorem default_logsInside : LogsInside .default := ⟨by decide, by decide⟩

theorem log_files_apart_iff_slashes :
    LogInPlace (atPath "/srv/tf2/") .default ∧ LogInPlace (atPath "/srv/csgo/") .default ∧
      ∀ cwd, Path.Apart ((atPath "/srv/tf2/").installation cwd)
          ((atPath "/srv/csgo/").installation cwd) →
        (atPath "/srv/tf2/").logFile .default cwd ≠ (atPath "/srv/csgo/").logFile .default cwd :=
  (log_files_apart_iff default_logsInside default_logsInside).mpr
    ⟨Or.inl (by decide), Or.inl (by decide)⟩

/-- Without the slash a log file is outside the installation, and can be that of
another server. -/
theorem log_file_shared :
    ∃ (s t : Server) (c e : ServerConfiguration), s.valid = true ∧ t.valid = true ∧
      LogsInside c ∧ LogsInside e ∧ Path.Apart (s.installation []) (t.installation []) ∧
      s.logFile c [] = t.logFile e [] ∧ ¬ LogInPlace s c :=
  ⟨atPath "/srv/tf", atPath "/srv/tf2/",
    (ServerConfiguration.default.setValue "org.morgoth.Server.logDirectory" "2/logs").1, .default,
    rfl, rfl, ⟨by decide, by decide⟩, default_logsInside, ⟨by decide, by decide⟩, by decide,
    fun inPlace => absurd inPlace.same.2 (by decide)⟩

end Morgoth.Server
