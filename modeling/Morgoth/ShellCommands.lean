import Morgoth.ShellWords
import Morgoth.StarterCommands

/-!
# The starter's shell commands

The launch command is typed into the shell of the session, and the output of
the session is piped into a command that another shell reads. Neither the path
of the server nor the name of the log file is quoted.

* `commands_mean_iff`: which of them are read as they are.
-/

namespace Morgoth

namespace TmuxSessionWrapper

def pipeCommand (dest : String) : String := "/usr/bin/cat > " ++ dest

/-- The command redirects `cat` to the file of that name, and to nothing else.
A shell that reads no terminal takes patterns in a redirection as they are. -/
def PipesTo (dest : String) : Prop :=
  ∃ w, Shell.lex (pipeCommand dest).toList =
      ([.word ("/usr/bin/cat".toList.map .lit), .op '>', .word w], .unquoted) ∧
    Shell.Spells true w dest.toList

theorem pipesTo_iff {dest : String} (absolute : isRelativePath dest = false) :
    PipesTo dest ↔ ∀ c ∈ dest.toList, Shell.isSpecial true c = false := by
  have complete : Shell.Lexer.run {} "/usr/bin/cat > ".toList =
      { tokens := [.word ("/usr/bin/cat".toList.map .lit), .op '>'] } := by decide
  have start : dest.toList.head? = some '/' ∨ dest.toList.head? = some ':' := by
    rw [or_iff_not_imp_left]
    simpa [isRelativePath] using absolute
  have bare : Shell.Bare true dest.toList ∧ dest.toList ≠ [] ↔
      ∀ c ∈ dest.toList, Shell.isSpecial true c = false := by
    constructor
    · rintro ⟨bare, -⟩
      exact bare.1
    · intro plain
      refine ⟨⟨plain, ?_, ?_⟩, ?_⟩ <;> rcases start with start | start <;> intro other <;>
        rw [other] at start <;> cases start
  rw [← bare, ← Shell.lex_target_iff]
  unfold PipesTo pipeCommand
  rw [String.toList_append, Shell.lex_after complete]
  simp [Prod.ext_iff]

end TmuxSessionWrapper

namespace Server

open TmuxSessionWrapper

/-- The first word is the server's own `srcds_run`, and the arguments are read
as they would be alone. -/
def LaunchesWith (s : Server) (configuration : ServerConfiguration) : Prop :=
  let arguments :=
    Shell.lex (configuration.value "org.morgoth.Server.launchArguments").toList
  ∃ w, Shell.lex (s.launchCommand configuration).toList = (.word w :: arguments.1, arguments.2) ∧
    Shell.Spells false w (s.path.toLocalFile ++ "/srcds_run").toList

theorem launchesWith_iff {s : Server} {configuration : ServerConfiguration} :
    s.LaunchesWith configuration ↔ Shell.Bare false s.path.toLocalFile.toList := by
  have plain : ∀ c ∈ "srcds_run".toList, Shell.isSpecial false c = false := by decide
  rw [← Shell.lex_first_iff (configuration.value "org.morgoth.Server.launchArguments").toList plain]
  have command : (s.launchCommand configuration).toList =
      s.path.toLocalFile.toList ++ '/' :: ("srcds_run".toList ++
        ' ' :: (configuration.value "org.morgoth.Server.launchArguments").toList) := by
    unfold launchCommand
    rw [String.toList_append, String.toList_append, List.append_assoc]
    rfl
  unfold LaunchesWith
  rw [command, String.toList_append]
  rfl

/-- What a start tells tmux means what it names: the launch command, and the
redirection to a log file. -/
structure CommandsMean (s : Server) (configuration : ServerConfiguration) (log : String) :
    Prop where
  told : ∀ h, s.configuration = some configuration →
    Issues (s.startCommand configuration) s.tmux (s.bringUp h).1
  launch : s.LaunchesWith configuration
  pipe : PipesTo log

/-- The commands mean what they name, if and only if the path of the server has
no character that the shell takes for something else, and the name of the log
file has none but those of a pattern. -/
theorem commands_mean_iff {s : Server} {configuration : ServerConfiguration} {log : String}
    (absolute : isRelativePath log = false) :
    s.CommandsMean configuration log ↔
      Shell.Bare false s.path.toLocalFile.toList ∧
        ∀ c ∈ log.toList, Shell.isSpecial true c = false := by
  have launches : s.LaunchesWith configuration ↔ Shell.Bare false s.path.toLocalFile.toList :=
    launchesWith_iff
  rw [← launches, ← pipesTo_iff absolute]
  constructor
  · rintro ⟨-, launch, pipe⟩
    exact ⟨launch, pipe⟩
  · rintro ⟨launch, pipe⟩
    exact ⟨fun h => bringUp_issues h, launch, pipe⟩

theorem commands_mean_iff_plain :
    (create .ideal { scheme := "file", path := "/srv/tf2" } "tf2").CommandsMean .default
      "/var/log/[tf2].log" :=
  (commands_mean_iff (by decide)).mpr ⟨by decide, by decide⟩

/-- A blank in the path ends the first word, and a quote in the name of the log
file is not read as itself. -/
theorem blank_in_path :
    (create .ideal { scheme := "file", path := "/srv/my server" } "tf2").valid = true ∧
    ¬ (create .ideal { scheme := "file", path := "/srv/my server" } "tf2").LaunchesWith .default ∧
    isRelativePath "/var/log/tf2's" = false ∧ ¬ PipesTo "/var/log/tf2's" := by
  refine ⟨rfl, ?_, by decide, ?_⟩
  · intro launches
    exact absurd ((launchesWith_iff.mp launches).1 ' ' (by decide)) (by decide)
  · intro pipes
    exact absurd ((pipesTo_iff (by decide)).mp pipes '\'' (by decide)) (by decide)

end Server

end Morgoth
