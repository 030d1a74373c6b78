import Morgoth.Remote

/-!
# The commands of morgothctl

`list`, `add`, `remove`, `config`, `status` and `console` as dialogues with the daemon;
the three that wait for a server are in `Commands`. Each gets its positional arguments, and the
help text that `showHelp` prints is left out.
-/

namespace Morgoth

/-- What a command prints, and its exit code. -/
structure CommandResult where
  out : List String := []
  code : Int := 0

/-- A command. Where it is `none` at the end, it has read past the end of a list. -/
abbrev Command := Dialogue Request Request.Answer (Option CommandResult)

open Dialogue (ask done)

def exits (out : List String) (code : Int) : Command := done (some { out, code })

def showHelp (exitCode : Int) : Command := exits [] exitCode

def doesNotExist (serverName : String) : Command :=
  exits ["Server \"" ++ serverName ++ "\" does not exist.\n"] 2

namespace ListCommand

open QTextStream (center widest)

/-- The name and the path of a server. -/
def row (serverName : String) : Dialogue Request Request.Answer (String × String) :=
  ask (.serverPath serverName) fun (server : String) =>
  ask (.name server) fun (name : String) =>
  ask (.path server) fun (path : String) =>
  done (name, path)

def header : String × String := ("-- name --", "-- path --")

/-- `std::sort` by the names. It leaves open in which order rows of one name come. -/
def sorted (rows : List (String × String)) : List (String × String) :=
  rows.mergeSort fun a b => !QString.lt b.1 a.1

def line (namePadding pathPadding : Nat) (row : String × String) : String :=
  center namePadding row.1 ++ center 3 " " ++ center pathPadding row.2 ++ "\n"

/-- The header and the rows. -/
def table (rows : List (String × String)) : Option (List String) := do
  let output := header :: sorted rows
  let namePadding ← widest (output.map Prod.fst)
  let pathPadding ← widest (output.map Prod.snd)
  return output.map (line namePadding pathPadding)

def execute : Command :=
  ask .servers fun (servers : List String) =>
  if servers.isEmpty then exits ["No servers installed.\n"] 0
  else (Dialogue.forEach row servers).bind fun rows =>
    done ((table rows).map fun out => { out })

end ListCommand

def AddCommand.execute (toUrl : String → QUrl) : List String → Command
  | [name, path] => ask (.add (toUrl path) name) fun (ret : Bool) => exits [] (if ret then 0 else 2)
  | _ => showHelp 1

def RemoveCommand.execute : List String → Command
  | [] => showHelp 1
  | name :: _ =>
    let remove := ask (.remove name) fun (ret : Bool) => exits [] (if ret then 0 else 4)
    ask .servers fun (servers : List String) =>
    if name ∉ servers then doesNotExist name
    else
      ask (.serverPath name) fun (server : String) =>
      ask (.valid server) fun (valid : Bool) =>
      if valid then
        ask (.coordinatorPath server) fun (coordinator : String) =>
        ask (.state coordinator) fun (state : State) =>
        if state = .running then exits ["Server \"" ++ name ++ "\" is currently running.\n"] 3
        else remove
      else remove

namespace ConfigCommand

open QTextStream (right widest)

/-- The whole configuration. Without keys there is no longest one to read. -/
def list (configuration : String) (keys : List String) : Command :=
  match widest keys with
  | none => done none
  | some padding =>
    (Dialogue.forEach (fun key => ask (.value configuration key) fun (value : String) =>
      done (right padding key ++ ": " ++ value ++ "\n")) keys).bind fun out => exits out 0

/-- By the number of the other arguments. -/
def perform (configuration : String) (keys : List String) : List String → Command
  | [] => list configuration keys
  | [key] => ask (.value configuration key) fun (value : String) => exits [value ++ "\n"] 0
  | [key, value] => ask (.setValue configuration key value) fun _ => exits [] 0
  | _ => showHelp 1

def execute : List String → Command
  | [] => showHelp 1
  | serverName :: rest =>
    ask .servers fun (servers : List String) =>
    if serverName ∉ servers then doesNotExist serverName
    else
      ask (.serverPath serverName) fun (server : String) =>
      ask (.configurationPath server) fun (configuration : String) =>
      ask (.keys configuration) fun (keys : List String) => perform configuration keys rest

end ConfigCommand

namespace StatusCommand

def printStatus (server : String) (out : List String) : Command :=
  ask (.statusPath server) fun (status : String) =>
  ask (.hostname status) fun (hostname : String) =>
  ask (.map status) fun (map : String) =>
  ask (.playerCount status) fun (playerCount : Int) =>
  ask (.maxPlayers status) fun (maxPlayers : Int) =>
  ask (.players status) fun (players : List PlayerInfo) =>
  exits (out ++ ["    " ++ hostname ++ " " ++ map ++ " " ++ toString playerCount ++ "/" ++
    toString maxPlayers ++ "\n"] ++ players.map fun player => " " ++ player.name ++ "\n") 0

def stateText : State → String
  | .offline => "offline"
  | .starting => "starting"
  | .running => "running"
  | .shuttingDown => "shutting down"
  | .crashed => "crashed"

/-- The state is read twice: for its text, and for what else is printed. -/
def printState (server : String) : Command :=
  ask (.coordinatorPath server) fun (coordinator : String) =>
  ask (.state coordinator) fun (state : State) =>
  ask (.name server) fun (name : String) =>
  ask (.state coordinator) fun (state' : State) =>
  let out := [name ++ ": " ++ stateText state ++ "\n"]
  if state' = .running then printStatus server out else exits out 0

def execute : List String → Command
  | [] => showHelp 1
  | serverName :: _ =>
    ask .servers fun (servers : List String) =>
    if serverName ∉ servers then doesNotExist serverName
    else
      ask (.serverPath serverName) fun (server : String) =>
      ask (.valid server) fun (valid : Bool) =>
      if valid then printState server
      else ask (.name server) fun (name : String) => exits [name ++ ": invalid\n"] 0

end StatusCommand

namespace ConsoleCommand

/-- What becomes of the process: it exits, ends with a fatal error, or becomes another. -/
inductive Outcome
  | exits (result : CommandResult)
  | fatal
  | execve (path : String) (args : List String)

/-- The directories that `PATH` names, in their order. -/
def tmuxExec (cleanPath : String → String) (fileExists : String → Bool) (path : String) :
    Option String :=
  ((splitAt ':' path).map fun p => cleanPath (p ++ "/" ++ "tmux")).find? fileExists

def notRunning (serverName : String) : CommandResult :=
  { out := ["Server " ++ serverName ++ " is not running.\n"], code := 3 }

def execute (cleanPath : String → String) (fileExists : String → Bool) (path : String) :
    List String → Dialogue Request Request.Answer Outcome
  | [] => done (.exits { code := 1 })
  | serverName :: _ =>
    ask .servers fun (servers : List String) =>
    if serverName ∉ servers then
      done (.exits { out := ["Server \"" ++ serverName ++ "\" does not exist.\n"], code := 2 })
    else
      ask (.serverPath serverName) fun (server : String) =>
      ask (.coordinatorPath server) fun (coordinator : String) =>
      ask (.state coordinator) fun (state : State) =>
      if state ≠ .running then done (.exits (notRunning serverName))
      else match tmuxExec cleanPath fileExists path with
        | none => done .fatal
        | some tmux => ask (.sessionName coordinator) fun (session : String) =>
          done (.execve tmux [tmux, "attach-session", "-t", session])

end ConsoleCommand

end Morgoth
