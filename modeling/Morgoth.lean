import Morgoth.Agreement
import Morgoth.Bootup
import Morgoth.Bus
import Morgoth.Cleared
import Morgoth.Config
import Morgoth.Convergence
import Morgoth.Credentials
import Morgoth.CtlReads
import Morgoth.Durability
import Morgoth.Endpoints
import Morgoth.ExitCodes
import Morgoth.Followers
import Morgoth.Generations
import Morgoth.Kills
import Morgoth.Lifecycle
import Morgoth.LogFiles
import Morgoth.NameMap
import Morgoth.Outlives
import Morgoth.Pings
import Morgoth.PlayerLists
import Morgoth.Players
import Morgoth.Privileges
import Morgoth.Progress
import Morgoth.Recovery
import Morgoth.Removal
import Morgoth.Routing
import Morgoth.Script
import Morgoth.Session
import Morgoth.ShellCommands
import Morgoth.StartReturns
import Morgoth.Startup
import Morgoth.SteamIdPrinting
import Morgoth.StopReturns
import Morgoth.TmuxCalls
import Morgoth.Tracking
import Morgoth.Transaction
import Morgoth.Uniqueness
import Morgoth.Wiring
