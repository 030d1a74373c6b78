import Morgoth.Marshalling
import Morgoth.Status

/-!
# The players on the bus

The D-Bus operators of `PlayerInfo` and of `PlayerInfoList`, which carry the
property `players` and its change signal.

* `playerInfo`: the two operators of one player are a codec;
* `writePlayerInfoList_list`, `readPlayerInfoList_list`: those of a list are what
  the library makes of it;
* `players_round_trip`: a list that is read is the one that was written.
-/

namespace Morgoth

namespace PlayerInfo

def setId (player : PlayerInfo) (id : Int) : PlayerInfo := { player with id }

def setName (player : PlayerInfo) (name : String) : PlayerInfo := { player with name }

def setSteamId (player : PlayerInfo) (steamId : SteamId) : PlayerInfo := { player with steamId }

end PlayerInfo

namespace DBus

/-! ## The operators -/

/-- `operator<<` for `PlayerInfo`. -/
def writePlayerInfo (argument : QDBusArgument) (player : PlayerInfo) : QDBusArgument :=
  let argument := argument.append .beginStructure
  let argument := argument.append (.int32 player.id)
  let argument := argument.append (.string player.name)
  let argument := argument.append (.uint64 player.steamId.toSteamId64)
  argument.append .endStructure

/-- `operator>>` for `PlayerInfo`. -/
def readPlayerInfo (player : PlayerInfo) : Reading PlayerInfo := do
  beginStructure
  let id ← int32
  let name ← string
  let steamId64 ← uint64
  endStructure
  return ((player.setId id).setName name).setSteamId ⟨steamId64⟩

/-- `operator<<` for `PlayerInfoList`. -/
def writePlayerInfoList (argument : QDBusArgument) (players : List PlayerInfo) : QDBusArgument :=
  let argument := argument.append (.beginArray (typeToSignature writePlayerInfo {}))
  let argument := players.foldl writePlayerInfo argument
  argument.append .endArray

/-- `operator>>` for `PlayerInfoList`. -/
def readPlayerInfoList (_players : List PlayerInfo) : Reading (List PlayerInfo) := do
  beginArray
  -- `players.clear()`
  let players ← untilEnd (fun players => do
    let playerInfo ← readPlayerInfo {}
    return players ++ [playerInfo]) []
  endArray
  return players

/-! ## The declared type -/

/-- The type of `players` in `org.morgoth.ServerStatus.xml`. -/
def playersSignature : String := "a(ist)"

def playerInfoType : DBusType := .struct [.int32, .string, .uint64]

def playersType : DBusType := .array playerInfoType

theorem playersType_text : playersType.text = playersSignature := by decide

/-! ## The codecs -/

def playerInfoTokens (player : PlayerInfo) : List Token :=
  [.beginStructure, .int32 player.id, .string player.name, .uint64 player.steamId.toSteamId64,
    .endStructure]

theorem writePlayerInfo_eq (argument : QDBusArgument) (player : PlayerInfo) :
    writePlayerInfo argument player =
      { argument with rest := argument.rest ++ playerInfoTokens player } := by
  simp only [writePlayerInfo, QDBusArgument.append, playerInfoTokens, List.append_assoc,
    List.cons_append, List.nil_append]

theorem playerInfo_typed (player : PlayerInfo) : Typed (playerInfoTokens player) [playerInfoType] :=
  have fields : Typed [.int32 player.id, .string player.name, .uint64 player.steamId.toSteamId64]
      [.int32, .string, .uint64] := .int32 _ (.string _ (.uint64 _ .nil))
  .struct fields .nil

/-- All fields are set, so nothing of the old player stays. -/
theorem readPlayerInfo_takes (old player : PlayerInfo) :
    Takes (readPlayerInfo old) (playerInfoTokens player) player := by
  refine beginStructure_takes.bind ?_
  refine (int32_takes player.id).bind ?_
  refine (string_takes player.name).bind ?_
  refine (uint64_takes player.steamId.toSteamId64).bind ?_
  refine endStructure_takes.bind ?_
  exact takes_pure player

/-- A player with its two operators. -/
def playerInfo : Codec PlayerInfo where
  write := writePlayerInfo
  read := readPlayerInfo
  type := playerInfoType
  tokens := playerInfoTokens
  appends := writePlayerInfo_eq
  typed := playerInfo_typed
  takes := readPlayerInfo_takes

theorem writePlayerInfoList_list : writePlayerInfoList = (playerInfo.list {}).write := rfl

theorem readPlayerInfoList_list : readPlayerInfoList = (playerInfo.list {}).read := rfl

/-- Whatever stands in the stream before and behind a list, and whatever the list
it is read into held, reading yields the players that were written and stops just
behind them. What was written has the declared type. -/
theorem players_round_trip (players : List PlayerInfo) :
    ∃ written : List Token,
      (∀ argument, writePlayerInfoList argument players =
        { argument with rest := argument.rest ++ written }) ∧
      Typed written [playersType] ∧ signature written = playersSignature ∧
      (∃ elements : List (List Token),
        written = .beginArray playerInfoType.text :: elements.flatten ++ [.endArray] ∧
        elements.length = players.length ∧ ∀ element ∈ elements, Typed element [playerInfoType]) ∧
      ∀ old past rest, readPlayerInfoList old ⟨past, written ++ rest⟩ =
        some (players, ⟨past ++ written, rest⟩) := by
  have typed := (playerInfo.list {}).typed players
  refine ⟨(playerInfo.list {}).tokens players, fun argument => ?_, typed, ?_, ?_, fun old => ?_⟩
  · rw [writePlayerInfoList_list, (playerInfo.list {}).appends]
  · exact typed.signature_one.trans playersType_text
  · refine ⟨players.map playerInfo.tokens, ?_, List.length_map _, ?_⟩
    · rw [← List.flatMap_def]
      rfl
    · intro element there
      obtain ⟨player, -, rfl⟩ := List.mem_map.mp there
      exact playerInfo.typed player
  · rw [readPlayerInfoList_list]
    exact (playerInfo.list {}).takes old players

end DBus

end Morgoth
