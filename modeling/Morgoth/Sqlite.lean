import Morgoth.Qt
import Morgoth.Table

/-!
# The database

The three tables that the persistor creates, and what SQLite and its Qt driver
do for it. A string that is pasted into a statement may say anything in SQL, so
what SQLite reads in the text is a parameter: only of strings without a quote
is it known that they stand for themselves. The text is given from the point
on where the kind of the statement is settled, and `none` is a statement that
is not valid.
-/

namespace Morgoth

structure ServerRow where
  path : String
  name : String
  deriving DecidableEq, Repr

/-- A row of `server_configuration_entries`. `none` is NULL. -/
structure Entry where
  serverid : Option Nat
  key : String
  value : String
  deriving DecidableEq, Repr

structure PluginRow where
  name : String
  enabled : String
  deriving DecidableEq, Repr

structure Database where
  servers : Table ServerRow := .empty
  entries : Table Entry := .empty
  plugins : Table PluginRow := .empty

/-- `(SELECT id FROM servers WHERE name=...)` as a value: the first such row. -/
def Database.idOf (db : Database) (name : String) : Option Nat :=
  (db.servers.rows.find? fun row => row.2.name == name).map Prod.fst

/-- A string that a literal in single quotes holds as it is. SQLite reads a
statement up to its first NUL. -/
def Literal (s : String) : Prop := '\x27' ∉ s.toList ∧ '\x00' ∉ s.toList

instance (s : String) : Decidable (Literal s) := inferInstanceAs (Decidable (_ ∧ _))

/-- `... FROM servers WHERE` -/
def nameClause (name : String) : String := "name='" ++ name ++ "'"

/-- `SELECT id FROM server_configuration_entries WHERE` -/
def entryClause (name key : String) : String :=
  "serverid=(SELECT id FROM servers WHERE name='" ++ name ++ "') AND key='" ++ key ++ "'"

/-- `UPDATE server_configuration_entries SET` -/
def entryAssignment (value id : String) : String := "value='" ++ value ++ "' WHERE id=" ++ id

/-- `INSERT INTO server_configuration_entries(serverid, key, value) VALUES` -/
def entryValues (name key value : String) : String :=
  "((SELECT id FROM servers WHERE name='" ++ name ++ "'), '" ++ key ++ "', '" ++ value ++ "')"

/-- `REPLACE INTO plugins(name, enabled) VALUES` -/
def pluginValues (name enabled : String) : String := "('" ++ name ++ "', '" ++ enabled ++ "')"

/-- SQLite and its Qt driver. `numeric` is what is read back of a text that was
stored in a column of NUMERIC affinity, as the columns declared `string` are.
`toUrl` is what QVariant makes of a text. -/
structure Sqlite where
  whereServers : String → Option (Database → Nat × ServerRow → Bool)
  whereEntries : String → Option (Database → Nat × Entry → Bool)
  setEntries : String → Option (Database → Nat × Entry → Entry)
  valuesEntries : String → Option (Database → List Entry)
  valuesPlugins : String → Option (Database → List PluginRow)
  numeric : String → String
  toUrl : String → QUrl
  whereServers_literal : ∀ name, Literal name →
    whereServers (nameClause name) = some fun _ row => row.2.name == name
  whereEntries_literal : ∀ name key, Literal name → Literal key →
    (whereEntries (entryClause name key)).isSome
  valuesEntries_literal : ∀ name key value, Literal name → Literal key → Literal value →
    valuesEntries (entryValues name key value) = some fun db => [⟨db.idOf name, key, value⟩]
  valuesPlugins_literal : ∀ name enabled, Literal name → Literal enabled →
    valuesPlugins (pluginValues name enabled) = some fun _ => [⟨name, enabled⟩]
  numeric_word : ∀ s, (∃ c ∈ s.toList, 'g' ≤ c ∧ c ≤ 'z') → numeric s = s

/-- An entry as it is read back: both texts pass the affinity of their columns. -/
def Sqlite.stored (sql : Sqlite) (e : Entry) : Entry :=
  ⟨e.serverid, sql.numeric e.key, sql.numeric e.value⟩

/-- `QSqlQuery::size` of the QSQLITE driver, which does not report sizes. -/
def querySize {α : Type} (_ : List α) : Int := -1

namespace Database

/-- The ids of the rows that a SELECT from `servers` finds. -/
def selectServers (sql : Sqlite) (db : Database) (clause : String) : List Nat :=
  match sql.whereServers clause with
  | some p => (db.servers.rows.filter (p db)).map Prod.fst
  | none => []

def insertServer (db : Database) (row : ServerRow) : Database :=
  { db with servers := db.servers.insert row }

def insertEntries (sql : Sqlite) (db : Database) (entries : List Entry) : Database :=
  { db with entries := db.entries.insertAll (entries.map sql.stored) }

/-- `DELETE FROM server_configuration_entries WHERE serverid=:serverid` -/
def deleteEntries (db : Database) (id : Nat) : Database :=
  { db with entries := db.entries.deleteWhere fun row => row.2.serverid == some id }

/-- REPLACE: a row whose unique name is taken goes first. -/
def replacePlugin (db : Database) (row : PluginRow) : Database :=
  { db with plugins := db.plugins.replace PluginRow.name row }

/-- `SELECT key, value FROM server_configuration_entries WHERE serverid=:serverid` -/
def entriesOf (db : Database) (id : Nat) : List (Nat × Entry) :=
  db.entries.rows.filter fun row => row.2.serverid == some id

end Database

/-! ## An example of a reader -/

/-- The text made of the pieces, with a string between each two of them. -/
def weave : List String → List String → String
  | piece :: pieces, s :: strings => piece ++ (s ++ weave pieces strings)
  | piece :: _, [] => piece
  | [], _ => ""

/-- The strings between the pieces, if the text is made so and none of them
holds a quote. -/
def unweave : List String → List Char → Option (List String)
  | [], _ => none
  | [last], text => if text = last.toList then some [] else none
  | piece :: next :: pieces, text =>
    if piece.toList <+: text then
      let rest := text.drop piece.length
      (unweave (next :: pieces) (rest.dropWhile (· ≠ '\x27'))).map
        (String.ofList (rest.takeWhile (· ≠ '\x27')) :: ·)
    else none

theorem weave_one (a b s : String) : weave [a, b] [s] = a ++ s ++ b := by
  simp [weave, String.append_assoc]

theorem weave_two (a b c s t : String) : weave [a, b, c] [s, t] = a ++ s ++ b ++ t ++ c := by
  simp [weave, String.append_assoc]

theorem weave_three (a b c d s t u : String) :
    weave [a, b, c, d] [s, t, u] = a ++ s ++ b ++ t ++ c ++ u ++ d := by
  simp [weave, String.append_assoc]

theorem weave_quoted {piece : String} (pieces strings : List String)
    (quoted : piece.toList.head? = some '\x27') :
    ∃ rest, (weave (piece :: pieces) strings).toList = '\x27' :: rest := by
  obtain ⟨tail, ht⟩ : ∃ tail, piece.toList = '\x27' :: tail := by
    cases h : piece.toList with
    | nil =>
      rw [h] at quoted
      cases quoted
    | cons c tail =>
      rw [h] at quoted
      exact ⟨tail, by rw [Option.some.inj quoted]⟩
  cases strings with
  | nil => exact ⟨tail, ht⟩
  | cons s strings => exact ⟨tail ++ _, by simp only [weave, String.toList_append, ht]; rfl⟩

/-- Literals are found again. -/
theorem unweave_weave {pieces strings : List String} {text : String}
    (made : text = weave pieces strings) (length : pieces.length = strings.length + 1)
    (quoted : ∀ piece ∈ pieces.tail, piece.toList.head? = some '\x27')
    (plain : ∀ s ∈ strings, Literal s) : unweave pieces text.toList = some strings := by
  subst made
  induction strings generalizing pieces with
  | nil =>
    obtain ⟨last, rfl⟩ := List.length_eq_one_iff.mp length
    simp [weave, unweave]
  | cons s strings ih =>
    obtain ⟨piece, next, pieces, rfl⟩ : ∃ piece next rest, pieces = piece :: next :: rest := by
      match pieces, length with
      | piece :: next :: rest, _ => exact ⟨piece, next, rest, rfl⟩
    obtain ⟨rest, hrest⟩ := weave_quoted pieces strings (quoted next List.mem_cons_self)
    have no_quote : ∀ c ∈ s.toList, decide (c ≠ '\x27') = true := by
      intro c hc
      exact decide_eq_true fun same => (plain s List.mem_cons_self).1 (same ▸ hc)
    have taken : (s.toList ++ '\x27' :: rest).takeWhile (· ≠ '\x27') = s.toList := by
      rw [List.takeWhile_append_of_pos no_quote]
      simp
    have dropped : (s.toList ++ '\x27' :: rest).dropWhile (· ≠ '\x27') = '\x27' :: rest := by
      rw [List.dropWhile_append_of_pos no_quote]
      simp
    have later : unweave (next :: pieces) (weave (next :: pieces) strings).toList =
        some strings := by
      apply ih
      · simpa using length
      · exact fun piece hp => quoted piece (List.mem_cons_of_mem _ hp)
      · exact fun s hs => plain s (List.mem_cons_of_mem _ hs)
    rw [hrest] at later
    simp only [weave, unweave, String.toList_append, hrest, List.prefix_append, if_true,
      ← String.length_toList, List.drop_left, taken, dropped, later, String.ofList_toList,
      Option.map_some]

/-- A reader of statements with plain literals, and of one condition that may
follow a name. A text of digits is a number. -/
def Sqlite.plain : Sqlite where
  whereServers text :=
    match unweave ["name='", "'"] text.toList with
    | some [name] => some fun _ row => row.2.name == name
    | _ => match unweave ["name='", "' OR '", "'='", "'"] text.toList with
      | some [name, a, b] => some fun _ row => row.2.name == name || a == b
      | _ => none
  whereEntries text :=
    match unweave ["serverid=(SELECT id FROM servers WHERE name='", "') AND key='", "'"]
      text.toList with
    | some [name, key] => some fun db row => row.2.serverid == db.idOf name && row.2.key == key
    | _ => none
  setEntries _ := none
  valuesEntries text :=
    match unweave ["((SELECT id FROM servers WHERE name='", "'), '", "', '", "')"]
      text.toList with
    | some [name, key, value] => some fun db => [⟨db.idOf name, key, value⟩]
    | _ => none
  valuesPlugins text :=
    match unweave ["('", "', '", "')"] text.toList with
    | some [name, enabled] => some fun _ => [⟨name, enabled⟩]
    | _ => none
  numeric s :=
    let digits := s.toList.dropWhile (· == '0')
    if s.isEmpty || !s.toList.all Char.isDigit then s
    else if digits.isEmpty then "0" else String.ofList digits
  toUrl s :=
    if "file://".toList <+: s.toList then { scheme := "file", path := String.ofList (s.toList.drop 7) }
    else { path := s }
  whereServers_literal name hn := by
    have read : unweave ["name='", "'"] (nameClause name).toList = some [name] :=
      unweave_weave (weave_one _ _ name).symm rfl (by simp) (by simp [hn])
    rw [read]
  whereEntries_literal name key hn hk := by
    have read : unweave ["serverid=(SELECT id FROM servers WHERE name='", "') AND key='", "'"]
        (entryClause name key).toList = some [name, key] :=
      unweave_weave (weave_two _ _ _ name key).symm rfl (by simp) (by simp [hn, hk])
    rw [read]
    rfl
  valuesEntries_literal name key value hn hk hv := by
    have read : unweave ["((SELECT id FROM servers WHERE name='", "'), '", "', '", "')"]
        (entryValues name key value).toList = some [name, key, value] :=
      unweave_weave (weave_three _ _ _ _ name key value).symm rfl (by simp) (by simp [hn, hk, hv])
    rw [read]
  valuesPlugins_literal name enabled hn he := by
    have read : unweave ["('", "', '", "')"] (pluginValues name enabled).toList =
        some [name, enabled] :=
      unweave_weave (weave_two _ _ _ name enabled).symm rfl (by simp) (by simp [hn, he])
    rw [read]
  numeric_word s word := by
    obtain ⟨c, hc, low, high⟩ := word
    have no_digits : s.toList.all Char.isDigit = false := by
      apply Bool.eq_false_iff.mpr
      intro digits
      have digit : c.isDigit = true := List.all_eq_true.mp digits c hc
      simp only [Char.isDigit, Bool.and_eq_true, decide_eq_true_eq] at digit
      have impossible : 'g' ≤ '9' := Nat.le_trans low digit.2
      exact absurd impossible (by decide)
    simp [no_digits]

end Morgoth
