import Mathlib.Data.List.Basic

/-!
# Qt values

The parts of `QString`, `QUrl` and `QDir` that the sources use, as their
documentation gives them. A `QString` is a sequence of UTF-16 code units, which
matters where texts are sorted and measured. What `QUrl` does to a host name and what depends on
the machine is in `Host`.
-/

namespace Morgoth

namespace QString

def unitsOf (c : Char) : List Nat :=
  if c.toNat < 0x10000 then [c.toNat]
  else [0xD800 + (c.toNat - 0x10000) / 0x400, 0xDC00 + (c.toNat - 0x10000) % 0x400]

def units (s : String) : List Nat := s.toList.flatMap unitsOf

/-- The first unit in which the two differ decides. -/
def unitsLt : List Nat → List Nat → Bool
  | _, [] => false
  | [], _ :: _ => true
  | a :: as, b :: bs => if a = b then unitsLt as bs else decide (a < b)

/-- `operator<` -/
def lt (a b : String) : Bool := unitsLt (units a) (units b)

theorem unitsLt_total (as bs : List Nat) : unitsLt bs as = false ∨ unitsLt as bs = false := by
  induction as generalizing bs with
  | nil => cases bs <;> simp [unitsLt]
  | cons a as ih =>
    cases bs with
    | nil => simp [unitsLt]
    | cons b bs =>
      by_cases same : a = b
      · subst same
        simpa [unitsLt] using ih bs
      · simp only [unitsLt, if_neg same, if_neg (Ne.symm same), decide_eq_false_iff_not]
        omega

theorem unitsLt_trans {as bs cs : List Nat} (ab : unitsLt bs as = false)
    (bc : unitsLt cs bs = false) : unitsLt cs as = false := by
  induction as generalizing bs cs with
  | nil =>
    -- nothing but the empty text is no greater than that
    cases bs with
    | nil => exact bc
    | cons b bs => cases cs <;> simp_all [unitsLt]
  | cons a as ih =>
    cases bs with
    | nil => simp [unitsLt] at ab
    | cons b bs =>
      cases cs with
      | nil => simp [unitsLt] at bc
      | cons c cs =>
        simp only [unitsLt] at ab bc ⊢
        by_cases first : b = a <;> by_cases second : c = b
        · subst first second
          simp only [if_true] at ab bc ⊢
          exact ih ab bc
        · subst first
          rwa [if_neg second] at bc ⊢
        · subst second
          rwa [if_neg first] at ab ⊢
        · rw [if_neg first, decide_eq_false_iff_not] at ab
          rw [if_neg second, decide_eq_false_iff_not] at bc
          have apart : c ≠ a := by omega
          rw [if_neg apart, decide_eq_false_iff_not]
          omega

theorem lt_total (a b : String) : lt b a = false ∨ lt a b = false := unitsLt_total _ _

theorem lt_trans {a b c : String} (ab : lt b a = false) (bc : lt c b = false) : lt c a = false :=
  unitsLt_trans ab bc

end QString

/-- `QString::split` at a single character, keeping empty parts. -/
def splitAt (c : Char) (s : String) : List String :=
  (s.toList.splitOn c).map String.ofList

/-- `QChar::isSpace`. -/
def isSpace (c : Char) : Bool :=
  let n := c.toNat
  (9 ≤ n && n ≤ 13) || n == 0x20 || n == 0x85 || n == 0xA0 || n == 0x1680 ||
    (0x2000 ≤ n && n ≤ 0x200A) || n == 0x2028 || n == 0x2029 || n == 0x202F || n == 0x205F ||
    n == 0x3000

/-- `QString::trimmed`. -/
def trimmed (s : List Char) : List Char :=
  ((s.dropWhile isSpace).reverse.dropWhile isSpace).reverse

/-- The value of a decimal digit of the C locale. -/
def digit (c : Char) : Option Nat :=
  if 48 ≤ c.toNat ∧ c.toNat ≤ 57 then some (c.toNat - 48) else none

/-- The value of a non-empty sequence of decimal digits. -/
def numeral : List Char → Option Nat
  | [] => none
  | c :: cs => (c :: cs).foldlM (fun n d => (digit d).map (10 * n + ·)) 0

/-- An optionally signed numeral. -/
def signedNumeral : List Char → Option Int
  | '-' :: cs => (numeral cs).map fun n => -(n : Int)
  | '+' :: cs => (numeral cs).map fun n => (n : Int)
  | cs => (numeral cs).map fun n => (n : Int)

/-- `QString::toInt`: `none` where the `ok` flag is false, and the result is 0. -/
def toInt (s : String) : Option Int :=
  match signedNumeral (trimmed s.toList) with
  | some n => if -2147483648 ≤ n ∧ n ≤ 2147483647 then some n else none
  | none => none

/-- An unsigned numeral may have a plus sign. -/
def unsignedNumeral : List Char → Option Nat
  | '+' :: cs => numeral cs
  | cs => numeral cs

/-- `QString::toUInt`, which is 0 where the text is no number of 32 bits. -/
def toUInt (s : String) : Nat :=
  match unsignedNumeral (trimmed s.toList) with
  | some n => if n < 4294967296 then n else 0
  | none => 0

/-- `QString::toLongLong`, which is 0 where the text is no number of 64 bits
with a sign. -/
def toLongLong (s : String) : Int :=
  match signedNumeral (trimmed s.toList) with
  | some n => if -9223372036854775808 ≤ n ∧ n ≤ 9223372036854775807 then n else 0
  | none => 0

/-- The components of a `QUrl`; no port is -1. -/
structure QUrl where
  scheme : String := ""
  host : String := ""
  port : Int := -1
  path : String := ""
  deriving DecidableEq, Repr

namespace QUrl

/-- `QUrl::setPort`: a port out of range unsets the port. -/
def setPort (u : QUrl) (port : Int) : QUrl :=
  { u with port := if port < -1 ∨ 65535 < port then -1 else port }

def isLocalFile (u : QUrl) : Bool := u.scheme == "file"

/-- `QUrl::toLocalFile`: empty for anything but a `file` URL. -/
def toLocalFile (u : QUrl) : String :=
  if u.isLocalFile then
    if u.host.isEmpty then u.path
    else
      let path := if u.path.isEmpty || u.path.toList.head? == some '/' then u.path else "/" ++ u.path
      "//" ++ u.host ++ path
  else ""

end QUrl

/-- `QDir::isRelativePath`. A leading colon names a resource, and is absolute. -/
def isRelativePath (path : String) : Bool :=
  !(path.toList.head? == some '/' || path.toList.head? == some ':')

theorem splitAt_two {c : Char} {a b : String} (ha : c ∉ a.toList) (hb : c ∉ b.toList) :
    splitAt c (a ++ String.ofList [c] ++ b) = [a, b] := by
  have parts : ∀ l ∈ [a.toList, b.toList], c ∉ l := by
    intro l hl
    rcases List.mem_pair.mp hl with rfl | rfl
    · exact ha
    · exact hb
  have joined : (a ++ String.ofList [c] ++ b).toList = [c].intercalate [a.toList, b.toList] := by
    simp [List.intercalate]
  rw [splitAt, joined, List.splitOn_intercalate c parts (by simp)]
  simp

end Morgoth
