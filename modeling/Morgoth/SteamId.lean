import Mathlib.Algebra.Group.Nat.Defs
import Morgoth.Decimal
import Morgoth.Pattern
import Morgoth.Status

/-!
# SteamID

The 64-bit word with its bit-fields, and the three texts it is written in.

* `textPattern_exec`, `id3Pattern_exec`: what the two regular expressions
  accept, and what they capture;
* `fromText`, `fromId3`: the word that is read from an accepted text.
-/

namespace Morgoth

/-- `SteamId::Format`. -/
inductive SteamId.Format
  | text
  | id3
  | id64
  deriving DecidableEq, Repr

/-- The bit-fields, the least significant one first. -/
structure SteamId64 where
  y : BitVec 1
  accountNumber : BitVec 31
  inst : BitVec 20
  type : BitVec 4
  univ : BitVec 8
  deriving DecidableEq, Repr

namespace SteamId64

def toWord (x : SteamId64) : BitVec 64 :=
  x.univ ++ x.type ++ x.inst ++ x.accountNumber ++ x.y

def ofWord (w : BitVec 64) : SteamId64 where
  y := w.extractLsb' 0 1
  accountNumber := w.extractLsb' 1 31
  inst := w.extractLsb' 32 20
  type := w.extractLsb' 52 4
  univ := w.extractLsb' 56 8

theorem toWord_toNat (x : SteamId64) :
    x.toWord.toNat = x.y.toNat + 2 * x.accountNumber.toNat + 2 ^ 32 * x.inst.toNat +
      2 ^ 52 * x.type.toNat + 2 ^ 56 * x.univ.toNat := by
  have hy := x.y.isLt
  have ha := x.accountNumber.isLt
  have hi := x.inst.isLt
  have ht := x.type.isLt
  have concat {a b n : Nat} (hb : b < 2 ^ n) : a <<< n ||| b = 2 ^ n * a + b := by
    rw [Nat.shiftLeft_eq, Nat.mul_comm, Nat.two_pow_add_eq_or_of_lt hb]
  unfold toWord
  rw [BitVec.toNat_append, BitVec.toNat_append, BitVec.toNat_append, BitVec.toNat_append,
    concat ht, concat hi, concat ha, concat hy]
  omega

theorem ofWord_toWord (x : SteamId64) : ofWord x.toWord = x := by
  have hy := x.y.isLt
  have ha := x.accountNumber.isLt
  have hi := x.inst.isLt
  have ht := x.type.isLt
  have hu := x.univ.isLt
  have field {start len : Nat} (value : BitVec len)
      (here : x.toWord.toNat / 2 ^ start % 2 ^ len = value.toNat) :
      x.toWord.extractLsb' start len = value := by
    apply BitVec.eq_of_toNat_eq
    rw [BitVec.extractLsb'_toNat, Nat.shiftRight_eq_div_pow]
    exact here
  unfold ofWord
  rw [field x.y (by rw [toWord_toNat]; omega), field x.accountNumber (by rw [toWord_toNat]; omega),
    field x.inst (by rw [toWord_toNat]; omega), field x.type (by rw [toWord_toNat]; omega),
    field x.univ (by rw [toWord_toNat]; omega)]

theorem toWord_ofWord (w : BitVec 64) : (ofWord w).toWord = w := by
  apply BitVec.eq_of_toNat_eq
  have hw := w.isLt
  rw [toWord_toNat]
  simp only [ofWord, BitVec.extractLsb'_toNat, Nat.shiftRight_eq_div_pow]
  omega

/-- The first instance of a user. -/
def combine (y accountNumber accountType univ : BitVec 32) : BitVec 64 :=
  toWord ⟨y.setWidth 1, accountNumber.setWidth 31, 1, accountType.setWidth 4, univ.setWidth 8⟩

theorem combine_ne_zero (y accountNumber accountType univ : BitVec 32) :
    combine y accountNumber accountType univ ≠ 0 := by
  intro zero
  have value := toWord_toNat
    ⟨y.setWidth 1, accountNumber.setWidth 31, 1, accountType.setWidth 4, univ.setWidth 8⟩
  have nothing : (combine y accountNumber accountType univ).toNat = 0 := by rw [zero]; rfl
  have one : (1 : BitVec 20).toNat = 1 := rfl
  unfold combine at nothing
  dsimp only at value
  omega

end SteamId64

namespace SteamId

open SteamId64

/-- The class `\w` of a character, without Unicode properties. -/
def isWordChar (c : Char) : Bool := c.isAlphanum || c == '_'

def id3Pattern : Pattern :=
  [{ takes := (· == '['), count := .optional }, { takes := isWordChar, captured := true },
    .char ':', { takes := Char.isDigit, captured := true }, .char ':',
    { takes := Char.isDigit, count := .many, captured := true },
    { takes := (· == ']'), count := .optional }]

def textPattern : Pattern :=
  "STEAM_".toList.map .char ++
    [{ takes := Char.isDigit, captured := true }, .char ':',
      { takes := Char.isDigit, captured := true }, .char ':',
      { takes := Char.isDigit, count := .many, captured := true }]

/-- `match.captured(n).toUInt()`. -/
def capturedUInt (captured : List Char) : BitVec 32 := .ofNat 32 (toUInt (String.ofList captured))

def fromSteamIdFormat (steamId : String) : Format → BitVec 64
  | .id3 =>
    match id3Pattern.exec steamId.toList with
    | some [_, univ, w] =>
      let w := capturedUInt w
      let y := w &&& 1
      let z := (w - y) / 2
      combine y z 1 (capturedUInt univ)
    | _ => 0
  | .text =>
    match textPattern.exec steamId.toList with
    | some [univ, y, z] =>
      let univ := capturedUInt univ
      -- a universe of 0 stands for 1
      let univ := if univ = 0 then 1 else univ
      combine (capturedUInt y) (capturedUInt z) 1 univ
    | _ => 0
  | .id64 => .ofInt 64 (toLongLong steamId)

def ofFormat (steamId : String) (format : Format) : SteamId := ⟨fromSteamIdFormat steamId format⟩

/-- `reinterpret_cast<const SteamId64*>(&m_steamId)`. -/
def fields (x : SteamId) : SteamId64 := .ofWord x.toSteamId64

/-- The product of a field of 31 bits and 2 is an `int`. Where it overflows the
result is undefined; the model goes on with what the machine leaves. -/
def toFormat (x : SteamId) : Format → String
  | .id64 => toString x.toSteamId64.toNat
  | .text =>
    let univ := if x.fields.univ = 1 then 0 else x.fields.univ.toNat
    "STEAM_" ++ toString univ ++ ":" ++ toString x.fields.y.toNat ++ ":" ++
      toString x.fields.accountNumber.toNat
  | .id3 =>
    let w : BitVec 32 := x.fields.accountNumber.setWidth 32 * 2 + x.fields.y.setWidth 32
    "[U:" ++ toString x.fields.univ.toNat ++ ":" ++ toString w.toInt ++ "]"

/-! ## What is accepted -/

open Pattern

/-- `STEAM_x:y:z` in decimal digits, the first two of them one digit each, and
what follows. -/
def IsText (s : String) (x y z : Nat) (rest : List Char) : Prop :=
  ∃ cx cy zs, Numeral [cx] x ∧ Numeral [cy] y ∧ Numeral zs z ∧
    s.toList = "STEAM_".toList ++ cx :: ':' :: cy :: ':' :: (zs ++ rest)

/-- `l:u:w` with a word character and decimal digits, what stands before and
behind it, and what follows. -/
def IsId3 (s : String) (opening closing : List Char) (u w : Nat) (rest : List Char) : Prop :=
  ∃ cl cu ws, isWordChar cl = true ∧ Numeral [cu] u ∧ Numeral ws w ∧
    s.toList = opening ++ cl :: ':' :: cu :: ':' :: (ws ++ (closing ++ rest))

/-- The bracket may be there or not. -/
def MayBe (bracket : Char) (s : List Char) : Prop := s = [] ∨ s = [bracket]

theorem digit_numeral {c : Char} : c.isDigit = true ↔ ∃ n, Numeral [c] n := by
  constructor
  · exact fun digit => ⟨_, Numeral.single_iff.mpr ⟨digit, rfl⟩⟩
  · exact fun ⟨_, written⟩ => (Numeral.single_iff.mp written).1

theorem matches_digit {p : Pattern} {s : List Char} {captures : List (List Char)} :
    Matches ({ takes := Char.isDigit, captured := true } :: p) s captures ↔
      ∃ c n t later, Numeral [c] n ∧ Matches p t later ∧ s = c :: t ∧ captures = [c] :: later := by
  rw [matches_captured]
  constructor
  · rintro ⟨c, t, later, digit, rest, rfl, rfl⟩
    obtain ⟨n, written⟩ := digit_numeral.mp digit
    exact ⟨c, n, t, later, written, rest, rfl, rfl⟩
  · rintro ⟨c, n, t, later, written, rest, rfl, rfl⟩
    exact ⟨c, t, later, digit_numeral.mpr ⟨n, written⟩, rest, rfl, rfl⟩

theorem matches_number {p : Pattern} {s : List Char} {captures : List (List Char)} :
    Matches ({ takes := Char.isDigit, count := .many, captured := true } :: p) s captures ↔
      ∃ w n t later, Numeral w n ∧ Matches p t later ∧ s = w ++ t ∧ captures = w :: later := by
  rw [matches_cons]
  simp only [accepts_many]
  constructor
  · rintro ⟨w, t, later, ⟨some_digit, digits⟩, rest, rfl, rfl⟩
    exact ⟨w, _, t, later, ⟨some_digit, digits, rfl⟩, rest, rfl, rfl⟩
  · rintro ⟨w, n, t, later, ⟨some_digit, digits, -⟩, rest, rfl, rfl⟩
    exact ⟨w, t, later, ⟨some_digit, digits⟩, rest, rfl, rfl⟩

theorem matches_bracket {bracket : Char} {p : Pattern} {s : List Char}
    {captures : List (List Char)} :
    Matches ({ takes := (· == bracket), count := .optional } :: p) s captures ↔
      ∃ w t, MayBe bracket w ∧ Matches p t captures ∧ s = w ++ t := by
  have optional {w : List Char} :
      Item.Accepts { takes := (· == bracket), count := .optional } w ↔ MayBe bracket w := by
    rw [accepts_optional rfl]
    simp [MayBe]
  rw [matches_cons]
  simp only [optional]
  constructor
  · rintro ⟨w, t, later, may, rest, rfl, rfl⟩
    exact ⟨w, t, may, rest, rfl⟩
  · rintro ⟨w, t, may, rest, rfl⟩
    exact ⟨w, t, captures, may, rest, rfl, rfl⟩

theorem not_digit {c d : Char} (digit : c.isDigit = true) (other : d.isDigit = false) :
    (c == d) = false := by
  apply beq_eq_false_iff_ne.mpr
  rintro rfl
  rw [digit] at other
  cases other

theorem textPattern_clear : textPattern.Clear := by
  unfold textPattern
  rw [clear_literal, clear_one rfl, clear_one rfl, clear_one rfl, clear_one rfl]
  exact ⟨fun _ c digit => not_digit digit rfl, trivial⟩

theorem id3Pattern_clear : id3Pattern.Clear := by
  refine ⟨?_, ?_⟩
  · intro _ c bracket
    obtain rfl := beq_iff_eq.mp bracket
    rfl
  rw [clear_one rfl, clear_one rfl, clear_one rfl, clear_one rfl]
  refine ⟨?_, ?_, trivial⟩
  · intro _ c digit
    simp [starts, not_digit digit]
  · intro _ c bracket
    obtain rfl := beq_iff_eq.mp bracket
    rfl

theorem textPattern_exec {s : List Char} {captures : List (List Char)} :
    textPattern.exec s = some captures ↔
      ∃ x y z cx cy zs rest, Numeral [cx] x ∧ Numeral [cy] y ∧ Numeral zs z ∧ AtEnd rest ∧
        s = "STEAM_".toList ++ cx :: ':' :: cy :: ':' :: (zs ++ rest) ∧
        captures = [[cx], [cy], zs] := by
  rw [exec_some_iff textPattern_clear]
  constructor
  · intro hm
    obtain ⟨_, h₁, rfl⟩ := matches_literal.mp hm
    obtain ⟨cx, x, _, _, hx, h₂, rfl, rfl⟩ := matches_digit.mp h₁
    obtain ⟨_, h₃, rfl⟩ := matches_char.mp h₂
    obtain ⟨cy, y, _, _, hy, h₄, rfl, rfl⟩ := matches_digit.mp h₃
    obtain ⟨_, h₅, rfl⟩ := matches_char.mp h₄
    obtain ⟨zs, z, rest, _, hz, h₆, rfl, rfl⟩ := matches_number.mp h₅
    obtain ⟨fin, rfl⟩ := matches_nil.mp h₆
    exact ⟨x, y, z, cx, cy, zs, rest, hx, hy, hz, fin, rfl, rfl⟩
  · rintro ⟨x, y, z, cx, cy, zs, rest, hx, hy, hz, fin, rfl, rfl⟩
    apply matches_literal.mpr ⟨_, ?_, rfl⟩
    apply matches_digit.mpr ⟨cx, x, _, _, hx, ?_, rfl, rfl⟩
    apply matches_char.mpr ⟨_, ?_, rfl⟩
    apply matches_digit.mpr ⟨cy, y, _, _, hy, ?_, rfl, rfl⟩
    apply matches_char.mpr ⟨_, ?_, rfl⟩
    exact matches_number.mpr ⟨zs, z, rest, [], hz, matches_nil.mpr ⟨fin, rfl⟩, rfl, rfl⟩

theorem id3Pattern_exec {s : List Char} {captures : List (List Char)} :
    id3Pattern.exec s = some captures ↔
      ∃ opening closing u w cl cu ws rest, MayBe '[' opening ∧ MayBe ']' closing ∧
        isWordChar cl = true ∧ Numeral [cu] u ∧ Numeral ws w ∧ AtEnd rest ∧
        s = opening ++ cl :: ':' :: cu :: ':' :: (ws ++ (closing ++ rest)) ∧
        captures = [[cl], [cu], ws] := by
  rw [exec_some_iff id3Pattern_clear]
  constructor
  · intro hm
    obtain ⟨opening, _, before, h₁, rfl⟩ := matches_bracket.mp hm
    obtain ⟨cl, _, _, word, h₂, rfl, rfl⟩ := matches_captured.mp h₁
    obtain ⟨_, h₃, rfl⟩ := matches_char.mp h₂
    obtain ⟨cu, u, _, _, hu, h₄, rfl, rfl⟩ := matches_digit.mp h₃
    obtain ⟨_, h₅, rfl⟩ := matches_char.mp h₄
    obtain ⟨ws, w, _, _, hw, h₆, rfl, rfl⟩ := matches_number.mp h₅
    obtain ⟨closing, rest, behind, h₇, rfl⟩ := matches_bracket.mp h₆
    obtain ⟨fin, rfl⟩ := matches_nil.mp h₇
    exact ⟨opening, closing, u, w, cl, cu, ws, rest, before, behind, word, hu, hw, fin, rfl, rfl⟩
  · rintro ⟨opening, closing, u, w, cl, cu, ws, rest, before, behind, word, hu, hw, fin, rfl, rfl⟩
    apply matches_bracket.mpr ⟨opening, _, before, ?_, rfl⟩
    apply matches_captured.mpr ⟨cl, _, _, word, ?_, rfl, rfl⟩
    apply matches_char.mpr ⟨_, ?_, rfl⟩
    apply matches_digit.mpr ⟨cu, u, _, _, hu, ?_, rfl, rfl⟩
    apply matches_char.mpr ⟨_, ?_, rfl⟩
    apply matches_number.mpr ⟨ws, w, _, _, hw, ?_, rfl, rfl⟩
    exact matches_bracket.mpr ⟨closing, rest, behind, matches_nil.mpr ⟨fin, rfl⟩, rfl⟩

/-! ## What is read -/

theorem capturedUInt_eq {w : List Char} {n : Nat} (hw : Numeral w n) :
    capturedUInt w = .ofNat 32 (asUInt n) := by
  unfold capturedUInt
  rw [hw.toUInt_eq]

theorem capturedUInt_digit {c : Char} {n : Nat} (hc : Numeral [c] n) :
    capturedUInt [c] = .ofNat 32 n := by
  have small := Numeral.single_lt hc
  rw [capturedUInt_eq hc, asUInt_of_lt (by omega)]

/-- An individual account in its first instance. -/
def individual (univ y accountNumber : Nat) : SteamId64 :=
  ⟨.ofNat 1 y, .ofNat 31 accountNumber, 1, 1, .ofNat 8 univ⟩

theorem combine_individual (univ y accountNumber : Nat) :
    combine (.ofNat 32 y) (.ofNat 32 accountNumber) 1 (.ofNat 32 univ) =
      (individual univ y accountNumber).toWord := by
  unfold combine individual
  rw [BitVec.setWidth_ofNat_of_le (by decide), BitVec.setWidth_ofNat_of_le (by decide),
    BitVec.setWidth_ofNat_of_le (by decide)]
  rfl

theorem fromText {s : String} {x y z : Nat} {rest : List Char} (hs : IsText s x y z rest)
    (fin : AtEnd rest) :
    (ofFormat s .text).toSteamId64 =
      (individual (if x = 0 then 1 else x) y (asUInt z)).toWord := by
  obtain ⟨cx, cy, zs, hx, hy, hz, text⟩ := hs
  have found := textPattern_exec.mpr ⟨x, y, z, cx, cy, zs, rest, hx, hy, hz, fin, text, rfl⟩
  have univ : (if capturedUInt [cx] = 0 then 1 else capturedUInt [cx]) =
      .ofNat 32 (if x = 0 then 1 else x) := by
    have small := Numeral.single_lt hx
    have zero : BitVec.ofNat 32 x = 0 ↔ x = 0 := by
      rw [← BitVec.toNat_inj, BitVec.toNat_ofNat, Nat.mod_eq_of_lt (by omega)]
      rfl
    rw [capturedUInt_digit hx]
    simp only [zero]
    split <;> rfl
  unfold ofFormat fromSteamIdFormat
  dsimp only
  rw [found]
  dsimp only
  rw [univ, capturedUInt_digit hy, capturedUInt_eq hz, combine_individual]

theorem fromId3 {s : String} {opening closing rest : List Char} {u w : Nat}
    (hs : IsId3 s opening closing u w rest) (before : MayBe '[' opening)
    (behind : MayBe ']' closing) (fin : AtEnd rest) :
    (ofFormat s .id3).toSteamId64 = (individual u (asUInt w % 2) (asUInt w / 2)).toWord := by
  obtain ⟨cl, cu, ws, word, hu, hw, text⟩ := hs
  have found := id3Pattern_exec.mpr
    ⟨opening, closing, u, w, cl, cu, ws, rest, before, behind, word, hu, hw, fin, text, rfl⟩
  have small := asUInt_lt w
  have low : (BitVec.ofNat 32 (asUInt w)) &&& 1 = .ofNat 32 (asUInt w % 2) := by
    apply BitVec.eq_of_toNat_eq
    have one : (1 : BitVec 32).toNat = 1 := rfl
    rw [BitVec.toNat_and, BitVec.toNat_ofNat, BitVec.toNat_ofNat, one, Nat.and_one_is_mod]
    omega
  have high : (BitVec.ofNat 32 (asUInt w) - .ofNat 32 (asUInt w % 2)) / 2 =
      .ofNat 32 (asUInt w / 2) := by
    apply BitVec.eq_of_toNat_eq
    have two : (2 : BitVec 32).toNat = 2 := rfl
    rw [BitVec.toNat_udiv, BitVec.toNat_sub, BitVec.toNat_ofNat, BitVec.toNat_ofNat,
      BitVec.toNat_ofNat, two]
    omega
  unfold ofFormat fromSteamIdFormat
  dsimp only
  rw [found]
  dsimp only
  rw [capturedUInt_eq hw, low, high, capturedUInt_digit hu, combine_individual]

theorem fromText_ne_zero {s : String} :
    (ofFormat s .text).toSteamId64 ≠ 0 ↔ ∃ x y z rest, IsText s x y z rest ∧ AtEnd rest := by
  constructor
  · intro some_id
    cases found : textPattern.exec s.toList with
    | none =>
      unfold ofFormat fromSteamIdFormat at some_id
      dsimp only at some_id
      rw [found] at some_id
      exact absurd rfl some_id
    | some captures =>
      obtain ⟨x, y, z, cx, cy, zs, rest, hx, hy, hz, fin, text, -⟩ := textPattern_exec.mp found
      exact ⟨x, y, z, rest, ⟨cx, cy, zs, hx, hy, hz, text⟩, fin⟩
  · rintro ⟨x, y, z, rest, hs, fin⟩
    rw [fromText hs fin, ← combine_individual]
    exact combine_ne_zero _ _ _ _

theorem fromId3_ne_zero {s : String} :
    (ofFormat s .id3).toSteamId64 ≠ 0 ↔
      ∃ opening closing u w rest, IsId3 s opening closing u w rest ∧ MayBe '[' opening ∧
        MayBe ']' closing ∧ AtEnd rest := by
  constructor
  · intro some_id
    cases found : id3Pattern.exec s.toList with
    | none =>
      unfold ofFormat fromSteamIdFormat at some_id
      dsimp only at some_id
      rw [found] at some_id
      exact absurd rfl some_id
    | some captures =>
      obtain ⟨opening, closing, u, w, cl, cu, ws, rest, before, behind, word, hu, hw, fin, text,
        -⟩ := id3Pattern_exec.mp found
      exact ⟨opening, closing, u, w, rest, ⟨cl, cu, ws, word, hu, hw, text⟩, before, behind, fin⟩
  · rintro ⟨opening, closing, u, w, rest, hs, before, behind, fin⟩
    rw [fromId3 hs before behind fin, ← combine_individual]
    exact combine_ne_zero _ _ _ _

end SteamId

end Morgoth
