import Morgoth.SteamId

/-!
# Which texts are SteamIDs

The parsers accept more than the two formats: a y that is no bit, numbers that
do not fit, one bracket of the two, and a newline at the end.

* `wellFormedText_or_loose`, `wellFormedId3_or_loose`: a text of the shape is as
  the format says, or breaks it in one of these ways;
* `accepts_exactly_iff`: the texts on which each parser does what its format
  says.
-/

namespace Morgoth.SteamId

open Pattern

/-- `STEAM_x:y:z` in decimal digits with a bit y and a number z of 31 bits. -/
def WellFormedText (s : String) (x y z : Nat) : Prop :=
  IsText s x y z [] ∧ y < 2 ∧ z < 2 ^ 31

/-- `l:u:w` or `[l:u:w]` with a number w of 32 bits. -/
def WellFormedId3 (s : String) (u w : Nat) : Prop :=
  (IsId3 s [] [] u w [] ∨ IsId3 s ['['] [']'] u w []) ∧ w < 2 ^ 32

/-- The parts of an id. -/
def Has (x : SteamId) (univ y accountNumber : Nat) : Prop :=
  x.fields.univ.toNat = univ ∧ x.fields.y.toNat = y ∧
    x.fields.accountNumber.toNat = accountNumber

/-- Exactly the well-formed texts yield an id, and it is the one written. -/
def ParsesText (s : String) : Prop :=
  ((ofFormat s .text).toSteamId64 ≠ 0 ↔ ∃ x y z, WellFormedText s x y z) ∧
  ∀ x y z, WellFormedText s x y z → (ofFormat s .text).Has (if x = 0 then 1 else x) y z

def ParsesId3 (s : String) : Prop :=
  ((ofFormat s .id3).toSteamId64 ≠ 0 ↔ ∃ u w, WellFormedId3 s u w) ∧
  ∀ u w, WellFormedId3 s u w → (ofFormat s .id3).Has u (w % 2) (w / 2)

/-- Digits in the right places, but y is no bit, z has more than 31 bits, or a
newline follows. -/
def LooseText (s : String) : Prop :=
  ∃ x y z rest, IsText s x y z rest ∧
    (rest = [] ∧ (1 < y ∨ 2 ^ 31 ≤ z) ∨ rest = ['\n'])

/-- Digits in the right places, but there is one bracket alone, w has more than
32 bits, or a newline follows. -/
def LooseId3 (s : String) : Prop :=
  ∃ opening closing u w rest, IsId3 s opening closing u w rest ∧
    MayBe '[' opening ∧ MayBe ']' closing ∧
    (rest = [] ∧ ((opening = [] ↔ closing ≠ []) ∨ 2 ^ 32 ≤ w) ∨ rest = ['\n'])

theorem isText_unique {s : String} {x y z x' y' z' : Nat} {rest rest' : List Char}
    (hs : IsText s x y z rest) (fin : AtEnd rest) (hs' : IsText s x' y' z' rest')
    (fin' : AtEnd rest') : x = x' ∧ y = y' ∧ z = z' ∧ rest = rest' := by
  obtain ⟨cx, cy, zs, hx, hy, hz, text⟩ := hs
  obtain ⟨cx', cy', zs', hx', hy', hz', text'⟩ := hs'
  have found := textPattern_exec.mpr ⟨x, y, z, cx, cy, zs, rest, hx, hy, hz, fin, text, rfl⟩
  have found' :=
    textPattern_exec.mpr ⟨x', y', z', cx', cy', zs', rest', hx', hy', hz', fin', text', rfl⟩
  have same := Option.some.inj (found.symm.trans found')
  obtain ⟨rfl, rfl, rfl⟩ : cx = cx' ∧ cy = cy' ∧ zs = zs' := by simpa using same
  refine ⟨hx.unique hx', hy.unique hy', hz.unique hz', ?_⟩
  simpa using text.symm.trans text'

theorem isId3_unique {s : String} {opening closing rest opening' closing' rest' : List Char}
    {u w u' w' : Nat} (hs : IsId3 s opening closing u w rest) (before : MayBe '[' opening)
    (behind : MayBe ']' closing) (fin : AtEnd rest) (hs' : IsId3 s opening' closing' u' w' rest')
    (before' : MayBe '[' opening') (behind' : MayBe ']' closing') (fin' : AtEnd rest') :
    opening = opening' ∧ closing = closing' ∧ u = u' ∧ w = w' ∧ rest = rest' := by
  obtain ⟨cl, cu, ws, word, hu, hw, text⟩ := hs
  obtain ⟨cl', cu', ws', word', hu', hw', text'⟩ := hs'
  have found := id3Pattern_exec.mpr
    ⟨opening, closing, u, w, cl, cu, ws, rest, before, behind, word, hu, hw, fin, text, rfl⟩
  have found' := id3Pattern_exec.mpr
    ⟨opening', closing', u', w', cl', cu', ws', rest', before', behind', word', hu', hw', fin',
      text', rfl⟩
  have same := Option.some.inj (found.symm.trans found')
  obtain ⟨rfl, rfl, rfl⟩ : cl = cl' ∧ cu = cu' ∧ ws = ws' := by simpa using same
  have parts := text.symm.trans text'
  have bracket : cl ≠ '[' := by
    rintro rfl
    cases word
  have opens : opening = opening' := by
    rcases before with rfl | rfl <;> rcases before' with rfl | rfl
    · rfl
    · simp [bracket] at parts
    · simp [Ne.symm bracket] at parts
    · rfl
  subst opens
  have ends : closing ++ rest = closing' ++ rest' := by simpa using parts
  have closes : closing = closing' ∧ rest = rest' := by
    rcases behind with rfl | rfl <;> rcases behind' with rfl | rfl <;>
      rcases fin with rfl | rfl <;> rcases fin' with rfl | rfl <;> simp at ends ⊢
  exact ⟨rfl, closes.1, hu.unique hu', hw.unique hw', closes.2⟩

theorem has_individual {x : SteamId} {univ y accountNumber : Nat}
    (hx : x.toSteamId64 = (individual univ y accountNumber).toWord) (hu : univ < 2 ^ 8)
    (hy : y < 2) (ha : accountNumber < 2 ^ 31) : x.Has univ y accountNumber := by
  have fields : x.fields = individual univ y accountNumber := by
    unfold SteamId.fields
    rw [hx, SteamId64.ofWord_toWord]
  unfold Has
  rw [fields]
  simp only [individual, BitVec.toNat_ofNat]
  exact ⟨Nat.mod_eq_of_lt hu, Nat.mod_eq_of_lt hy, Nat.mod_eq_of_lt ha⟩

theorem isText_digit {s : String} {x y z : Nat} {rest : List Char} (hs : IsText s x y z rest) :
    x < 10 := by
  obtain ⟨cx, cy, zs, hx, -⟩ := hs
  exact Numeral.single_lt hx

theorem isId3_digit {s : String} {opening closing rest : List Char} {u w : Nat}
    (hs : IsId3 s opening closing u w rest) : u < 10 := by
  obtain ⟨cl, cu, ws, -, hu, -⟩ := hs
  exact Numeral.single_lt hu

theorem wellFormedText_or_loose {s : String} {x y z : Nat} {rest : List Char}
    (hs : IsText s x y z rest) (fin : AtEnd rest) : WellFormedText s x y z ∨ LooseText s := by
  rcases fin with rfl | rfl
  · by_cases bounds : y < 2 ∧ z < 2 ^ 31
    · exact Or.inl ⟨hs, bounds⟩
    · exact Or.inr ⟨x, y, z, [], hs, Or.inl ⟨rfl, by omega⟩⟩
  · exact Or.inr ⟨x, y, z, _, hs, Or.inr rfl⟩

theorem WellFormedText.not_loose {s : String} {x y z : Nat} (hs : WellFormedText s x y z) :
    ¬ LooseText s := by
  obtain ⟨written, small, short⟩ := hs
  rintro ⟨x', y', z', rest, hs', bad⟩
  have fin : AtEnd rest := bad.imp And.left id
  obtain ⟨-, rfl, rfl, rfl⟩ := isText_unique written (Or.inl rfl) hs' fin
  rcases bad with ⟨-, big | long⟩ | newline
  · exact absurd small (Nat.not_lt.mpr big)
  · exact absurd short (Nat.not_lt.mpr long)
  · cases newline

theorem parsesText_iff (s : String) : ParsesText s ↔ ¬ LooseText s := by
  constructor
  · rintro ⟨exactly, -⟩ loose
    obtain ⟨x, y, z, rest, hs, bad⟩ := loose
    obtain ⟨x', y', z', hs'⟩ :=
      exactly.mp (fromText_ne_zero.mpr ⟨x, y, z, rest, hs, bad.imp And.left id⟩)
    exact hs'.not_loose ⟨x, y, z, rest, hs, bad⟩
  · intro strict
    refine ⟨⟨?_, ?_⟩, ?_⟩
    · intro some_id
      obtain ⟨x, y, z, rest, hs, fin⟩ := fromText_ne_zero.mp some_id
      exact ⟨x, y, z, (wellFormedText_or_loose hs fin).resolve_right strict⟩
    · rintro ⟨x, y, z, hs, -, -⟩
      exact fromText_ne_zero.mpr ⟨x, y, z, [], hs, Or.inl rfl⟩
    · rintro x y z ⟨hs, small, short⟩
      have read := fromText hs (Or.inl rfl)
      rw [asUInt_of_lt (by omega)] at read
      have digit := isText_digit hs
      exact has_individual read (by split <;> omega) small short

/-- Both brackets or none. -/
theorem WellFormedId3.isId3 {s : String} {u w : Nat} (hs : WellFormedId3 s u w) :
    ∃ opening closing, IsId3 s opening closing u w [] ∧ MayBe '[' opening ∧
      MayBe ']' closing ∧ (opening = [] ↔ closing = []) := by
  rcases hs.1 with bare | enclosed
  · exact ⟨[], [], bare, Or.inl rfl, Or.inl rfl, iff_of_true rfl rfl⟩
  · exact ⟨_, _, enclosed, Or.inr rfl, Or.inr rfl, iff_of_false nofun nofun⟩

theorem wellFormedId3_or_loose {s : String} {opening closing rest : List Char} {u w : Nat}
    (hs : IsId3 s opening closing u w rest) (before : MayBe '[' opening)
    (behind : MayBe ']' closing) (fin : AtEnd rest) : WellFormedId3 s u w ∨ LooseId3 s := by
  by_cases loose : rest = [] ∧ ((opening = [] ↔ closing ≠ []) ∨ 2 ^ 32 ≤ w) ∨ rest = ['\n']
  · exact Or.inr ⟨opening, closing, u, w, rest, hs, before, behind, loose⟩
  · obtain ⟨strict, ended⟩ := not_or.mp loose
    obtain rfl : rest = [] := fin.resolve_right ended
    obtain ⟨both, short⟩ := not_or.mp fun bad => strict ⟨rfl, bad⟩
    refine Or.inl ⟨?_, Nat.not_le.mp short⟩
    rcases before with rfl | rfl <;> rcases behind with rfl | rfl
    · exact Or.inl hs
    · exact absurd (iff_of_true rfl nofun) both
    · exact absurd (iff_of_false nofun fun closed => closed rfl) both
    · exact Or.inr hs

theorem WellFormedId3.not_loose {s : String} {u w : Nat} (hs : WellFormedId3 s u w) :
    ¬ LooseId3 s := by
  obtain ⟨opening, closing, written, before, behind, both⟩ := hs.isId3
  rintro ⟨opening', closing', u', w', rest, hs', before', behind', bad⟩
  have fin : AtEnd rest := bad.imp And.left id
  obtain ⟨rfl, rfl, rfl, rfl, rfl⟩ :=
    isId3_unique written before behind (Or.inl rfl) hs' before' behind' fin
  rcases bad with ⟨-, alone | long⟩ | newline
  · exact iff_not_self (both.symm.trans alone)
  · exact absurd hs.2 (Nat.not_lt.mpr long)
  · cases newline

theorem parsesId3_iff (s : String) : ParsesId3 s ↔ ¬ LooseId3 s := by
  constructor
  · rintro ⟨exactly, -⟩ loose
    obtain ⟨opening, closing, u, w, rest, hs, before, behind, bad⟩ := loose
    obtain ⟨u', w', hs'⟩ := exactly.mp (fromId3_ne_zero.mpr
      ⟨opening, closing, u, w, rest, hs, before, behind, bad.imp And.left id⟩)
    exact hs'.not_loose ⟨opening, closing, u, w, rest, hs, before, behind, bad⟩
  · intro strict
    refine ⟨⟨?_, ?_⟩, ?_⟩
    · intro some_id
      obtain ⟨opening, closing, u, w, rest, hs, before, behind, fin⟩ := fromId3_ne_zero.mp some_id
      exact ⟨u, w, (wellFormedId3_or_loose hs before behind fin).resolve_right strict⟩
    · rintro ⟨u, w, hs⟩
      obtain ⟨opening, closing, written, before, behind, -⟩ := hs.isId3
      exact fromId3_ne_zero.mpr ⟨opening, closing, u, w, [], written, before, behind, Or.inl rfl⟩
    · intro u w hs
      obtain ⟨opening, closing, written, before, behind, -⟩ := hs.isId3
      have read := fromId3 written before behind (Or.inl rfl)
      have short : w < 2 ^ 32 := hs.2
      rw [asUInt_of_lt (by omega)] at read
      have digit := isId3_digit written
      exact has_individual read (by omega) (Nat.mod_lt w (by decide)) (by omega)

/-- Each parser does what its format says on every text but those that have the
shape and break a bound, have one bracket alone, or go on with a newline. -/
theorem accepts_exactly_iff (s : String) :
    (ParsesText s ↔ ¬ LooseText s) ∧ (ParsesId3 s ↔ ¬ LooseId3 s) :=
  ⟨parsesText_iff s, parsesId3_iff s⟩

/-- A y of 2 is cut down to the bit 0. -/
theorem no_bit_accepted :
    (ofFormat "STEAM_0:2:5" .text).toSteamId64 = (ofFormat "STEAM_0:0:5" .text).toSteamId64 ∧
      (ofFormat "STEAM_0:2:5" .text).toSteamId64 ≠ 0 ∧
      ¬ ∃ x y z, WellFormedText "STEAM_0:2:5" x y z := by
  refine ⟨by decide, by decide, ?_⟩
  rintro ⟨x, y, z, hs, small, -⟩
  have written : IsText "STEAM_0:2:5" 0 2 5 [] :=
    ⟨'0', '2', ['5'], Numeral.toDigits 0, Numeral.toDigits 2, Numeral.toDigits 5, by decide⟩
  obtain ⟨-, rfl, -⟩ := isText_unique written (Or.inl rfl) hs (Or.inl rfl)
  exact absurd small (by decide)

end Morgoth.SteamId
