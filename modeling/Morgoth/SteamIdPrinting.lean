import Morgoth.SteamIdParsing

/-!
# SteamIDs that are printed and read again

* `toFormat_text_isText`, `toFormat_id3_isId3`: what is printed has the shape
  of its format;
* `ofFormat_toFormat_text`: the textual form of an individual account is read
  back as it was. The other two go through signed numbers, and lose the upper
  half of their range.
-/

namespace Morgoth.SteamId

open Pattern

/-- An individual account in its first instance, in a universe of one digit. -/
def Individual (x : SteamId) : Prop :=
  x.fields.inst = 1 ∧ x.fields.type = 1 ∧ 1 ≤ x.fields.univ.toNat ∧ x.fields.univ.toNat ≤ 9

theorem word_inj {x x' : SteamId} (same : x.toSteamId64 = x'.toSteamId64) : x = x' := by
  cases x
  cases x'
  exact congrArg SteamId.mk same

theorem toString_numeral (n : Nat) : Numeral (toString n).toList n := by
  rw [Nat.toString_eq_repr, Nat.toList_repr]
  exact Numeral.toDigits n

/-- A number below ten is printed as one digit. -/
theorem toString_digit {n : Nat} (hn : n < 10) : ∃ c, (toString n).toList = [c] ∧ Numeral [c] n := by
  have one : (toString n).toList = [n.digitChar] := by
    rw [Nat.toString_eq_repr, Nat.toList_repr, Nat.toDigits_of_lt_base hn]
  exact ⟨n.digitChar, one, one ▸ toString_numeral n⟩

/-- A text that is put together from numbers. -/
theorem isText_of_numbers {x y z : Nat} (hx : x < 10) (hy : y < 10) :
    IsText ("STEAM_" ++ toString x ++ ":" ++ toString y ++ ":" ++ toString z) x y z [] := by
  obtain ⟨cx, textx, numx⟩ := toString_digit hx
  obtain ⟨cy, texty, numy⟩ := toString_digit hy
  refine ⟨cx, cy, (toString z).toList, numx, numy, toString_numeral z, ?_⟩
  simp only [String.toList_append, textx, texty]
  simp

/-- The number w of an account in the universe u, split into its bits. -/
def textForm (u w : Nat) : String :=
  "STEAM_" ++ toString u ++ ":" ++ toString (w % 2) ++ ":" ++ toString (w / 2)

/-- The same account in the other format, without brackets. -/
def id3Form (u : Nat) (ws : List Char) : String := "U:" ++ toString u ++ ":" ++ String.ofList ws

theorem isId3_of_numbers (opening closing : String) {u w : Nat} {ws : List Char} (hu : u < 10)
    (hw : Numeral ws w) :
    IsId3 (opening ++ id3Form u ws ++ closing) opening.toList closing.toList u w [] := by
  obtain ⟨cu, textu, numu⟩ := toString_digit hu
  refine ⟨'U', cu, ws, by decide, numu, hw, ?_⟩
  simp only [id3Form, String.toList_append, textu]
  simp

theorem Individual.word {x : SteamId} (hx : x.Individual) :
    x.toSteamId64 =
      (individual x.fields.univ.toNat x.fields.y.toNat x.fields.accountNumber.toNat).toWord := by
  obtain ⟨inst, type, -, -⟩ := hx
  have parts : individual x.fields.univ.toNat x.fields.y.toNat x.fields.accountNumber.toNat =
      x.fields := by
    unfold individual
    rw [BitVec.ofNat_toNat, BitVec.ofNat_toNat, BitVec.ofNat_toNat, BitVec.setWidth_eq,
      BitVec.setWidth_eq, BitVec.setWidth_eq, ← inst, ← type]
  rw [parts]
  exact (SteamId64.toWord_ofWord x.toSteamId64).symm

theorem toFormat_text_isText {x : SteamId} (hx : x.Individual) :
    IsText (x.toFormat .text) (if x.fields.univ.toNat = 1 then 0 else x.fields.univ.toNat)
      x.fields.y.toNat x.fields.accountNumber.toNat [] := by
  have small := x.fields.y.isLt
  have one : x.fields.univ = 1 ↔ x.fields.univ.toNat = 1 := BitVec.toNat_inj.symm
  unfold toFormat
  simp only [one]
  have digit : (if x.fields.univ.toNat = 1 then 0 else x.fields.univ.toNat) < 10 := by
    have high := hx.2.2.2
    split <;> omega
  exact isText_of_numbers digit (by omega)

/-- The textual form is read back as the id it was printed from. -/
theorem ofFormat_toFormat_text {x : SteamId} (hx : x.Individual) :
    ofFormat (x.toFormat .text) .text = x := by
  have account := x.fields.accountNumber.isLt
  have low := hx.2.2.1
  have read := fromText (toFormat_text_isText hx) (Or.inl rfl)
  have univ : (if (if x.fields.univ.toNat = 1 then 0 else x.fields.univ.toNat) = 0 then 1
      else if x.fields.univ.toNat = 1 then 0 else x.fields.univ.toNat) =
      x.fields.univ.toNat := by
    by_cases one : x.fields.univ.toNat = 1
    · simp [one]
    · simp [one, Nat.ne_of_gt low]
  rw [univ, asUInt_of_lt (by omega), ← hx.word] at read
  exact word_inj read

theorem individual_of_text {s : String} (some_id : (ofFormat s .text).toSteamId64 ≠ 0) :
    (ofFormat s .text).Individual := by
  obtain ⟨x, y, z, rest, hs, fin⟩ := fromText_ne_zero.mp some_id
  have digit := isText_digit hs
  have fields : (ofFormat s .text).fields = individual (if x = 0 then 1 else x) y (asUInt z) := by
    unfold SteamId.fields
    rw [fromText hs fin, SteamId64.ofWord_toWord]
  unfold Individual
  rw [fields]
  refine ⟨rfl, rfl, ?_⟩
  simp only [individual, BitVec.toNat_ofNat]
  split <;> omega

/-- Whatever the parser accepts is printed in a normal form: that text is
well-formed, never has the universe 1, is read as the same id, and printed as
the same text again. -/
theorem text_normal_form (s : String) (some_id : (ofFormat s .text).toSteamId64 ≠ 0) :
    ofFormat ((ofFormat s .text).toFormat .text) .text = ofFormat s .text ∧
      (ofFormat ((ofFormat s .text).toFormat .text) .text).toFormat .text =
        (ofFormat s .text).toFormat .text ∧
      ∃ x y z, WellFormedText ((ofFormat s .text).toFormat .text) x y z ∧ x ≠ 1 := by
  have hx := individual_of_text some_id
  have same := ofFormat_toFormat_text hx
  refine ⟨same, congrArg (fun x => SteamId.toFormat x .text) same, _, _, _,
    ⟨toFormat_text_isText hx, (ofFormat s .text).fields.y.isLt,
      (ofFormat s .text).fields.accountNumber.isLt⟩, ?_⟩
  split <;> omega

/-- A universe of 1, a y that is no bit, and a number that is too long. -/
theorem text_normal_form_overlong :
    (ofFormat "STEAM_1:3:99999999999" .text).toFormat .text = "STEAM_0:1:0" ∧
      ofFormat ((ofFormat "STEAM_1:3:99999999999" .text).toFormat .text) .text =
        ofFormat "STEAM_1:3:99999999999" .text :=
  ⟨by decide, (text_normal_form "STEAM_1:3:99999999999" (by decide)).1⟩

/-! ## Id3 -/

theorem Individual.ne_zero {x : SteamId} (hx : x.Individual) : x.toSteamId64 ≠ 0 := by
  rw [hx.word, ← combine_individual]
  exact SteamId64.combine_ne_zero _ _ _ _

/-- The sum that is printed, before it is taken for a signed number. -/
theorem id3_sum_toNat (x : SteamId) :
    (x.fields.accountNumber.setWidth 32 * 2 + x.fields.y.setWidth 32 : BitVec 32).toNat =
      2 * x.fields.accountNumber.toNat + x.fields.y.toNat := by
  have account := x.fields.accountNumber.isLt
  have bit := x.fields.y.isLt
  have two : (2 : BitVec 32).toNat = 2 := rfl
  rw [BitVec.toNat_add, BitVec.toNat_mul, BitVec.toNat_setWidth, BitVec.toNat_setWidth, two]
  omega

/-- In the lower half of the accounts the sum is printed as it is. -/
theorem toFormat_id3_isId3 {x : SteamId} (hx : x.Individual)
    (low : x.fields.accountNumber.toNat < 2 ^ 30) :
    IsId3 (x.toFormat .id3) ['['] [']'] x.fields.univ.toNat
      (2 * x.fields.accountNumber.toNat + x.fields.y.toNat) [] := by
  have bit := x.fields.y.isLt
  have sum := id3_sum_toNat x
  have positive : (x.fields.accountNumber.setWidth 32 * 2 + x.fields.y.setWidth 32 :
      BitVec 32).toInt = ((2 * x.fields.accountNumber.toNat + x.fields.y.toNat : Nat) : Int) := by
    rw [BitVec.toInt_eq_toNat_of_lt (by omega), sum]
  have digit : x.fields.univ.toNat < 10 := Nat.lt_succ_of_le hx.2.2.2
  have shape := isId3_of_numbers "[" "]" digit
    (toString_numeral (2 * x.fields.accountNumber.toNat + x.fields.y.toNat))
  have printed : x.toFormat .id3 = "[" ++ id3Form x.fields.univ.toNat
      (toString (2 * x.fields.accountNumber.toNat + x.fields.y.toNat)).toList ++ "]" := by
    unfold toFormat id3Form
    dsimp only
    rw [positive, String.ofList_toList]
    simp only [String.append_assoc]
    rfl
  rw [printed]
  exact shape

/-- A text with a sign in front of the number is not accepted. -/
theorem signed_not_accepted {s : String} {c : Char} {number : List Char}
    (text : s.toList = '[' :: 'U' :: ':' :: c :: ':' :: '-' :: number) :
    (ofFormat s .id3).toSteamId64 = 0 := by
  by_contra some_id
  obtain ⟨opening, closing, u, w, rest, hs, before, -⟩ := fromId3_ne_zero.mp some_id
  obtain ⟨cl, cu, ws, word, -, hw, shape⟩ := hs
  rw [text] at shape
  rcases before with rfl | rfl
  · obtain ⟨rfl, -⟩ := List.cons.inj shape
    cases word
  · cases ws with
    | nil => exact hw.1 rfl
    | cons d ws =>
      have digit : d.isDigit = true := hw.2.1 d List.mem_cons_self
      simp only [List.cons_append, List.nil_append, List.cons.injEq] at shape
      obtain ⟨-, -, -, -, -, rfl, -⟩ := shape
      cases digit

/-- In the upper half the sum has become negative. -/
theorem toFormat_id3_signed {x : SteamId} (hx : x.Individual)
    (high : 2 ^ 30 ≤ x.fields.accountNumber.toNat) :
    ∃ c number, (x.toFormat .id3).toList = '[' :: 'U' :: ':' :: c :: ':' :: '-' :: number := by
  have account := x.fields.accountNumber.isLt
  have sum := id3_sum_toNat x
  have negative : (x.fields.accountNumber.setWidth 32 * 2 + x.fields.y.setWidth 32 :
      BitVec 32).toInt < 0 := by
    rw [BitVec.toInt_eq_toNat_cond, sum]
    split <;> omega
  obtain ⟨m, hm⟩ := Int.eq_negSucc_of_lt_zero negative
  obtain ⟨c, digit, -⟩ := toString_digit (Nat.lt_succ_of_le hx.2.2.2)
  refine ⟨c, (toString (m + 1)).toList ++ [']'], ?_⟩
  have sign : toString (Int.negSucc m) = "-" ++ toString (m + 1) := rfl
  unfold toFormat
  dsimp only
  rw [hm, sign]
  simp only [String.toList_append, digit]
  simp

/-- An id that is printed as Id3 is read back as it was exactly in the lower
half of the accounts. -/
theorem id3_round_trip_iff (x : SteamId) (hx : x.Individual) :
    ofFormat (x.toFormat .id3) .id3 = x ↔ x.fields.accountNumber.toNat < 2 ^ 30 := by
  constructor
  · intro same
    by_contra high
    obtain ⟨c, number, text⟩ := toFormat_id3_signed hx (Nat.not_lt.mp high)
    have nothing := signed_not_accepted text
    rw [same] at nothing
    exact hx.ne_zero nothing
  · intro low
    have bit := x.fields.y.isLt
    have read := fromId3 (toFormat_id3_isId3 hx low) (Or.inr rfl) (Or.inr rfl) (Or.inl rfl)
    have y : (2 * x.fields.accountNumber.toNat + x.fields.y.toNat) % 2 = x.fields.y.toNat := by
      omega
    have z : (2 * x.fields.accountNumber.toNat + x.fields.y.toNat) / 2 =
        x.fields.accountNumber.toNat := by omega
    rw [asUInt_of_lt (by omega), y, z, ← hx.word] at read
    exact word_inj read

/-- The account of the repository's tests. -/
theorem id3_round_trip_iff_tested :
    ofFormat ((⟨76561198074409147⟩ : SteamId).toFormat .id3) .id3 = ⟨76561198074409147⟩ ↔
      (⟨76561198074409147⟩ : SteamId).fields.accountNumber.toNat < 2 ^ 30 :=
  id3_round_trip_iff ⟨76561198074409147⟩ ⟨by decide, by decide, by decide, by decide⟩

/-- The first account of the upper half. -/
def upper : SteamId := ⟨(individual 1 0 1073741824).toWord⟩

theorem upper_half_lost :
    upper.Individual ∧ upper.toFormat .id3 = "[U:1:-2147483648]" ∧
      ofFormat (upper.toFormat .id3) .id3 = ⟨0⟩ ∧ ofFormat (upper.toFormat .id3) .id3 ≠ upper :=
  ⟨⟨by decide, by decide, by decide, by decide⟩, by decide, by decide, by decide⟩

/-! ## The two textual parsers -/

theorem ofFormat_textForm {u w : Nat} (low : 1 ≤ u) (high : u ≤ 9) (small : w < 2 ^ 32) :
    (ofFormat (textForm u w) .text).toSteamId64 = (individual u (w % 2) (w / 2)).toWord := by
  have shape : IsText (textForm u w) u (w % 2) (w / 2) [] :=
    isText_of_numbers (Nat.lt_succ_of_le high) (by omega)
  rw [fromText shape (Or.inl rfl), if_neg (by omega), asUInt_of_lt (by omega)]

theorem ofFormat_id3Form (opening closing : String) (before : MayBe '[' opening.toList)
    (behind : MayBe ']' closing.toList) {u w : Nat} {ws : List Char} (high : u ≤ 9)
    (small : w < 2 ^ 32) (written : Numeral ws w) :
    (ofFormat (opening ++ id3Form u ws ++ closing) .id3).toSteamId64 =
      (individual u (w % 2) (w / 2)).toWord := by
  have shape := isId3_of_numbers opening closing (Nat.lt_succ_of_le high) written
  rw [fromId3 shape before behind (Or.inl rfl), asUInt_of_lt (by omega)]

/-- The value of an individual account. -/
theorem individual_toNat {u y n : Nat} (hu : u < 2 ^ 8) (hy : y < 2) (hn : n < 2 ^ 31) :
    (individual u y n).toWord.toNat = y + 2 * n + 2 ^ 32 + 2 ^ 52 + u * 2 ^ 56 := by
  have one : (1 : BitVec 20).toNat = 1 := rfl
  have one' : (1 : BitVec 4).toNat = 1 := rfl
  rw [SteamId64.toWord_toNat]
  simp only [individual, BitVec.toNat_ofNat, one, one']
  omega

/-- All forms of one account are read as the same word, whose value puts its
parts side by side, and different accounts as different words. -/
theorem parsers_agree (u w : Nat) (ws : List Char) (low : 1 ≤ u) (high : u ≤ 9)
    (small : w < 2 ^ 32) (written : Numeral ws w) :
    ofFormat ("[" ++ id3Form u ws ++ "]") .id3 = ofFormat (textForm u w) .text ∧
      ofFormat (id3Form u ws) .id3 = ofFormat (textForm u w) .text ∧
      (ofFormat (textForm u w) .text).toSteamId64.toNat =
        w % 2 + 2 * (w / 2) + 2 ^ 32 + 2 ^ 52 + u * 2 ^ 56 ∧
      ∀ u' w', 1 ≤ u' → u' ≤ 9 → w' < 2 ^ 32 →
        ofFormat (textForm u' w') .text = ofFormat (textForm u w) .text → u' = u ∧ w' = w := by
  have value {v n : Nat} (hv : 1 ≤ v) (hv' : v ≤ 9) (hn : n < 2 ^ 32) :
      (ofFormat (textForm v n) .text).toSteamId64.toNat =
        n % 2 + 2 * (n / 2) + 2 ^ 32 + 2 ^ 52 + v * 2 ^ 56 := by
    rw [ofFormat_textForm hv hv' hn]
    exact individual_toNat (by omega) (Nat.mod_lt n (by decide)) (by omega)
  refine ⟨?_, ?_, value low high small, ?_⟩
  · apply word_inj
    rw [ofFormat_textForm low high small]
    exact ofFormat_id3Form "[" "]" (Or.inr rfl) (Or.inr rfl) high small written
  · apply word_inj
    rw [ofFormat_textForm low high small]
    have bare := ofFormat_id3Form "" "" (Or.inl rfl) (Or.inl rfl) high small written
    simpa using bare
  · intro u' w' low' high' small' same
    have sums := congrArg (fun x => x.toSteamId64.toNat) same
    rw [value low high small, value low' high' small'] at sums
    omega

/-- The largest account of the last universe, with zeros in front. -/
theorem parsers_agree_largest :
    ofFormat "[U:9:004294967295]" .id3 = ofFormat "STEAM_9:1:2147483647" .text ∧
      ofFormat "U:9:004294967295" .id3 = ofFormat "STEAM_9:1:2147483647" .text := by
  have written : Numeral "004294967295".toList 4294967295 :=
    (Numeral.toDigits 4294967295).zeros 2
  obtain ⟨enclosed, bare, -⟩ :=
    parsers_agree 9 4294967295 "004294967295".toList (by decide) (by decide) (by decide) written
  exact ⟨enclosed, bare⟩

/-! ## Id64 -/

/-- A number that is printed as Id64 is read back as it was exactly where it is
a signed number. -/
theorem id64_round_trip_iff (v : BitVec 64) :
    (ofFormat ((⟨v⟩ : SteamId).toFormat .id64) .id64).toSteamId64 = v ↔ v.toNat < 2 ^ 63 := by
  have read : (ofFormat ((⟨v⟩ : SteamId).toFormat .id64) .id64).toSteamId64 =
      .ofInt 64 (if v.toNat ≤ 9223372036854775807 then (v.toNat : Int) else 0) := by
    have value := Numeral.toLongLong_eq (toString_numeral v.toNat)
    rw [String.ofList_toList] at value
    unfold ofFormat fromSteamIdFormat toFormat
    dsimp only
    rw [value]
  rw [read]
  by_cases signed : v.toNat ≤ 9223372036854775807
  · rw [if_pos signed, BitVec.ofInt_natCast, BitVec.ofNat_toNat, BitVec.setWidth_eq]
    exact iff_of_true rfl (by omega)
  · rw [if_neg signed]
    refine iff_of_false ?_ (by omega)
    intro zero
    rw [← zero] at signed
    exact signed (by decide)

theorem unsigned_lost :
    (⟨9223372036854775808⟩ : SteamId).toFormat .id64 = "9223372036854775808" ∧
      (ofFormat ((⟨9223372036854775808⟩ : SteamId).toFormat .id64) .id64).toSteamId64 = 0 :=
  ⟨by decide, by decide⟩

end Morgoth.SteamId
