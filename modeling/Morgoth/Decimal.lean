import Morgoth.Qt

/-!
# Decimal numerals

What the conversions of `QString` make of a sequence of decimal digits, and of
a number that has been printed.
-/

namespace Morgoth

/-- What `toUInt` makes of a number. -/
def asUInt (n : Nat) : Nat := if n < 4294967296 then n else 0

theorem asUInt_lt (n : Nat) : asUInt n < 4294967296 := by
  unfold asUInt
  split <;> omega

theorem asUInt_of_lt {n : Nat} (hn : n < 4294967296) : asUInt n = n := if_pos hn

/-- The text is a sequence of digits that stands for the number. -/
def Numeral (s : List Char) (n : Nat) : Prop :=
  s ≠ [] ∧ (∀ c ∈ s, c.isDigit = true) ∧ Nat.ofDigitChars 10 s 0 = n

theorem digit_of_isDigit {c : Char} (hc : c.isDigit = true) : digit c = some (c.toNat - 48) :=
  if_pos (Char.isDigit_iff_toNat.mp hc)

theorem isSpace_of_isDigit {c : Char} (hc : c.isDigit = true) : isSpace c = false := by
  obtain ⟨low, high⟩ : 48 ≤ c.toNat ∧ c.toNat ≤ 57 := Char.isDigit_iff_toNat.mp hc
  simp only [isSpace, Bool.or_eq_false_iff, Bool.and_eq_false_iff, decide_eq_false_iff_not,
    beq_eq_false_iff_ne, ne_eq]
  omega

theorem foldlM_digits {s : List Char} (digits : ∀ c ∈ s, c.isDigit = true) (init : Nat) :
    s.foldlM (fun n d => (digit d).map (10 * n + ·)) init = some (Nat.ofDigitChars 10 s init) := by
  induction s generalizing init with
  | nil => simp
  | cons c s ih =>
    obtain ⟨first, rest⟩ := List.forall_mem_cons.mp digits
    rw [List.foldlM_cons, digit_of_isDigit first, Nat.ofDigitChars_cons]
    exact ih rest _

namespace Numeral

variable {s : List Char} {n : Nat}

theorem unique {m : Nat} (hs : Numeral s n) (hs' : Numeral s m) : n = m :=
  hs.2.2.symm.trans hs'.2.2

theorem numeral_eq (hs : Numeral s n) : numeral s = some n := by
  obtain ⟨some_digit, digits, rfl⟩ := hs
  cases s with
  | nil => exact absurd rfl some_digit
  | cons c s => exact foldlM_digits digits 0

theorem trimmed_eq (hs : Numeral s n) : trimmed s = s := by
  have kept (t : List Char) (digits : ∀ c ∈ t, c.isDigit = true) : t.dropWhile isSpace = t := by
    cases t with
    | nil => rfl
    | cons c t =>
      rw [List.dropWhile_cons, isSpace_of_isDigit (digits c List.mem_cons_self)]
      rfl
  unfold trimmed
  rw [kept s hs.2.1, kept s.reverse fun c hc => hs.2.1 c (List.mem_reverse.mp hc),
    List.reverse_reverse]

theorem unsigned (hs : Numeral s n) : unsignedNumeral s = some n := by
  have value := hs.numeral_eq
  unfold unsignedNumeral
  split
  · exact absurd (hs.2.1 '+' List.mem_cons_self) (by decide)
  · exact value

theorem signed (hs : Numeral s n) : signedNumeral s = some (n : Int) := by
  have value := hs.numeral_eq
  unfold signedNumeral
  split
  · exact absurd (hs.2.1 '-' List.mem_cons_self) (by decide)
  · exact absurd (hs.2.1 '+' List.mem_cons_self) (by decide)
  · rw [value]
    rfl

theorem toUInt_eq (hs : Numeral s n) : toUInt (String.ofList s) = asUInt n := by
  unfold toUInt
  rw [String.toList_ofList, hs.trimmed_eq, hs.unsigned]
  rfl

theorem toLongLong_eq (hs : Numeral s n) :
    toLongLong (String.ofList s) = if n ≤ 9223372036854775807 then (n : Int) else 0 := by
  unfold toLongLong
  rw [String.toList_ofList, hs.trimmed_eq, hs.signed]
  dsimp only
  congr 1
  apply propext
  omega

/-- A number that has been printed. -/
theorem toDigits (n : Nat) : Numeral (Nat.toDigits 10 n) n :=
  ⟨Nat.toDigits_ne_nil, fun _ hc => Nat.isDigit_of_mem_toDigits (by decide) (by decide) hc,
    Nat.ofDigitChars_ten_toDigits⟩

/-- Zeros in front change nothing. -/
theorem zeros (hs : Numeral s n) (k : Nat) : Numeral (List.replicate k '0' ++ s) n := by
  obtain ⟨some_digit, digits, rfl⟩ := hs
  refine ⟨?_, ?_, ?_⟩
  · intro none_there
    exact some_digit (List.append_eq_nil_iff.mp none_there).2
  · intro c hc
    rcases List.mem_append.mp hc with zero | digit
    · rw [List.eq_of_mem_replicate zero]
      rfl
    · exact digits c digit
  · rw [Nat.ofDigitChars_append, Nat.ofDigitChars_replicate_zero, Nat.mul_zero]

/-- One digit stands for a number below ten. -/
theorem single_iff {c : Char} : Numeral [c] n ↔ c.isDigit = true ∧ n = c.toNat - 48 := by
  have value : Nat.ofDigitChars 10 [c] 0 = c.toNat - 48 := by simp [Nat.ofDigitChars_cons]
  unfold Numeral
  rw [value]
  constructor
  · exact fun written => ⟨written.2.1 c List.mem_cons_self, written.2.2.symm⟩
  · rintro ⟨digit, rfl⟩
    refine ⟨List.cons_ne_nil c [], ?_, rfl⟩
    intro d hd
    rw [List.mem_singleton.mp hd]
    exact digit

theorem single_lt {c : Char} (hc : Numeral [c] n) : n < 10 := by
  obtain ⟨digit, rfl⟩ := single_iff.mp hc
  have high : c.toNat ≤ 57 := (Char.isDigit_iff_toNat.mp digit).2
  omega

end Numeral

end Morgoth
