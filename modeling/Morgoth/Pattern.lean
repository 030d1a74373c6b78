import Mathlib.Data.List.TakeWhile

/-!
# Regular expressions of one line

The expressions `^...$` whose items are character classes, each for one
character, at most one (`?`) or at least one (`+`), some of them captured. `$`
also matches before a newline that ends the text.

* `exec`: the backtracking search, the longest choice first, with its captures;
* `exec_some_iff`: where no item can take what the items behind it begin with,
  the search finds the captures exactly if the text matches with them.
-/

namespace Morgoth

inductive Count
  | one
  | optional
  | many
  deriving DecidableEq, Repr

def Count.allows : Count → Nat → Bool
  | .one, n => n == 1
  | .optional, n => n ≤ 1
  | .many, n => 1 ≤ n

structure Item where
  takes : Char → Bool
  count : Count := .one
  captured : Bool := false

abbrev Pattern := List Item

/-- An item that is there only for its own text. -/
def Item.char (c : Char) : Item := { takes := fun d => d == c }

namespace Item

/-- What the item may take. -/
def Accepts (i : Item) (w : List Char) : Prop :=
  (∀ c ∈ w, i.takes c = true) ∧ i.count.allows w.length = true

def capture (i : Item) (w : List Char) : List (List Char) := if i.captured then [w] else []

/-- The choices of an item, with what each of them leaves. -/
def splits (i : Item) (s : List Char) : List (List Char × List Char) :=
  ((List.range ((s.takeWhile i.takes).length + 1)).reverse.filter (i.count.allows ·)).map fun n =>
    s.splitAt n

theorem all_take_iff (takes : Char → Bool) {s : List Char} {n : Nat} (hn : n ≤ s.length) :
    (∀ c ∈ s.take n, takes c = true) ↔ n ≤ (s.takeWhile takes).length := by
  induction s generalizing n with
  | nil => simpa using hn
  | cons c s ih =>
    cases n with
    | zero => simp
    | succ n =>
      have rest := ih (Nat.le_of_succ_le_succ hn)
      cases first : takes c <;> simp [first, ← rest]

theorem mem_splits {i : Item} {s w rest : List Char} :
    (w, rest) ∈ i.splits s ↔ s = w ++ rest ∧ i.Accepts w := by
  unfold splits Accepts
  simp only [List.mem_map, List.mem_filter, List.mem_reverse, List.mem_range, List.splitAt_eq,
    Prod.mk.injEq]
  constructor
  · rintro ⟨n, ⟨hn, allowed⟩, rfl, rfl⟩
    have bound : n ≤ s.length :=
      Nat.le_trans (Nat.lt_succ_iff.mp hn) (List.takeWhile_prefix i.takes).length_le
    refine ⟨(List.take_append_drop n s).symm, (all_take_iff _ bound).mpr (Nat.lt_succ_iff.mp hn), ?_⟩
    rw [List.length_take, Nat.min_eq_left bound]
    exact allowed
  · rintro ⟨rfl, all, allowed⟩
    refine ⟨w.length, ⟨?_, allowed⟩, List.take_left, List.drop_left⟩
    apply Nat.lt_succ_iff.mpr
    apply (all_take_iff i.takes (by simp)).mp
    rw [List.take_left]
    exact all

end Item

namespace Pattern

/-- The text matches, with these captures. -/
inductive Matches : Pattern → List Char → List (List Char) → Prop
  | nil : Matches [] [] []
  | newline : Matches [] ['\n'] []
  | cons {i : Item} {p : Pattern} {w s : List Char} {captures : List (List Char)}
      (accepts : i.Accepts w) (rest : Matches p s captures) :
      Matches (i :: p) (w ++ s) (i.capture w ++ captures)

def exec : Pattern → List Char → Option (List (List Char))
  | [], s => if s = [] ∨ s = ['\n'] then some [] else none
  | i :: p, s => (i.splits s).findSome? fun part => (exec p part.2).map (i.capture part.1 ++ ·)

/-- What is found is a match. -/
theorem exec_matches {p : Pattern} {s : List Char} {captures : List (List Char)}
    (found : exec p s = some captures) : Matches p s captures := by
  induction p generalizing s captures with
  | nil =>
    unfold exec at found
    split at found
    case isTrue last =>
      obtain rfl := Option.some.inj found
      rcases last with rfl | rfl
      · exact .nil
      · exact .newline
    case isFalse => cases found
  | cons i p ih =>
    obtain ⟨⟨w, rest⟩, choice, found⟩ := List.exists_of_findSome?_eq_some found
    obtain ⟨later, foundLater, rfl⟩ := Option.map_eq_some_iff.mp found
    obtain ⟨rfl, accepts⟩ := Item.mem_splits.mp choice
    exact .cons accepts (ih foundLater)

/-- Where there is a match, one is found. -/
theorem exec_of_matches {p : Pattern} {s : List Char} {captures : List (List Char)}
    (hm : Matches p s captures) : (exec p s).isSome := by
  induction hm with
  | nil | newline => rfl
  | @cons i p w s captures accepts rest ih =>
    unfold exec
    rw [List.findSome?_isSome_iff]
    refine ⟨(w, s), Item.mem_splits.mpr ⟨rfl, accepts⟩, ?_⟩
    rw [Option.isSome_map]
    exact ih

/-! ## Item by item -/

/-- What `$` leaves of the text. -/
def AtEnd (s : List Char) : Prop := s = [] ∨ s = ['\n']

theorem matches_nil {s : List Char} {captures : List (List Char)} :
    Matches [] s captures ↔ AtEnd s ∧ captures = [] := by
  constructor
  · intro hm
    cases hm with
    | nil => exact ⟨Or.inl rfl, rfl⟩
    | newline => exact ⟨Or.inr rfl, rfl⟩
  · rintro ⟨rfl | rfl, rfl⟩
    · exact .nil
    · exact .newline

theorem matches_cons {i : Item} {p : Pattern} {s : List Char} {captures : List (List Char)} :
    Matches (i :: p) s captures ↔
      ∃ w t later, i.Accepts w ∧ Matches p t later ∧ s = w ++ t ∧
        captures = i.capture w ++ later := by
  constructor
  · intro hm
    cases hm with
    | cons accepts rest => exact ⟨_, _, _, accepts, rest, rfl, rfl⟩
  · rintro ⟨w, t, later, accepts, rest, rfl, rfl⟩
    exact .cons accepts rest

/-- An item for one character. -/
theorem matches_one {i : Item} (one : i.count = .one) {p : Pattern} {s : List Char}
    {captures : List (List Char)} :
    Matches (i :: p) s captures ↔
      ∃ c t later, i.takes c = true ∧ Matches p t later ∧ s = c :: t ∧
        captures = i.capture [c] ++ later := by
  rw [matches_cons]
  constructor
  · rintro ⟨w, t, later, ⟨all, allowed⟩, rest, rfl, rfl⟩
    rw [one] at allowed
    obtain ⟨c, rfl⟩ := List.length_eq_one_iff.mp (beq_iff_eq.mp allowed)
    exact ⟨c, t, later, all c List.mem_cons_self, rest, rfl, rfl⟩
  · rintro ⟨c, t, later, taken, rest, rfl, rfl⟩
    refine ⟨[c], t, later, ⟨?_, by rw [one]; rfl⟩, rest, rfl, rfl⟩
    intro d hd
    rw [List.mem_singleton.mp hd]
    exact taken

theorem matches_captured {takes : Char → Bool} {p : Pattern} {s : List Char}
    {captures : List (List Char)} :
    Matches ({ takes := takes, captured := true } :: p) s captures ↔
      ∃ c t later, takes c = true ∧ Matches p t later ∧ s = c :: t ∧ captures = [c] :: later :=
  matches_one rfl

theorem matches_char {c : Char} {p : Pattern} {s : List Char} {captures : List (List Char)} :
    Matches (.char c :: p) s captures ↔ ∃ t, Matches p t captures ∧ s = c :: t := by
  rw [matches_one rfl]
  constructor
  · rintro ⟨d, t, later, taken, rest, rfl, rfl⟩
    obtain rfl := beq_iff_eq.mp taken
    exact ⟨t, rest, rfl⟩
  · rintro ⟨t, rest, rfl⟩
    exact ⟨c, t, captures, beq_self_eq_true c, rest, rfl, rfl⟩

/-- A text that has to be there as it is. -/
theorem matches_literal {text : List Char} {p : Pattern} {s : List Char}
    {captures : List (List Char)} :
    Matches (text.map .char ++ p) s captures ↔ ∃ t, Matches p t captures ∧ s = text ++ t := by
  induction text generalizing s with
  | nil => simp
  | cons c text ih =>
    rw [List.map_cons, List.cons_append, matches_char]
    constructor
    · rintro ⟨t, there, rfl⟩
      obtain ⟨t, rest, rfl⟩ := ih.mp there
      exact ⟨t, rest, rfl⟩
    · rintro ⟨t, rest, rfl⟩
      exact ⟨text ++ t, ih.mpr ⟨t, rest, rfl⟩, rfl⟩

/-- An item that need not be there. -/
theorem accepts_optional {i : Item} (optional : i.count = .optional) {w : List Char} :
    i.Accepts w ↔ w = [] ∨ ∃ c, i.takes c = true ∧ w = [c] := by
  unfold Item.Accepts
  rw [optional]
  constructor
  · rintro ⟨all, allowed⟩
    cases w with
    | nil => exact Or.inl rfl
    | cons c w =>
      have short : w.length + 1 ≤ 1 := of_decide_eq_true allowed
      obtain rfl := List.eq_nil_of_length_eq_zero (Nat.le_zero.mp (Nat.le_of_succ_le_succ short))
      exact Or.inr ⟨c, all c List.mem_cons_self, rfl⟩
  · rintro (rfl | ⟨c, taken, rfl⟩)
    · exact ⟨nofun, rfl⟩
    · refine ⟨?_, rfl⟩
      intro d hd
      rw [List.mem_singleton.mp hd]
      exact taken

theorem accepts_many {i : Item} (many : i.count = .many) {w : List Char} :
    i.Accepts w ↔ w ≠ [] ∧ ∀ c ∈ w, i.takes c = true := by
  unfold Item.Accepts
  rw [many, and_comm]
  apply and_congr_left'
  rw [ne_eq, ← List.length_eq_zero_iff]
  exact decide_eq_true_iff.trans Nat.one_le_iff_ne_zero

/-! ## Patterns with one way to match -/

/-- The characters a match may begin with. -/
def starts : Pattern → Char → Bool
  | [], c => c == '\n'
  | i :: p, c => i.takes c || (i.count == .optional && starts p c)

/-- No item that may take more or fewer characters can go on into the rest. -/
def Clear : Pattern → Prop
  | [] => True
  | i :: p => (i.count ≠ .one → ∀ c, i.takes c = true → starts p c = false) ∧ Clear p

theorem clear_one {i : Item} (one : i.count = .one) {p : Pattern} :
    Clear (i :: p) ↔ Clear p := by
  constructor
  · exact fun clear => clear.2
  · exact fun clear => ⟨fun several => absurd one several, clear⟩

theorem clear_literal {text : List Char} {p : Pattern} :
    Clear (text.map .char ++ p) ↔ Clear p := by
  induction text with
  | nil => rfl
  | cons c text ih =>
    rw [List.map_cons, List.cons_append, clear_one rfl]
    exact ih

theorem starts_of_matches {p : Pattern} {c : Char} {s : List Char} {captures : List (List Char)}
    (hm : Matches p (c :: s) captures) : starts p c = true := by
  generalize text : c :: s = t at hm
  induction hm with
  | nil => cases text
  | newline =>
    obtain ⟨rfl, -⟩ := List.cons.inj text
    rfl
  | @cons i p w t captures accepts rest ih =>
    unfold starts
    cases w with
    | nil =>
      have optional : i.count = .optional := by
        have allowed := accepts.2
        cases count : i.count with
        | optional => rfl
        | one | many =>
          rw [count] at allowed
          cases allowed
      simp [optional, ih text]
    | cons d w =>
      obtain ⟨rfl, -⟩ := List.cons.inj text
      simp [accepts.1 c List.mem_cons_self]

/-- The part that an item takes is the same in two matches of one text. -/
theorem split_unique {i : Item} {p : Pattern} {w w' s s' : List Char}
    {captures captures' : List (List Char)}
    (clear : i.count ≠ .one → ∀ c, i.takes c = true → starts p c = false)
    (hw : i.Accepts w) (hw' : i.Accepts w') (hs : Matches p s captures)
    (hs' : Matches p s' captures') (same : w ++ s = w' ++ s') : w = w' ∧ s = s' := by
  have reach {v v' t t' : List Char} {found : List (List Char)} (hv' : i.Accepts v')
      (ht : Matches p t found) (same : v ++ t = v' ++ t') (shorter : v.length < v'.length)
      (several : i.count ≠ .one) : False := by
    obtain ⟨more, rfl⟩ := List.prefix_of_prefix_length_le ⟨t, rfl⟩ ⟨t', same.symm⟩
      (Nat.le_of_lt shorter)
    cases more with
    | nil => simp at shorter
    | cons c more =>
      rw [List.append_assoc, List.append_cancel_left_eq, List.cons_append] at same
      rw [same] at ht
      have taken : i.takes c = true := hv'.1 c (by simp)
      have free := clear several c taken
      rw [starts_of_matches ht] at free
      cases free
  have length : w.length = w'.length := by
    by_cases one : i.count = .one
    · have len := hw.2
      have len' := hw'.2
      rw [one] at len len'
      simp only [Count.allows, beq_iff_eq] at len len'
      rw [len, len']
    · rcases Nat.lt_trichotomy w.length w'.length with shorter | equal | longer
      · exact (reach hw' hs same shorter one).elim
      · exact equal
      · exact (reach hw hs' same.symm longer one).elim
  exact List.append_inj same length

theorem matches_unique {p : Pattern} {s : List Char} {captures captures' : List (List Char)}
    (clear : Clear p) (hm : Matches p s captures) (hm' : Matches p s captures') :
    captures = captures' := by
  induction hm generalizing captures' with
  | nil | newline => cases hm'; rfl
  | @cons i p w s captures accepts rest ih =>
    generalize text : w ++ s = t at hm'
    cases hm' with
    | @cons _ _ w' s' captures'' accepts' rest' =>
      obtain ⟨rfl, rfl⟩ := split_unique clear.1 accepts accepts' rest rest' text
      rw [ih clear.2 rest']

/-- The search finds the captures exactly if the text matches with them. -/
theorem exec_some_iff {p : Pattern} (clear : Clear p) {s : List Char}
    {captures : List (List Char)} : exec p s = some captures ↔ Matches p s captures := by
  constructor
  · exact exec_matches
  · intro hm
    obtain ⟨found, hfound⟩ := Option.isSome_iff_exists.mp (exec_of_matches hm)
    rw [hfound, matches_unique clear (exec_matches hfound) hm]

end Pattern

end Morgoth
