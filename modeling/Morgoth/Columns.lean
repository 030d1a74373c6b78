import Mathlib.Order.Lattice
import Morgoth.Qt

/-!
# Text in columns

The size of a `QString`, and the fields of a `QTextStream`.

* `size_center`, `size_right`: a field is as wide as it is told to be, or as its text;
* `size_le_widest`: the widest of some texts leaves room for all of them.
-/

namespace Morgoth

namespace QString

/-- `QString::size` -/
def size (s : String) : Nat := (units s).length

@[simp] theorem size_append (a b : String) : size (a ++ b) = size a + size b := by
  simp [size, units]

end QString

namespace QTextStream

open QString (size size_append)

def blanks (n : Nat) : String := String.ofList (List.replicate n ' ')

@[simp] theorem size_blanks (n : Nat) : size (blanks n) = n := by
  induction n with
  | zero => rfl
  | succ n ih =>
    simp only [size, QString.units, blanks, String.toList_ofList, List.replicate_succ,
      List.flatMap_cons, List.length_append] at ih ⊢
    rw [ih]
    simp [QString.unitsOf]
    omega

/-- A text in a field, `right`. -/
def right (fieldWidth : Nat) (s : String) : String := blanks (fieldWidth - size s) ++ s

/-- A text in a field, `center`: an odd blank goes to the right. -/
def center (fieldWidth : Nat) (s : String) : String :=
  let padSize := fieldWidth - size s
  blanks (padSize / 2) ++ s ++ blanks (padSize - padSize / 2)

@[simp] theorem size_right (fieldWidth : Nat) (s : String) :
    size (right fieldWidth s) = max fieldWidth (size s) := by
  simp only [right, size_append, size_blanks]
  omega

@[simp] theorem size_center (fieldWidth : Nat) (s : String) :
    size (center fieldWidth s) = max fieldWidth (size s) := by
  simp only [center, size_append, size_blanks]
  omega

/-- The size of the longest text, `none` where there is no text. -/
def widest (texts : List String) : Option Nat := (texts.map size).max?

theorem size_le_widest {texts : List String} {width : Nat} (widest_eq : widest texts = some width)
    {s : String} (listed : s ∈ texts) : size s ≤ width :=
  (List.max?_eq_some_iff.mp widest_eq).2 _ (List.mem_map_of_mem listed)

theorem widest_eq_none {texts : List String} : widest texts = none ↔ texts = [] := by
  simp [widest]

end QTextStream

end Morgoth
