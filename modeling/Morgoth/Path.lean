import Mathlib.Data.List.Infix

/-!
# Paths

A path is a text of names with slashes between them. More than one slash in a
row, or one behind the last name, is as good as none.

* `same_join_iff`: when a relative path put directly behind another one names
  what it names behind a slash;
* `below_join`: a path that never goes up stays below the directory it starts
  from;
* `Apart.ne`: below directories that are apart there is no file in common.
-/

namespace Morgoth.Path

abbrev Name := List Char

def isAbsolute (s : List Char) : Bool := s.head? == some '/'

def names (s : List Char) : List Name := (s.splitOn '/').filter (· ≠ [])

/-- The paths lead through the same names from the same start. -/
def Same (a b : List Char) : Prop := isAbsolute a = isAbsolute b ∧ names a = names b

/-! ## Names -/

theorem names_slash (a b : List Char) : names (a ++ '/' :: b) = names a ++ names b := by
  unfold names
  rw [List.splitOn_append_cons_self, List.filter_append]

theorem names_single {s : List Char} (nonempty : s ≠ []) (single : '/' ∉ s) : names s = [s] := by
  unfold names
  rw [List.splitOn_eq_singleton single]
  simp [nonempty]

/-- A name ends where a slash follows, or nothing. -/
theorem length_names_cons (c : Char) (s : List Char) :
    (names (c :: s)).length =
      (names s).length + if c ≠ '/' ∧ s.head?.all (· == '/') = true then 1 else 0 := by
  by_cases slash : c = '/'
  · rw [slash]
    have skipped := congrArg List.length (names_slash [] s)
    simpa [names] using skipped
  · cases s with
    | nil =>
      rw [names_single (by simp) (by simpa using Ne.symm slash)]
      simp [names, slash]
    | cons d s =>
      obtain ⟨x, xs, parts⟩ := List.exists_cons_of_ne_nil (List.splitOn_ne_nil '/' s)
      by_cases next : d = '/' <;>
        simp [names, List.splitOn_cons_eq_if_modifyHead, slash, next, parts]

/-- Two texts that meet between two letters make one name of two. -/
theorem length_names_join {x y : Char} (hx : x ≠ '/') (hy : y ≠ '/') (a b : List Char) :
    (names (a ++ x :: y :: b)).length + 1 =
      (names (a ++ [x])).length + (names (y :: b)).length := by
  induction a with
  | nil =>
    rw [List.nil_append, List.nil_append, length_names_cons x, length_names_cons x]
    simp [hx, hy, names, Nat.add_comm]
  | cons c a ih =>
    have next : (a ++ x :: y :: b).head? = (a ++ [x]).head? := by cases a <;> rfl
    rw [List.cons_append, List.cons_append, length_names_cons c, length_names_cons c, next]
    omega

theorem isAbsolute_slash (a b : List Char) :
    isAbsolute (a ++ '/' :: b) = isAbsolute (a ++ ['/']) := by
  cases a <;> rfl

/-- A relative path behind another one names the same as behind a slash, where
that slash is there already or there is nothing to put behind. -/
theorem same_join_iff {a b : List Char} (relative : isAbsolute b = false) (rest : List Char) :
    Same (a ++ b ++ '/' :: rest) (a ++ '/' :: (b ++ '/' :: rest)) ↔
      a.getLast? = some '/' ∨ b = [] := by
  have goal : Same (a ++ b ++ '/' :: rest) (a ++ '/' :: (b ++ '/' :: rest)) ↔
      isAbsolute (a ++ b ++ ['/']) = isAbsolute (a ++ ['/']) ∧
        names (a ++ b) = names a ++ names b := by
    unfold Same
    rw [isAbsolute_slash (a ++ b), isAbsolute_slash a, names_slash (a ++ b), names_slash a,
      names_slash b, ← List.append_assoc, List.append_cancel_right_eq]
  rw [goal]
  cases b with
  | nil => simp [names]
  | cons y b =>
    have hy : y ≠ '/' := by
      rintro rfl
      cases relative
    cases a using List.reverseRecOn with
    | nil => simp [isAbsolute, hy]
    | append_singleton a x =>
      by_cases slash : x = '/'
      · subst slash
        constructor
        · intro _
          simp
        · intro _
          constructor
          · cases a <;> rfl
          · rw [List.append_assoc, List.singleton_append, names_slash, names_slash]
            simp [names]
      · have joined := length_names_join slash hy a b
        constructor
        · rintro ⟨-, same⟩
          have lengths := congrArg List.length same
          rw [List.append_assoc, List.singleton_append, List.length_append] at lengths
          omega
        · rintro (last | empty)
          · simp [slash] at last
          · cases empty

/-! ## Directories -/

/-- One name further from a directory, which is the list of names that lead to
it from the root. -/
def enter (dir : List Name) (name : Name) : List Name :=
  if name = ['.'] then dir
  else if name = ['.', '.'] then dir.dropLast
  else dir ++ [name]

/-- Where a path leads from a working directory. -/
def resolve (cwd : List Name) (s : List Char) : List Name :=
  (names s).foldl enter (if isAbsolute s then [] else cwd)

/-- Neither directory contains the other. -/
def Apart (dir other : List Name) : Prop := ¬ dir <+: other ∧ ¬ other <+: dir

def Below (dir file : List Name) : Prop := ∃ rest, rest ≠ [] ∧ dir ++ rest = file

theorem Same.resolve_eq {a b : List Char} (same : Same a b) (cwd : List Name) :
    resolve cwd a = resolve cwd b := by
  unfold resolve
  rw [same.1, same.2]

theorem resolve_slash (cwd : List Name) (a b : List Char) :
    resolve cwd (a ++ '/' :: b) = (names b).foldl enter (resolve cwd (a ++ ['/'])) := by
  unfold resolve
  rw [isAbsolute_slash, names_slash, names_slash, List.foldl_append, List.foldl_append]
  rfl

/-- A path without `..` stays inside. -/
theorem inside_foldl {path : List Name} (down : ['.', '.'] ∉ path) (dir : List Name) :
    dir <+: path.foldl enter dir := by
  induction path generalizing dir with
  | nil => exact List.prefix_rfl
  | cons name path ih =>
    obtain ⟨first, later⟩ := not_or.mp (mt List.mem_cons.mpr down)
    have entered : dir <+: enter dir name := by
      unfold enter
      split
      · exact List.prefix_rfl
      · rw [if_neg (Ne.symm first)]
        exact List.prefix_append dir [name]
    exact entered.trans (ih later _)

theorem below_join {b : List Char} (down : ['.', '.'] ∉ names b) {file : Name}
    (named : names file = [file]) (ordinary : file ≠ ['.'] ∧ file ≠ ['.', '.'])
    (cwd : List Name) (a : List Char) :
    Below (resolve cwd (a ++ ['/'])) (resolve cwd (a ++ '/' :: (b ++ '/' :: file))) := by
  obtain ⟨between, there⟩ := inside_foldl down (resolve cwd (a ++ ['/']))
  refine ⟨between ++ [file], by simp, ?_⟩
  have last : enter (resolve cwd (a ++ ['/']) ++ between) file =
      resolve cwd (a ++ ['/']) ++ between ++ [file] := by
    unfold enter
    rw [if_neg ordinary.1, if_neg ordinary.2]
  rw [resolve_slash cwd a (b ++ _), names_slash b, List.foldl_append, named, ← there,
    List.foldl_cons, last, List.append_assoc]
  rfl

theorem Apart.ne {dir other x y : List Name} (apart : Apart dir other) (hx : Below dir x)
    (hy : Below other y) : x ≠ y := by
  rintro rfl
  obtain ⟨_, -, rfl⟩ := hx
  obtain ⟨_, -, same⟩ := hy
  rcases List.prefix_or_prefix_of_prefix (List.prefix_append dir _) ⟨_, same⟩ with inside | inside
  · exact apart.1 inside
  · exact apart.2 inside

end Morgoth.Path
