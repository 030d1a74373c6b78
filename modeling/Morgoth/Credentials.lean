import Mathlib.Data.List.Induction
import Mathlib.Data.List.Infix
import Morgoth.Tmux

/-!
# The credentials of a process

A process that is given one user after another. A user is looked up when it is
set, and what was found of an earlier one stays where nothing is found.

* `takes_last_iff`: when the child takes what was found of the last user.
-/

namespace Morgoth

namespace UserProcess

def userId (p : UserProcess) : Nat := p.uid

def groupId (p : UserProcess) : Nat := p.gid

/-- What is found of a user. The empty one is not looked up. -/
def lookup (getpwnam : String → Option Passwd) (user : String) : Option Passwd :=
  if user = "" then none else getpwnam user

/-- A call of `setUser`, with the user database of that moment. -/
structure Setting where
  user : String
  getpwnam : String → Option Passwd

def Setting.found (x : Setting) : Option Passwd := lookup x.getpwnam x.user

def setUsers (xs : List Setting) : UserProcess :=
  xs.foldl (fun p x => p.setUser x.getpwnam x.user) {}

/-- The call that set the user; one with the user that is set already sets
nothing. -/
def inForce (xs : List Setting) : Setting :=
  xs.foldl (fun last x => if last.user = x.user then last else x) ⟨"", fun _ => none⟩

/-- The child takes those credentials, or keeps the daemon's where there are
none, and the ids agree with what it takes. -/
structure Takes (p : UserProcess) (found : Option Passwd) : Prop where
  credentials : p.setupChildProcess = found
  ids : ∀ pwd, p.setupChildProcess = some pwd → p.userId = pwd.uid ∧ p.groupId = pwd.gid

variable {p : UserProcess} {x : Setting} {xs : List Setting} {pw : String → Option Passwd}

theorem setUser_same (same : p.user = x.user) : p.setUser x.getpwnam x.user = p :=
  if_neg (not_not_intro same)

/-- Another user is looked up; what was found before stays where nothing is
found now. -/
theorem setUser_other (other : p.user ≠ x.user) :
    (p.setUser x.getpwnam x.user).user = x.user ∧
      (p.setUser x.getpwnam x.user).setupChildProcess = x.found.or p.setupChildProcess := by
  unfold setUser resolveGidAndUid Setting.found lookup
  rw [if_pos other]
  by_cases empty : x.user = ""
  · simp [empty, setupChildProcess]
  · cases x.getpwnam x.user <;> simp [empty, setupChildProcess]

theorem setUsers_snoc (xs : List Setting) (x : Setting) :
    setUsers (xs ++ [x]) = (setUsers xs).setUser x.getpwnam x.user := List.foldl_append

theorem inForce_snoc (xs : List Setting) (x : Setting) :
    inForce (xs ++ [x]) = if (inForce xs).user = x.user then inForce xs else x :=
  List.foldl_append

theorem setUsers_user (xs : List Setting) : (setUsers xs).user = (inForce xs).user := by
  induction xs using List.reverseRecOn with
  | nil => rfl
  | append_singleton xs x ih =>
    rw [setUsers_snoc, inForce_snoc]
    by_cases same : (inForce xs).user = x.user
    · rw [if_pos same, setUser_same (ih.trans same), ih]
    · rw [if_neg same, (setUser_other fun same' => same (ih.symm.trans same')).1]

/-- What one more call does to the credentials. -/
theorem setUsers_step (xs : List Setting) (x : Setting) :
    (inForce (xs ++ [x]) = inForce xs ∧ setUsers (xs ++ [x]) = setUsers xs) ∨
      (inForce (xs ++ [x]) = x ∧ (setUsers (xs ++ [x])).setupChildProcess =
        x.found.or (setUsers xs).setupChildProcess) := by
  rw [setUsers_snoc, inForce_snoc]
  have user := setUsers_user xs
  by_cases same : (inForce xs).user = x.user
  · exact Or.inl ⟨if_pos same, setUser_same (user.trans same)⟩
  · exact Or.inr ⟨if_neg same, (setUser_other fun same' => same (user.symm.trans same')).2⟩

/-- What is found of the last user is what the child takes. -/
theorem takes_found {pwd : Passwd} (found : (inForce xs).found = some pwd) :
    (setUsers xs).setupChildProcess = some pwd := by
  induction xs using List.reverseRecOn with
  | nil => cases found
  | append_singleton xs x ih =>
    rcases setUsers_step xs x with ⟨last, kept⟩ | ⟨last, moved⟩
    · rw [last] at found
      rw [kept]
      exact ih found
    · rw [last] at found
      rw [moved, found, Option.some_or]

/-- The child takes no credentials only where nothing was ever found. -/
theorem takes_none_iff : (setUsers xs).setupChildProcess = none ↔
    ∀ before, before <+: xs → (inForce before).found = none := by
  induction xs using List.reverseRecOn with
  | nil =>
    apply iff_of_true rfl
    intro before nothing
    rw [List.prefix_nil.mp nothing]
    rfl
  | append_singleton xs x ih =>
    simp only [List.prefix_concat_iff, forall_eq_or_imp, ← ih]
    rcases setUsers_step xs x with ⟨last, kept⟩ | ⟨last, moved⟩
    · rw [last, kept]
      constructor
      · exact fun nothing => ⟨ih.mp nothing xs List.prefix_rfl, nothing⟩
      · exact And.right
    · rw [last, moved, Option.or_eq_none_iff]

theorem ids_agree (pwd : Passwd) (taken : p.setupChildProcess = some pwd) :
    p.userId = pwd.uid ∧ p.groupId = pwd.gid := by
  unfold setupChildProcess at taken
  split at taken
  · obtain rfl := Option.some.inj taken
    exact ⟨rfl, rfl⟩
  · cases taken

theorem takes_iff : Takes (setUsers xs) (inForce xs).found ↔
    (inForce xs).found.isSome ∨ ∀ before, before <+: xs → (inForce before).found = none := by
  rw [← takes_none_iff]
  constructor
  · rintro ⟨credentials, -⟩
    rw [credentials]
    cases (inForce xs).found <;> simp
  · intro condition
    refine ⟨?_, ids_agree⟩
    cases found : (inForce xs).found with
    | some pwd => exact takes_found found
    | none =>
      rw [found] at condition
      exact condition.resolve_left nofun

/-! ## One user database -/

/-- The calls with these users, where the database does not change meanwhile. -/
def settings (pw : String → Option Passwd) (users : List String) : List Setting :=
  users.map fun user => ⟨user, pw⟩

theorem inForce_user (xs : List Setting) :
    (inForce xs).user = (xs.getLast?.map Setting.user).getD "" := by
  cases xs using List.reverseRecOn with
  | nil => rfl
  | append_singleton xs x =>
    rw [inForce_snoc, List.getLast?_concat]
    split
    · assumption
    · rfl

/-- A name that is set again is found again. -/
theorem found_settings (pw : String → Option Passwd) (users : List String) :
    (inForce (settings pw users)).found = users.getLast?.bind (lookup pw) := by
  induction users using List.reverseRecOn with
  | nil => rfl
  | append_singleton users user ih =>
    have last : settings pw (users ++ [user]) = settings pw users ++ [⟨user, pw⟩] :=
      List.map_append
    rw [last, inForce_snoc, List.getLast?_concat]
    by_cases same : (inForce (settings pw users)).user = user
    · rw [if_pos same, ih]
      rw [inForce_user, settings, List.getLast?_map] at same
      cases before : users.getLast? with
      | none =>
        rw [before] at same
        obtain rfl : "" = user := same
        rfl
      | some other =>
        rw [before] at same
        obtain rfl : other = user := same
        rfl
    · rw [if_neg same]
      rfl

theorem none_found_iff {users : List String} :
    (∀ before, before <+: settings pw users → (inForce before).found = none) ↔
      ∀ user ∈ users, lookup pw user = none := by
  constructor
  · intro nothing user there
    obtain ⟨before, after, rfl⟩ := List.append_of_mem there
    have listed : before ++ [user] <+: before ++ user :: after := ⟨after, by simp⟩
    have missing := nothing (settings pw (before ++ [user])) (listed.map _)
    rwa [found_settings, List.getLast?_concat] at missing
  · intro nothing before listed
    obtain ⟨names, inside, rfl⟩ := List.prefix_map_iff.mp listed
    have found : (inForce (names.map fun user => ⟨user, pw⟩)).found =
        names.getLast?.bind (lookup pw) := found_settings pw names
    rw [found]
    cases last : names.getLast? with
    | none => rfl
    | some user => exact nothing user (inside.subset (List.mem_of_getLast? last))

/-- The child takes what is found of the last user, if and only if something is
found, or nothing is found of any user that was set. Where the user database
changes meanwhile, a user is looked up when it is set in place of another. -/
theorem takes_last_iff (pw : String → Option Passwd) (users : List String) (xs : List Setting) :
    (Takes (setUsers (settings pw users)) (users.getLast?.bind (lookup pw)) ↔
      (users.getLast?.bind (lookup pw)).isSome ∨ ∀ user ∈ users, lookup pw user = none) ∧
    (Takes (setUsers xs) (inForce xs).found ↔
      (inForce xs).found.isSome ∨ ∀ before, before <+: xs → (inForce before).found = none) := by
  refine ⟨?_, takes_iff⟩
  rw [← found_settings, ← none_found_iff]
  exact takes_iff

/-- A user that was found stays, where an empty or an unknown one is set. -/
theorem earlier_user_taken :
    let pw : String → Option Passwd := fun user => if user = "tf2" then some ⟨1000, 1000⟩ else none
    (setUsers (settings pw ["tf2", ""])).user = "" ∧
      (setUsers (settings pw ["tf2", ""])).setupChildProcess = some ⟨1000, 1000⟩ ∧
      (setUsers (settings pw ["tf2", "nobody"])).user = "nobody" ∧ pw "nobody" = none ∧
      (setUsers (settings pw ["tf2", "nobody"])).setupChildProcess = some ⟨1000, 1000⟩ :=
  ⟨rfl, rfl, rfl, rfl, rfl⟩

end UserProcess

end Morgoth
