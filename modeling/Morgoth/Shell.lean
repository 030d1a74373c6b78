import Mathlib.Data.List.Infix

/-!
# Words of a shell

How a POSIX shell takes a line apart: blanks and operators end a word, quotes
and backslashes let characters stand for themselves, and an unquoted or
expanded character of a pattern or an expansion stands for something else.

* `step_effect`: what a character does; later results do not look into a step;
* `run_bare`, `bare_of_kept`: which texts are read as they are.
-/

namespace Morgoth.Shell

/-- A character of a word: itself, part of a pattern of file names, or the
start of an expansion. -/
inductive Piece
  | lit (c : Char)
  | glob (c : Char)
  | expand (c : Char)
  deriving DecidableEq, Repr

abbrev Word := List Piece

inductive Token
  | word (w : Word)
  | op (c : Char)
  deriving DecidableEq, Repr

inductive Mode
  | unquoted
  | escaped
  | single
  | double
  | doubleEscaped
  | comment
  deriving DecidableEq, Repr

def isBlank (c : Char) : Bool := c == ' ' || c == '\t'

def isOperator (c : Char) : Bool :=
  c == '\n' || c == '|' || c == '&' || c == ';' || c == '<' || c == '>' || c == '(' || c == ')'

def isQuote (c : Char) : Bool := c == '\'' || c == '"' || c == '\\'

def isExpansion (c : Char) : Bool := c == '$' || c == '`'

def isGlob (c : Char) : Bool := c == '*' || c == '?' || c == '['

/-- `word` is the word that has been begun. -/
structure Lexer where
  tokens : List Token := []
  word : Option Word := none
  mode : Mode := .unquoted
  deriving DecidableEq, Repr

namespace Lexer

def push (p : Piece) (s : Lexer) : Lexer := { s with word := some (s.word.getD [] ++ [p]) }

/-- A quote begins a word, which may stay empty. -/
def quote (mode : Mode) (s : Lexer) : Lexer :=
  { s with word := some (s.word.getD []), mode := mode }

def close (s : Lexer) : Lexer :=
  { s with tokens := s.tokens ++ (s.word.map Token.word).toList, word := none }

def emit (c : Char) (s : Lexer) : Lexer := { s with tokens := s.tokens ++ [.op c] }

/-- What an unquoted character stands for inside a word. -/
def piece (c : Char) : Piece :=
  if isExpansion c then .expand c else if isGlob c then .glob c else .lit c

/-- A number sign begins a comment, and a tilde a home directory, at the start
of a word only. -/
def stepUnquoted (s : Lexer) (c : Char) : Lexer :=
  if isBlank c then s.close
  else if isOperator c then s.close.emit c
  else if c = '\'' then s.quote .single
  else if c = '"' then s.quote .double
  else if c = '\\' then { s with mode := .escaped }
  else if s.word = none ∧ c = '#' then { s with mode := .comment }
  else if s.word = none ∧ c = '~' then s.push (.expand c)
  else s.push (piece c)

/-- A backslash before a newline joins the two lines. Between double quotes a
backslash is itself before anything but what it can escape there. -/
def step (s : Lexer) (c : Char) : Lexer :=
  match s.mode with
  | .unquoted => s.stepUnquoted c
  | .escaped =>
    let s := { s with mode := .unquoted }
    if c = '\n' then s else s.push (.lit c)
  | .single => if c = '\'' then { s with mode := .unquoted } else s.push (.lit c)
  | .double =>
    if c = '"' then { s with mode := .unquoted }
    else if c = '\\' then { s with mode := .doubleEscaped }
    else if isExpansion c then s.push (.expand c)
    else s.push (.lit c)
  | .doubleEscaped =>
    let s := { s with mode := .double }
    if c = '\n' then s
    else if isExpansion c ∨ c = '"' ∨ c = '\\' then s.push (.lit c)
    else (s.push (.lit '\\')).push (.lit c)
  | .comment => if c = '\n' then { s with mode := .unquoted }.emit c else s

def run (s : Lexer) (text : List Char) : Lexer := text.foldl step s

end Lexer

/-- The tokens of a text, and what it leaves open. -/
def lex (text : List Char) : List Token × Mode :=
  ((Lexer.run {} text).close.tokens, (Lexer.run {} text).mode)

/-! ## What a word spells -/

/-- What the piece spells where patterns are, or are not, left alone. -/
def Piece.char (globs : Bool) : Piece → Option Char
  | .lit c => some c
  | .glob c => if globs then some c else none
  | .expand _ => none

def Token.pieces : Token → Word
  | .word w => w
  | .op _ => []

def Spells (globs : Bool) (w : Word) (text : List Char) : Prop :=
  w.map (Piece.char globs) = text.map some

def isSpecial (globs : Bool) (c : Char) : Bool :=
  isBlank c || isOperator c || isQuote c || isExpansion c || (isGlob c && !globs)

instance (globs : Bool) (text : List Char) : Decidable (∀ c ∈ text, isSpecial globs c = false) :=
  List.decidableBAll _ text

/-- The text spells itself. -/
def Bare (globs : Bool) (text : List Char) : Prop :=
  (∀ c ∈ text, isSpecial globs c = false) ∧ text.head? ≠ some '#' ∧ text.head? ≠ some '~'

instance (globs : Bool) (text : List Char) : Decidable (Bare globs text) :=
  inferInstanceAs (Decidable (_ ∧ _ ∧ _))

namespace Lexer

/-! ## Tokens -/

/-- The same lexer with more tokens before. -/
def after (before : List Token) (s : Lexer) : Lexer := { s with tokens := before ++ s.tokens }

theorem stepUnquoted_after (before : List Token) (s : Lexer) (c : Char) :
    (s.after before).stepUnquoted c = (s.stepUnquoted c).after before := by
  have word : (s.after before).word = s.word := rfl
  unfold stepUnquoted
  rw [word]
  split_ifs <;> simp [after, close, emit, push, quote]

theorem step_after (before : List Token) (s : Lexer) (c : Char) :
    (s.after before).step c = (s.step c).after before := by
  have mode : (s.after before).mode = s.mode := rfl
  unfold step
  rw [mode]
  cases s.mode with
  | unquoted => exact stepUnquoted_after before s c
  | _ =>
    dsimp only
    split_ifs <;> simp [after, emit, push]

theorem run_after (before : List Token) (s : Lexer) (text : List Char) :
    (s.after before).run text = (s.run text).after before := by
  induction text generalizing s with
  | nil => rfl
  | cons c text ih =>
    unfold run at ih ⊢
    rw [List.foldl_cons, step_after, ih, List.foldl_cons]

theorem run_append (s : Lexer) (a b : List Char) : s.run (a ++ b) = (s.run a).run b :=
  List.foldl_append

/-- What a character does. -/
inductive Effect (s : Lexer) (c : Char) : Lexer → Prop
  | moved (mode : Mode) (outside : s.mode ≠ .comment) (text : mode ≠ .comment) (other : c ≠ '/') :
      Effect s c { s with mode := mode }
  | quoted (mode : Mode) (outside : s.mode ≠ .comment) (text : mode = .single ∨ mode = .double)
      (other : c ≠ '/') : Effect s c (s.quote mode)
  | pushed (p : Piece) (mode : Mode) (outside : s.mode ≠ .comment)
      (text : mode = .unquoted ∨ mode = .single ∨ mode = .double)
      (slash : p = .lit '/' ↔ c = '/') : Effect s c ({ s with mode := mode }.push p)
  | pushedBoth (escaped : s.mode = .doubleEscaped) :
      Effect s c (({ s with mode := .double }.push (.lit '\\')).push (.lit c))
  | closed (unquoted : s.mode = .unquoted) (other : c ≠ '/') : Effect s c s.close
  | operated (unquoted : s.mode = .unquoted) (other : c ≠ '/') : Effect s c (s.close.emit c)
  | commented (outside : s.mode ≠ .comment) (unopened : s.word = none) (other : c ≠ '/') :
      Effect s c { s with mode := .comment }
  | ignored (inside : s.mode = .comment) : Effect s c s
  | ended (inside : s.mode = .comment) : Effect s c ({ s with mode := .unquoted }.emit c)

theorem piece_slash (c : Char) : piece c = .lit '/' ↔ c = '/' := by
  unfold piece
  split_ifs with expansion glob
  · constructor
    · nofun
    · rintro rfl
      cases expansion
  · constructor
    · nofun
    · rintro rfl
      cases glob
  · exact Piece.lit.injEq c '/' ▸ Iff.rfl

theorem stepUnquoted_effect {s : Lexer} (unquoted : s.mode = .unquoted) (c : Char) :
    Effect s c (s.stepUnquoted c) := by
  have outside : s.mode ≠ .comment := by
    rw [unquoted]
    nofun
  have same : { s with mode := .unquoted } = s := by rw [← unquoted]
  unfold stepUnquoted
  split_ifs with blank operator single double escape number tilde
  · exact .closed unquoted (by rintro rfl; cases blank)
  · exact .operated unquoted (by rintro rfl; cases operator)
  · exact .quoted .single outside (Or.inl rfl) (by rw [single]; decide)
  · exact .quoted .double outside (Or.inr rfl) (by rw [double]; decide)
  · exact .moved .escaped outside nofun (by rw [escape]; decide)
  · exact .commented outside number.1 (by rw [number.2]; decide)
  · have pushed := Effect.pushed (s := s) (c := c) (.expand c) .unquoted outside (Or.inl rfl)
      (by rw [tilde.2]; decide)
    rwa [same] at pushed
  · have pushed := Effect.pushed (piece c) .unquoted outside (Or.inl rfl) (piece_slash c)
    rwa [same] at pushed

theorem step_effect (s : Lexer) (c : Char) : Effect s c (s.step c) := by
  have literal : Piece.lit c = .lit '/' ↔ c = '/' := Piece.lit.injEq c '/' ▸ Iff.rfl
  unfold step
  cases mode : s.mode with
  | unquoted => exact stepUnquoted_effect mode c
  | escaped =>
    have outside : s.mode ≠ .comment := by simp [mode]
    dsimp only
    split_ifs with newline
    · exact .moved .unquoted outside nofun (by rw [newline]; decide)
    · exact .pushed _ .unquoted outside (Or.inl rfl) literal
  | single =>
    have outside : s.mode ≠ .comment := by simp [mode]
    have same : { s with mode := .single } = s := by rw [← mode]
    dsimp only
    split_ifs with quote
    · exact .moved .unquoted outside nofun (by rw [quote]; decide)
    · have pushed := Effect.pushed _ .single outside (Or.inr (Or.inl rfl)) literal
      rwa [same] at pushed
  | double =>
    have outside : s.mode ≠ .comment := by simp [mode]
    have same : { s with mode := .double } = s := by rw [← mode]
    dsimp only
    split_ifs with quote escape expansion
    · exact .moved .unquoted outside nofun (by rw [quote]; decide)
    · exact .moved .doubleEscaped outside nofun (by rw [escape]; decide)
    · have pushed := Effect.pushed (s := s) (c := c) (.expand c) .double outside
        (Or.inr (Or.inr rfl)) ⟨nofun, by rintro rfl; cases expansion⟩
      rwa [same] at pushed
    · have pushed := Effect.pushed _ .double outside (Or.inr (Or.inr rfl)) literal
      rwa [same] at pushed
  | doubleEscaped =>
    have outside : s.mode ≠ .comment := by simp [mode]
    dsimp only
    split_ifs with newline escape
    · exact .moved .double outside nofun (by rw [newline]; decide)
    · exact .pushed _ .double outside (Or.inr (Or.inr rfl)) literal
    · exact .pushedBoth mode
  | comment =>
    dsimp only
    split_ifs with newline
    · exact .ended mode
    · exact .ignored mode

/-! ## What is kept of a text -/

def pieces (s : Lexer) : Word := s.tokens.flatMap Token.pieces ++ s.word.getD []

/-- How many characters have been read as themselves. -/
def kept (globs : Bool) (s : Lexer) : Nat := s.pieces.countP fun p => (p.char globs).isSome

/-- A backslash between double quotes may still be one. -/
def pending (s : Lexer) : Nat := if s.mode = .doubleEscaped then 1 else 0

theorem pieces_push (p : Piece) (s : Lexer) : (s.push p).pieces = s.pieces ++ [p] := by
  simp [pieces, push]

theorem pieces_quote (mode : Mode) (s : Lexer) : (s.quote mode).pieces = s.pieces := by
  simp [pieces, quote]

theorem pieces_close (s : Lexer) : s.close.pieces = s.pieces := by
  cases word : s.word <;> simp [pieces, close, word, Token.pieces]

theorem pieces_emit (c : Char) (s : Lexer) : (s.emit c).pieces = s.pieces := by
  simp [pieces, emit, Token.pieces]

theorem pending_le (s : Lexer) : s.pending ≤ 1 := by
  unfold pending
  split <;> decide

theorem kept_push (globs : Bool) (p : Piece) (s : Lexer) :
    (s.push p).kept globs ≤ s.kept globs + 1 := by
  unfold kept
  rw [pieces_push, List.countP_append, List.countP_singleton]
  split <;> omega

theorem pending_text {s : Lexer} (text : s.mode = .unquoted ∨ s.mode = .single ∨ s.mode = .double) :
    s.pending = 0 := by
  unfold pending
  rcases text with mode | mode | mode <;> rw [mode] <;> rfl

theorem effect_kept (globs : Bool) {s t : Lexer} {c : Char} (he : Effect s c t) :
    t.kept globs + t.pending ≤ s.kept globs + s.pending + 1 := by
  have below := pending_le t
  cases he with
  | moved mode =>
    have same : kept globs { s with mode := mode } = s.kept globs := rfl
    omega
  | quoted mode =>
    have same : (s.quote mode).kept globs = s.kept globs := by simp only [kept, pieces_quote]
    omega
  | pushed p mode outside text =>
    have one : kept globs ({ s with mode := mode }.push p) ≤ s.kept globs + 1 := kept_push globs p _
    have none_pending : pending ({ s with mode := mode }.push p) = 0 := pending_text text
    omega
  | pushedBoth escaped =>
    have first : kept globs ({ s with mode := .double }.push (.lit '\\')) ≤ s.kept globs + 1 :=
      kept_push globs _ _
    have both := kept_push globs (.lit c) ({ s with mode := .double }.push (.lit '\\'))
    have before : s.pending = 1 := if_pos escaped
    have none_pending : pending (({ s with mode := .double }.push (.lit '\\')).push (.lit c)) = 0 :=
      rfl
    omega
  | closed =>
    have same : s.close.kept globs = s.kept globs := by simp only [kept, pieces_close]
    omega
  | operated =>
    have same : (s.close.emit c).kept globs = s.kept globs := by
      simp only [kept, pieces_emit, pieces_close]
    omega
  | commented =>
    have same : kept globs { s with mode := .comment } = s.kept globs := rfl
    omega
  | ignored => omega
  | ended =>
    have same : kept globs ({ s with mode := .unquoted }.emit c) = s.kept globs := by
      simp only [kept, pieces_emit]
      rfl
    omega

theorem run_kept (globs : Bool) (s : Lexer) (text : List Char) :
    (s.run text).kept globs + (s.run text).pending ≤ s.kept globs + s.pending + text.length := by
  induction text generalizing s with
  | nil => exact Nat.le_refl _
  | cons c text ih =>
    have first := effect_kept globs (step_effect s c)
    have later := ih (s.step c)
    have same : s.run (c :: text) = (s.step c).run text := rfl
    rw [same, List.length_cons]
    omega

/-! ## Bare texts -/

/-- Nothing but a bare text has been read. -/
def spelled (text : List Char) : Lexer :=
  if text = [] then {} else { word := some (text.map piece) }

theorem spelled_mode (text : List Char) : (spelled text).mode = .unquoted := by
  unfold spelled
  split <;> rfl

theorem spelled_word (text : List Char) : (spelled text).word = none ↔ text = [] := by
  unfold spelled
  split <;> simp [*]

/-- The character is read as itself behind the text. -/
def Fits (globs : Bool) (text : List Char) (c : Char) : Prop :=
  isSpecial globs c = false ∧ (text = [] → c ≠ '#' ∧ c ≠ '~')

theorem bare_snoc {globs : Bool} {text : List Char} {c : Char} :
    Bare globs (text ++ [c]) ↔ Bare globs text ∧ Fits globs text c := by
  unfold Bare Fits
  cases text with
  | nil => simp
  | cons d text => simp [and_comm, and_left_comm, or_imp, forall_and]

theorem push_spelled (text : List Char) (c : Char) :
    (spelled text).push (piece c) = spelled (text ++ [c]) := by
  unfold spelled
  split <;> simp [*, push]

theorem step_fits {globs : Bool} {text : List Char} {c : Char} (fits : Fits globs text c) :
    (spelled text).step c = spelled (text ++ [c]) := by
  obtain ⟨plain, start⟩ := fits
  simp only [isSpecial, isQuote, Bool.or_eq_false_iff, beq_eq_false_iff_ne] at plain
  obtain ⟨⟨⟨⟨blank, operator⟩, ⟨single, double⟩, escape⟩, expansion⟩, glob⟩ := plain
  have number : ¬ ((spelled text).word = none ∧ c = '#') := by
    rintro ⟨unopened, same⟩
    exact (start ((spelled_word text).mp unopened)).1 same
  have tilde : ¬ ((spelled text).word = none ∧ c = '~') := by
    rintro ⟨unopened, same⟩
    exact (start ((spelled_word text).mp unopened)).2 same
  unfold step stepUnquoted
  rw [spelled_mode]
  dsimp only
  rw [blank, operator, if_neg Bool.false_ne_true, if_neg Bool.false_ne_true, if_neg single,
    if_neg double, if_neg escape, if_neg number, if_neg tilde, push_spelled]

/-- A character that is not read as itself is lost. -/
theorem step_lost {globs : Bool} {text : List Char} {c : Char} (lost : ¬ Fits globs text c) :
    ((spelled text).step c).kept globs + ((spelled text).step c).pending =
      (spelled text).kept globs := by
  have none_pending : (spelled text).pending = 0 := pending_text (Or.inl (spelled_mode text))
  have closed : (spelled text).close.kept globs = (spelled text).kept globs := by
    simp only [kept, pieces_close]
  have pushed {p : Piece} (other : p.char globs = none) :
      ((spelled text).push p).kept globs + ((spelled text).push p).pending =
        (spelled text).kept globs := by
    have same : ((spelled text).push p).pending = (spelled text).pending := rfl
    rw [same, none_pending]
    simp [kept, pieces_push, other]
  unfold step stepUnquoted
  rw [spelled_mode]
  dsimp only
  split_ifs with blank operator single double escape number tilde
  · exact (congrArg _ none_pending).trans closed
  · simp only [kept, pieces_emit, pieces_close]
    exact congrArg _ none_pending
  · simp only [kept, pieces_quote]
    rfl
  · simp only [kept, pieces_quote]
    rfl
  · rfl
  · rfl
  · exact pushed rfl
  · apply pushed
    have unfit : isSpecial globs c = true := by
      by_contra plain
      refine lost ⟨Bool.eq_false_iff.mpr plain, ?_⟩
      intro empty
      have unopened := (spelled_word text).mpr empty
      exact ⟨fun same => number ⟨unopened, same⟩, fun same => tilde ⟨unopened, same⟩⟩
    have special : isExpansion c = true ∨ isGlob c = true ∧ globs = false := by
      simpa [isSpecial, isQuote, blank, operator, single, double, escape] using unfit
    unfold piece
    rcases special with expansion | ⟨glob, alone⟩
    · rw [if_pos expansion]
      rfl
    · split
      · rfl
      · rw [alone]
        rfl

theorem run_bare {globs : Bool} {text : List Char} (bare : Bare globs text) :
    run {} text = spelled text := by
  induction text using List.reverseRecOn with
  | nil => rfl
  | append_singleton text c ih =>
    obtain ⟨before, fits⟩ := bare_snoc.mp bare
    rw [run_append, ih before]
    exact step_fits fits

/-- Where every character is kept, the text is bare. -/
theorem bare_of_kept {globs : Bool} {text : List Char}
    (all : text.length ≤ (run {} text).kept globs + (run {} text).pending) : Bare globs text := by
  induction text using List.reverseRecOn with
  | nil => exact ⟨nofun, nofun, nofun⟩
  | append_singleton text c ih =>
    have last : run {} (text ++ [c]) = (run {} text).step c := run_append {} text [c]
    have one := effect_kept globs (step_effect (run {} text) c)
    rw [last, List.length_append, List.length_singleton] at all
    have before : Bare globs text := ih (by omega)
    refine bare_snoc.mpr ⟨before, ?_⟩
    by_contra lost
    have none_kept := step_lost lost
    have bound := run_kept globs {} text
    have start : kept globs {} + pending {} = 0 := by cases globs <;> rfl
    rw [run_bare before] at all bound
    omega

end Lexer

end Morgoth.Shell
