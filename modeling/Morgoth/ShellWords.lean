import Mathlib.Data.List.Count
import Morgoth.Shell

/-!
# Texts in a line

What becomes of a text that is put into a line as it is.

* `lex_target_iff`: at the end of a line;
* `lex_first_iff`: as a path at the start of a line.
-/

namespace Morgoth.Shell

namespace Lexer

/-! ## The first token -/

def first (s : Lexer) : Option Token := s.close.tokens.head?

/-- A token that has been begun is taken further, and one that is complete
stays. -/
inductive Grows : Option Token → Option Token → Prop
  | fresh (token : Option Token) : Grows none token
  | op (c : Char) : Grows (some (.op c)) (some (.op c))
  | word {u w : Word} (longer : u <+: w) : Grows (some (.word u)) (some (.word w))

theorem Grows.refl (token : Option Token) : Grows token token := by
  match token with
  | none => exact .fresh none
  | some (.op c) => exact .op c
  | some (.word w) => exact .word List.prefix_rfl

theorem Grows.trans {a b c : Option Token} (h : Grows a b) (h' : Grows b c) : Grows a c := by
  cases h with
  | fresh => exact .fresh c
  | op => exact h'
  | word longer =>
    cases h' with
    | word longer' => exact .word (longer.trans longer')

/-- A comment is no part of a word. -/
def Sound (s : Lexer) : Prop := s.mode = .comment → s.word = none

variable {s t : Lexer} {c : Char}

theorem init_sound : Sound {} := by
  intro inside
  cases inside

theorem effect_sound (hs : Sound s) (he : Effect s c t) : Sound t := by
  intro inside
  cases he with
  | moved mode _ text => exact absurd inside text
  | quoted mode _ text =>
    have mode : mode = .comment := inside
    rcases text with rfl | rfl <;> cases mode
  | pushed p mode _ text =>
    have mode : mode = .comment := inside
    rcases text with rfl | rfl | rfl <;> cases mode
  | pushedBoth => cases inside
  | closed | operated => rfl
  | commented _ unopened => exact unopened
  | ignored => exact hs inside
  | ended => cases inside

theorem effect_tokens (he : Effect s c t) : s.tokens <+: t.tokens := by
  cases he with
  | closed => exact List.prefix_append _ _
  | operated => exact (List.prefix_append _ _).trans (List.prefix_append _ _)
  | ended => exact List.prefix_append _ _
  | _ => exact List.prefix_rfl

theorem first_complete {token : Token} {rest : List Token} (complete : s.tokens = token :: rest) :
    s.first = some token := by
  unfold first close
  rw [complete]
  rfl

theorem first_open (open_tokens : s.tokens = []) : s.first = s.word.map .word := by
  unfold first close
  rw [open_tokens]
  cases s.word <;> rfl

theorem effect_first (hs : Sound s) (he : Effect s c t) : Grows s.first t.first := by
  cases tokens : s.tokens with
  | cons token rest =>
    obtain ⟨more, same⟩ := tokens ▸ effect_tokens he
    rw [first_complete tokens, first_complete same.symm]
    exact .refl _
  | nil =>
    rw [first_open tokens]
    cases he with
    | moved | commented | ignored =>
      rw [first_open]
      · exact .refl _
      · exact tokens
    | quoted mode =>
      rw [first_open]
      · cases word : s.word with
        | none => exact .fresh _
        | some w =>
          simp only [quote, word]
          exact .refl _
      · exact tokens
    | pushed p mode =>
      rw [first_open]
      · cases word : s.word with
        | none => exact .fresh _
        | some w =>
          simp only [push]
          exact .word (List.prefix_append _ _)
      · exact tokens
    | pushedBoth =>
      rw [first_open]
      · cases word : s.word with
        | none => exact .fresh _
        | some w =>
          simp only [push]
          exact .word ((List.prefix_append _ _).trans (List.prefix_append _ _))
      · exact tokens
    | closed | operated =>
      cases word : s.word with
      | none => exact .fresh _
      | some w =>
        simp only [first, close, emit, tokens, word]
        exact .refl _
    | ended inside =>
      rw [hs inside]
      exact .fresh _

theorem run_sound (hs : Sound s) (text : List Char) : Sound (s.run text) := by
  induction text generalizing s with
  | nil => exact hs
  | cons c text ih => exact ih (effect_sound hs (step_effect s c))

theorem run_first (hs : Sound s) (text : List Char) : Grows s.first (s.run text).first := by
  induction text generalizing s with
  | nil => exact .refl _
  | cons c text ih =>
    have he := step_effect s c
    exact (effect_first hs he).trans (ih (effect_sound hs he))

theorem run_tokens (s : Lexer) (text : List Char) : s.tokens <+: (s.run text).tokens := by
  induction text generalizing s with
  | nil => exact List.prefix_rfl
  | cons c text ih => exact (effect_tokens (step_effect s c)).trans (ih (s.step c))

/-- Behind a comment at the very start there is a newline before any word. -/
theorem comment_first (hs : Sound s) (inside : s.mode = .comment) (nothing : s.tokens = [])
    (text : List Char) (w : Word) : (s.run text).first ≠ some (.word w) := by
  induction text generalizing s with
  | nil =>
    rw [run, List.foldl_nil, first_open nothing, hs inside]
    nofun
  | cons c text ih =>
    have same : s.run (c :: text) = (s.step c).run text := rfl
    have stepped : s.step c = if c = '\n' then { s with mode := .unquoted }.emit c else s := by
      unfold step
      rw [inside]
    rw [same, stepped]
    split
    · intro begun
      have sound : Sound ({ s with mode := .unquoted }.emit c) := nofun
      have grown := run_first sound text
      have complete : ({ s with mode := .unquoted }.emit c).first = some (.op c) := by
        apply first_complete
        rw [emit, nothing]
        rfl
      rw [begun, complete] at grown
      cases grown
    · exact ih hs inside nothing

/-! ## Slashes -/

/-- Until a token is complete, no slash is lost. -/
theorem effect_slashes (he : Effect s c t) (nothing : t.tokens = []) (text : t.mode ≠ .comment) :
    s.mode ≠ .comment ∧
      t.pieces.count (.lit '/') = s.pieces.count (.lit '/') + [c].count '/' := by
  have no_slash (other : c ≠ '/') : [c].count '/' = 0 :=
    List.count_eq_zero_of_not_mem (by simpa using Ne.symm other)
  have literal : Piece.lit c = .lit '/' ↔ c = '/' := Piece.lit.injEq c '/' ▸ Iff.rfl
  cases he with
  | moved mode outside _ other =>
    rw [no_slash other]
    exact ⟨outside, rfl⟩
  | quoted mode outside _ other =>
    rw [no_slash other, pieces_quote]
    exact ⟨outside, rfl⟩
  | pushed p mode outside _ slash =>
    refine ⟨outside, ?_⟩
    rw [pieces_push, List.count_append, List.count_singleton, List.count_singleton]
    simp only [beq_iff_eq, slash]
    rfl
  | pushedBoth escaped =>
    refine ⟨by simp [escaped], ?_⟩
    rw [pieces_push, pieces_push, List.append_assoc, List.count_append]
    simp [List.count_cons, pieces]
  | closed unquoted other =>
    rw [no_slash other, pieces_close]
    exact ⟨by simp [unquoted], rfl⟩
  | operated => simp [emit] at nothing
  | commented => exact absurd rfl text
  | ignored inside => exact absurd inside text
  | ended => simp [emit] at nothing

theorem run_slashes {text : List Char} (nothing : (run {} text).tokens = [])
    (outside : (run {} text).mode ≠ .comment) :
    (run {} text).pieces.count (.lit '/') = text.count '/' := by
  induction text using List.reverseRecOn with
  | nil => rfl
  | append_singleton text c ih =>
    have last : run {} (text ++ [c]) = (run {} text).step c := run_append {} text [c]
    have he := step_effect (run {} text) c
    rw [last] at nothing outside ⊢
    obtain ⟨before, count⟩ := effect_slashes he nothing outside
    have earlier := effect_tokens he
    rw [nothing] at earlier
    rw [count, ih (List.prefix_nil.mp earlier) before, List.count_append]

theorem effect_slash (he : Effect s '/' t) (outside : s.mode ≠ .comment) :
    t.tokens = s.tokens ∧ t.mode ≠ .comment ∧ ∃ u, t.word = some u := by
  cases he with
  | pushed p mode _ text =>
    refine ⟨rfl, ?_, _, rfl⟩
    intro inside
    have mode : mode = .comment := inside
    rcases text with rfl | rfl | rfl <;> cases mode
  | pushedBoth =>
    refine ⟨rfl, ?_, _, rfl⟩
    intro inside
    cases inside
  | ignored inside | ended inside => exact absurd inside outside
  | _ => contradiction

end Lexer

open Lexer

/-! ## Texts as they are -/

theorem spells_lit {w : Word} {text : List Char} (spells : Spells false w text) :
    w = text.map .lit := by
  have literal {p : Piece} {c : Char} (char : p.char false = some c) : p = .lit c := by
    cases p <;> simp_all [Piece.char]
  induction text generalizing w with
  | nil => exact List.map_eq_nil_iff.mp spells
  | cons c text ih =>
    cases w with
    | nil => cases spells
    | cons p w =>
      obtain ⟨char, rest⟩ := List.cons.inj spells
      rw [literal char, ih rest]
      rfl

theorem spells_bare {globs : Bool} {text : List Char}
    (plain : ∀ c ∈ text, isSpecial globs c = false) : Spells globs (text.map piece) text := by
  unfold Spells
  rw [List.map_map]
  apply List.map_congr_left
  intro c there
  have plain := plain c there
  simp only [isSpecial, Bool.or_eq_false_iff] at plain
  obtain ⟨⟨-, expansion⟩, glob⟩ := plain
  rw [Function.comp_apply, piece, expansion, if_neg Bool.false_ne_true]
  split
  · rename_i pattern
    rw [pattern] at glob
    have left_alone : globs = true := by simpa using glob
    rw [left_alone]
    rfl
  · rfl

theorem spells_kept {globs : Bool} {w : Word} {text : List Char} (spells : Spells globs w text) :
    (w.countP fun p => (p.char globs).isSome) = text.length := by
  have counted := congrArg (List.countP Option.isSome) spells
  rw [List.countP_map, List.countP_map] at counted
  refine counted.trans ?_
  simp [Function.comp_def]

/-- What is lexed behind complete tokens comes behind them. -/
theorem lex_after {before : List Char} {tokens : List Token}
    (complete : run {} before = { tokens := tokens }) (text : List Char) :
    lex (before ++ text) = (tokens ++ (lex text).1, (lex text).2) := by
  have fresh : ({ tokens := tokens } : Lexer) = ({} : Lexer).after tokens := by simp [after]
  unfold lex
  rw [run_append, complete, fresh, run_after]
  simp [after, close]

theorem lex_bare {globs : Bool} {text : List Char} (bare : Bare globs text) (some_text : text ≠ []) :
    lex text = ([.word (text.map piece)], .unquoted) := by
  unfold lex
  rw [run_bare bare, spelled, if_neg some_text]
  rfl

/-- A text at the end of a line is one word that spells it, if and only if the
text is bare. -/
theorem lex_target_iff {globs : Bool} {text : List Char} :
    (∃ w, lex text = ([.word w], .unquoted) ∧ Spells globs w text) ↔
      Bare globs text ∧ text ≠ [] := by
  constructor
  · rintro ⟨w, read, spells⟩
    constructor
    · apply bare_of_kept
      have words : (run {} text).close.tokens = [.word w] := congrArg Prod.fst read
      have kept_word : (run {} text).kept globs = text.length := by
        rw [← spells_kept spells, kept, ← pieces_close, pieces, words]
        simp [close, Token.pieces]
      omega
    · rintro rfl
      cases read
  · rintro ⟨bare, some_text⟩
    exact ⟨_, lex_bare bare some_text, spells_bare bare.1⟩

theorem bare_name {text name : List Char} (bare : Bare false text)
    (plain : ∀ c ∈ name, isSpecial false c = false) : Bare false (text ++ '/' :: name) := by
  refine ⟨?_, ?_⟩
  · intro c there
    rcases List.mem_append.mp there with there | there
    · exact bare.1 c there
    · rcases List.mem_cons.mp there with rfl | there
      · rfl
      · exact plain c there
  · cases text with
    | nil => exact ⟨nofun, nofun⟩
    | cons d text => exact bare.2

section
variable {text name rest : List Char} {w : Word}

/-- A token that is complete before the text ends is too short. -/
theorem open_of_first (begins : (run {} (text ++ '/' :: rest)).first = some (.word w))
    (spells : Spells false w (text ++ '/' :: name)) : (run {} text).tokens = [] := by
  have split : run {} (text ++ '/' :: rest) = (run {} text).run ('/' :: rest) :=
    run_append {} text _
  cases tokens : (run {} text).tokens with
  | nil => rfl
  | cons token more =>
    obtain ⟨later, same⟩ := tokens ▸ run_tokens (run {} text) ('/' :: rest)
    rw [split, first_complete same.symm] at begins
    obtain rfl := Option.some.inj begins
    have bound := run_kept false {} text
    have kept_word := spells_kept spells
    have there : (w.countP fun p => (p.char false).isSome) ≤ (run {} text).kept false := by
      unfold kept pieces
      rw [tokens, List.flatMap_cons, List.append_assoc, List.countP_append]
      exact Nat.le_add_right _ _
    have start : kept false {} + pending {} = 0 := rfl
    rw [List.length_append, List.length_cons] at kept_word
    omega

/-- What has been read of the first word is what the word starts with, and has
all slashes. -/
theorem slashed_of_first (begins : (run {} (text ++ '/' :: rest)).first = some (.word w))
    (spells : Spells false w (text ++ '/' :: name)) :
    ((run {} text).step '/').pieces <+: (text ++ '/' :: name).map Piece.lit ∧
      ((run {} text).step '/').pieces.count (.lit '/') = text.count '/' + 1 := by
  have tokens : (run {} text).tokens = [] := open_of_first begins spells
  have split : run {} (text ++ '/' :: rest) = ((run {} text).step '/').run rest :=
    run_append {} text _
  have slash : run {} (text ++ ['/']) = (run {} text).step '/' := run_append {} text _
  have sound : Sound (run {} text) := run_sound init_sound text
  have outside : (run {} text).mode ≠ .comment := by
    intro inside
    rw [run_append] at begins
    exact comment_first sound inside tokens _ w begins
  have he := step_effect (run {} text) '/'
  obtain ⟨nothing, outside', u, word⟩ := effect_slash he outside
  rw [tokens] at nothing
  have read : ((run {} text).step '/').pieces = u := by
    unfold pieces
    rw [nothing, word]
    rfl
  constructor
  · have grown := run_first (effect_sound sound he) rest
    rw [← split, begins, first_open nothing, word, Option.map_some] at grown
    rw [read]
    cases grown with
    | word longer => exact spells_lit spells ▸ longer
  · rw [← slash] at nothing outside' ⊢
    rw [run_slashes nothing outside', List.count_append]
    rfl

/-- A text that loses a character cannot be the start of a first word that
spells it, because the word has all its slashes. -/
theorem bare_of_first (begins : (run {} (text ++ '/' :: rest)).first = some (.word w))
    (spells : Spells false w (text ++ '/' :: name)) : Bare false text := by
  obtain ⟨longer, slashes⟩ := slashed_of_first begins spells
  have slash : run {} (text ++ ['/']) = (run {} text).step '/' := run_append {} text _
  have all_kept : ((run {} text).step '/').kept false = ((run {} text).step '/').pieces.length := by
    unfold kept
    rw [List.countP_eq_length]
    intro p there
    obtain ⟨c, -, rfl⟩ := List.mem_map.mp (longer.subset there)
    rfl
  by_contra lossy
  have lossy' : ¬ Bare false (text ++ ['/']) := fun bare => lossy (bare_snoc.mp bare).1
  have fewer := Nat.lt_of_not_le (mt bare_of_kept lossy')
  rw [slash, all_kept, List.length_append, List.length_singleton] at fewer
  have shorter : ((run {} text).step '/').pieces <+: text.map Piece.lit := by
    apply List.prefix_of_prefix_length_le longer
    · rw [List.map_append]
      exact List.prefix_append _ _
    · rw [List.length_map]
      omega
  have bound := shorter.sublist.count_le (.lit '/')
  have literal : Function.Injective Piece.lit := fun a b same => Piece.lit.inj same
  rw [List.count_map_of_injective _ _ literal] at bound
  omega

end

/-- A path at the start of a line, followed by the name of a file and by the
rest of the line, is the first word and leaves the rest alone, if and only if
it is bare. -/
theorem lex_first_iff {text name : List Char} (rest : List Char)
    (plain : ∀ c ∈ name, isSpecial false c = false) :
    (∃ w, lex (text ++ '/' :: (name ++ ' ' :: rest)) = (.word w :: (lex rest).1, (lex rest).2) ∧
      Spells false w (text ++ '/' :: name)) ↔ Bare false text := by
  constructor
  · rintro ⟨w, read, spells⟩
    have words := congrArg Prod.fst read
    have begins := congrArg List.head? words
    exact bare_of_first begins spells
  · intro bare
    have bare' := bare_name bare plain
    refine ⟨_, ?_, spells_bare bare'.1⟩
    have complete : run {} (text ++ '/' :: name ++ [' ']) =
        { tokens := [.word ((text ++ '/' :: name).map piece)] } := by
      rw [run_append, run_bare bare', spelled, if_neg (by simp)]
      rfl
    have parts : text ++ '/' :: (name ++ ' ' :: rest) = text ++ '/' :: name ++ [' '] ++ rest := by
      simp
    rw [parts, lex_after complete]
    rfl

end Morgoth.Shell
