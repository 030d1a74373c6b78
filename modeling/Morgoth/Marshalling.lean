import Mathlib.Data.List.Basic

/-!
# Marshalled values

A stream of typed tokens. The values of a structure or of an array stand between
two markers. Values are appended at the end of a stream, and taken from where it
is read.

* `Takes`: what a reading takes, wherever it stands in a stream, with one rule
  for each way readings are put together; `untilEnd_takes` is the one for the
  loop over an array;
* `Typed.signature_eq`: the signature that is collected while values are written
  is that of their types;
* `Codec`: a type of values with its two operators, and `Codec.list` the codec
  of its lists.
-/

namespace Morgoth.DBus

inductive DBusType
  | int32
  | string
  | uint64
  | struct (fields : List DBusType)
  | array (element : DBusType)

mutual

def DBusType.text : DBusType → String
  | .int32 => "i"
  | .string => "s"
  | .uint64 => "t"
  | .struct fields => "(" ++ texts fields ++ ")"
  | .array element => "a" ++ element.text

def DBusType.texts : List DBusType → String
  | [] => ""
  | type :: types => type.text ++ texts types

end

/-- The marker of an array has the signature of its elements. -/
inductive Token
  | int32 (n : Int)
  | string (s : String)
  | uint64 (n : BitVec 64)
  | beginStructure
  | endStructure
  | beginArray (element : String)
  | endArray
  deriving DecidableEq, Repr

/-- The tokens are values of those types, one after the other. -/
inductive Typed : List Token → List DBusType → Prop
  | nil : Typed [] []
  | int32 (n : Int) {xs ts} (typed : Typed xs ts) : Typed (.int32 n :: xs) (.int32 :: ts)
  | string (s : String) {xs ts} (typed : Typed xs ts) : Typed (.string s :: xs) (.string :: ts)
  | uint64 (n : BitVec 64) {xs ts} (typed : Typed xs ts) : Typed (.uint64 n :: xs) (.uint64 :: ts)
  | struct {inner fields xs ts} (inside : Typed inner fields) (typed : Typed xs ts) :
      Typed (.beginStructure :: inner ++ .endStructure :: xs) (.struct fields :: ts)
  | array (items : List (List Token)) {element xs ts}
      (inside : ∀ item ∈ items, Typed item [element]) (typed : Typed xs ts) :
      Typed (.beginArray element.text :: items.flatten ++ .endArray :: xs) (.array element :: ts)

/-! ## Signatures -/

/-- The signature of what has been written, and how many containers are open in
an array, whose elements have been told already. -/
def collect : String × Nat → Token → String × Nat
  | (text, 0), .int32 _ => (text ++ "i", 0)
  | (text, 0), .string _ => (text ++ "s", 0)
  | (text, 0), .uint64 _ => (text ++ "t", 0)
  | (text, 0), .beginStructure => (text ++ "(", 0)
  | (text, 0), .endStructure => (text ++ ")", 0)
  | (text, 0), .beginArray element => (text ++ ("a" ++ element), 1)
  | (text, 0), .endArray => (text, 0)
  | (text, inside + 1), .beginArray _ => (text, inside + 2)
  | (text, inside + 1), .endArray => (text, inside)
  | (text, inside + 1), _ => (text, inside + 1)

def signature (tokens : List Token) : String := (tokens.foldl collect ("", 0)).1

variable {xs : List Token} {ts : List DBusType}

theorem foldl_flatten_fixed {items : List (List Token)} {state : String × Nat}
    (each : ∀ item ∈ items, item.foldl collect state = state) :
    items.flatten.foldl collect state = state := by
  induction items with
  | nil => rfl
  | cons item items ih =>
    rw [List.flatten_cons, List.foldl_append, each item List.mem_cons_self]
    exact ih fun other there => each other (List.mem_cons_of_mem item there)

/-- In an array nothing is told, and as many arrays end as begin. -/
theorem Typed.silent (typed : Typed xs ts) (text : String) (inside : Nat) :
    xs.foldl collect (text, inside + 1) = (text, inside + 1) := by
  induction typed generalizing inside with
  | nil => rfl
  | int32 _ _ ih | string _ _ ih | uint64 _ _ ih => exact ih inside
  | struct _ _ inner later =>
    have begun : collect (text, inside + 1) .beginStructure = (text, inside + 1) := rfl
    rw [List.cons_append, List.foldl_cons, List.foldl_append, begun, inner]
    exact later inside
  | @array items element _ _ _ _ each later =>
    have begun : collect (text, inside + 1) (.beginArray element.text) = (text, inside + 2) := rfl
    rw [List.cons_append, List.foldl_cons, List.foldl_append, begun,
      foldl_flatten_fixed fun item there => each item there (inside + 1)]
    exact later inside

theorem Typed.collected (typed : Typed xs ts) (text : String) :
    xs.foldl collect (text, 0) = (text ++ DBusType.texts ts, 0) := by
  induction typed generalizing text with
  | nil => exact congrArg (·, 0) String.append_empty.symm
  | int32 _ _ ih | string _ _ ih | uint64 _ _ ih =>
    exact (ih _).trans (congrArg (·, 0) (String.append_assoc ..))
  | @struct _ fields _ ts _ _ inner later =>
    have begun : collect (text, 0) .beginStructure = (text ++ "(", 0) := rfl
    have told : text ++ DBusType.texts (.struct fields :: ts) =
        text ++ "(" ++ DBusType.texts fields ++ ")" ++ DBusType.texts ts := by
      simp only [DBusType.texts, DBusType.text, String.append_assoc]
    rw [List.cons_append, List.foldl_cons, List.foldl_append, begun, inner, told]
    exact later _
  | @array items element _ ts inside _ _ later =>
    have begun : collect (text, 0) (.beginArray element.text) =
      (text ++ ("a" ++ element.text), 1) := rfl
    have told : text ++ DBusType.texts (.array element :: ts) =
        text ++ ("a" ++ element.text) ++ DBusType.texts ts := by
      simp only [DBusType.texts, DBusType.text, String.append_assoc]
    rw [List.cons_append, List.foldl_cons, List.foldl_append, begun,
      foldl_flatten_fixed fun item there => (inside item there).silent _ 0, told]
    exact later _

/-- What is collected is what the types say. -/
theorem Typed.signature_eq (typed : Typed xs ts) : signature xs = DBusType.texts ts := by
  unfold signature
  rw [typed.collected, String.empty_append]

theorem Typed.signature_one {type : DBusType} (typed : Typed xs [type]) :
    signature xs = type.text := by
  rw [typed.signature_eq, DBusType.texts, DBusType.texts, String.append_empty]

/-! ## Arguments -/

/-- `past` is in front of the read position and `rest` behind it. -/
structure QDBusArgument where
  past : List Token := []
  rest : List Token := []
  deriving DecidableEq, Repr

namespace QDBusArgument

def append (argument : QDBusArgument) (token : Token) : QDBusArgument :=
  { argument with rest := argument.rest ++ [token] }

/-- No value is left in the container that is being read. -/
def atEnd (argument : QDBusArgument) : Bool :=
  match argument.rest with
  | [] | .endStructure :: _ | .endArray :: _ => true
  | _ => false

end QDBusArgument

/-- `none` where the next token is not the one that is asked for, and where a
loop would go on for ever. -/
abbrev Reading (α : Type) := StateT QDBusArgument Option α

variable {α β : Type}

/-- The next token, if it is of that kind. -/
def take (kind : Token → Option α) : Reading α := fun argument =>
  match argument.rest with
  | [] => none
  | token :: rest => (kind token).map fun x => (x, ⟨argument.past ++ [token], rest⟩)

def int32 : Reading Int := take fun
  | .int32 n => some n
  | _ => none

def string : Reading String := take fun
  | .string s => some s
  | _ => none

def uint64 : Reading (BitVec 64) := take fun
  | .uint64 n => some n
  | _ => none

def beginStructure : Reading Unit := take fun
  | .beginStructure => some ()
  | _ => none

def endStructure : Reading Unit := take fun
  | .endStructure => some ()
  | _ => none

def beginArray : Reading Unit := take fun
  | .beginArray _ => some ()
  | _ => none

def endArray : Reading Unit := take fun
  | .endArray => some ()
  | _ => none

/-- `while (!argument.atEnd())`. -/
def untilEnd (body : β → Reading β) (b : β) : Reading β := fun argument =>
  if argument.atEnd then some (b, argument)
  else match body b argument with
    | none => none
    | some (b', argument') =>
      if argument'.rest.length < argument.rest.length then untilEnd body b' argument' else none
termination_by argument => argument.rest.length

/-! ## What a reading takes -/

/-- The reading takes those tokens, wherever they stand, and nothing else. -/
def Takes (read : Reading α) (tokens : List Token) (x : α) : Prop :=
  ∀ past rest, read ⟨past, tokens ++ rest⟩ = some (x, ⟨past ++ tokens, rest⟩)

theorem reading_bind (read : Reading α) (next : α → Reading β) (argument : QDBusArgument) :
    (read >>= next) argument = (read argument).bind fun out => next out.1 out.2 := rfl

theorem takes_pure (x : α) : Takes (pure x) [] x := by
  intro past rest
  rw [List.append_nil]
  rfl

theorem Takes.bind {read : Reading α} {next : α → Reading β} {xs ys : List Token} {x : α} {y : β}
    (first : Takes read xs x) (later : Takes (next x) ys y) :
    Takes (read >>= next) (xs ++ ys) y := by
  intro past rest
  have taken := first past (ys ++ rest)
  rw [List.append_assoc, ← List.append_assoc past]
  rw [reading_bind, taken, Option.bind_some]
  exact later (past ++ xs) rest

theorem takes_token {kind : Token → Option α} {token : Token} {x : α} (fits : kind token = some x) :
    Takes (take kind) [token] x := by
  intro past rest
  unfold take
  simp only [List.singleton_append, fits, Option.map_some]

theorem int32_takes (n : Int) : Takes int32 [.int32 n] n := takes_token rfl

theorem string_takes (s : String) : Takes string [.string s] s := takes_token rfl

theorem uint64_takes (n : BitVec 64) : Takes uint64 [.uint64 n] n := takes_token rfl

theorem beginStructure_takes : Takes beginStructure [.beginStructure] () := takes_token rfl

theorem endStructure_takes : Takes endStructure [.endStructure] () := takes_token rfl

theorem beginArray_takes (element : String) : Takes beginArray [.beginArray element] () :=
  takes_token rfl

theorem endArray_takes : Takes endArray [.endArray] () := takes_token rfl

/-- The tokens do not begin with the end of a container. -/
def Opens (tokens : List Token) : Prop :=
  tokens ≠ [] ∧ ∀ past rest, QDBusArgument.atEnd ⟨past, tokens ++ rest⟩ = false

theorem Typed.opens {type : DBusType} (typed : Typed xs (type :: ts)) : Opens xs := by
  cases typed <;> exact ⟨List.cons_ne_nil _ _, fun _ _ => rfl⟩

/-- A loop whose body takes one value takes all values of an array. -/
theorem untilEnd_items {body : β → Reading β} {step : β → α → β} {tokens : α → List Token}
    (opens : ∀ x, Opens (tokens x)) (one : ∀ b x, Takes (body b) (tokens x) (step b x))
    (items : List α) (b : β) (past rest : List Token) :
    untilEnd body b ⟨past, items.flatMap tokens ++ .endArray :: rest⟩ =
      some (items.foldl step b, ⟨past ++ items.flatMap tokens, .endArray :: rest⟩) := by
  induction items generalizing b past with
  | nil =>
    rw [untilEnd, List.flatMap_nil, List.append_nil]
    rfl
  | cons x items ih =>
    obtain ⟨some_token, more⟩ := opens x
    have taken := one b x past (items.flatMap tokens ++ .endArray :: rest)
    have shorter (tail : List Token) : tail.length < (tokens x ++ tail).length := by
      rw [List.length_append]
      exact Nat.lt_add_of_pos_left (List.length_pos_iff.mpr some_token)
    rw [untilEnd, List.flatMap_cons, List.append_assoc, more, taken]
    simp only [Bool.false_eq_true, if_false, shorter, if_true]
    rw [ih, List.append_assoc]
    rfl

theorem untilEnd_takes {body : β → Reading β} {step : β → α → β} {tokens : α → List Token}
    (opens : ∀ x, Opens (tokens x)) (one : ∀ b x, Takes (body b) (tokens x) (step b x))
    (items : List α) (b : β) :
    Takes (do let b ← untilEnd body b; endArray; return b)
      (items.flatMap tokens ++ [.endArray]) (items.foldl step b) := by
  intro past rest
  have all := untilEnd_items opens one items b past rest
  have ended : Takes (endArray >>= fun _ => pure (items.foldl step b)) [.endArray]
      (items.foldl step b) := endArray_takes.bind (takes_pure _)
  have last := ended (past ++ items.flatMap tokens) rest
  rw [List.append_assoc] at last
  rw [List.append_assoc, List.singleton_append, reading_bind, all, Option.bind_some]
  exact last

/-! ## Codecs -/

/-- A type of values, each of them its tokens, with the operators that append and
take these. A value is read into another one. -/
structure Codec (α : Type) where
  write : QDBusArgument → α → QDBusArgument
  read : α → Reading α
  type : DBusType
  tokens : α → List Token
  appends : ∀ argument x, write argument x = { argument with rest := argument.rest ++ tokens x }
  typed : ∀ x, Typed (tokens x) [type]
  takes : ∀ target x, Takes (read target) (tokens x) x

/-- The signature of a registered type is that of a blank value of it, which is
marshalled for this. -/
def typeToSignature (write : QDBusArgument → α → QDBusArgument) (blank : α) : String :=
  signature (write {} blank).rest

namespace Codec

theorem typeToSignature_eq (c : Codec α) (blank : α) :
    typeToSignature c.write blank = c.type.text := by
  unfold typeToSignature
  rw [c.appends, List.nil_append, (c.typed blank).signature_one]

theorem foldl_write (c : Codec α) (items : List α) (argument : QDBusArgument) :
    items.foldl c.write argument =
      { argument with rest := argument.rest ++ items.flatMap c.tokens } := by
  induction items generalizing argument with
  | nil =>
    rw [List.flatMap_nil, List.append_nil]
    rfl
  | cons x items ih => rw [List.foldl_cons, ih, c.appends, List.flatMap_cons, List.append_assoc]

/-- An array of the values, in their order. Each is read into a blank one. -/
def list (c : Codec α) (blank : α) : Codec (List α) where
  write argument items :=
    let argument := argument.append (.beginArray (typeToSignature c.write blank))
    (items.foldl c.write argument).append .endArray
  read _ := do
    beginArray
    let items ← untilEnd (fun items => do
      let x ← c.read blank
      return items ++ [x]) []
    endArray
    return items
  type := .array c.type
  tokens items := .beginArray c.type.text :: items.flatMap c.tokens ++ [.endArray]
  appends argument items := by
    simp only [QDBusArgument.append, foldl_write, typeToSignature_eq, List.append_assoc,
      List.cons_append, List.nil_append]
  typed items := by
    have inside : ∀ item ∈ items.map c.tokens, Typed item [c.type] := by
      intro item there
      obtain ⟨x, -, rfl⟩ := List.mem_map.mp there
      exact c.typed x
    rw [List.flatMap_def]
    exact .array _ inside .nil
  takes _ items := by
    have one (before : List α) (x : α) :
        Takes (do let x ← c.read blank; return before ++ [x]) (c.tokens x) (before ++ [x]) := by
      have taken : Takes (c.read blank >>= fun x => pure (before ++ [x])) (c.tokens x ++ [])
          (before ++ [x]) := (c.takes blank x).bind (takes_pure _)
      rwa [List.append_nil] at taken
    have all := untilEnd_takes (fun x => (c.typed x).opens) one items []
    have gathered : items.foldl (fun before x => before ++ [x]) [] = items := by
      rw [List.foldl_append_eq_append, List.nil_append, ← List.flatMap_def,
        List.flatMap_singleton']
    rw [gathered] at all
    exact (beginArray_takes c.type.text).bind all

end Codec

end Morgoth.DBus
