import LessonCalc.Document.Basic
import LessonCalc.Number.Layout
import LessonCalc.Number.Literal
import LessonCalc.Text.Utf8

/-!
# Checking documents

A document is turned into a value of a domain type field by field.  Every fault is reported with the
place where it stands, in the order of the fields, so that one check shows all of them.
-/

namespace LessonCalc

open LessonCalc.Number LessonCalc.Text

/-! ## Faults -/

/-- A step into a document. -/
inductive Step where
  | key (name : RawText)
  | index (position : Nat)
  deriving Repr, DecidableEq

/-- Whether a step is a text with half of a character. -/
def Step.isBroken : Step → Bool
  | key name => name.isTorn
  | index _ => false

/-- What is wrong with a part of a document. -/
inductive FaultKind where
  | missing
  | stringType
  | stringUnicode
  | floatType
  | floatParsing
  | boolType
  | boolParsing
  | intType
  | intParsing
  | intParsingSize
  | intFromFloat
  | finiteNumber
  | literalError
  | enumError
  | listType
  | dictType
  | modelType
  | modelAttributesType
  | jsonInvalid
  deriving Repr, DecidableEq

/-- The name of a fault. -/
def FaultKind.name : FaultKind → String
  | .missing => "missing"
  | .stringType => "string_type"
  | .stringUnicode => "string_unicode"
  | .floatType => "float_type"
  | .floatParsing => "float_parsing"
  | .boolType => "bool_type"
  | .boolParsing => "bool_parsing"
  | .intType => "int_type"
  | .intParsing => "int_parsing"
  | .intParsingSize => "int_parsing_size"
  | .intFromFloat => "int_from_float"
  | .finiteNumber => "finite_number"
  | .literalError => "literal_error"
  | .enumError => "enum"
  | .listType => "list_type"
  | .dictType => "dict_type"
  | .modelType => "model_type"
  | .modelAttributesType => "model_attributes_type"
  | .jsonInvalid => "json_invalid"

/-- A fault and the way to it. -/
structure Fault where
  place : List Step
  kind : FaultKind
  deriving Repr, DecidableEq

/-- A value, or every fault that stands in its way. -/
abbrev Checked (α : Type) := Except (List Fault) α

namespace Checked

variable {α β : Type}

/-- A single fault at the place of the document itself. -/
def fault (kind : FaultKind) : Checked α :=
  .error [⟨[], kind⟩]

/-- Moves the faults of a part to the place of the part. -/
def within (step : Step) : Checked α → Checked α
  | .ok a => .ok a
  | .error faults => .error (faults.map fun f => { f with place := step :: f.place })

/-- Two values, or the faults of both in order. -/
def both (a : Checked α) (b : Checked β) : Checked (α × β) :=
  match a, b with
  | .ok x, .ok y => .ok (x, y)
  | .ok _, .error fs => .error fs
  | .error fs, .ok _ => .error fs
  | .error fs, .error gs => .error (fs ++ gs)

/-- All values of a list, or the faults of all in order; each stands at its position. -/
def allFrom (check : Document → Checked α) : Nat → List Document → Checked (List α)
  | _, [] => .ok []
  | position, d :: rest =>
    match both ((check d).within (.index position)) (allFrom check (position + 1) rest) with
    | .ok (a, as) => .ok (a :: as)
    | .error fs => .error fs

/-- The first value of two readings, or the faults of both in order. -/
def either (a b : Checked α) : Checked α :=
  match a, b with
  | .ok x, _ => .ok x
  | .error _, .ok y => .ok y
  | .error fs, .error gs => .error (fs ++ gs)

/-- Applies a function to the value. -/
def thenMap (f : α → β) : Checked α → Checked β
  | .ok a => .ok (f a)
  | .error fs => .error fs

/-- Checks the value further. -/
def andThen (a : Checked α) (check : α → Checked β) : Checked β :=
  match a with
  | .ok x => check x
  | .error fs => .error fs

end Checked

namespace Document

/-! ## Places -/

/-- The part of a document at a place, or the last one on the way there. -/
def partAt (d : Document) : List Step → Document
  | [] => d
  | step :: steps =>
    let part? := match step, d with
      | .key name, map entries => lookup? entries name
      | .index position, list items => items[position]?
      | _, _ => none
    match part? with
    | some part => part.partAt steps
    | none => d

/-! ## Scalars -/

/-- The text of a text or of bytes, if the document is either; bytes that are no text have the given
fault. -/
def spelled? (otherwise : FaultKind) : Document → Option (Checked String)
  | text (.whole s) => some (.ok s)
  | text (.torn _) => some (.fault .stringUnicode)
  | bytes value =>
    some (match decodeUtf8? value with
      | some cs => .ok (String.ofList cs)
      | none => .fault otherwise)
  | _ => none

/-- A text, or bytes that spell one. -/
def asText (d : Document) : Checked String :=
  (d.spelled? .stringUnicode).getD (.fault .stringType)

/-- A text or null. -/
def asOptionalText : Document → Checked (Option String)
  | null => .ok none
  | d => d.asText.thenMap some

/-- A number, a truth value, or a text or bytes that spell a number. -/
def asFloat (d : Document) : Checked Float :=
  match d.spelled? .floatParsing with
  | some spelled => spelled.andThen fun s =>
    match plainFloatText? s with
    | some x => .ok x
    | none => .fault .floatParsing
  | none =>
    match d with
    | bool b => .ok (if b then 1.0 else 0.0)
    | int n =>
      match ofInt? n with
      | some x => .ok x
      | none => .fault .floatType
    | float x => .ok x
    | _ => .fault .floatType

/-- A number or null. -/
def asOptionalFloat : Document → Checked (Option Float)
  | null => .ok none
  | d => d.asFloat.thenMap some

/-- The words for true. -/
def trueWords : List String := ["1", "true", "t", "yes", "y", "on"]

/-- The words for false. -/
def falseWords : List String := ["0", "false", "f", "no", "n", "off"]

/-- An integer of 64 bits as a truth value: one or zero.  A larger one is no truth value at all. -/
def truthOf (n : Int) : Checked Bool :=
  if n < -Nat.pow 2 63 ∨ Nat.pow 2 63 ≤ n then .fault .boolType
  else if n = 1 then .ok true
  else if n = 0 then .ok false
  else .fault .boolParsing

/-- A truth value, one or zero, or a word for a truth value in any case. -/
def asBool (d : Document) : Checked Bool :=
  match d.spelled? .boolParsing with
  | some spelled => spelled.andThen fun s =>
    let word := String.ofList (lowerAscii s.toList)
    if trueWords.contains word then .ok true
    else if falseWords.contains word then .ok false
    else .fault .boolParsing
  | none =>
    match d with
    | bool b => .ok b
    | int n => truthOf n
    | float x =>
      if isWhole x ∧ truncate x ≠ -Nat.pow 2 63 then truthOf (truncate x) else .fault .boolType
    | _ => .fault .boolType

/-- A truth value or null. -/
def asOptionalBool : Document → Checked (Option Bool)
  | null => .ok none
  | d => d.asBool.thenMap some

/-- A whole floating-point number of 64 bits as an integer. -/
def wholeFloat (x : Float) : Checked Int :=
  if !x.isFinite then .fault .finiteNumber
  else if !isWhole x then .fault .intFromFloat
  else if (truncate x).natAbs < Nat.pow 2 63 then .ok (truncate x)
  else .fault .intParsingSize

/-- An integer, a truth value, a whole number, or a text or bytes that spell an integer. -/
def asInt (d : Document) : Checked Int :=
  match d.spelled? .intParsing with
  | some spelled => spelled.andThen fun s =>
    if digitLimit < (trimSpaces s.toList).length then .fault .intParsingSize
    else
      match plainIntText? s with
      | some n => .ok n
      | none => .fault .intParsing
  | none =>
    match d with
    | bool b => .ok (if b then 1 else 0)
    | int n => .ok n
    | float x => wholeFloat x
    | _ => .fault .intType

/-! ## Fields -/

/-- The entries of a mapping. -/
def asEntries (otherwise : FaultKind) : Document → Checked (List (Document × Document))
  | map entries => .ok entries
  | _ => .fault otherwise

/-- The items of a list or of a set, each checked. -/
def asList {α : Type} (check : Document → Checked α) : Document → Checked (List α)
  | list items | set items => Checked.allFrom check 0 items
  | _ => .fault .listType

/-- A field that has to be there. -/
def required {α : Type} (entries : List (Document × Document)) (key : String)
    (check : Document → Checked α) : Checked α :=
  match lookup? entries key with
  | some d => (check d).within (.key key)
  | none => .error [⟨[.key key], .missing⟩]

/-- A field with a value for its absence. -/
def withDefault {α : Type} (entries : List (Document × Document)) (key : String) (default : α)
    (check : Document → Checked α) : Checked α :=
  match lookup? entries key with
  | some d => (check d).within (.key key)
  | none => .ok default

end Document

end LessonCalc
