import LessonCalc.Data.Timestamp
import LessonCalc.Text.Digit

/-!
# Tags

A tag tells the type of a node.  A scalar without a tag has the type that its text looks like, if it
is written plain, and else is a text.
-/

namespace LessonCalc.Yaml

open LessonCalc.Text

/-! ## Tags -/

/-- The type of a node. -/
inductive Tag where
  | null
  | bool
  | int
  | float
  | binary
  | timestamp
  | text
  | merge
  | default
  | sequence
  | mapping
  | set
  | orderedMap
  | pairs
  | unknown
  deriving Repr, DecidableEq, Inhabited

/-- The type of an address. -/
def Tag.ofAddress : String → Tag
  | "tag:yaml.org,2002:null" => .null
  | "tag:yaml.org,2002:bool" => .bool
  | "tag:yaml.org,2002:int" => .int
  | "tag:yaml.org,2002:float" => .float
  | "tag:yaml.org,2002:binary" => .binary
  | "tag:yaml.org,2002:timestamp" => .timestamp
  | "tag:yaml.org,2002:str" => .text
  | "tag:yaml.org,2002:merge" => .merge
  | "tag:yaml.org,2002:value" => .default
  | "tag:yaml.org,2002:seq" => .sequence
  | "tag:yaml.org,2002:map" => .mapping
  | "tag:yaml.org,2002:set" => .set
  | "tag:yaml.org,2002:omap" => .orderedMap
  | "tag:yaml.org,2002:pairs" => .pairs
  | _ => .unknown

/-! ## The type of a text -/

/-- The words for true. -/
def trueWords : List String :=
  ["yes", "Yes", "YES", "true", "True", "TRUE", "on", "On", "ON"]

/-- The words for false. -/
def falseWords : List String :=
  ["no", "No", "NO", "false", "False", "FALSE", "off", "Off", "OFF"]

/-- The words for null. -/
def nullWords : List String :=
  ["~", "null", "Null", "NULL", ""]

/-- A digit or an underscore. -/
def isGrouped (c : Char) : Bool :=
  c.isDigit || c == '_'

/-- A text without a sign at its front. -/
def dropSign : List Char → List Char
  | '-' :: cs => cs
  | '+' :: cs => cs
  | cs => cs

/-- What follows a digit with more digits and underscores behind it. -/
def afterDigits? : List Char → Option (List Char)
  | c :: cs => if c.isDigit then some (cs.dropWhile isGrouped) else none
  | [] => none

/-- What follows sixtieths: a colon and one or two digits, of which the first of two is below six,
once or more often. -/
def afterSixtieths? : Nat → List Char → Option (List Char)
  | 0, _ => none
  | fuel + 1, ':' :: cs =>
    let run := cs.takeWhile Char.isDigit
    let fits := match run with
      | [_] => true
      | [a, _] => decide (a ≤ '5')
      | _ => false
    if fits then
      match cs.drop run.length with
      | ':' :: more => afterSixtieths? fuel (':' :: more)
      | rest => some rest
    else none
  | _ + 1, _ => none

/-- Whether a text is empty or an exponent with its sign. -/
def isExponent : List Char → Bool
  | [] => true
  | e :: sign :: d :: ds =>
    (e == 'e' || e == 'E') && (sign == '-' || sign == '+') && (d :: ds).all Char.isDigit
  | _ => false

/-- Whether a text is one of the words for infinity, or one for what is not a number. -/
def isNamedFloat (cs : List Char) : Bool :=
  [".inf", ".Inf", ".INF"].contains (String.ofList (dropSign cs)) ||
    [".nan", ".NaN", ".NAN"].contains (String.ofList cs)

/-- Whether a text looks like a floating-point number: it has a point, and an exponent has a
sign. -/
def looksFloat (cs : List Char) : Bool :=
  isNamedFloat cs ||
    (match cs with
    | '.' :: rest => (afterDigits? rest).any isExponent
    | _ => false) ||
    match afterDigits? (dropSign cs) with
    | some ('.' :: rest) => isExponent (rest.dropWhile isGrouped)
    | some (':' :: rest) =>
      match afterSixtieths? (rest.length + 1) (':' :: rest) with
      | some ('.' :: rest) => rest.all isGrouped
      | _ => false
    | _ => false

/-- Whether a text looks like an integer: in decimal, or after a zero in octal, in binary or
hexadecimal after their marks, or in sixtieths. -/
def looksInt (cs : List Char) : Bool :=
  match dropSign cs with
  | '0' :: 'b' :: rest => !rest.isEmpty && rest.all fun c => c == '0' || c == '1' || c == '_'
  | '0' :: 'x' :: rest =>
    !rest.isEmpty && rest.all fun c => (hexValue? c).isSome || c == '_'
  | '0' :: rest => rest.all fun c => ('0' ≤ c && c ≤ '7') || c == '_'
  | cs =>
    match afterDigits? cs with
    | some [] => true
    | some rest => afterSixtieths? (rest.length + 1) rest == some []
    | none => false

/-- Whether a text looks like a date or a time: a date alone needs two digits for month and day. -/
def looksTime (cs : List Char) : Bool :=
  match Timestamp.ofText? cs with
  | some t => t.clock?.isSome || cs.length == 10
  | none => false

/-- A text without the line end behind it, if it has one. -/
def dropLineEnd (text : String) : String :=
  match text.toList.reverse with
  | '\n' :: c :: rest => String.ofList (c :: rest).reverse
  | _ => text

/-- The type that the text of a scalar looks like.  A line end behind it does not matter. -/
def Tag.ofText (text : String) : Tag :=
  let text := dropLineEnd text
  let cs := text.toList
  if trueWords.contains text || falseWords.contains text then .bool
  else if looksFloat cs then .float
  else if looksInt cs then .int
  else if text = "<<" then .merge
  else if nullWords.contains text then .null
  else if looksTime cs then .timestamp
  else if text = "=" then .default
  else if ["!", "&", "*"].contains text then .unknown
  else .text

end LessonCalc.Yaml
