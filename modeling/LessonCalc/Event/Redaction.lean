import LessonCalc.Json.Basic

/-!
# Redaction

The context of an event may hold what should not be kept: values under a key that names a secret are
replaced, and long strings are cut.  An object is redacted entry by entry, at any depth.  Of an
array, the strings are cut and the objects redacted; an array inside of an array is kept as it is.
-/

namespace LessonCalc.Event

/-! ## Keys of secrets -/

/-- The words that mark a key as that of a secret. -/
def secretWords : List (List Char) :=
  ["password", "passwd", "secret", "token", "api_key", "apikey", "authorization", "cookie",
    "session", "bearer"].map String.toList

/-- A character of a key without its case.  The letters outside of ASCII that differ from an ASCII
letter only in case count as that letter. -/
def foldKeyChar (c : Char) : Char :=
  if c = '\u017F' then 's'
  else if c = '\u212A' then 'k'
  else if c = '\u0130' ∨ c = '\u0131' then 'i'
  else c.toLower

/-- Whether a word occurs inside of a text. -/
def occursIn (word : List Char) : List Char → Bool
  | [] => word.isEmpty
  | c :: cs => word.isPrefixOf (c :: cs) || occursIn word cs

/-- Whether a key names a secret. -/
def isSecretKey (key : RawText) : Bool :=
  let folded := key.legible.toList.map foldKeyChar
  secretWords.any fun word => occursIn word folded

/-! ## Values -/

/-- What stands in the place of a secret. -/
def redactedMark : String := "[REDACTED]"

/-- The most codes of a string that are kept. -/
def keptLength : Nat := 256

/-- What ends a string that was cut. -/
def cutMark : String := "...[truncated]"

/-- A string, cut if it is too long. -/
def cutLong (s : RawText) : RawText :=
  let cs := s.codes
  if keptLength < cs.length then .ofCodes (cs.take keptLength ++ (cutMark : RawText).codes) else s

mutual

/-- The entries of an object without secrets and long strings. -/
def redact : List (RawText × Json) → List (RawText × Json)
  | [] => []
  | (k, v) :: es => (k, if isSecretKey k then .string redactedMark else redactValue v) :: redact es

/-- A value of an object without secrets and long strings. -/
def redactValue : Json → Json
  | .object entries => .object (redact entries)
  | .array items => .array (redactItems items)
  | .string s => .string (cutLong s)
  | v => v

/-- The values of an array without secrets and long strings, down to the next array. -/
def redactItems : List Json → List Json
  | [] => []
  | .object entries :: vs => .object (redact entries) :: redactItems vs
  | .string s :: vs => .string (cutLong s) :: redactItems vs
  | v :: vs => v :: redactItems vs

end

/-! ## Within a room -/

/-- A call, which takes room from what it runs.  It fails if there is none. -/
def calling {α : Type} (run : Nat → Option α) : Nat → Option α
  | 0 => none
  | room + 1 => run room

mutual

/-- The entries of an object without secrets and long strings, where there is room for some calls
within one another. -/
def redactWithin (room : Nat) : List (RawText × Json) → Option (List (RawText × Json))
  | [] => some []
  | (k, v) :: es => do
    let w ← (if isSecretKey k then some (.string redactedMark) else redactValueWithin room v)
    (redactWithin room es).map ((k, w) :: ·)

/-- A value of an object, which takes a call. -/
def redactValueWithin (room : Nat) : Json → Option Json
  | .object entries => calling (fun room => (redactWithin room entries).map .object) room
  | .array items => calling (fun room => (redactItemsWithin room items).map .array) room
  | .string s => calling (fun _ => some (.string (cutLong s))) room
  | v => calling (fun _ => some v) room

/-- The values of an array. -/
def redactItemsWithin (room : Nat) : List Json → Option (List Json)
  | [] => some []
  | v :: vs => do
    let w ← redactItemWithin room v
    (redactItemsWithin room vs).map (w :: ·)

/-- A value of an array, which takes a call, and one more if it is an object. -/
def redactItemWithin (room : Nat) : Json → Option Json
  | .object entries => calling (calling fun room => (redactWithin room entries).map .object) room
  | .string s => calling (fun _ => some (.string (cutLong s))) room
  | v => calling (fun _ => some v) room

end

end LessonCalc.Event
