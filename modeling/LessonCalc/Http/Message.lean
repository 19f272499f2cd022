import LessonCalc.Document.Checked
import LessonCalc.Json.Reader
import LessonCalc.Project.Basic
import LessonCalc.Text.Percent
import LessonCalc.Text.Split

/-!
# Requests and responses

A request names a method and a target and carries a body, which is read as JSON.  A response is a
status and a JSON value.  A body that breaks the rules for its question is answered by the list of
its faults, each with its place below `body`.
-/

namespace LessonCalc.Http

open LessonCalc.Text

/-- A request. -/
structure Request where
  method : String
  target : String
  body : String := ""
  deriving Repr, DecidableEq

/-- A response. -/
structure Response where
  status : Nat
  body : Json
  deriving Repr

/-! ## Targets -/

/-- The path of a target: what comes before a query or a fragment, without its escapes. -/
def pathOf (target : String) : List Char :=
  percentDecode (target.toList.takeWhile fun c => c != '?' && c != '#')

/-- The parts of a path behind its first slash. -/
def segments (path : List Char) : List String :=
  match path with
  | '/' :: rest => (splitAll '/' rest).map String.ofList
  | _ => []

/-! ## Responses -/

/-- A good answer, in which a number that is not finite is null. -/
def Response.good (body : Json) : Response :=
  ⟨200, Json.finiteOnly body⟩

/-- A refusal with its reason. -/
def Response.refusal (status : Nat) (detail : String) : Response :=
  ⟨status, .object [("detail", .string detail)]⟩

/-- The answer to a path that leads nowhere. -/
def Response.notFound : Response := .refusal 404 "Not Found"

/-- The answer to a method that a path does not have. -/
def Response.wrongMethod : Response := .refusal 405 "Method Not Allowed"

/-- The answer to a body that cannot be taken in. -/
def Response.badBody : Response := .refusal 400 "There was an error parsing the body"

/-- A step to a fault. -/
def stepJson : Step → Json
  | .key name => .string name
  | .index position => .int position

/-- A fault of a body. -/
def faultJson (f : Fault) : Json :=
  .object [("loc", .array (.string "body" :: f.place.map stepJson)), ("type", .string f.kind.name)]

/-- The answer to a body with faults. -/
def Response.faulty (faults : List Fault) : Response :=
  ⟨422, .object [("detail", .array (faults.map faultJson))]⟩

/-! ## Bodies -/

/-- A text without a byte order mark at its front. -/
def dropMark : List Char → List Char
  | '\uFEFF' :: rest => rest
  | cs => cs

/-- The document in a body, or the answer to a body that holds none. -/
def readBody (body : String) : Except Response Document :=
  let text := dropMark body.toList
  if body.isEmpty then .error (.faulty [⟨[], .missing⟩])
  else
    match Json.readText text with
    | .ok v => .ok (.ofJson v)
    | .error (.syntaxFault _ rest) =>
      .error (.faulty [⟨[.index (text.length - rest.length)], .jsonInvalid⟩])
    | .error _ => .error .badBody

/-! ## What cannot be sent -/

/-- Why the faults of a body cannot be told: the parts of the body that they stand at are sent with
them. -/
def answerFault? (d : Document) (faults : List Fault) : Option AnswerFault :=
  let parts := faults.map fun f => d.partAt f.place
  if parts.any (·.holds Document.isInfinite) then some .infiniteNumber
  else if parts.any (·.holds Document.isBroken) || faults.any (·.place.any Step.isBroken) then
    some .brokenText
  else none

end LessonCalc.Http
