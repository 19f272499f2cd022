/-!
# The machine

What goes down into something nested needs a level of the stack for each level of nesting, and a
caller leaves only those that it does not use itself.  Work that is spread over processes needs a
machine that gives them.
-/

namespace LessonCalc

/-- The levels of nesting that a caller leaves room for. -/
structure Room where
  /-- The most levels of descent that a formula may need. -/
  formula : Nat := 960
  /-- The most levels of values inside an entry of which the text is written. -/
  entry : Nat := 990
  /-- The most calls within one another that the redaction of a context may take. -/
  context : Nat := 985
  deriving Repr, DecidableEq

/-- What the machine gives to those who compute tools. -/
structure Host where
  /-- The room of those who show a tool. -/
  render : Room := {}
  /-- The room of a sweep that is not spread. -/
  sweep : Room := {}
  /-- The room of a process that takes part in a sweep. -/
  worker : Room := {}
  /-- The most processes that take part in a sweep. -/
  processes : Nat := 0x7FFFFFFE
  /-- The most levels of values inside an entry that is handed to a process. -/
  handed : Nat := 491
  /-- What is told of a process that the machine refuses. -/
  refusal : String := "[Errno 11] Resource temporarily unavailable"
  deriving Repr, DecidableEq

/-! ## Processes -/

/-- The first number of processes that is too large for their count. -/
def poolBound : Nat := 0x7FFFFFFF

/-- Why processes do not compute what they are to: there are none, or it cannot be handed to them. -/
inductive PoolError where
  | tooLarge
  | refused (message : String)
  | nestedTooDeeply
  deriving Repr, DecidableEq

/-- What is told of the error. -/
def PoolError.message : PoolError → String
  | tooLarge => "Python int too large to convert to C int"
  | refused message => message
  | nestedTooDeeply => "maximum recursion depth exceeded while pickling an object"

/-- Why there are not as many processes as workers, if there are not. -/
def Host.poolError? (host : Host) (workers : Int) : Option PoolError :=
  if poolBound ≤ workers then some .tooLarge
  else if host.processes < workers then some (.refused host.refusal)
  else none

end LessonCalc
