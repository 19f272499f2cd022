import LessonCalc.Number.Shortest

/-!
# Written numbers

A floating-point number is written with its shortest decimal.  A `Layout` says when the point stands
among the digits and how an exponent is written; the library's two layouts are those of answers,
logs and messages, and of CSV files.
-/

namespace LessonCalc.Number

/-- How the digits of a number are laid out. -/
structure Layout where
  /-- The least order of magnitude written without an exponent. -/
  positionalFrom : Int
  /-- From this order of magnitude on an exponent is written. -/
  positionalBelow : Int
  /-- The least count of exponent digits. -/
  exponentDigits : Nat

/-- Numbers in answers, logs and messages: `0.0001`, `14.0`, `1e-05`, `1e+16`. -/
def Layout.plain : Layout := ⟨-4, 16, 2⟩

/-- Numbers in CSV files: `0.00001`, `14.0`, `1e-7`, `1e+16`. -/
def Layout.csv : Layout := ⟨-5, 16, 1⟩

/-- The characters of a natural number in decimal. -/
def natChars (n : Nat) : List Char :=
  Nat.toDigits 10 n

/-- A text filled up with leading zeros to a least width. -/
def padZeros (width : Nat) (cs : List Char) : List Char :=
  List.replicate (width - cs.length) '0' ++ cs

/-- The digits with the point after the first `whole` of them, zeros filling both sides. -/
def positional (digits : List Char) (whole : Int) : List Char :=
  if whole ≤ 0 then '0' :: '.' :: (List.replicate (-whole).toNat '0' ++ digits)
  else
    let n := whole.toNat
    if digits.length ≤ n then digits ++ List.replicate (n - digits.length) '0' ++ ['.', '0']
    else digits.take n ++ '.' :: digits.drop n

/-- The digits with the point after the first of them, if more follow, and the exponent. -/
def Layout.exponential (layout : Layout) (digits : List Char) (order : Int) : List Char :=
  let mantissa :=
    match digits with
    | first :: second :: rest => first :: '.' :: second :: rest
    | few => few
  let sign := if order < 0 then '-' else '+'
  mantissa ++ 'e' :: sign :: padZeros layout.exponentDigits (natChars order.natAbs)

/-- The digits of a decimal, laid out. -/
def Layout.decimal (layout : Layout) (d : Decimal) : List Char :=
  let digits := natChars d.digits
  let order : Int := if d.digits = 0 then 0 else digits.length + d.exponent - 1
  if layout.positionalFrom ≤ order ∧ order < layout.positionalBelow then
    positional digits (order + 1)
  else layout.exponential digits order

/-- A floating-point number, laid out. -/
def Layout.write (layout : Layout) (x : Float) : List Char :=
  if x.isNaN then "nan".toList
  else
    let digits := if x.isInf then "inf".toList else layout.decimal (magnitude x).shortest
    if isSigned x then '-' :: digits else digits

/-- A floating-point number as it stands in answers, logs and messages. -/
def plainText (x : Float) : String :=
  String.ofList (Layout.plain.write x)

/-- The characters of an integer in decimal. -/
def intChars (n : Int) : List Char :=
  if n < 0 then '-' :: natChars n.natAbs else natChars n.natAbs

/-- An integer in decimal. -/
def intText (n : Int) : String :=
  String.ofList (intChars n)

/-! ## Long integers -/

/-- The most digits of an integer that is read or written in decimal. -/
def digitLimit : Nat := 4300

/-- The message for a text with too many digits. -/
def tooManyDigitsMessage (count : Nat) : String :=
  s!"Exceeds the limit ({digitLimit} digits) for integer string conversion: value has {count} " ++
    "digits; use sys.set_int_max_str_digits() to increase the limit"

/-- The message for an integer that has too many digits to be written. -/
def tooLongMessage : String :=
  s!"Exceeds the limit ({digitLimit} digits) for integer string conversion; " ++
    "use sys.set_int_max_str_digits() to increase the limit"

end LessonCalc.Number
