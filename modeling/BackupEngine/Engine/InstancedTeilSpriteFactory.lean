import BackupEngine.Cpp.Vector
import BackupEngine.Lib.Separated

/-!
# The builders of rectangles

`RectVectorBuilder` and `charVectorBuilder` read a description file: a header line and one line for each rectangle, with
integers separated by a comma and a space. The `float` quotients are exact ones here.
-/

namespace Factory

open Cpp

/-- The characters of a line, or of a part of it. -/
abbrev Line := List UInt8

/-- The lines of a stream of characters, as calls of `std::getline` read them: a newline ends a line, and so does the end of
the stream where characters stand before it. -/
def lines : List UInt8 → List Line
  | [] => []
  | c :: cs =>
    if c = 10 then [] :: lines cs
    else match lines cs with
      | [] => [[c]]
      | l :: ls => (c :: l) :: ls

/-- The white space that `std::stoi` skips. -/
def isSpace (c : UInt8) : Bool := c == 32 || (9 ≤ c && c ≤ 13)

def isDigit (c : UInt8) : Bool := 48 ≤ c && c ≤ 57

/-- The sign of a number, if it has one: whether it is a minus, and what follows. -/
def signOf : Line → Bool × Line
  | 43 :: s => (false, s)
  | 45 :: s => (true, s)
  | s => (false, s)

/-- `std::stoi`: the number at the beginning and what it leaves over, or none where it throws, there being no digits or no
`int` of that value. -/
def stoi (s : Line) : Option (Int × Line) :=
  let (negative, s) := signOf (s.dropWhile isSpace)
  let digits := s.takeWhile isDigit
  if digits = [] then none
  else
    let value : Int := digits.foldl (fun n c => 10 * n + (c.toNat - 48)) 0
    let value := if negative then -value else value
    if InInt value then some (value, s.dropWhile isDigit) else none

/-- `line.find(", ")`. -/
def find? : Line → Option Nat := Separated.find? 44 32

/-- `std::stoi(line.substr(0, line.find(", ")))` and `line = line.substr(line.find(", ") + 1)`. Where nothing is found the
position is the largest `size_t`: the first `substr` is the whole line, and so is the second, from a position that wraps to
0. -/
def nextInt (line : Line) : Comp (Int × Line) := do
  let (first, rest) := match find? line with
    | some i => (line.take i, line.drop (i + 1))
    | none => (line, line)
  match stoi first with
  | some (n, _) => return (n, rest)
  | none => .error .thrown

/-- A quotient of two numbers; none for a divisor that is 0. -/
def ratio (m n : Int) : Option ℚ := if n = 0 then none else some (m / n)

/-- `XMFLOAT4`. -/
structure XMFLOAT4 where
  x : Option ℚ
  y : Option ℚ
  z : Option ℚ
  w : Option ℚ
  deriving DecidableEq

/-- `float6`. -/
structure Float6 where
  a : Option ℚ
  b : Option ℚ
  c : Option ℚ
  d : Option ℚ
  e : ℚ
  f : ℚ
  deriving DecidableEq

/-- What the two builders have in common: a header is read from the first line of the file, and an entry from the four integers
of each further line. A file that is not open has no entries. -/
def vectorBuilder {H E : Type} (header : Line → Comp H) (entry : H → Int → Int → Int → Int → Comp E) :
    Option (List UInt8) → Comp (List E)
  | none => return []
  | some myfile => do
    let h ← header ((lines myfile).headD [])
    (lines myfile).tail.foldlM (fun toRet line => do
      let (a, line) ← nextInt line
      let (b, line) ← nextInt line
      let (c, line) ← nextInt line
      let (d, _) ← nextInt line
      let tempf ← entry h a b c d
      return toRet ++ [tempf]) []

/-- `RectVectorBuilder`. -/
def RectVectorBuilder : Option (List UInt8) → Comp (List XMFLOAT4) :=
  vectorBuilder
    (fun line => do
      let (width, line) ← nextInt line
      let (height, _) ← nextInt line
      return (width, height))
    (fun (width, height) a b c d => do
      let x ← int (c - a)
      let y ← int (d - b)
      return { x := ratio x width, y := ratio y height, z := ratio a width, w := ratio b height })

/-- `charVectorBuilder`. -/
def charVectorBuilder : Option (List UInt8) → Comp (List Float6) :=
  vectorBuilder
    (fun line => do
      let (imgWidth, line) ← nextInt line
      let (imgHeight, line) ← nextInt line
      let (width, line) ← nextInt line
      let (height, _) ← nextInt line
      return (imgWidth, imgHeight, width, height))
    (fun (imgWidth, imgHeight, _, _) a b c d => do
      let left ← int (a - c.tdiv 2)
      let top ← int (b - d.tdiv 2)
      return { a := ratio c imgWidth, b := ratio d imgHeight, c := ratio left imgWidth, d := ratio top imgHeight
               e := c, f := d })

end Factory
