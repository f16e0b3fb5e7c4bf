import PeerRelay.Json.Tree
import PeerRelay.Text.Digit

/-!
# JSON numbers

The lexeme of a number and its value. An integer of 64 bits is kept exactly. Every other number
is a double, computed from a significand of 64 bits and a power of ten, each rounded: digits that
no longer fit into the significand only count as powers of ten before the point, and not at all
after it.
-/

namespace PeerRelay.Json.Number

/-- The parts of a number's text. -/
structure Lexeme where
  minus : Bool
  /-- The digits before the point. -/
  whole : List Char
  /-- The digits after the point; empty if there is no point. -/
  fraction : List Char
  /-- The sign of the exponent and its digits, if there is an exponent. -/
  exponent : Option (Bool × List Char)

/-- The breach of a number whose next digit is missing. -/
def missingDigit (rest : List Char) : Breach :=
  if rest.isEmpty then ⟨.incomplete, .malformed⟩ else .plain .malformed

/-- Takes at least one digit. -/
def someDigits (cs : List Char) : Except Breach (List Char × List Char) :=
  match cs.takeWhile Text.isDigit with
  | [] => .error (missingDigit cs)
  | digits => .ok (digits, cs.dropWhile Text.isDigit)

/-- Takes the digits before the point: a single zero, or digits that do not start with one. -/
def wholeDigits : List Char → Except Breach (List Char × List Char)
  | '0' :: rest =>
    if (rest.head?.map Text.isDigit).getD false then .error (.plain .malformed)
    else .ok (['0'], rest)
  | cs => someDigits cs

/-- Takes the point and the digits after it, if there is a point. -/
def fractionDigits : List Char → Except Breach (List Char × List Char)
  | '.' :: rest => someDigits rest
  | cs => .ok ([], cs)

/-- Takes the digits of an exponent after its sign. -/
def exponentDigits (minus : Bool) (cs : List Char) :
    Except Breach (Option (Bool × List Char) × List Char) :=
  (fun (digits, rest) => (some (minus, digits), rest)) <$> someDigits cs

/-- Takes the exponent, if there is one. -/
def exponentPart : List Char → Except Breach (Option (Bool × List Char) × List Char)
  | 'e' :: '-' :: rest | 'E' :: '-' :: rest => exponentDigits true rest
  | 'e' :: '+' :: rest | 'E' :: '+' :: rest => exponentDigits false rest
  | 'e' :: rest | 'E' :: rest => exponentDigits false rest
  | cs => .ok (none, cs)

/-- Takes a number. -/
def lexeme (cs : List Char) : Except Breach (Lexeme × List Char) := do
  let (minus, rest) := match cs with
    | '-' :: rest => (true, rest)
    | cs => (false, cs)
  let (whole, rest) ← wholeDigits rest
  let (fraction, rest) ← fractionDigits rest
  let (exponent, rest) ← exponentPart rest
  return (⟨minus, whole, fraction, exponent⟩, rest)

/-- The first number that does not fit into 64 bits. -/
def limit : Nat := Nat.pow 2 64

/-- A decimal `digits · 10 ^ exponent` whose digits fit into 64 bits. -/
structure Scaled where
  digits : Nat
  exponent : Int
  /-- A digit was left out. -/
  full : Bool

/-- Appends a digit before the point; a digit that no longer fits makes a power of ten. -/
def Scaled.pushWhole (s : Scaled) (c : Char) : Scaled :=
  let next := 10 * s.digits + Text.digitValue c
  if !s.full && next < limit then { s with digits := next }
  else { s with exponent := s.exponent + 1, full := true }

/-- Appends a digit after the point; a digit that no longer fits is left out. -/
def Scaled.pushFraction (s : Scaled) (c : Char) : Scaled :=
  let next := 10 * s.digits + Text.digitValue c
  if !s.full && next < limit then { s with digits := next, exponent := s.exponent - 1 }
  else { s with full := true }

/-- A double with the given sign. -/
def signed (minus : Bool) (x : Float) : Float :=
  if minus then -x else x

/-- The power of ten as a double. -/
def powerOfTen (e : Nat) : Float :=
  Float.ofScientific 1 false e

/-- The largest power of ten that is a double. -/
def maxPower : Nat := 308

/-- Divides by a power of ten, in steps that are doubles themselves. -/
def divideByPower : Nat → Float → Nat → Float
  | 0, x, _ => x
  | fuel + 1, x, e =>
    if e ≤ maxPower then x / powerOfTen e
    else if x == 0 then x
    else divideByPower fuel (x / powerOfTen maxPower) (e - maxPower)

/-- The double of a decimal, unless it is beyond the range. -/
def toDouble (digits : Nat) (exponent : Int) : Except Fault Float :=
  let x := digits.toUInt64.toFloat
  if exponent < 0 then .ok (divideByPower (exponent.natAbs + 1) x exponent.natAbs)
  else if exponent.toNat ≤ maxPower then
    let y := x * powerOfTen exponent.toNat
    if y.isInf then .error .malformed else .ok y
  else if x == 0 then .ok x
  else .error .malformed

/-- The range of exponents. -/
def exponentLimit : Int := 2147483648

/-- The value of a number that is no integer of 64 bits. -/
def realValue (l : Lexeme) : Except Fault Number :=
  let whole := l.whole.foldl Scaled.pushWhole ⟨0, 0, false⟩
  let all := l.fraction.foldl Scaled.pushFraction { whole with full := false }
  let real (x : Except Fault Float) : Except Fault Number :=
    x.map fun x => .real (signed l.minus x)
  match l.exponent with
  | none => real (toDouble all.digits all.exponent)
  | some (minus, digits) =>
    let size : Int := Text.ofDigits digits
    if exponentLimit ≤ size then
      if all.digits ≠ 0 ∧ !minus then .error .malformed else real (.ok 0.0)
    else
      let sum := if minus then all.exponent - size else all.exponent + size
      real (toDouble all.digits (max (-exponentLimit) (min (exponentLimit - 1) sum)))

/-- The value of a number. -/
def value (l : Lexeme) : Except Fault Number :=
  let n := Text.ofDigits l.whole
  match l.fraction, l.exponent, l.minus with
  | [], none, false => if n < limit then .ok (.natural n) else realValue l
  | [], none, true =>
    if 0 < n ∧ n ≤ limit / 2 then .ok (.negative (-n)) else realValue l
  | _, _, _ => realValue l

end PeerRelay.Json.Number
