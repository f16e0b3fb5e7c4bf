import PeerRelay.Text.Digit

/-!
# Shortest decimals of floating-point numbers

The decimal with the fewest digits that reads back as a given double, and among those the one
nearest to it. A double is decoded into `m · 2 ^ q`; the reals that round to it form an interval
around it, whose ends belong to it when `m` is even. For one digit, two digits and so on, the two
neighbours of the number on that decimal grid are tested in exact arithmetic.
-/

namespace PeerRelay.Decimal

/-- A positive rational as a quotient of naturals. -/
structure Ratio where
  num : Nat
  den : Nat

namespace Ratio

/-- The product with a power of ten. -/
def timesPowerOfTen (r : Ratio) : Int → Ratio
  | .ofNat e => ⟨r.num * Nat.pow 10 e, r.den⟩
  | .negSucc e => ⟨r.num, r.den * Nat.pow 10 (e + 1)⟩

/-- Whether the first rational is below the second. -/
def lt (a b : Ratio) : Bool :=
  a.num * b.den < b.num * a.den

/-- Whether the first rational is at most the second. -/
def le (a b : Ratio) : Bool :=
  a.num * b.den ≤ b.num * a.den

end Ratio

/-- A double without its sign: the number `m · 2 ^ q`, and whether the gap below it is half the
gap above it. -/
structure Binary where
  m : Nat
  q : Int
  narrowBelow : Bool

/-- Decodes the magnitude of a finite double from its bits. -/
def Binary.ofBits (bits : Nat) : Binary :=
  let fraction := bits % Nat.pow 2 52
  let exponent := bits / Nat.pow 2 52 % Nat.pow 2 11
  if exponent = 0 then ⟨fraction, -1074, false⟩
  else
    let q : Int := Int.ofNat exponent - 1075
    ⟨Nat.pow 2 52 + fraction, q, fraction == 0 && exponent > 1⟩

/-- The rational `n · 2 ^ q`. -/
def scaled (n : Nat) : Int → Ratio
  | .ofNat q => ⟨n * Nat.pow 2 q, 1⟩
  | .negSucc q => ⟨n, Nat.pow 2 (q + 1)⟩

/-- A decimal `digits · 10 ^ exponent`. -/
structure Digits where
  digits : Nat
  exponent : Int

/-- The largest `k` with `10 ^ k ≤ r`, looked for downwards from `k` in `fuel` steps. -/
def leadingExponent (r : Ratio) : Nat → Int → Int
  | 0, k => k
  | fuel + 1, k =>
    if Ratio.le (Ratio.timesPowerOfTen ⟨1, 1⟩ k) r then k else leadingExponent r fuel (k - 1)

/-- The neighbour of `value` on the grid of multiples of `10 ^ e` that rounds to it and is
nearest, if one does. -/
def onGrid (b : Binary) (e : Int) : Option Digits :=
  let value := scaled (4 * b.m) (b.q - 2)
  let low := scaled (4 * b.m - if b.narrowBelow then 1 else 2) (b.q - 2)
  let high := scaled (4 * b.m + 2) (b.q - 2)
  let inGrid := value.timesPowerOfTen (-e)
  let below := inGrid.num / inGrid.den
  let rounds (d : Nat) : Bool :=
    let r := Ratio.timesPowerOfTen ⟨d, 1⟩ e
    if b.m % 2 = 0 then low.le r && r.le high else low.lt r && r.lt high
  let twiceRest := 2 * (inGrid.num % inGrid.den)
  let upFirst := inGrid.den < twiceRest || (twiceRest == inGrid.den && below % 2 == 1)
  let candidates := if upFirst then [below + 1, below] else [below, below + 1]
  (candidates.find? rounds).map fun d => ⟨d, e⟩

/-- The fewest digits that read back as a positive number. -/
def shortest (b : Binary) : Digits :=
  let value := scaled b.m b.q
  let k := leadingExponent value 640 309
  ((List.range 17).findSome? fun n : Nat => onGrid b (k - Int.ofNat n)).getD ⟨0, 0⟩

/-- Moves the zeros at the end of the digits into the exponent. -/
def stripZeros : Nat → Digits → Digits
  | 0, d => d
  | fuel + 1, d =>
    if d.digits ≠ 0 ∧ d.digits % 10 = 0 then stripZeros fuel ⟨d.digits / 10, d.exponent + 1⟩
    else d

/-- The magnitude of a decimal in positional notation with at least one digit after the point,
unless its leading exponent is below −5 or above 15; then in scientific notation, with a sign and
at least two digits in the exponent. -/
def Digits.render (d : Digits) : String :=
  let digits := Nat.toDigits 10 d.digits
  let leading : Int := d.exponent + digits.length - 1
  String.ofList <|
    if leading < -5 ∨ 15 < leading then
      let tail := digits.drop 1
      digits.take 1 ++ (if tail.isEmpty then [] else '.' :: tail) ++ ['e'] ++
        [if leading < 0 then '-' else '+'] ++ (Text.padded 2 leading.natAbs).toList
    else if leading < 0 then
      ['0', '.'] ++ List.replicate (leading.natAbs - 1) '0' ++ digits
    else
      let whole := leading.toNat + 1
      let padded := digits ++ List.replicate (whole - digits.length) '0'
      let tail := padded.drop whole
      padded.take whole ++ ['.'] ++ (if tail.isEmpty then ['0'] else tail)

/-- The text of a finite double. -/
def renderDouble (x : Float) : String :=
  let bits := x.toBits.toNat
  let magnitude := bits % Nat.pow 2 63
  (if bits / Nat.pow 2 63 = 0 then "" else "-") ++
    if magnitude = 0 then "0.0"
    else (stripZeros 17 (shortest (Binary.ofBits magnitude))).render

end PeerRelay.Decimal
