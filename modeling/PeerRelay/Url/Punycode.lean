import PeerRelay.Text.Digit

/-!
# Punycode

The ASCII form of a label with other characters. The ASCII characters of the label come first,
up to the last hyphen; numbers of variable length after it say, in ascending order of code
points, where the other characters belong. The digits of a number have thresholds that adapt to
the numbers read before; the first digit below its threshold ends the number.
-/

namespace PeerRelay.Url.Punycode

/-- The value of a digit: the letters come before the decimal digits. -/
def digit? (c : Char) : Option Nat :=
  if 'a' ≤ c ∧ c ≤ 'z' then some (c.toNat - 'a'.toNat)
  else if Text.isDigit c then some (26 + Text.digitValue c)
  else none

/-- The threshold of the digit at a place, places counted in steps of 36. -/
def threshold (place bias : Nat) : Nat :=
  min 26 (max 1 (place - bias))

/-- Divides a large difference by 35 until it is small, with the places that this makes up for. -/
def damp (difference place : Nat) : Nat × Nat :=
  if 455 < difference then damp (difference / 35) (place + 36) else (difference, place)
termination_by difference

/-- The bias after a difference was read. -/
def adapt (difference size : Nat) (first : Bool) : Nat :=
  let halved := if first then difference / 700 else difference / 2
  let (rest, place) := damp (halved + halved / size) 0
  place + 36 * rest / (rest + 38)

/-- Reads one number; the answer holds the digits after it. -/
def number? (bias : Nat) : List Char → Nat → Nat → Nat → Option (Nat × List Char)
  | [], _, _, _ => none
  | c :: rest, place, weight, sum => do
    let digit ← digit? c
    let sum := sum + digit * weight
    if digit < threshold place bias then return (sum, rest)
    else number? bias rest (place + 36) (weight * (36 - threshold place bias)) sum

theorem length_of_number? {bias : Nat} {cs : List Char} {place weight sum : Nat}
    {r : Nat × List Char} (h : number? bias cs place weight sum = some r) :
    r.2.length < cs.length := by
  induction cs generalizing place weight sum with
  | nil => simp [number?] at h
  | cons c rest ih =>
    simp only [number?, Option.bind_eq_bind, Option.bind_eq_some_iff] at h
    obtain ⟨digit, -, h⟩ := h
    split at h
    · simp only [Option.pure_def, Option.some.injEq] at h
      simp [← h]
    · exact Nat.lt_succ_of_lt (ih h)

/-- Inserts the characters that the digits describe. `code` and `index` say where the search for
the next character goes on. -/
def insertAll? (bias code index : Nat) (text : List Char) (digits : List Char) :
    Option (List Char) :=
  if digits.isEmpty then some text
  else match _h : number? bias digits 36 1 index with
    | none => none
    | some (sum, rest) =>
      let size := text.length + 1
      let code := code + sum / size
      if code.isValidChar then
        insertAll? (adapt (sum - index) size (index == 0)) code (sum % size + 1)
          (text.insertIdx (sum % size) (Char.ofNat code)) rest
      else none
termination_by digits.length
decreasing_by exact length_of_number? (by assumption)

/-- The text of an encoded label, without the mark in front of it. -/
def decode? (cs : List Char) : Option (List Char) :=
  let last := (cs.reverse.takeWhile (· != '-')).reverse
  let ascii := (cs.take (cs.length - last.length)).dropLast
  let digits := if ascii.isEmpty then cs else last
  if ascii.all (·.toNat < 0x80) then insertAll? 72 0x80 0 ascii digits else none

end PeerRelay.Url.Punycode
