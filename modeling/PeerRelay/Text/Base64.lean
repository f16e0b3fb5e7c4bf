import PeerRelay.Text.Utf8

/-!
# Base64

Bytes as text in the standard alphabet, in groups of three bytes or four symbols, padded.

Decoding accepts canonical text only: the padding must be there, and the bits of the last symbol
that belong to no byte must be zero. Faults are reported in the order of the text, with one
exception: a foreign byte that stands alone after the last full group is reported first.
-/

namespace PeerRelay.Text.Base64

/-- The sixty-four symbols in the order of their values. -/
def alphabet : List Char :=
  "ABCDEFGHIJKLMNOPQRSTUVWXYZabcdefghijklmnopqrstuvwxyz0123456789+/".toList

/-- The symbol of a value below 64. -/
def symbol (value : Nat) : Char :=
  alphabet.getD value 'A'

/-- The value of a symbol, given as a byte. -/
def value? (byte : UInt8) : Option Nat :=
  alphabet.findIdx? (·.toNat == byte.toNat)

/-- The byte that fills up the last group. -/
def pad : UInt8 := 61

/-- The symbols of a list of bytes. -/
def symbols : List UInt8 → List Char
  | [] => []
  | [a] =>
    let n := a.toNat * 16
    [symbol (n / 64), symbol (n % 64), '=', '=']
  | [a, b] =>
    let n := (a.toNat * 256 + b.toNat) * 4
    [symbol (n / 4096), symbol (n / 64 % 64), symbol (n % 64), '=']
  | a :: b :: c :: rest =>
    let n := (a.toNat * 256 + b.toNat) * 256 + c.toNat
    symbol (n / 262144) :: symbol (n / 4096 % 64) :: symbol (n / 64 % 64) :: symbol (n % 64) ::
      symbols rest

/-- The text of a list of bytes. -/
def encode (bytes : List UInt8) : String :=
  String.ofList (symbols bytes)

/-- Why a text is not the base64 form of any bytes. -/
inductive Fault where
  /-- A byte that is no symbol of the alphabet, or padding that may not stand here. -/
  | foreign (byte : UInt8) (offset : Nat)
  /-- The last symbol has bits that belong to no byte. -/
  | strayBits (byte : UInt8) (offset : Nat)
  /-- A single symbol is left over. -/
  | length (symbols : Nat)
  /-- The last group is not filled up. -/
  | padding
deriving DecidableEq, Repr

/-- The wording of a fault. -/
def Fault.message : Fault → String
  | .foreign byte offset => s!"Invalid symbol {byte.toNat}, offset {offset}."
  | .strayBits byte offset => s!"Invalid last symbol {byte.toNat}, offset {offset}."
  | .length n => s!"Invalid input length: {n}"
  | .padding => "Invalid padding"

/-- The value of the symbol at an offset. -/
def valueAt (byte : UInt8) (offset : Nat) : Except Fault Nat :=
  match value? byte with
  | some v => .ok v
  | none => .error (.foreign byte offset)

/-- The values of symbols that start at an offset. -/
def valuesFrom (offset : Nat) : List UInt8 → Except Fault (List Nat)
  | [] => .ok []
  | byte :: rest => do
    let v ← valueAt byte offset
    return v :: (← valuesFrom (offset + 1) rest)

/-- The bytes of the last group, of at most four symbols, which starts at `offset`. -/
def decodeLast (offset : Nat) (group : List UInt8) : Except Fault (List UInt8) := do
  let body := group.takeWhile (· != pad)
  let filling := group.dropWhile (· != pad)
  let values ← valuesFrom offset body
  if filling ≠ [] ∧ (body.length < 2 ∨ filling.any (· != pad)) then
    throw (.foreign pad (offset + body.length))
  if group ≠ [] ∧ body.length < 2 then throw (.length (offset + body.length))
  unless group.length % 4 = 0 do throw .padding
  let last := body.getLastD pad
  match values with
  | [a, b] =>
    if b % 16 = 0 then return [UInt8.ofNat (a * 4 + b / 16)]
    else throw (.strayBits last (offset + 1))
  | [a, b, c] =>
    if c % 4 = 0 then
      return [UInt8.ofNat (a * 4 + b / 16), UInt8.ofNat (b % 16 * 16 + c / 4)]
    else throw (.strayBits last (offset + 2))
  | [a, b, c, d] =>
    return [UInt8.ofNat (a * 4 + b / 16), UInt8.ofNat (b % 16 * 16 + c / 4),
      UInt8.ofNat (c % 4 * 64 + d)]
  | _ => return []

/-- The bytes of all groups from `offset` on; every group but the last is full. -/
def decodeGroups (offset : Nat) : List UInt8 → Except Fault (List UInt8)
  | a :: b :: c :: d :: e :: rest => do
    let va ← valueAt a offset
    let vb ← valueAt b (offset + 1)
    let vc ← valueAt c (offset + 2)
    let vd ← valueAt d (offset + 3)
    let bytes ← decodeGroups (offset + 4) (e :: rest)
    return UInt8.ofNat (va * 4 + vb / 16) :: UInt8.ofNat (vb % 16 * 16 + vc / 4) ::
      UInt8.ofNat (vc % 4 * 64 + vd) :: bytes
  | group => decodeLast offset group

/-- The bytes of a text. -/
def decode (s : String) : Except Fault (List UInt8) :=
  let bytes := utf8 s
  match bytes.getLast? with
  | some last =>
    if bytes.length % 4 = 1 ∧ last ≠ pad ∧ (value? last).isNone then
      .error (.foreign last (bytes.length - 1))
    else decodeGroups 0 bytes
  | none => .ok []

end PeerRelay.Text.Base64
