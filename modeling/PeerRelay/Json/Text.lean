import PeerRelay.Json.Tree
import PeerRelay.Text.Digit

/-!
# JSON texts

A text in quotes is taken apart into units: characters, and escapes by number, which are units of
UTF-16. The units are then put together; half of a surrogate pair that misses the other half is a
fault, but only to a reader of the text.
-/

namespace PeerRelay.Json.QuotedText

/-- One unit of a quoted text. -/
inductive Piece where
  | char (c : Char)
  /-- An escape by number, a unit of UTF-16. -/
  | unit (n : Nat)

/-- The character of a one-letter escape. -/
def escaped? : Char → Option Char
  | '"' => some '"'
  | '\\' => some '\\'
  | '/' => some '/'
  | 'b' => some '\x08'
  | 'f' => some '\x0c'
  | 'n' => some '\n'
  | 'r' => some '\r'
  | 't' => some '\t'
  | _ => none

/-- The value of four hexadecimal digits. -/
def hex4? (a b c d : Char) : Option Nat := do
  return ((← Text.hexValue? a) * 16 + (← Text.hexValue? b)) * 256 +
    (← Text.hexValue? c) * 16 + (← Text.hexValue? d)

/-- The fault of an escape by number that lacks its digits: the text is incomplete if it has
fewer than four more bytes. -/
def hexFault (rest : List Char) : Fault :=
  if (String.ofList (rest.take 4)).utf8ByteSize < 4 then .incomplete else .malformed

/-- What came of taking a quoted text apart: its pieces, and either the rest of the document
after the closing quote or the fault that ended the text. -/
structure Scan where
  pieces : List Piece
  rest : Except Fault (List Char)

/-- Puts a piece in front. -/
def Scan.push (s : Scan) (p : Piece) : Scan := { s with pieces := p :: s.pieces }

/-- Takes a text apart after its opening quote. -/
def scan : List Char → Scan
  | [] => ⟨[], .error .incomplete⟩
  | ['\\'] => ⟨[], .error .incomplete⟩
  | '"' :: rest => ⟨[], .ok rest⟩
  | '\\' :: 'u' :: a :: b :: c :: d :: rest =>
    match hex4? a b c d with
    | some n => (scan rest).push (.unit n)
    | none => ⟨[], .error (hexFault (a :: b :: c :: d :: rest))⟩
  | '\\' :: 'u' :: rest => ⟨[], .error (hexFault rest)⟩
  | '\\' :: e :: rest =>
    match escaped? e with
    | some c => (scan rest).push (.char c)
    | none => ⟨[], .error .malformed⟩
  | c :: rest =>
    if c.toNat < 0x20 then ⟨[], .error .malformed⟩ else (scan rest).push (.char c)

/-- A unit that begins a surrogate pair. -/
def isLeading (n : Nat) : Bool := 0xD800 ≤ n && n ≤ 0xDBFF

/-- A unit that ends a surrogate pair. -/
def isTrailing (n : Nat) : Bool := 0xDC00 ≤ n && n ≤ 0xDFFF

/-- The character of a surrogate pair. -/
def ofPair (leading trailing : Nat) : Char :=
  Char.ofNat (0x10000 + (leading - 0xD800) * 0x400 + (trailing - 0xDC00))

/-- Puts the pieces together. `ending` is the fault that ended the text, if it was not closed. -/
def assemble (ending : Option Fault) : List Piece → Except Fault (List Char)
  | [] => match ending with
    | some fault => .error fault
    | none => .ok []
  | .char c :: rest => (c :: ·) <$> assemble ending rest
  | .unit n :: rest =>
    if isTrailing n then .error .malformed
    else if isLeading n then
      match rest with
      | [] => .error (ending.getD .malformed)
      | .unit m :: rest =>
        if isTrailing m then (ofPair n m :: ·) <$> assemble ending rest else .error .malformed
      | .char _ :: _ => .error .malformed
    else (Char.ofNat n :: ·) <$> assemble ending rest

/-- Reads a text after its opening quote: the text as its reader gets it and the rest of the
document, or the breach at which the document ends. -/
def read (cs : List Char) : Except Breach (Except Fault String × List Char) :=
  let s := scan cs
  match s.rest with
  | .ok rest => .ok ((assemble none s.pieces).map String.ofList, rest)
  | .error fault =>
    match assemble (some fault) s.pieces with
    | .error first => .error ⟨first, fault⟩
    | .ok _ => .error (.plain fault)

end PeerRelay.Json.QuotedText
