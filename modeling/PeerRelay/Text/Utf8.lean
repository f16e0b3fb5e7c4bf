/-!
# UTF-8

The bytes of a text, and two ways back: the strict one refuses bytes that are no UTF-8, the
lossy one puts the replacement character in place of each longest sequence of bytes that could
have begun a character.
-/

namespace PeerRelay.Text

/-- The UTF-8 bytes of a text. -/
def utf8 (s : String) : List UInt8 :=
  s.toList.flatMap String.utf8EncodeChar

/-- The text of a list of bytes, if they are UTF-8. -/
def ofUtf8? (bytes : List UInt8) : Option String :=
  String.fromUTF8? ⟨bytes.toArray⟩

/-- The replacement character. -/
def replacement : Char := '\uFFFD'

/-- What may follow the first byte of a character: the range of the second byte and the number
of bytes after it, with the bits that the first byte contributes. -/
structure Lead where
  bits : Nat
  low : UInt8
  high : UInt8
  further : Nat

/-- The continuation that a first byte of a longer character demands. -/
def lead? (b : UInt8) : Option Lead :=
  let n := b.toNat
  if 0xC2 ≤ n ∧ n ≤ 0xDF then some ⟨n - 0xC0, 0x80, 0xBF, 0⟩
  else if n = 0xE0 then some ⟨0, 0xA0, 0xBF, 1⟩
  else if n = 0xED then some ⟨0xD, 0x80, 0x9F, 1⟩
  else if 0xE1 ≤ n ∧ n ≤ 0xEF then some ⟨n - 0xE0, 0x80, 0xBF, 1⟩
  else if n = 0xF0 then some ⟨0, 0x90, 0xBF, 2⟩
  else if n = 0xF4 then some ⟨4, 0x80, 0x8F, 2⟩
  else if 0xF1 ≤ n ∧ n ≤ 0xF3 then some ⟨n - 0xF0, 0x80, 0xBF, 2⟩
  else none

/-- A decoder between two bytes: either at the start of a character, or inside one. -/
inductive Utf8State where
  | start
  | inside (pending : Lead)

/-- What a first byte yields, and the state after it. -/
def Utf8State.enter (b : UInt8) : List Char × Utf8State :=
  if b < 0x80 then ([Char.ofNat b.toNat], .start)
  else match lead? b with
    | some lead => ([], .inside lead)
    | none => ([replacement], .start)

/-- What a byte yields, and the state after it. A byte that cannot continue the pending
character ends it and counts as a first byte. -/
def Utf8State.feed (b : UInt8) : Utf8State → List Char × Utf8State
  | .start => enter b
  | .inside lead =>
    if lead.low ≤ b ∧ b ≤ lead.high then
      let bits := lead.bits * 64 + (b.toNat - 0x80)
      match lead.further with
      | 0 => ([Char.ofNat bits], .start)
      | n + 1 => ([], .inside ⟨bits, 0x80, 0xBF, n⟩)
    else
      let (yielded, next) := enter b
      (replacement :: yielded, next)

/-- Decodes bytes from a state on; a character that the end cuts off is replaced. -/
def lossyFrom : Utf8State → List UInt8 → List Char
  | .start, [] => []
  | .inside _, [] => [replacement]
  | state, b :: rest =>
    let (yielded, next) := state.feed b
    yielded ++ lossyFrom next rest

/-- The text of a list of bytes, with replacement characters where they are no UTF-8. -/
def ofUtf8Lossy (bytes : List UInt8) : String :=
  String.ofList (lossyFrom .start bytes)

end PeerRelay.Text
