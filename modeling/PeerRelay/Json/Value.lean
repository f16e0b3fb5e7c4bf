import PeerRelay.Text.Digit

/-!
# JSON documents to be written

The documents that the library writes, and their two text forms: compact, without any space, and
pretty, one entry a line with two spaces for each level. Characters outside ASCII are written as
they are.
-/

namespace PeerRelay.Json

/-- A JSON document; the fields of an object keep their order. -/
inductive Value where
  | null
  | bool (b : Bool)
  | number (n : Int)
  | text (s : String)
  | array (items : List Value)
  | object (fields : List (String × Value))

namespace Value

/-- The document of an optional text. -/
def ofText? : Option String → Value
  | some s => .text s
  | none => .null

/-- The document of a list of texts. -/
def ofTexts (texts : List String) : Value :=
  .array (texts.map .text)

end Value

/-- The escape of a control character without a letter of its own. -/
def unicodeEscape (c : Char) : List Char :=
  let digits := Nat.toDigits 16 c.toNat
  '\\' :: 'u' :: (List.replicate (4 - digits.length) '0' ++ digits)

/-- A character inside a quoted text. -/
def quotedChar (c : Char) : List Char :=
  match c with
  | '"' => ['\\', '"']
  | '\\' => ['\\', '\\']
  | '\n' => ['\\', 'n']
  | '\r' => ['\\', 'r']
  | '\t' => ['\\', 't']
  | '\x08' => ['\\', 'b']
  | '\x0c' => ['\\', 'f']
  | c => if c.toNat < 0x20 then unicodeEscape c else [c]

/-- A text in quotes. -/
def quoted (s : String) : List Char :=
  '"' :: s.toList.flatMap quotedChar ++ ['"']

/-- How a document is laid out: the white space after an opening bracket or a comma and before a
closing bracket, given the level of the entries, and the space after a colon. -/
structure Layout where
  lineBreak : Nat → List Char
  afterColon : List Char

/-- The layout without any white space. -/
def Layout.compact : Layout := ⟨fun _ => [], []⟩

/-- The layout with one entry a line. -/
def Layout.pretty : Layout :=
  ⟨fun level => '\n' :: List.replicate (2 * level) ' ', [' ']⟩

mutual

/-- The text of a document whose entries stand at the given level. -/
def writeAt (layout : Layout) (level : Nat) : Value → List Char
  | .null => ['n', 'u', 'l', 'l']
  | .bool true => ['t', 'r', 'u', 'e']
  | .bool false => ['f', 'a', 'l', 's', 'e']
  | .number n => (toString n).toList
  | .text s => quoted s
  | .array [] => ['[', ']']
  | .array (item :: items) =>
    '[' :: layout.lineBreak level ++ writeAt layout (level + 1) item ++
      writeItems layout level items ++ layout.lineBreak (level - 1) ++ [']']
  | .object [] => ['{', '}']
  | .object ((name, value) :: fields) =>
    '{' :: layout.lineBreak level ++ quoted name ++ ':' :: layout.afterColon ++
      writeAt layout (level + 1) value ++ writeFields layout level fields ++
      layout.lineBreak (level - 1) ++ ['}']

/-- The items of an array after the first, each behind its comma. -/
def writeItems (layout : Layout) (level : Nat) : List Value → List Char
  | [] => []
  | item :: items =>
    ',' :: layout.lineBreak level ++ writeAt layout (level + 1) item ++
      writeItems layout level items

/-- The fields of an object after the first, each behind its comma. -/
def writeFields (layout : Layout) (level : Nat) : List (String × Value) → List Char
  | [] => []
  | (name, value) :: fields =>
    ',' :: layout.lineBreak level ++ quoted name ++ ':' :: layout.afterColon ++
      writeAt layout (level + 1) value ++ writeFields layout level fields

end

/-- The text of a document without white space. -/
def Value.compact (v : Value) : String :=
  String.ofList (writeAt .compact 1 v)

/-- The text of a document with one entry a line. -/
def Value.pretty (v : Value) : String :=
  String.ofList (writeAt .pretty 1 v)

end PeerRelay.Json
