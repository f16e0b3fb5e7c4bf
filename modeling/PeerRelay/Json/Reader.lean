import PeerRelay.Json.Number
import PeerRelay.Json.Text

/-!
# Reading JSON text

Turns a text into a tree. White space is the space, the tab and the two line ends. The fuel of
the reader is a bound on the number of nested calls; a text never needs more than twice its
length, which `Tree.ofText` supplies.
-/

namespace PeerRelay.Json

/-- Whether a character is white space between the parts of a document. -/
def isSpace (c : Char) : Bool :=
  c == ' ' || c == '\n' || c == '\t' || c == '\r'

/-- The text after white space. -/
def dropSpace (cs : List Char) : List Char :=
  cs.dropWhile isSpace

/-- What is left of the text after a part of a document, or the breach at which it ended. -/
abbrev Rest := Except Breach (List Char)

/-- A part that ends the document. -/
def stopped (b : Breach) : Tree × Rest := (.broken b, .error b)

/-- The breach where something else is expected: the end of the text, or a wrong character. -/
def unexpected (cs : List Char) : Breach :=
  .plain (if cs.isEmpty then .incomplete else .malformed)

/-- Reads a word, character by character. -/
def word (t : Tree) : List Char → List Char → Tree × Rest
  | [], cs => (t, .ok cs)
  | c :: expected, d :: cs => if c = d then word t expected cs else stopped (.plain .malformed)
  | _ :: _, [] => stopped (.plain .incomplete)

/-- Reads a quoted text after its quote. -/
def quotedText (cs : List Char) : Tree × Rest :=
  match QuotedText.read cs with
  | .ok (s, rest) => (.text s, .ok rest)
  | .error b => stopped b

/-- Reads a number. -/
def number (cs : List Char) : Tree × Rest :=
  match Number.lexeme cs with
  | .ok (l, rest) => (.number (Number.value l), .ok rest)
  | .error b => stopped b

mutual

/-- Reads a document. -/
def readTree : Nat → List Char → Tree × Rest
  | 0, _ => stopped (.plain .incomplete)
  | fuel + 1, cs =>
    match dropSpace cs with
    | [] => stopped (.plain .incomplete)
    | 'n' :: rest => word .null ['u', 'l', 'l'] rest
    | 't' :: rest => word (.bool true) ['r', 'u', 'e'] rest
    | 'f' :: rest => word (.bool false) ['a', 'l', 's', 'e'] rest
    | '"' :: rest => quotedText rest
    | '[' :: rest =>
      match dropSpace rest with
      | ']' :: rest => (.array [] none, .ok rest)
      | [] => (.array [] (some (.plain .incomplete)), .error (.plain .incomplete))
      | rest =>
        match readItems fuel rest with
        | (items, .ok rest) => (.array items none, .ok rest)
        | (items, .error b) => (.array items (some b), .error b)
    | '\x7b' :: rest =>
      match dropSpace rest with
      | '\x7d' :: rest => (.object [] none, .ok rest)
      | rest =>
        match readFields fuel rest with
        | (fields, .ok rest) => (.object fields none, .ok rest)
        | (fields, .error b) => (.object fields (some b), .error b)
    | c :: rest =>
      if c = '-' ∨ Text.isDigit c then number (c :: rest) else stopped (.plain .malformed)

/-- Reads the items of an array from an item on, with the closing bracket. -/
def readItems : Nat → List Char → List Tree × Rest
  | 0, _ => ([], .error (.plain .incomplete))
  | fuel + 1, cs =>
    match readTree fuel cs with
    | (item, .error b) => ([item], .error b)
    | (item, .ok rest) =>
      match dropSpace rest with
      | ']' :: rest => ([item], .ok rest)
      | ',' :: rest =>
        let (items, rest) := readItems fuel rest
        (item :: items, rest)
      | rest => ([item], .error (unexpected rest))

/-- Reads the fields of an object from a field on, with the closing brace. -/
def readFields : Nat → List Char → List Field × Rest
  | 0, _ => ([], .error (.plain .incomplete))
  | fuel + 1, cs =>
    match dropSpace cs with
    | '"' :: rest =>
      match QuotedText.read rest with
      | .error b => ([], .error b)
      | .ok (name, rest) =>
        match dropSpace rest with
        | ':' :: rest =>
          match readTree fuel rest with
          | (value, .error b) => ([(name, value)], .error b)
          | (value, .ok rest) =>
            match dropSpace rest with
            | '\x7d' :: rest => ([(name, value)], .ok rest)
            | ',' :: rest =>
              let (fields, rest) := readFields fuel rest
              ((name, value) :: fields, rest)
            | rest => ([(name, value)], .error (unexpected rest))
        | rest => ([(name, .broken (unexpected rest))], .error (unexpected rest))
    | rest => ([], .error (unexpected rest))

end

/-- Reads a document at the start of a text. -/
def Tree.ofText (s : String) : Tree × Rest :=
  let cs := s.toList
  readTree (2 * cs.length + 2) cs

end PeerRelay.Json
