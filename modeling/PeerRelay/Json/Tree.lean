/-!
# JSON documents as they are read

A document is read in two steps: its text becomes a tree, and a value of some type is decoded
from the tree. The tree keeps what the decoding needs to report the *first* fault in the order of
the text. Where the text breaks off, the tree holds a breach, and every container around it ends
there.

A few faults show only to a reader who wants the value: a text with half of a surrogate pair, or
a number beyond the range of doubles, may be skipped. And a number cut off by the end of the text
counts as incomplete when its value is wanted, but as malformed when it is skipped. So a breach
says what it is to either reader.
-/

namespace PeerRelay.Json

/-- How the text of a document fails. -/
inductive Fault where
  /-- The text ends too early. -/
  | incomplete
  /-- The text goes on with something that may not stand there. -/
  | malformed
deriving DecidableEq, Repr

/-- The place where a document breaks off. -/
structure Breach where
  /-- The fault met by a reader of the value. -/
  read : Fault
  /-- The fault met by a reader that skips the value. -/
  skipped : Fault
deriving DecidableEq, Repr

/-- A breach that is the same to every reader. -/
def Breach.plain (fault : Fault) : Breach := ⟨fault, fault⟩

/-- A number: integers of 64 bits are kept exactly, all others are doubles. -/
inductive Number where
  /-- An integer from zero to the largest of 64 bits. -/
  | natural (n : Nat)
  /-- An integer below zero that fits into 64 bits with sign. -/
  | negative (n : Int)
  | real (x : Float)

/-- A document as read, with all fields in the order of the text. -/
inductive Tree where
  | null
  | bool (b : Bool)
  | number (n : Except Fault Number)
  | text (s : Except Fault String)
  /-- The items up to the closing bracket or to a breach. -/
  | array (items : List Tree) (breach : Option Breach)
  /-- The fields up to the closing brace or to a breach. -/
  | object (fields : List (Except Fault String × Tree)) (breach : Option Breach)
  | broken (breach : Breach)

/-- The field of an object: its name and its value. -/
abbrev Field := Except Fault String × Tree

/-- The breach inside a document, if it has one. -/
def Tree.breach? : Tree → Option Breach
  | .broken b => some b
  | .array _ b => b
  | .object _ b => b
  | _ => none

end PeerRelay.Json
