import PeerRelay.Decimal.Shortest
import PeerRelay.Json.Reader
import PeerRelay.Text.Ordered
import PeerRelay.Text.Quoted

/-!
# Decoding values from JSON

A value is decoded from a tree in the order of the text, and the first problem met is reported:
a fault of the text, or a well-formed part of the wrong shape.

A record is described by its slots. It may be written as an object, whose fields may come in any
order and among unknown ones, or as the array of its values in the order of the slots. A missing
slot is reported when the object closes, in the order of the slots.
-/

namespace PeerRelay.Json

/-- What stands where something else is expected. -/
inductive Found where
  | null
  | bool (b : Bool)
  | integer (n : Int)
  | real (x : Float)
  | text (s : String)
  | sequence
  | map

/-- The wording of what was found. -/
def Found.render : Found → String
  | .null => "null"
  | .bool b => s!"boolean `{b}`"
  | .integer n => s!"integer `{n}`"
  | .real x => "floating point `" ++ Decimal.renderDouble x ++ "`"
  | .text s => "string " ++ Text.diagnostic s
  | .sequence => "sequence"
  | .map => "map"

/-- How a well-formed document has the wrong shape. -/
inductive ShapeFault where
  | wrongType (found : Found) (expected : String)
  | wrongValue (found : Found) (expected : String)
  | wrongLength (length : Nat) (expected : String)
  | missingField (name : String)
  | duplicateField (name : String)
  /-- A text has the wrong form; the wording is that of the form. -/
  | badText (detail : String)

/-- The wording of a wrong shape. -/
def ShapeFault.message : ShapeFault → String
  | .wrongType found expected => s!"invalid type: {found.render}, expected {expected}"
  | .wrongValue found expected => s!"invalid value: {found.render}, expected {expected}"
  | .wrongLength length expected => s!"invalid length {length}, expected {expected}"
  | .missingField name => s!"missing field `{name}`"
  | .duplicateField name => s!"duplicate field `{name}`"
  | .badText detail => detail

/-- Why no value could be decoded. -/
inductive Problem where
  | form (fault : Fault)
  | shape (fault : ShapeFault)

/-- A way to decode a value. -/
abbrev Decoder (α : Type) := Tree → Except Problem α

/-- A fault of the text as the problem of its reader. -/
def ofFault {α : Type} : Except Fault α → Except Problem α
  | .ok a => .ok a
  | .error fault => .error (.form fault)

/-- Goes on unless a container ended in a breach. -/
def closing (breach : Option Breach) : Except Problem Unit :=
  match breach with
  | some b => .error (.form b.read)
  | none => .ok ()

/-- Skips a value. -/
def skip (t : Tree) : Except Problem Unit :=
  match t.breach? with
  | some b => .error (.form b.skipped)
  | none => .ok ()

/-- A number as it is reported. -/
def Number.found : Number → Found
  | .natural n => .integer n
  | .negative n => .integer n
  | .real x => .real x

/-- What a document is, to be reported. -/
def Tree.found : Tree → Except Problem Found
  | .null => .ok .null
  | .bool b => .ok (.bool b)
  | .number n => (ofFault n).map Number.found
  | .text s => (ofFault s).map .text
  | .array _ _ => .ok .sequence
  | .object _ _ => .ok .map
  | .broken b => .error (.form b.read)

/-- Reports that something else was expected. -/
def mismatch {α : Type} (expected : String) : Decoder α := fun t => do
  throw (.shape (.wrongType (← t.found) expected))

/-! ### Decoders -/

/-- A text. -/
def text : Decoder String
  | .text s => ofFault s
  | t => mismatch "a string" t

/-- A text, or nothing. -/
def text? : Decoder (Option String)
  | .null => .ok none
  | t => some <$> text t

/-- A natural number up to `high`; `expected` is the name of the range. -/
def natural (high : Nat) (expected : String) : Decoder Nat
  | .number n => do
    match ← ofFault n with
    | .natural n =>
      if n ≤ high then return n
      else throw (.shape (.wrongValue (.integer n) expected))
    | .negative n => throw (.shape (.wrongValue (.integer n) expected))
    | .real x => throw (.shape (.wrongType (.real x) expected))
  | t => mismatch expected t

/-- A list of values. -/
def list {α : Type} (item : Decoder α) : Decoder (List α)
  | .array items breach => do
    let values ← items.mapM item
    closing breach
    return values
  | t => mismatch "a sequence" t

/-- The fields of an object, with a decoder for their values. -/
def fieldsFrom {α : Type} (value : Decoder α) : List Field → Except Problem (List (String × α))
  | [] => .ok []
  | (name, t) :: rest => do
    let name ← ofFault name
    let v ← value t
    return (name, v) :: (← fieldsFrom value rest)

/-- A map with text keys; the last value of a key counts. -/
def textMap {α : Type} (value : Decoder α) : Decoder (Text.TextMap α)
  | .object fields breach => do
    let entries ← fieldsFrom value fields
    closing breach
    return Text.TextMap.ofList entries
  | t => mismatch "a map" t

/-! ### Records -/

/-- What it means for a slot of a record to be absent. -/
inductive Absence where
  /-- The record is refused. -/
  | refused
  /-- The slot of an object stays empty; an array needs a value. -/
  | emptyInObject
  /-- The slot keeps its default. -/
  | defaulted
deriving DecidableEq

/-- A slot of a record: how its value is decoded and put in place. -/
structure Slot (σ : Type) where
  name : String
  absence : Absence
  fill : Tree → σ → Except Problem σ

/-- A slot whose value is set by a function. -/
def Slot.of {σ α : Type} (name : String) (absence : Absence) (value : Decoder α)
    (put : σ → α → σ) : Slot σ :=
  ⟨name, absence, fun t s => put s <$> value t⟩

/-- A record with its slots in order. The blank record holds the defaults. -/
structure Record (σ : Type) where
  title : String
  blank : σ
  slots : List (Slot σ)

namespace Record

variable {σ : Type}

/-- What is expected where a record is. -/
def expected (r : Record σ) : String :=
  "struct " ++ r.title

/-- What is expected of the length of a record written as an array. -/
def expectedLength (r : Record σ) : String :=
  let n := r.slots.length
  r.expected ++ " with " ++ toString n ++ if n = 1 then " element" else " elements"

/-- Fills slots from the fields of an object. `seen` holds the names that were already filled. -/
def fillFields (r : Record σ) :
    List String → σ → List Field → Except Problem (List String × σ)
  | seen, s, [] => .ok (seen, s)
  | seen, s, (name, t) :: rest => do
    let name ← ofFault name
    match r.slots.find? (·.name == name) with
    | none =>
      skip t
      r.fillFields seen s rest
    | some slot =>
      if seen.contains name then throw (.shape (.duplicateField name))
      r.fillFields (name :: seen) (← slot.fill t s) rest

/-- Fills slots from the items of an array; `index` counts the items before. -/
def fillItems (r : Record σ) (breach : Option Breach) (index : Nat) (s : σ) :
    List (Slot σ) → List Tree → Except Problem σ
  | [], [] => do
    closing breach
    return s
  | [], _ :: _ => .error (.form .malformed)
  | slot :: slots, [] => do
    closing breach
    if slot.absence = .defaulted then r.fillItems breach (index + 1) s slots []
    else throw (.shape (.wrongLength index r.expectedLength))
  | slot :: slots, t :: rest => do
    r.fillItems breach (index + 1) (← slot.fill t s) slots rest

/-- The first slot that may not be absent and is. -/
def missing? (r : Record σ) (seen : List String) : Option String :=
  (r.slots.find? fun slot => slot.absence = .refused && !seen.contains slot.name).map (·.name)

/-- Decodes a record. -/
def decode (r : Record σ) : Decoder σ
  | .object fields breach => do
    let (seen, s) ← r.fillFields [] r.blank fields
    closing breach
    match r.missing? seen with
    | some name => throw (.shape (.missingField name))
    | none => return s
  | .array items breach => r.fillItems breach 0 r.blank r.slots items
  | t => mismatch r.expected t

end Record

/-- Decodes a whole text: the document, and nothing but white space after it. -/
def decodeText {α : Type} (value : Decoder α) (s : String) : Except Problem α := do
  let (t, rest) := Tree.ofText s
  let a ← value t
  match rest with
  | .ok rest => if (dropSpace rest).isEmpty then return a else throw (.form .malformed)
  | .error b => throw (.form b.read)

end PeerRelay.Json
