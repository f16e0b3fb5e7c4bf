import PeerRelay.Text.Digit

/-!
# Numeric addresses

The numeric forms of a host. An IPv4 address has up to four parts between dots, each decimal,
octal after `0` or hexadecimal after `0x`; the last part stands for all bytes that are missing.
An IPv6 address has eight groups between colons; one gap, written `::`, stands for any number of
groups that are zero, and the last two groups may be written as an IPv4 address of four decimal
bytes.
-/

namespace PeerRelay.Url

/-- Cuts a text at every character of a class. -/
def cuts (isCut : Char → Bool) : List Char → List (List Char)
  | [] => [[]]
  | c :: rest =>
    if isCut c then [] :: cuts isCut rest
    else match cuts isCut rest with
      | first :: others => (c :: first) :: others
      | [] => [[c]]

/-- The number that digits of a base denote; no digits denote 0. -/
def ofBase? (base : Nat) (cs : List Char) : Option Nat :=
  cs.foldlM (fun n c => do
    let digit ← Text.hexValue? c
    if digit < base then some (base * n + digit) else none) 0

namespace Ipv4

/-- The number that a part of an address denotes. -/
def part? : List Char → Option Nat
  | [] => none
  | '0' :: 'x' :: rest => ofBase? 16 rest
  | '0' :: 'X' :: rest => ofBase? 16 rest
  | '0' :: c :: rest => ofBase? 8 (c :: rest)
  | cs => ofBase? 10 cs

/-- The parts of a host; a dot at its end opens no further part. -/
def parts (host : List Char) : List (List Char) :=
  let all := cuts (· == '.') host
  if all.getLast? = some [] then all.dropLast else all

/-- Whether a host is meant as an IPv4 address: its last part is a number, or at least all
digits. -/
def isMeant (host : List Char) : Bool :=
  match (parts host).getLast? with
  | none | some [] => false
  | some last => last.all Text.isDigit || (part? last).isSome

/-- Whether a host is an IPv4 address. Every part but the last is one byte. -/
def isAddress (host : List Char) : Bool :=
  match (parts host).mapM part? with
  | none => false
  | some numbers =>
    numbers.length ≤ 4 && numbers.dropLast.all (· ≤ 255) &&
      numbers.getLast?.all (· < Nat.pow 256 (5 - numbers.length))

/-- Whether a text is one byte in decimal, without zeros in front. -/
def isByte (cs : List Char) : Bool :=
  match cs with
  | [] => false
  | ['0'] => true
  | c :: _ => c != '0' && cs.all Text.isDigit && cs.length ≤ 3 && Text.ofDigits cs ≤ 255

/-- Whether a text is an address of four bytes in decimal. -/
def isDotted (cs : List Char) : Bool :=
  let bytes := cuts (· == '.') cs
  bytes.length == 4 && bytes.all isByte

end Ipv4

namespace Ipv6

/-- Whether a text is one group of an address. -/
def isGroup (cs : List Char) : Bool :=
  !cs.isEmpty && cs.length ≤ 4 && cs.all fun c => (Text.hexValue? c).isSome

/-- The number of groups that segments stand for. At the end of an address the last of them may
be an IPv4 address, which stands for two. -/
def count? (atEnd : Bool) : List (List Char) → Option Nat
  | [] => some 0
  | [segment] =>
    if isGroup segment then some 1
    else if atEnd && Ipv4.isDotted segment then some 2
    else none
  | segment :: rest => if isGroup segment then (count? atEnd rest).map (· + 1) else none

/-- The segments of one side of a gap, which may be empty. -/
def segments (cs : List Char) : List (List Char) :=
  if cs.isEmpty then [] else cuts (· == ':') cs

/-- The texts before and after the first gap. -/
def splitGap? : List Char → Option (List Char × List Char)
  | [] => none
  | ':' :: ':' :: rest => some ([], rest)
  | c :: rest => (splitGap? rest).map fun (left, right) => (c :: left, right)

/-- Whether a text is an IPv6 address. -/
def isAddress (cs : List Char) : Bool :=
  match splitGap? cs with
  | none => count? true (segments cs) == some 8
  | some (left, right) =>
    match count? false (segments left), count? true (segments right) with
    | some n, some m => n + m ≤ 7
    | _, _ => false

end Ipv6

end PeerRelay.Url
