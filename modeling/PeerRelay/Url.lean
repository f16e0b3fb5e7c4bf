import PeerRelay.Text.Blank
import PeerRelay.Text.Utf8
import PeerRelay.Url.Domain

/-!
# URLs

Which texts are URLs that stand by themselves, and what is wrong with the others. Control
characters and spaces around a text do not count, nor do tabs and line ends inside it.

A URL begins with a scheme. The schemes of the web must name a host, whatever slashes stand before
it; `file` may name one; any other scheme names one only after two slashes, and then the host is
not looked into. Everything after the host is free.
-/

namespace PeerRelay.Url

/-- What is wrong with a text that is no URL. -/
inductive Fault where
  /-- It has no scheme. -/
  | relative
  | emptyHost
  | badName
  | badPort
  | badIpv4
  | badIpv6
  | badCharacter
deriving DecidableEq, Repr

namespace Fault

/-- The wording of a fault. -/
def message : Fault → String
  | .relative => "relative URL without a base"
  | .emptyHost => "empty host"
  | .badName => "invalid international domain name"
  | .badPort => "invalid port number"
  | .badIpv4 => "invalid IPv4 address"
  | .badIpv6 => "invalid IPv6 address"
  | .badCharacter => "invalid domain character"

/-- The name of a fault. -/
def name : Fault → String
  | .relative => "RelativeUrlWithoutBase"
  | .emptyHost => "EmptyHost"
  | .badName => "IdnaError"
  | .badPort => "InvalidPort"
  | .badIpv4 => "InvalidIpv4Address"
  | .badIpv6 => "InvalidIpv6Address"
  | .badCharacter => "InvalidDomainCharacter"

end Fault

/-! ### Hosts -/

/-- The bytes of a text in which `%` and two hexadecimal digits stand for a byte. -/
def decodePercent : List Char → List UInt8
  | [] => []
  | '%' :: a :: b :: rest =>
    match Text.hexValue? a, Text.hexValue? b with
    | some x, some y => UInt8.ofNat (16 * x + y) :: decodePercent rest
    | _, _ => String.utf8EncodeChar '%' ++ decodePercent (a :: b :: rest)
  | c :: rest => String.utf8EncodeChar c ++ decodePercent rest

/-- Checks what stands in a bracket that a host begins with. -/
def checkBracketed (inner : List Char) : Except Fault Unit :=
  if inner.getLast? = some ']' ∧ Ipv6.isAddress inner.dropLast then .ok () else .error .badIpv6

/-- Checks a host that is an address or a domain name. -/
def checkHost : List Char → Except Fault Unit
  | '[' :: inner => checkBracketed inner
  | host =>
    match Text.ofUtf8? (decodePercent host) with
    | none => .error .badName
    | some name =>
      match Domain.folded? name.toList with
      | none => .error .badName
      | some [] => .error .emptyHost
      | some folded =>
        if Ipv4.isMeant folded ∧ ¬ Ipv4.isAddress folded then .error .badIpv4 else .ok ()

/-- Checks a host that is not looked into. -/
def checkOpaqueHost : List Char → Except Fault Unit
  | '[' :: inner => checkBracketed inner
  | host =>
    if host.any "\x00\t\n\r #/:<>?@[\\]^|".toList.contains then .error .badCharacter else .ok ()

/-- The host in front of a port; a colon in brackets belongs to the host. -/
def splitPort (bracketed : Bool) : List Char → List Char × List Char
  | [] => ([], [])
  | c :: rest =>
    if c = ':' ∧ ¬ bracketed then ([], c :: rest)
    else
      let (host, port) := splitPort (c = '[' ∨ (bracketed ∧ c ≠ ']')) rest
      (c :: host, port)

/-- Checks the port after a host, if there is one. -/
def checkPort : List Char → Except Fault Unit
  | ':' :: rest =>
    let next := (rest.dropWhile Text.isDigit).head?
    if Text.ofDigits (rest.takeWhile Text.isDigit) ≤ 65535 ∧ next.all (· = '\\') then .ok ()
    else .error .badPort
  | _ => .ok ()

/-! ### Authorities -/

/-- Whether a character ends the part of a URL that names user, host and port. -/
def endsAuthority (web : Bool) (c : Char) : Bool :=
  c == '/' || c == '?' || c == '#' || (web && c == '\\')

/-- The texts before and after the last `@`, the first of which may be missing. -/
def splitUser (cs : List Char) : Option (List Char) × List Char :=
  let host := (cs.reverse.takeWhile (· != '@')).reverse
  if host.length = cs.length then (none, host)
  else (some (cs.take (cs.length - host.length - 1)), host)

/-- Checks user, host and port of a URL and what comes after them. A host may be empty only
outside the web, and without a user or a port. -/
def checkAuthority (web : Bool) (cs : List Char) : Except Fault Unit := do
  let (authority, rest) := cs.span (!endsAuthority web ·)
  let (user, place) := splitUser authority
  if user = some [] ∧ place.isEmpty ∧ ¬ rest.isEmpty then throw .emptyHost
  let (host, port) := splitPort false place
  if host.isEmpty then
    if web ∨ ¬ port.isEmpty then throw .emptyHost
    if user.any fun u => !u.isEmpty && u != [':'] then throw .emptyHost
  else
    if web then checkHost host else checkOpaqueHost host
    checkPort port

/-- Whether a text is the letter of a drive rather than a host. -/
def isDrive : List Char → Bool
  | [c, mark] => c.isAlpha && (mark == ':' || mark == '|')
  | _ => false

/-- Checks what comes after the scheme `file`. -/
def checkFile : List Char → Except Fault Unit
  | a :: b :: rest =>
    let isSlash (c : Char) : Bool := c == '/' || c == '\\'
    let host := rest.takeWhile (!endsAuthority true ·)
    if isSlash a ∧ isSlash b ∧ ¬ host.isEmpty ∧ ¬ isDrive host then checkHost host else .ok ()
  | _ => .ok ()

/-! ### URLs -/

/-- The characters of a text that count. -/
def counting (s : String) : List Char :=
  let isOuter (c : Char) : Bool := c.toNat ≤ 0x20
  let inner := ((s.toList.dropWhile isOuter).reverse.dropWhile isOuter).reverse
  inner.filter fun c => !(c == '\t' || c == '\n' || c == '\r')

/-- The scheme of a URL in lower case, and what comes after its colon. -/
def scheme? (cs : List Char) : Option (String × List Char) :=
  let isInner (c : Char) : Bool := c.isAlphanum || c == '+' || c == '-' || c == '.'
  match cs.span isInner with
  | (c :: scheme, ':' :: rest) =>
    if c.isAlpha then some (Text.lowerAscii (String.ofList (c :: scheme)), rest) else none
  | _ => none

/-- The schemes of the web. -/
def webSchemes : List String := ["http", "https", "ws", "wss", "ftp"]

/-- Checks that a text is a URL. -/
def check (s : String) : Except Fault Unit :=
  match scheme? (counting s) with
  | none => .error .relative
  | some ("file", rest) => checkFile rest
  | some (scheme, rest) =>
    if scheme ∈ webSchemes then
      checkAuthority true (rest.dropWhile fun c => c = '/' ∨ c = '\\')
    else match rest with
      | '/' :: '/' :: rest => checkAuthority false rest
      | _ => .ok ()

end PeerRelay.Url
