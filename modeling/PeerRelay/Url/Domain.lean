import PeerRelay.Text.Shown
import PeerRelay.Url.Address
import PeerRelay.Url.Punycode

/-!
# Domain names

Which texts are domain names, in all scripts. A name is first folded: ASCII letters go to lower
case, forms of ASCII letters and digits from other blocks to the plain ones, full stops of other
scripts to the dot, and characters that have no effect are left out. Each label between dots is
then checked by itself, a label that begins with `xn--` in its decoded form. A name with letters
that are written from right to left has to keep the two directions apart.

Letters outside ASCII are not folded to lower case, nor composed with the marks after them: that
changes the name but not whether it is one.
-/

namespace PeerRelay.Url.Domain

/-! ### Classes of characters -/

/-- ASCII characters that no domain name holds. -/
def isForbidden (c : Char) : Bool :=
  c.toNat ≤ 0x20 || c == '\x7f' || "%#/:<>?@[\\]^|".toList.contains c

/-- Characters that are left out of a name. -/
def ignoredRanges : List (Nat × Nat) := [
  (0xAD, 0xAD), (0x34F, 0x34F), (0x115F, 0x1160), (0x17B4, 0x17B5), (0x180B, 0x180F),
  (0x200B, 0x200B), (0x2060, 0x2064), (0x206A, 0x206F), (0x3164, 0x3164), (0xFE00, 0xFE0F),
  (0xFEFF, 0xFEFF), (0xFFA0, 0xFFA0), (0x1BCA0, 0x1BCA3), (0x1D173, 0x1D17A), (0xE0100, 0xE01EF)]

/-- Visible characters that no domain name holds, most of them because they stand for a text with
a forbidden ASCII character. -/
def refusedRanges : List (Nat × Nat) := [
  (0xA8, 0xA8), (0xAF, 0xAF), (0xB4, 0xB4), (0xB8, 0xB8), (0x2D8, 0x2DD), (0x37A, 0x37A),
  (0x384, 0x385), (0x1FBD, 0x1FBD), (0x1FBF, 0x1FC1), (0x1FCD, 0x1FCF), (0x1FDD, 0x1FDF),
  (0x1FED, 0x1FEE), (0x1FFD, 0x1FFE), (0x2017, 0x2017), (0x2024, 0x2026), (0x203E, 0x203E),
  (0x2047, 0x2049), (0x2100, 0x2101), (0x2105, 0x2106), (0x2488, 0x249B), (0x2A74, 0x2A74),
  (0x2FF0, 0x2FFB), (0x309B, 0x309C), (0x33C2, 0x33C2), (0x33C7, 0x33C7), (0x33D8, 0x33D8),
  (0xFC5E, 0xFC63), (0xFDFA, 0xFDFB), (0xFE12, 0xFE13), (0xFE16, 0xFE16), (0xFE19, 0xFE19),
  (0xFE30, 0xFE30), (0xFE47, 0xFE4C), (0xFE52, 0xFE52), (0xFE55, 0xFE56), (0xFE5F, 0xFE5F),
  (0xFE64, 0xFE65), (0xFE68, 0xFE68), (0xFE6A, 0xFE6B), (0xFE70, 0xFE70), (0xFE72, 0xFE72),
  (0xFE74, 0xFE74), (0xFE76, 0xFE76), (0xFE78, 0xFE78), (0xFE7A, 0xFE7A), (0xFE7C, 0xFE7C),
  (0xFE7E, 0xFE7E), (0xFF03, 0xFF03), (0xFF05, 0xFF05), (0xFF0F, 0xFF0F), (0xFF1A, 0xFF1A),
  (0xFF1C, 0xFF1C), (0xFF1E, 0xFF20), (0xFF3B, 0xFF3E), (0xFF5C, 0xFF5C), (0xFFE3, 0xFFE3),
  (0xFFFC, 0xFFFD), (0x1F100, 0x1F100)]

/-- The characters that join letters or keep them apart. -/
def isJoiner (c : Char) : Bool :=
  c == '\u200C' || c == '\u200D'

/-- Whether a character is left out of a name. -/
def isIgnored (c : Char) : Bool :=
  Text.inRanges ignoredRanges c.toNat

/-- Whether no domain name holds a character. -/
def isRefused (c : Char) : Bool :=
  if c.toNat < 0x80 then isForbidden c
  else Text.inRanges refusedRanges c.toNat ||
    (Text.inRanges Text.invisibleRanges c.toNat && !isIgnored c && !isJoiner c)

/-- Ranges of characters that are forms of ASCII characters: the first and the last, the ASCII
character that the first is a form of, and the number of characters after which it recurs. -/
def asciiForms : List (Nat × Nat × Char × Nat) := [
  (0xB2, 0xB3, '2', 2), (0xB9, 0xB9, '1', 1), (0x2070, 0x2070, '0', 1), (0x2074, 0x2079, '4', 6),
  (0x2080, 0x2089, '0', 10), (0x2460, 0x2468, '1', 9), (0x24B6, 0x24E9, 'a', 26),
  (0x24EA, 0x24EA, '0', 1), (0x3002, 0x3002, '.', 1), (0xFE63, 0xFE63, '-', 1),
  (0xFF0D, 0xFF0E, '-', 2), (0xFF10, 0xFF19, '0', 10), (0xFF21, 0xFF3A, 'a', 26),
  (0xFF41, 0xFF5A, 'a', 26), (0xFF61, 0xFF61, '.', 1), (0x1CCD6, 0x1CCEF, 'a', 26),
  (0x1CCF0, 0x1CCF9, '0', 10), (0x1D400, 0x1D6A3, 'a', 26), (0x1D7CE, 0x1D7FF, '0', 10),
  (0x1F130, 0x1F149, 'a', 26), (0x1FBF0, 0x1FBF9, '0', 10)]

/-- The ASCII character that a character is a form of. -/
def asciiForm? (c : Char) : Option Char :=
  asciiForms.findSome? fun (first, last, start, period) =>
    if first ≤ c.toNat ∧ c.toNat ≤ last then
      some (Char.ofNat (start.toNat + (c.toNat - first) % period))
    else none

/-- What a character becomes in a folded name. -/
def fold (c : Char) : List Char :=
  if c.toNat < 0x80 then [c.toLower]
  else if isIgnored c then []
  else [(asciiForm? c).getD c]

/-- Signs that take the vowel from the letter before them; a joiner may follow. -/
def viramas : List Nat := [
  0x94D, 0x9CD, 0xA4D, 0xACD, 0xB4D, 0xBCD, 0xC4D, 0xCCD, 0xD3B, 0xD3C, 0xD4D, 0xDCA, 0xE3A, 0xEBA,
  0xF84, 0x1039, 0x103A, 0x1714, 0x1715, 0x1734, 0x17D2, 0x1A60, 0x1B44, 0x1BAA, 0x1BAB, 0x1BF2,
  0x1BF3, 0x2D7F, 0xA806, 0xA82C, 0xA8C4, 0xA953, 0xA9C0, 0xAAF6, 0xABED]

/-- Whether a character attaches itself to the one before it. -/
def isMark (c : Char) : Bool :=
  Text.inRanges Text.extendingRanges c.toNat && !isJoiner c

/-! ### Directions -/

/-- How a character behaves where directions meet. -/
inductive Direction where
  | left
  | right
  | europeanDigit
  | arabicDigit
  /-- It goes with the character before it. -/
  | mark
  | neutral
deriving DecidableEq

/-- The Arabic digits and the signs that go with them. -/
def arabicDigitRanges : List (Nat × Nat) := [
  (0x600, 0x605), (0x660, 0x669), (0x66B, 0x66C), (0x6DD, 0x6DD), (0x890, 0x891), (0x8E2, 0x8E2),
  (0x10D30, 0x10D39), (0x10E60, 0x10E7E)]

/-- The blocks of the scripts that are written from right to left. -/
def rightRanges : List (Nat × Nat) := [
  (0x590, 0x605), (0x608, 0x608), (0x60B, 0x60B), (0x60D, 0x60D), (0x610, 0x669), (0x66D, 0x6DD),
  (0x6DF, 0x6E8), (0x6EA, 0x6EF), (0x6FA, 0x7F5), (0x7FA, 0x8FF), (0xFB1D, 0xFD3D),
  (0xFD50, 0xFDCE), (0xFDD0, 0xFDFC), (0xFE70, 0xFEFE), (0x10800, 0x10FFF), (0x1E800, 0x1EEEF),
  (0x1EEF2, 0x1EFFF)]

/-- The blocks of signs that are written in both directions. -/
def neutralRanges : List (Nat × Nat) := [
  (0x80, 0xA9), (0xAB, 0xB4), (0xB6, 0xB9), (0xBB, 0xBF), (0xD7, 0xD7), (0xF7, 0xF7),
  (0x606, 0x607), (0x60E, 0x60F), (0x66A, 0x66A), (0x6DE, 0x6DE), (0x6E9, 0x6E9), (0x7F6, 0x7F9),
  (0x2000, 0x206F), (0x2074, 0x207E), (0x2080, 0x208E), (0x20A0, 0x20CF), (0x2190, 0x2335),
  (0x237B, 0x2394), (0x2396, 0x249B), (0x24EA, 0x26AB), (0x26AD, 0x27FF), (0x2900, 0x2BFF),
  (0x2CE5, 0x2CEA), (0x2E00, 0x3004), (0x3008, 0x3020), (0x3030, 0x3030), (0x303D, 0x303F),
  (0xFD3E, 0xFD4F), (0xFDFD, 0xFE1F), (0xFE30, 0xFE6F), (0xFF00, 0xFF20), (0x1F000, 0x1F0FF),
  (0x1F300, 0x1FAFF)]

/-- The direction of a character. -/
def direction (c : Char) : Direction :=
  let n := c.toNat
  if Text.isDigit c || (0x6F0 ≤ n && n ≤ 0x6F9) then .europeanDigit
  else if n < 0x80 then if c.isAlpha then .left else .neutral
  else if isMark c then .mark
  else if Text.inRanges arabicDigitRanges n then .arabicDigit
  else if Text.inRanges rightRanges n then .right
  else if Text.inRanges neutralRanges n then .neutral
  else .left

/-- Whether a label keeps the directions apart: it begins with a letter, ends with a letter or a
digit and the marks on it, has no letters of the other direction, and from right to left not both
kinds of digits. -/
def keepsDirection (label : List Char) : Bool :=
  let directions := label.map direction
  let last := (directions.reverse.dropWhile (· == .mark)).head?
  match directions.head? with
  | none => true
  | some .right =>
    !directions.contains .left &&
      (last == some .right || last == some .europeanDigit || last == some .arabicDigit) &&
      !(directions.contains .europeanDigit && directions.contains .arabicDigit)
  | some .left =>
    !directions.contains .right && !directions.contains .arabicDigit &&
      (last == some .left || last == some .europeanDigit)
  | some _ => false

/-! ### Labels -/

/-- Whether every joiner of a label stands after a virama, or, if it keeps letters apart, between
letters that are written from right to left. `before` are the characters before, nearest first. -/
def joinersStand (before : List Char) : List Char → Bool
  | [] => true
  | c :: rest =>
    let afterVirama := match before with
      | v :: _ => viramas.contains v.toNat
      | [] => false
    let joining (side : List Char) : Bool :=
      (side.dropWhile isMark).head?.any (direction · == .right)
    (!isJoiner c || afterVirama || (c == '\u200C' && joining before && joining rest)) &&
      joinersStand (c :: before) rest

/-- Whether a label, decoded, is one of a domain name. -/
def isLabel (label : List Char) : Bool :=
  !label.head?.any isMark && joinersStand [] label

/-- Whether a decoded label says what folding would leave as it is, and needed to be encoded. -/
def isEncodable (label : List Char) : Bool :=
  label.any (0x80 ≤ ·.toNat) && label.all fun c => !isRefused c && fold c == [c]

/-- A label of a folded name in its decoded form. -/
def decodeLabel? : List Char → Option (List Char)
  | 'x' :: 'n' :: '-' :: '-' :: encoded => do
    let label ← Punycode.decode? encoded
    if isEncodable label then some label else none
  | label => some label

/-- The folded form of a domain name, if it is one. -/
def folded? (name : List Char) : Option (List Char) := do
  if name.any isRefused then none
  let folded := name.flatMap fold
  let labels ← (cuts (· == '.') folded).mapM decodeLabel?
  let bothWays := labels.flatten.any fun c =>
    direction c == .right || direction c == .arabicDigit
  if labels.all isLabel && (!bothWays || labels.all keepsDirection) then some folded else none

end PeerRelay.Url.Domain
