/-!
# Blank characters

The characters with the Unicode property `White_Space`, and the removal of blank margins.
Unlike the classes of `Char`, the property reaches beyond ASCII: the no-break space and the
ideographic space are blank, the zero-width space is not.
-/

namespace PeerRelay.Text

/-- A character with the Unicode property `White_Space`. -/
def isBlank (c : Char) : Bool :=
  let n := c.toNat
  (9 ≤ n && n ≤ 13) || n == 0x20 || n == 0x85 || n == 0xA0 || n == 0x1680 ||
    (0x2000 ≤ n && n ≤ 0x200A) || n == 0x2028 || n == 0x2029 || n == 0x202F || n == 0x205F ||
    n == 0x3000

/-- A text without its leading blank characters. -/
def dropBlank (cs : List Char) : List Char :=
  cs.dropWhile isBlank

/-- A text without its leading and trailing blank characters. -/
def trimBlank (s : String) : String :=
  String.ofList (dropBlank (dropBlank s.toList).reverse).reverse

/-- The lower-case form of the ASCII letters; every other character stays. -/
def lowerAscii (s : String) : String :=
  s.map Char.toLower

end PeerRelay.Text
