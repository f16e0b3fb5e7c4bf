import PeerRelay.Text.Shown

/-!
# Quoted text for diagnostics

A text as a diagnostic shows it: in double quotes, with an escape for the quote, the backslash,
and every character that cannot be shown as itself.
-/

namespace PeerRelay.Text

/-- The escape of a character by its code point. -/
def codePointEscape (c : Char) : List Char :=
  ['\\', 'u', '\x7b'] ++ Nat.toDigits 16 c.toNat ++ ['\x7d']

/-- A character inside a quoted diagnostic. -/
def diagnosticChar (c : Char) : List Char :=
  match c with
  | '"' => ['\\', '"']
  | '\\' => ['\\', '\\']
  | '\n' => ['\\', 'n']
  | '\r' => ['\\', 'r']
  | '\t' => ['\\', 't']
  | '\x00' => ['\\', '0']
  | c => if isShown c then [c] else codePointEscape c

/-- A text as a diagnostic shows it. -/
def diagnostic (s : String) : String :=
  String.ofList ('"' :: s.toList.flatMap diagnosticChar ++ ['"'])

end PeerRelay.Text
