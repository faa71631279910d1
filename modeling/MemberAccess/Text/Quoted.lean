import MemberAccess.Text.Visible
/-!
# Text — quoted text

Text between double quotes, in which a quote or a backslash is preceded by a
backslash, four controls have a letter of their own, and any other character
that is not visible is written by its code point.
-/

namespace MemberAccess

namespace Text

/-- A code point in braces, in lower-case hexadecimal. -/
def codePoint (c : Char) : List Char :=
  "\\u\x7b".toList ++ Nat.toDigits 16 c.toNat ++ "\x7d".toList

/-- **One character of quoted text.** -/
def escape (c : Char) : List Char :=
  if c = '"' || c = '\\' then ['\\', c]
  else if c = '\x00' then ['\\', '0']
  else if c = '\t' then ['\\', 't']
  else if c = '\n' then ['\\', 'n']
  else if c = '\r' then ['\\', 'r']
  else if isVisible c then [c]
  else codePoint c

/-- Text between double quotes. -/
def quoted (s : String) : String :=
  "\"" ++ String.ofList (s.toList.flatMap escape) ++ "\""

end Text

end MemberAccess
