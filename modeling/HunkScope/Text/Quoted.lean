import HunkScope.Text.Printable

/-!
# Quoted texts

A text between double quotes, on one line and in characters that can be seen: quotes, backslashes
and the common control characters are escaped by a letter, and what is not printable or would
combine with the character before it by its code point in hexadecimal. Premise: this is how texts
are shown for debugging (`Debug` of `str`).
-/

namespace HunkScope.Text

/-- The code point of a character in hexadecimal, escaped. -/
def escapeCode (c : Char) : List Char :=
  "\\u\x7b".toList ++ Nat.toDigits 16 c.toNat ++ "\x7d".toList

/-- A character as it stands between quotes. -/
def escape (c : Char) : List Char :=
  if c.toNat = 0 then ['\\', '0']
  else if c = '\t' then ['\\', 't']
  else if c = '\r' then ['\\', 'r']
  else if c = '\n' then ['\\', 'n']
  else if c = '\\' then ['\\', '\\']
  else if c.toNat = 0x22 then ['\\', c]
  else if extendsGrapheme c || !isPrintable c then escapeCode c
  else [c]

/-- A text between double quotes. -/
def quoted (s : String) : String := "\"" ++ String.ofList (s.toList.flatMap escape) ++ "\""

end HunkScope.Text
