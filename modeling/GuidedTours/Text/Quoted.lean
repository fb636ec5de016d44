import GuidedTours.Text.Digits
import GuidedTours.Text.Printable

/-!
Quoted texts, as messages show a value that somebody entered. The quotes, the backslash and four
control characters have escapes of their own, every other character that does not show is written
as its code point in braces, and all the rest stands for itself.
-/

set_option autoImplicit false

namespace GuidedTours.Text

def codePoint (c : Char) : List Char :=
  "\\u\x7b".toList ++ (Nat.toDigits 16 c.toNat) ++ ['\x7d']

def quotedChar (c : Char) : List Char :=
  if c = '"' then ['\\', '"']
  else if c = '\\' then ['\\', '\\']
  else if c = '\n' then ['\\', 'n']
  else if c = '\r' then ['\\', 'r']
  else if c = '\t' then ['\\', 't']
  else if c.toNat = 0 then ['\\', '0']
  else if isPrintable c then [c]
  else codePoint c

def quoted (s : String) : String :=
  String.ofList ('"' :: s.toList.flatMap quotedChar ++ ['"'])

end GuidedTours.Text
