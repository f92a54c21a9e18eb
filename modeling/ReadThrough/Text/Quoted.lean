import ReadThrough.Text.Combining
import ReadThrough.Text.Unprintable

/-!
# Quoted text

The quoted form of a text stands between double quotes and shows every character:
those that would end the quotation, start an escape, or be lost on the reader are
written as escapes, all others stand for themselves.
-/

namespace ReadThrough.Text

/-- A character that a reader would not see by itself. -/
def isHidden (c : Char) : Bool := isUnprintable c || isCombining c

/-- The code point in lower case hexadecimal, without leading zeros. -/
def hexadecimal (c : Char) : List Char := Nat.toDigits 16 c.toNat

/-- How one character stands in a quoted text. -/
def quotedChar (c : Char) : List Char :=
  if c = '"' then ['\\', '"']
  else if c = '\\' then ['\\', '\\']
  else if c = '\n' then ['\\', 'n']
  else if c = '\t' then ['\\', 't']
  else if c = '\r' then ['\\', 'r']
  else if c = '\x00' then ['\\', '0']
  else if isHidden c then '\\' :: 'u' :: '{' :: hexadecimal c ++ ['}']
  else [c]

def quoted (s : String) : String :=
  String.ofList ('"' :: s.toList.flatMap quotedChar ++ ['"'])

end ReadThrough.Text
