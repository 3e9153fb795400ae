import Switchboard.Text.Case
import Switchboard.Text.HiddenTable

/-!
# Quoted text in messages

`quoted` shows a text in double quotes so that a reader can tell every character: the quote and
the backslash are escaped, tab, line feed, carriage return and NUL have letters, and a character
without a shape of its own is written as its code point in braces.
-/

namespace Switchboard.Text

def isHidden (c : Char) : Bool :=
  if c.toNat < 0x7F then c.toNat < 0x20 else inRanges HiddenTable.hidden c

def quotedChar (c : Char) : List Char :=
  if c = '\x00' then ['\\', '0']
  else if c = '\t' then ['\\', 't']
  else if c = '\n' then ['\\', 'n']
  else if c = '\r' then ['\\', 'r']
  else if c = '"' then ['\\', '"']
  else if c = '\\' then ['\\', '\\']
  else if isHidden c then ['\\', 'u', '\x7b'] ++ Nat.toDigits 16 c.toNat ++ ['\x7d']
  else [c]

def quoted (cs : List Char) : List Char := '"' :: cs.flatMap quotedChar ++ ['"']

end Switchboard.Text
