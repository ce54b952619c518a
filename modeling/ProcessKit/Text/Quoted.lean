/-
# Texts quoted in messages

A text inside a message stands in double quotes, with a backslash before a quote or a backslash,
short escapes for tab, line feed, carriage return and NUL, and the code point of anything else that
would not show by itself.
-/

import ProcessKit.Text.Hidden

namespace ProcessKit
namespace Quoted

/-- One character between the quotes. -/
def escapeChar (c : Char) : List Char :=
  if c = '"' then ['\\', '"']
  else if c = '\\' then ['\\', '\\']
  else if c = '\t' then ['\\', 't']
  else if c = '\n' then ['\\', 'n']
  else if c = '\r' then ['\\', 'r']
  else if c = '\x00' then ['\\', '0']
  else if shows c then [c]
  else '\\' :: 'u' :: '\x7b' :: Nat.toDigits 16 c.toNat ++ ['\x7d']

/-- A text in double quotes. -/
def quote (text : String) : String :=
  String.ofList ('"' :: text.toList.flatMap escapeChar ++ ['"'])

end Quoted
end ProcessKit
