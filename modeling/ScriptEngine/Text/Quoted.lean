import ScriptEngine.Text.Unprintable

/-!
# Quoted texts

A text for developers stands between quotes.  Quotes and backslashes in it are escaped, and what does
not print is written by name or by number, so that the quoted text is one line of what it shows.
-/

namespace ScriptEngine.Text

/-- The digits of a number in base sixteen. -/
def hexadecimal (n : Nat) : List Char :=
  Nat.toDigits 16 n

/-- One character between quotes. -/
def quoteChar (c : Char) : List Char :=
  if c = '"' then ['\\', '"']
  else if c = '\\' then ['\\', '\\']
  else if c = '\n' then ['\\', 'n']
  else if c = '\r' then ['\\', 'r']
  else if c = '\t' then ['\\', 't']
  else if c = '\x00' then ['\\', '0']
  else if isUnprintable c then ['\\', 'u', '\x7b'] ++ hexadecimal c.toNat ++ ['\x7d']
  else [c]

/-- A text between quotes. -/
def quote (s : String) : String :=
  String.ofList ('"' :: s.toList.flatMap quoteChar ++ ['"'])

example : (quote "a\"\x7f\n").toList = ['"', 'a', '\\', '"', '\\', 'u', '\x7b', '7', 'f', '\x7d',
    '\\', 'n', '"'] := by decide +kernel

end ScriptEngine.Text
