/-!
# White space

The characters with the Unicode property `White_Space`, and the three ways in which the engine cuts
a text at them.  Texts are handled as lists of characters, so that the cuts are the list operations
`dropWhile` and `takeWhile`.
-/

namespace ScriptEngine.Text

/-- A character is blank when it has the Unicode property `White_Space`. -/
def isBlank (c : Char) : Bool :=
  let n := c.toNat
  (0x9 ≤ n && n ≤ 0xD) || n == 0x20 || n == 0x85 || n == 0xA0 || n == 0x1680 ||
    (0x2000 ≤ n && n ≤ 0x200A) || n == 0x2028 || n == 0x2029 || n == 0x202F || n == 0x205F ||
    n == 0x3000

/-- Drop the blanks in front of a text. -/
def trimStart (cs : List Char) : List Char :=
  cs.dropWhile isBlank

/-- Drop the blanks behind a text. -/
def trimEnd (cs : List Char) : List Char :=
  (cs.reverse.dropWhile isBlank).reverse

/-- Drop the blanks on both sides of a text. -/
def trim (cs : List Char) : List Char :=
  trimEnd (trimStart cs)

/-- The text behind the first blank, if there is one. -/
def afterBlank? (cs : List Char) : Option (List Char) :=
  match cs.dropWhile (fun c => !isBlank c) with
  | [] => none
  | _ :: rest => some rest

example : trim " \u00a0a b\u3000\n".toList = "a b".toList := by decide +kernel

end ScriptEngine.Text
