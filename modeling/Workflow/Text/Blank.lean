/-
This file holds blank characters and the removal of blanks around a text.

A blank is a character of the Unicode property White_Space, so the no-break space
and the ideographic space are blanks while the zero-width space is not.
-/

import Workflow.Text.Size

namespace Workflow.Text

/-- A white-space character. -/
def isBlank (c : Char) : Bool :=
  let code := c.toNat
  (9 ≤ code && code ≤ 13) || code == 0x20 || code == 0x85 || code == 0xa0 || code == 0x1680 ||
    (0x2000 ≤ code && code ≤ 0x200a) || code == 0x2028 || code == 0x2029 || code == 0x202f ||
    code == 0x205f || code == 0x3000

/-- The text without its leading blanks. -/
def trimStart (text : List Char) : List Char := text.dropWhile isBlank

/-- The text without its trailing blanks. -/
def trimEnd (text : List Char) : List Char := (text.reverse.dropWhile isBlank).reverse

/-- The text without the blanks around it. -/
def trim (text : List Char) : List Char := trimEnd (trimStart text)

/-- How far a line is indented: the size of its leading blanks when encoded in bytes, so a tab
and a space count one each. -/
def indentOf (line : List Char) : Nat := byteSize (line.takeWhile isBlank)

end Workflow.Text
