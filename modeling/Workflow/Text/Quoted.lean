/-
This file writes texts in quotes for messages. Quote and backslash are
backslashed, a few controls have a letter, and every other character that is not
visible is named by its code point.
-/

import Workflow.Text.Hex
import Workflow.Text.Visible

namespace Workflow.Text

/-- A character named by its code point. -/
def codePointForm (c : Char) : List Char :=
  ['\\', 'u', '\x7b'] ++ hexDigits c.toNat ++ ['\x7d']

/-- A character as it stands in a quoted text. -/
def quotedForm (c : Char) : List Char :=
  if c = '"' then ['\\', '"']
  else if c = '\\' then ['\\', '\\']
  else if c = '\n' then ['\\', 'n']
  else if c = '\r' then ['\\', 'r']
  else if c = '\t' then ['\\', 't']
  else if c = '\x00' then ['\\', '0']
  else if isVisible c then [c]
  else codePointForm c

/-- The text in double quotes. -/
def quoted (text : String) : String :=
  String.ofList ('"' :: text.toList.flatMap quotedForm ++ ['"'])

end Workflow.Text
