import Reindent.Text.HexEscape
import Reindent.Text.Printable

/-!
Texts shown in quotes, as messages and log lines name them.

The delimiter is an apostrophe, unless the text holds an apostrophe and no double quote.  Between
the delimiters the delimiter itself and the backslash are escaped, tab, newline and carriage return
have their short escapes, and whatever else is not printable is written as a numeric escape.
-/

namespace Reindent.Text

/-- The delimiter that a text is shown with. -/
def delimiter (text : Text) : CodePoint :=
  if text.contains (.ofChar '\'') && !text.contains (.ofChar '"') then
    .ofChar '"'
  else
    .ofChar '\''

/-- One code point as it stands between delimiters. -/
def quotedPoint (delimiter c : CodePoint) : Text :=
  if c = delimiter ∨ c = .ofChar '\\' then [.ofChar '\\', c]
  else if c = .ofChar '\t' then [.ofChar '\\', .ofChar 't']
  else if c = .ofChar '\n' then [.ofChar '\\', .ofChar 'n']
  else if c = .ofChar '\r' then [.ofChar '\\', .ofChar 'r']
  else if c.isPrintable then [c]
  else c.hexEscape

/-- A text as it stands between its delimiters. -/
def quotedBody (text : Text) : Text := text.flatMap (quotedPoint text.delimiter)

/-- A text in quotes. -/
def quoted (text : Text) : Text :=
  text.delimiter :: text.quotedBody ++ [text.delimiter]

end Reindent.Text
