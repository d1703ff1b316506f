/-
OfferAnswer/Text/Quoted.lean

Texts as messages quote them: in single quotes, or in double quotes where the
text holds a single quote and no double one.

Inside, the backslash and the quote in use stand after a backslash, tab, line
feed and carriage return have escapes of their own, and every other
unprintable character is written by its code in two, four or eight
hexadecimal digits, the fewest of these that hold it.
-/
import OfferAnswer.Text.Hex
import OfferAnswer.Text.Unprintable

namespace OfferAnswer.Text

/-- One character inside quotes of the kind `quote`. -/
def quotedChar (quote c : Char) : Text :=
  if c = quote ∨ c = '\\' then ['\\', c]
  else if c = '\t' then ['\\', 't']
  else if c = '\n' then ['\\', 'n']
  else if c = '\r' then ['\\', 'r']
  else if isUnprintable c then
    if c.toNat ≤ 0xFF then '\\' :: 'x' :: hex 2 c.toNat
    else if c.toNat ≤ 0xFFFF then '\\' :: 'u' :: hex 4 c.toNat
    else '\\' :: 'U' :: hex 8 c.toNat
  else [c]

/-- The quote that a text is put into. -/
def quoteFor (t : Text) : Char :=
  if '\'' ∈ t ∧ '"' ∉ t then '"' else '\''

/-- The text in quotes. -/
def quoted (t : Text) : String :=
  let q := quoteFor t
  String.ofList (q :: (t.flatMap (quotedChar q) ++ [q]))

/-- The text in quotes, or the word for no text at all. -/
def quoted? : Option Text → String
  | some t => quoted t
  | none => "None"

example : quoted "it's".toList = "\"it's\"" := by decide +kernel
example : quoted "a'\"\\\u200b".toList = "'a\\'\"\\\\\\u200b'" := by decide +kernel

end OfferAnswer.Text
