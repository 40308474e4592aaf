import BetaNormal.Text.Printable

/-!
# Quoted text

A text as it is shown in a message about a value: between quotes, on one line, with every
character that does not print written as an escape.  Single quotes are preferred; a text that
holds single quotes and no double quote stands between double quotes.
-/

namespace BetaNormal.Text

/-- The escape of a character by its number, as short as the number allows. -/
def numericEscape (char : Char) : Text :=
  if char.toNat < 0x100 then '\\' :: 'x' :: hexadecimal 2 char.toNat
  else if char.toNat < 0x10000 then '\\' :: 'u' :: hexadecimal 4 char.toNat
  else '\\' :: 'U' :: hexadecimal 8 char.toNat

/-- One character between the given quotes.  The characters of a class stand as they are. -/
def escaped (plain : Char → Bool) (quote char : Char) : Text :=
  if char = quote ∨ char = '\\' then ['\\', char]
  else if char = '\n' then ['\\', 'n']
  else if char = '\r' then ['\\', 'r']
  else if char = '\t' then ['\\', 't']
  else if plain char then [char]
  else numericEscape char

def quoteFor (text : Text) : Char := if '\'' ∈ text ∧ '"' ∉ text then '"' else '\''

def quotedWhere (plain : Char → Bool) (text : Text) : Text :=
  let quote := text.quoteFor
  quote :: text.flatMap (escaped plain quote) ++ [quote]

def quoted (text : Text) : Text := quotedWhere isPrintable text

def quotedAscii (text : Text) : Text := quotedWhere isPrintableAscii text

end BetaNormal.Text
