import GoLayout.Text.Basic
import GoLayout.Text.Printable

/-! # Quoted text

    How messages show a piece of text: between single quotes, or between double quotes
    where the text holds a single quote and no double one, with escapes for the backslash,
    the delimiter and every unprintable character. -/

namespace GoLayout.Text

/-- A code point as a fixed number of hexadecimal digits. -/
def hexPlaces (width n : Nat) : Text := padLeft width '0' (Nat.toDigits 16 n)

/-- A character as it stands between the given quotes. -/
def quoteChar (delimiter c : Char) : Text :=
  if c = delimiter || c = '\\' then ['\\', c]
  else if c = '\n' then ['\\', 'n']
  else if c = '\r' then ['\\', 'r']
  else if c = '\t' then ['\\', 't']
  else if isPrintable c then [c]
  else if c.toNat < 0x100 then '\\' :: 'x' :: hexPlaces 2 c.toNat
  else if c.toNat < 0x10000 then '\\' :: 'u' :: hexPlaces 4 c.toNat
  else '\\' :: 'U' :: hexPlaces 8 c.toNat

/-- The quote that encloses a text. -/
def delimiterFor (t : Text) : Char :=
  if t.contains '\'' && !t.contains '"' then '"' else '\''

/-- The text between quotes. -/
def quoted (t : Text) : Text :=
  delimiterFor t :: t.flatMap (quoteChar (delimiterFor t)) ++ [delimiterFor t]

end GoLayout.Text
