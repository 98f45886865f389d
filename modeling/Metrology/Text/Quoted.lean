import Metrology.Text.Printable

/-!
# Quoted text

Text between double quotes.  Quotes, backslashes and the common control characters are written with
a backslash; any other character that does not print on its own is written by its code point in
hexadecimal digits.
-/

namespace Metrology.Text

def escape (c : Char) : List Char :=
  match c with
  | '"' => ['\\', '"']
  | '\\' => ['\\', '\\']
  | '\n' => ['\\', 'n']
  | '\r' => ['\\', 'r']
  | '\t' => ['\\', 't']
  | '\x00' => ['\\', '0']
  | c =>
    if isPrintable c then [c] else ['\\', 'u', '\x7b'] ++ Nat.toDigits 16 c.toNat ++ ['\x7d']

def quoted (s : String) : String := String.ofList ('"' :: s.toList.flatMap escape ++ ['"'])

end Metrology.Text
