import Metrology.Dimension.Basic
import Metrology.Decimal.Digits

/-!
# Base symbols

A dimension is spelled out in the symbols of the SI base units, one component for each non-zero
exponent, in base order and separated by single spaces: `m+2 kg s-3`.  An exponent of one is left
out, a larger one carries its plus sign.
-/

namespace Metrology.Dimension

open Metrology.Decimal

def labels : List String := ["m", "kg", "s", "A", "K", "mol", "cd"]

def exponentText (e : Int) : List Char :=
  if e = 1 then [] else if 1 < e then '+' :: signedDigits e else signedDigits e

def component (label : String) (e : Int) : List Char := label.toList ++ exponentText e

def components (d : Dimension) : List (List Char) :=
  (labels.zip d.exponents).filterMap fun (label, e) =>
    if e = 0 then none else some (component label e)

def symbol (d : Dimension) : String := String.ofList ([' '].intercalate d.components)

end Metrology.Dimension
