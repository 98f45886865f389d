import Metrology.Scalar.Machine
import Metrology.Decimal.Fixed
import Metrology.Decimal.Shortest

/-!
# Number text

Numbers are written with the fewest digits that read back, in positional notation, or with a given
number of places, exactly rounded.  The annotated form keeps a fraction on every number and turns to
scientific notation for very small and very large ones.
-/

namespace Metrology

open Metrology.Binary

open scoped Metrology.Power

namespace Binary

def Datum.text (finite : Nat → Int → List Char) : Datum → String
  | .nan => "NaN"
  | .infinite negative => cond negative "-inf" "inf"
  | .finite negative m e => String.ofList (cond negative ('-' :: finite m e) (finite m e))

end Binary

namespace Machine

open Metrology.Decimal

variable {p : Precision}

def plainText (x : Machine p) : String :=
  (datum x).text fun m e =>
    if m = 0 then ['0'] else (shortest .upward p.layout m e).positional

def fixedText (places : Nat) (x : Machine p) : String :=
  (datum x).text fun m e =>
    let (num, den) := scaled m e
    fixed places num den

/-- Whether a number is non-zero and below `1e-4` or not below `1e16` in magnitude, both bounds
rounded to the precision at hand. -/
def isExtreme (x : Machine p) : Bool :=
  let magnitude := word x % p.layout.signBit
  magnitude ≠ 0 &&
    (magnitude < p.layout.nearest 1 (10 ^ (4 : Nat)) ||
      p.layout.nearest (10 ^ (16 : Nat)) 1 ≤ magnitude)

def annotatedText (x : Machine p) : String :=
  (datum x).text fun m e =>
    if m = 0 then ['0', '.', '0']
    else if isExtreme x then (shortest .upward p.layout m e).scientific
    else (shortest .upward p.layout m e).positionalWithPoint

end Machine

namespace Scalar

def text (s : Scalar Machine) : String := Machine.plainText s.value

end Scalar

end Metrology
