/-!
# Character classes

Classes of code points, given by the lengths of the alternating runs outside and inside the class,
the first of them outside and starting at zero.
-/

namespace Metrology.Text

/-- Membership of the code point `n` in a class, of which `inside` tells whether the next run lies
in it. -/
def inRuns (inside : Bool) : List Nat → Nat → Bool
  | [], _ => false
  | run :: runs, n => if n < run then inside else inRuns (!inside) runs (n - run)

end Metrology.Text
