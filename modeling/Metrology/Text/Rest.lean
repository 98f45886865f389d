/-!
# Rests of a text

A scanner takes something off the front of a text and returns what is left, together with the bound
on its length that lets the next scanner recurse on it.
-/

namespace Metrology.Text

abbrev Rest (s : List Char) := { r : List Char // r.length ≤ s.length }

abbrev ShorterRest (s : List Char) := { r : List Char // r.length < s.length }

variable {c : Char} {s : List Char}

def Rest.all (s : List Char) : Rest s := ⟨s, Nat.le_refl _⟩

def Rest.behind (r : Rest s) : Rest (c :: s) := ⟨r.1, Nat.le_succ_of_le r.2⟩

def Rest.shorter (r : Rest s) : ShorterRest (c :: s) := ⟨r.1, Nat.lt_succ_of_le r.2⟩

def Rest.trans {r : Rest s} (q : Rest r.1) : Rest s := ⟨q.1, Nat.le_trans q.2 r.2⟩

def Rest.drop (n : Nat) (s : List Char) : Rest s := ⟨s.drop n, by simp⟩

theorem length_dropWhile_le (p : Char → Bool) (s : List Char) :
    (s.dropWhile p).length ≤ s.length :=
  (List.dropWhile_suffix p).length_le

def skip (p : Char → Bool) (s : List Char) : Rest s := ⟨s.dropWhile p, length_dropWhile_le p s⟩

def run (p : Char → Bool) (s : List Char) : List Char × Rest s := (s.takeWhile p, skip p s)

def hexValue? (c : Char) : Option Nat :=
  if '0' ≤ c && c ≤ '9' then some (c.toNat - '0'.toNat)
  else if 'a' ≤ c && c ≤ 'f' then some (c.toNat - 'a'.toNat + 10)
  else if 'A' ≤ c && c ≤ 'F' then some (c.toNat - 'A'.toNat + 10)
  else none

end Metrology.Text
