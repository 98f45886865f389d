import Metrology.Declaration.Token

/-!
# Fronts of token lists

What a reader looks at first: a word, or the character of a mark.
-/

namespace Metrology.Declaration

def startsIdentifier : List Token → Bool
  | .identifier _ :: _ => true
  | _ => false

def startsWith (c : Char) : List Token → Bool
  | .punctuation d _ :: _ => d == c
  | _ => false

variable {c : Char} {ts us : List Token}

theorem eq_of_startsIdentifier (h : startsIdentifier ts = true) :
    ∃ name r, ts = .identifier name :: r := by
  unfold startsIdentifier at h
  split at h
  · simp
  · cases h

theorem eq_of_startsWith (h : startsWith c ts = true) :
    ∃ joint r, ts = .punctuation c joint :: r := by
  unfold startsWith at h
  split at h
  · simp_all
  · cases h

theorem startsWith_of_startsIdentifier (h : startsIdentifier ts = true) :
    startsWith c ts = false := by
  obtain ⟨name, r, rfl⟩ := eq_of_startsIdentifier h
  rfl

theorem startsIdentifier_append (h : ts ≠ []) :
    startsIdentifier (ts ++ us) = startsIdentifier ts := by
  obtain ⟨t, ts, rfl⟩ := List.exists_cons_of_ne_nil h
  cases t <;> rfl

theorem startsWith_append (h : ts ≠ []) : startsWith c (ts ++ us) = startsWith c ts := by
  obtain ⟨t, ts, rfl⟩ := List.exists_cons_of_ne_nil h
  cases t <;> rfl

end Metrology.Declaration
