import Metrology.Decimal.Fixed
import Metrology.Proofs.Decimal.Digits
import Mathlib.Algebra.Order.Field.Rat
import Mathlib.Data.List.DropRight
import Mathlib.Tactic.FieldSimp

/-!
# Reading decimals

A decimal is one or more digits, optionally followed by a point and one or more digits.  Placing the
point in a number divides it by a power of ten.  Trimming keeps the number and leaves no zero at the
end of the fraction and no point at the end of the text.
-/

namespace Metrology.Decimal

def IsDigits (s : List Char) : Prop := s ≠ [] ∧ ∀ c ∈ s, c.isDigit = true

inductive WritesDecimal : ℚ → List Char → Prop
  | whole {w : List Char} (hw : IsDigits w) : WritesDecimal (Nat.ofDigitChars 10 w 0) w
  | pointed {w f : List Char} (hw : IsDigits w) (hf : IsDigits f) :
      WritesDecimal (Nat.ofDigitChars 10 (w ++ f) 0 / 10 ^ f.length) (w ++ '.' :: f)

variable {v : ℚ} {s w f : List Char}

theorem IsDigits.point_not_mem (h : IsDigits s) : '.' ∉ s := by
  intro hmem
  simpa using h.2 _ hmem

theorem IsDigits.read (h : IsDigits s) : readNatural? s = some (Nat.ofDigitChars 10 s 0) :=
  if_pos ⟨h.1, List.all_eq_true.2 h.2⟩

def readDecimal? (s : List Char) : Option ℚ := do
  let whole ← readNatural? (s.takeWhile (· != '.'))
  match s.dropWhile (· != '.') with
  | [] => return whole
  | _ :: fraction => return whole + (← readNatural? fraction) / 10 ^ fraction.length

theorem IsDigits.takeWhile_point (h : IsDigits s) (t : List Char) :
    (s ++ '.' :: t).takeWhile (· != '.') = s := by
  rw [List.takeWhile_append_of_pos]
  · simp
  · intro c hc
    simpa using ne_of_mem_of_not_mem hc h.point_not_mem

theorem IsDigits.dropWhile_point (h : IsDigits s) (t : List Char) :
    (s ++ '.' :: t).dropWhile (· != '.') = '.' :: t := by
  rw [List.dropWhile_append_of_pos]
  · simp
  · intro c hc
    simpa using ne_of_mem_of_not_mem hc h.point_not_mem

theorem ofDigitChars_append_div (w f : List Char) :
    (Nat.ofDigitChars 10 (w ++ f) 0 : ℚ) / 10 ^ f.length =
      Nat.ofDigitChars 10 w 0 + Nat.ofDigitChars 10 f 0 / 10 ^ f.length := by
  rw [Nat.ofDigitChars_append, Nat.ofDigitChars_eq_ofDigitChars_zero]
  push_cast
  field_simp

theorem WritesDecimal.read (h : WritesDecimal v s) : readDecimal? s = some v := by
  cases h with
  | whole hw =>
      have hne : ∀ c ∈ s, (c != '.') = true := by
        intro c hc
        simpa using ne_of_mem_of_not_mem hc hw.point_not_mem
      simp [readDecimal?, List.takeWhile_eq_self_iff.2 hne, List.dropWhile_eq_nil_iff.2 hne,
        hw.read]
  | pointed hw hf =>
      rw [readDecimal?, hw.takeWhile_point, hw.dropWhile_point, hw.read, ofDigitChars_append_div]
      simp [hf.read]

theorem WritesDecimal.mem (h : WritesDecimal v s) {c : Char} (hc : c ∈ s) :
    c = '.' ∨ c.isDigit = true := by
  cases h with
  | whole hw => exact .inr (hw.2 c hc)
  | pointed hw hf =>
      rcases List.mem_append.1 hc with hc | hc
      · exact .inr (hw.2 c hc)
      · rcases List.mem_cons.1 hc with rfl | hc
        · exact .inl rfl
        · exact .inr (hf.2 c hc)

theorem WritesDecimal.ne_nil (h : WritesDecimal v s) : s ≠ [] := by
  cases h with
  | whole hw => exact hw.1
  | pointed hw hf => simp

theorem writesDecimal_placePoint (n places : Nat) :
    WritesDecimal (n / 10 ^ places) (placePoint n places) := by
  unfold placePoint
  dsimp only
  generalize hds : List.replicate (places + 1 - (digits n).length) '0' ++ digits n = ds
  have hlength : places < ds.length := by
    rw [← hds, List.length_append, List.length_replicate]
    omega
  have hdigit : ∀ c ∈ ds, c.isDigit = true := by
    intro c hc
    rw [← hds, List.mem_append, List.mem_replicate] at hc
    rcases hc with ⟨-, rfl⟩ | hc
    · rfl
    · exact isDigit_of_mem_digits hc
  have hvalue : Nat.ofDigitChars 10 ds 0 = n := by
    rw [← hds, Nat.ofDigitChars_append, Nat.ofDigitChars_replicate_zero, Nat.mul_zero]
    exact Nat.ofDigitChars_ten_toDigits
  split
  · rename_i hplaces
    have h := WritesDecimal.whole ⟨List.ne_nil_of_length_pos (by omega), hdigit⟩
    simpa [hvalue, hplaces] using h
  · have hw : IsDigits (ds.take (ds.length - places)) := by
      refine ⟨List.ne_nil_of_length_pos ?_, fun c hc => hdigit c (List.mem_of_mem_take hc)⟩
      rw [List.length_take]
      omega
    have hf : IsDigits (ds.drop (ds.length - places)) := by
      refine ⟨List.ne_nil_of_length_pos ?_, fun c hc => hdigit c (List.mem_of_mem_drop hc)⟩
      rw [List.length_drop]
      omega
    have h := WritesDecimal.pointed hw hf
    have hplaces : ds.length - (ds.length - places) = places := by omega
    rwa [List.take_append_drop, hvalue, List.length_drop, hplaces] at h

theorem writesDecimal_fixed (places num den : Nat) :
    WritesDecimal (Binary.roundHalfEven (num * 10 ^ places) den / 10 ^ places)
      (fixed places num den) :=
  writesDecimal_placePoint _ places

structure IsTrimmed (s : List Char) : Prop where
  no_point : s.getLast? ≠ some '.'
  no_zero : '.' ∈ s → s.getLast? ≠ some '0'

theorem dropTrailing_eq_rdropWhile (c : Char) (s : List Char) :
    dropTrailing c s = s.rdropWhile (· == c) := rfl

theorem IsDigits.getLast?_ne_point (h : IsDigits s) : s.getLast? ≠ some '.' := by
  intro hlast
  exact h.point_not_mem (List.mem_of_getLast? hlast)

theorem dropTrailing_eq_self {c : Char} (h : s.getLast? ≠ some c) : dropTrailing c s = s := by
  rw [dropTrailing_eq_rdropWhile, List.rdropWhile_eq_self_iff]
  intro hne hc
  rw [beq_iff_eq] at hc
  exact h (by rw [List.getLast?_eq_some_getLast hne, hc])

theorem getLast?_dropTrailing_ne (c : Char) (s : List Char) :
    (dropTrailing c s).getLast? ≠ some c := by
  intro hlast
  have hne : dropTrailing c s ≠ [] := by
    intro h
    simp [h] at hlast
  rw [List.getLast?_eq_some_getLast hne, Option.some.injEq] at hlast
  exact List.rdropWhile_last_not (· == c) s hne (beq_iff_eq.2 hlast)

theorem dropTrailing_append_point (w f : List Char) :
    dropTrailing '0' (w ++ '.' :: f) = w ++ '.' :: dropTrailing '0' f := by
  simp only [dropTrailing_eq_rdropWhile]
  induction f using List.reverseRecOn with
  | nil => exact List.rdropWhile_concat_neg _ _ _ (by decide)
  | append_singleton f c ih =>
      rw [← List.cons_append, ← List.append_assoc, List.rdropWhile_concat, List.rdropWhile_concat]
      split
      · exact ih
      · simp

theorem exists_dropTrailing_append (c : Char) (s : List Char) :
    ∃ k, s = dropTrailing c s ++ List.replicate k c := by
  refine ⟨(s.rtakeWhile (· == c)).length, ?_⟩
  have htake : s.rtakeWhile (· == c) = List.replicate (s.rtakeWhile (· == c)).length c := by
    rw [List.eq_replicate_iff]
    exact ⟨rfl, fun d hd => by simpa using List.mem_rtakeWhile_imp hd⟩
  rw [← htake]
  exact List.rdropWhile_append_rtakeWhile.symm

theorem ofDigitChars_append_replicate_div (w f : List Char) (k : Nat) :
    (Nat.ofDigitChars 10 (w ++ (f ++ List.replicate k '0')) 0 : ℚ) /
        10 ^ (f ++ List.replicate k '0').length =
      Nat.ofDigitChars 10 (w ++ f) 0 / 10 ^ f.length := by
  rw [← List.append_assoc, Nat.ofDigitChars_append, Nat.ofDigitChars_replicate_zero,
    List.length_append, List.length_replicate, pow_add]
  push_cast
  field_simp

def joinPoint (w f : List Char) : List Char := if f = [] then w else w ++ '.' :: f

theorem joinPoint_of_ne_nil (hf : f ≠ []) : joinPoint w f = w ++ '.' :: f := if_neg hf

theorem WritesDecimal.exists_parts (h : WritesDecimal v s) :
    ∃ w f, IsDigits w ∧ (∀ c ∈ f, c.isDigit = true) ∧ s = joinPoint w f ∧
      v = Nat.ofDigitChars 10 (w ++ f) 0 / 10 ^ f.length := by
  cases h with
  | whole hw => exact ⟨s, [], hw, by simp, rfl, by simp⟩
  | @pointed w f hw hf => exact ⟨w, f, hw, hf.2, (joinPoint_of_ne_nil hf.1).symm, rfl⟩

theorem writesDecimal_joinPoint (hw : IsDigits w) (hf : ∀ c ∈ f, c.isDigit = true) :
    WritesDecimal (Nat.ofDigitChars 10 (w ++ f) 0 / 10 ^ f.length) (joinPoint w f) := by
  by_cases hnil : f = []
  · subst hnil
    simpa [joinPoint] using WritesDecimal.whole hw
  · rw [joinPoint_of_ne_nil hnil]
    exact .pointed hw ⟨hnil, hf⟩

theorem isTrimmed_joinPoint (hw : IsDigits w) (hf : ∀ c ∈ f, c.isDigit = true)
    (hlast : f.getLast? ≠ some '0') : IsTrimmed (joinPoint w f) := by
  by_cases hnil : f = []
  · subst hnil
    exact ⟨hw.getLast?_ne_point, fun h => absurd h hw.point_not_mem⟩
  · have hgetLast : (joinPoint w f).getLast? = f.getLast? := by
      rw [joinPoint_of_ne_nil hnil, List.getLast?_append_cons, List.getLast?_cons_of_ne_nil hnil]
    refine ⟨?_, fun _ => ?_⟩ <;> rw [hgetLast]
    · exact IsDigits.getLast?_ne_point ⟨hnil, hf⟩
    · exact hlast

/-- Only the fraction is trimmed, and the point goes with its last digit. -/
theorem trimZeros_joinPoint (hw : IsDigits w) (hf : ∀ c ∈ f, c.isDigit = true) :
    trimZeros (joinPoint w f) = joinPoint w (dropTrailing '0' f) := by
  unfold trimZeros
  by_cases hnil : f = []
  · subst hnil
    exact if_neg hw.point_not_mem
  · obtain ⟨k, hk⟩ := exists_dropTrailing_append '0' f
    rw [joinPoint_of_ne_nil hnil, if_pos (by simp), dropTrailing_append_point]
    generalize dropTrailing '0' f = g at hk
    by_cases hg : g = []
    · subst hg
      rw [dropTrailing_eq_rdropWhile, List.rdropWhile_concat_pos _ _ _ (by simp)]
      exact dropTrailing_eq_self hw.getLast?_ne_point
    · have hg' : IsDigits g := ⟨hg, fun c hc => hf c (hk ▸ List.mem_append_left _ hc)⟩
      rw [joinPoint_of_ne_nil hg]
      apply dropTrailing_eq_self
      rw [List.getLast?_append_cons, List.getLast?_cons_of_ne_nil hg]
      exact hg'.getLast?_ne_point

theorem WritesDecimal.trimZeros (h : WritesDecimal v s) :
    WritesDecimal v (trimZeros s) ∧ IsTrimmed (trimZeros s) := by
  obtain ⟨w, f, hw, hf, rfl, rfl⟩ := h.exists_parts
  obtain ⟨k, hk⟩ := exists_dropTrailing_append '0' f
  have hvalue := ofDigitChars_append_replicate_div w (dropTrailing '0' f) k
  have hdigits : ∀ c ∈ dropTrailing '0' f, c.isDigit = true :=
    fun c hc => hf c (hk ▸ List.mem_append_left _ hc)
  rw [← hk] at hvalue
  rw [trimZeros_joinPoint hw hf, hvalue]
  exact ⟨writesDecimal_joinPoint hw hdigits,
    isTrimmed_joinPoint hw hdigits (getLast?_dropTrailing_ne '0' f)⟩

end Metrology.Decimal
