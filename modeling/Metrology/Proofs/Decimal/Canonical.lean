import Metrology.Proofs.Decimal.Fixed
import Mathlib.Tactic.NormNum

/-!
# Trimmed decimals are canonical

Two decimals that denote one number have the same digits, but for zeros at the end of a fraction and
in front of a whole part.  Trimming drops the former, so that decimals whose whole parts are written
alike denote one number exactly when they are trimmed to one text.
-/

namespace Metrology.Decimal

variable {u v : ℚ} {s t w w' f f' : List Char}

theorem digit_bounds {c : Char} (hc : c.isDigit = true) :
    '0'.toNat ≤ c.toNat ∧ c.toNat < '0'.toNat + 10 := by
  obtain ⟨hle, hge⟩ := Char.isDigit_iff_toNat.1 hc
  exact ⟨hle, Nat.lt_succ_of_le hge⟩

theorem isDigit_of_mem_replicate {k : Nat} {c : Char} (hc : c ∈ List.replicate k '0') :
    c.isDigit = true := by
  rw [List.eq_of_mem_replicate hc]
  rfl

theorem ofDigitChars_concat (s : List Char) (c : Char) :
    Nat.ofDigitChars 10 (s ++ [c]) 0 = 10 * Nat.ofDigitChars 10 s 0 + (c.toNat - '0'.toNat) := by
  rw [Nat.ofDigitChars_append, Nat.ofDigitChars_cons, Nat.ofDigitChars_nil]

theorem ofDigitChars_replicate_append (k : Nat) (s : List Char) :
    Nat.ofDigitChars 10 (List.replicate k '0' ++ s) 0 = Nat.ofDigitChars 10 s 0 := by
  rw [Nat.ofDigitChars_append, Nat.ofDigitChars_replicate_zero, Nat.mul_zero]

theorem eq_of_ofDigitChars_eq (hs : ∀ c ∈ s, c.isDigit = true) (ht : ∀ c ∈ t, c.isDigit = true)
    (hlength : s.length = t.length)
    (hvalue : Nat.ofDigitChars 10 s 0 = Nat.ofDigitChars 10 t 0) : s = t := by
  induction s using List.reverseRecOn generalizing t with
  | nil => exact (List.length_eq_zero_iff.1 hlength.symm).symm
  | append_singleton s c ih =>
      rcases List.eq_nil_or_concat' t with rfl | ⟨t, d, rfl⟩
      · simp at hlength
      · simp only [List.forall_mem_append, List.forall_mem_singleton] at hs ht
        rw [ofDigitChars_concat, ofDigitChars_concat] at hvalue
        have hc := digit_bounds hs.2
        have hd := digit_bounds ht.2
        have hlast : c = d := Char.toNat_inj.1 (by omega)
        rw [hlast, ih hs.1 ht.1 (by simpa using hlength) (by omega)]

theorem dropTrailing_append_replicate (s : List Char) (k : Nat) (c : Char) :
    dropTrailing c (s ++ List.replicate k c) = dropTrailing c s := by
  rw [dropTrailing, List.reverse_append, List.reverse_replicate,
    List.dropWhile_append_of_pos fun d hd => beq_iff_eq.2 (List.eq_of_mem_replicate hd),
    dropTrailing]

theorem parts_of_value_eq (hw : ∀ c ∈ w, c.isDigit = true) (hf : ∀ c ∈ f, c.isDigit = true)
    (hw' : ∀ c ∈ w', c.isDigit = true) (hf' : ∀ c ∈ f', c.isDigit = true)
    (hle : w.length ≤ w'.length)
    (h : (Nat.ofDigitChars 10 (w ++ f) 0 : ℚ) / 10 ^ f.length =
      Nat.ofDigitChars 10 (w' ++ f') 0 / 10 ^ f'.length) :
    List.replicate (w'.length - w.length) '0' ++ w = w' ∧
      dropTrailing '0' f = dropTrailing '0' f' := by
  have hfront : ∀ c ∈ List.replicate (w'.length - w.length) '0' ++
      (w ++ (f ++ List.replicate f'.length '0')), c.isDigit = true := by
    simp only [List.forall_mem_append]
    exact ⟨fun _ => isDigit_of_mem_replicate, hw, hf, fun _ => isDigit_of_mem_replicate⟩
  have hback : ∀ c ∈ w' ++ (f' ++ List.replicate f.length '0'), c.isDigit = true := by
    simp only [List.forall_mem_append]
    exact ⟨hw', hf', fun _ => isDigit_of_mem_replicate⟩
  rw [← ofDigitChars_append_replicate_div w f f'.length,
    ← ofDigitChars_append_replicate_div w' f' f.length, List.length_append, List.length_append,
    List.length_replicate, List.length_replicate, Nat.add_comm f'.length,
    div_left_inj' (pow_ne_zero _ (by norm_num)), Nat.cast_inj,
    ← ofDigitChars_replicate_append (w'.length - w.length)] at h
  have hdigits := eq_of_ofDigitChars_eq hfront hback (by simp; omega) h
  rw [← List.append_assoc] at hdigits
  obtain ⟨hwhole, hfraction⟩ := List.append_inj' hdigits (by simp [Nat.add_comm])
  refine ⟨hwhole, ?_⟩
  rw [← dropTrailing_append_replicate f f'.length, hfraction, dropTrailing_append_replicate]

def whole (s : List Char) : List Char := s.takeWhile (· != '.')

theorem whole_joinPoint (hw : IsDigits w) (f : List Char) : whole (joinPoint w f) = w := by
  have htake := hw.takeWhile_point f
  by_cases hf : f = []
  · subst hf
    rw [whole, joinPoint, if_pos rfl, List.takeWhile_eq_self_iff]
    intro c hc
    simpa using ne_of_mem_of_not_mem hc hw.point_not_mem
  · rw [joinPoint_of_ne_nil hf]
    exact htake

theorem eq_of_replicate_append {k n : Nat} (hw : IsDigits w) (h : List.replicate k '0' ++ w = w')
    (hw' : IsNumeral n w') : w = w' := by
  cases k with
  | zero => exact h
  | succ k =>
      have hzero : w' = ['0'] := hw'.leading (by rw [← h]; rfl)
      have hlength := congrArg List.length (h.trans hzero)
      have := List.length_pos_iff.2 hw.1
      simp at hlength
      omega

/-- The whole parts of two decimals are written alike if they are the same text, or both without
superfluous zeros in front. -/
def WrittenAlike (s t : List Char) : Prop :=
  whole s = whole t ∨ ∃ m n, IsNumeral m (whole s) ∧ IsNumeral n (whole t)

theorem WrittenAlike.symm (h : WrittenAlike s t) : WrittenAlike t s := by
  rcases h with h | ⟨m, n, hm, hn⟩
  · exact .inl h.symm
  · exact .inr ⟨n, m, hn, hm⟩

theorem trimZeros_eq_of_same_value (h : WritesDecimal v s) (h' : WritesDecimal v t)
    (halike : WrittenAlike s t) : trimZeros s = trimZeros t := by
  wlog hle : (whole s).length ≤ (whole t).length generalizing s t
  · exact (this h' h halike.symm (Nat.le_of_not_le hle)).symm
  obtain ⟨w, f, hw, hf, rfl, hv⟩ := h.exists_parts
  obtain ⟨w', f', hw', hf', rfl, hv'⟩ := h'.exists_parts
  rw [WrittenAlike, whole_joinPoint hw, whole_joinPoint hw'] at halike
  rw [whole_joinPoint hw, whole_joinPoint hw'] at hle
  obtain ⟨hwhole, hfraction⟩ := parts_of_value_eq hw.2 hf hw'.2 hf' hle (hv.symm.trans hv')
  have heq : w = w' := by
    rcases halike with heq | ⟨m, n, -, hn⟩
    · exact heq
    · exact eq_of_replicate_append hw hwhole hn
  rw [trimZeros_joinPoint hw hf, trimZeros_joinPoint hw' hf', heq, hfraction]

theorem IsTrimmed.trimZeros_eq (h : IsTrimmed s) : trimZeros s = s := by
  unfold trimZeros
  split
  · rename_i hpoint
    rw [dropTrailing_eq_self (h.no_zero hpoint), dropTrailing_eq_self h.no_point]
  · rfl

/-- Trimming keeps the number of a decimal and leaves nothing to trim.  It does not change a text
without a point, or one that is trimmed.  Decimals whose whole parts are written alike denote one
number exactly when they are trimmed to one text. -/
theorem trimZeros_canonical (h : WritesDecimal v s) :
    WritesDecimal v (trimZeros s) ∧ IsTrimmed (trimZeros s) ∧ ('.' ∉ s → trimZeros s = s) ∧
      trimZeros (trimZeros s) = trimZeros s ∧
      ∀ u t, WritesDecimal u t → WrittenAlike s t → (u = v ↔ trimZeros s = trimZeros t) := by
  obtain ⟨hwrites, htrimmed⟩ := h.trimZeros
  refine ⟨hwrites, htrimmed, fun hpoint => if_neg hpoint, htrimmed.trimZeros_eq,
    fun u t ht halike => ⟨?_, fun heq => ?_⟩⟩
  · rintro rfl
    exact trimZeros_eq_of_same_value h ht halike
  · have hread := ht.trimZeros.1.read
    rw [← heq, hwrites.read] at hread
    exact (Option.some.inj hread).symm

/-- The zeros of the whole part stay, in front of the point and without one. -/
theorem trimZeros_canonical_hundred :
    WritesDecimal 100 "100.00".toList ∧ WritesDecimal 100 (trimZeros "100.00".toList) ∧
      IsTrimmed (trimZeros "100.00".toList) ∧
      ('.' ∉ "100.00".toList → trimZeros "100.00".toList = "100.00".toList) ∧
      trimZeros (trimZeros "100.00".toList) = trimZeros "100.00".toList ∧
      ∀ u t, WritesDecimal u t → WrittenAlike "100.00".toList t →
        (u = 100 ↔ trimZeros "100.00".toList = trimZeros t) := by
  have hwhole : IsDigits "100".toList := ⟨by decide, List.all_eq_true.1 (by decide)⟩
  have hfraction : IsDigits "00".toList := ⟨by decide, List.all_eq_true.1 (by decide)⟩
  have hnumber : Nat.ofDigitChars 10 ("100".toList ++ "00".toList) 0 = 10000 := by decide
  have hplaces : "00".toList.length = 2 := by decide
  have hvalue : ((10000 : Nat) : ℚ) / 10 ^ 2 = 100 := by norm_num
  have hundred : WritesDecimal 100 "100.00".toList := by
    have h := WritesDecimal.pointed hwhole hfraction
    rwa [hnumber, hplaces, hvalue] at h
  exact ⟨hundred, trimZeros_canonical hundred⟩

example : trimZeros "100.00".toList = "100".toList := by decide

end Metrology.Decimal
