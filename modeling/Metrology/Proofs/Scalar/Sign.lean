import Metrology.Proofs.Scalar.Order

/-!
# The sign of machine scalars

Negation flips the sign bit of a word and changes nothing else of it, and the absolute value clears
it. A scalar and its negative thus have one absolute value, in double precision, too, since widening
keeps the sign.
-/

namespace Metrology

open Metrology.Binary

namespace Binary

def Datum.neg : Datum → Datum
  | .nan => .nan
  | .infinite negative => .infinite !negative
  | .finite negative m e => .finite (!negative) m e

@[simp] theorem Datum.neg_neg (d : Datum) : d.neg.neg = d := by
  cases d <;> simp [neg]

theorem Datum.Same.symm {d d' : Datum} (h : d.Same d') : d'.Same d := by
  cases h with
  | nan => exact .nan
  | infinite negative => exact .infinite negative
  | finite hv => exact .finite hv.symm

theorem Datum.Same.neg {d d' : Datum} (h : d.Same d') : d.neg.Same d'.neg := by
  cases h with
  | nan => exact .nan
  | infinite negative => exact .infinite _
  | finite hv => exact .finite hv

namespace Layout

variable {f : Layout} {word : Nat}

theorem decode_add_signBit (h : word < f.signBit) :
    f.decode (word + f.signBit) = (f.decode word).neg := by
  have hunit := Nat.two_pow_pos f.fractionBits
  have hsign : f.signBit = 2 ^ f.fractionBits * 2 ^ f.exponentBits := by rw [signBit, pow_add]
  have hnegative : (word + f.signBit) / f.signBit = 1 := by
    rw [Nat.add_div_right _ (by omega), Nat.div_eq_of_lt h]
  unfold decode
  dsimp only
  rw [hnegative, Nat.div_eq_of_lt h, hsign, Nat.add_mul_mod_self_left,
    Nat.add_mul_div_left _ _ hunit, Nat.add_mod_right]
  split
  · split <;> rfl
  · split <;> rfl

theorem exists_word_neg (h : word < 2 * f.signBit) :
    ∃ word' < 2 * f.signBit, f.decode word' = (f.decode word).neg := by
  rcases Nat.lt_or_ge word f.signBit with hlt | hge
  · exact ⟨word + f.signBit, by omega, decode_add_signBit hlt⟩
  · obtain ⟨rest, rfl⟩ := Nat.exists_eq_add_of_le' hge
    refine ⟨rest, by omega, ?_⟩
    rw [decode_add_signBit (by omega), Datum.neg_neg]

end Layout

end Binary

namespace Machine

variable {p : Precision}

theorem unpacked_neg (d : Datum) : d.neg.unpacked = d.unpacked.neg := by
  cases d with
  | nan => rfl
  | infinite negative => cases negative <;> rfl
  | finite negative m e =>
    rcases Nat.eq_zero_or_pos m with rfl | hm
    · cases negative <;> rfl
    · rw [Datum.neg, unpacked_of_pos hm, unpacked_of_pos hm]
      cases negative <;> rfl

theorem unpacked_neg_abs (d : Datum) : d.neg.unpacked.abs = d.unpacked.abs := by
  rw [unpacked_neg]
  cases d.unpacked <;> rfl

theorem neg_eq (x : Machine p) : Arithmetic.neg x = ofUnpacked p (datum x).neg.unpacked := by
  rw [unpacked_neg]
  cases p with
  | single => exact congrArg (fun u => Float32.ofModel (.pack u.neg)) (unpack_eq _)
  | double => exact congrArg (fun u => Float.ofModel (.pack u.neg)) (unpack_eq _)

theorem abs_eq (x : Machine p) : Arithmetic.abs x = ofUnpacked p (datum x).unpacked.abs := by
  cases p with
  | single => exact congrArg (fun u => Float32.ofModel (.pack u.abs)) (unpack_eq _)
  | double => exact congrArg (fun u => Float.ofModel (.pack u.abs)) (unpack_eq _)

theorem datum_neg (x : Machine p) : datum (Arithmetic.neg x) = (datum x).neg := by
  obtain ⟨w, hw, hdecode⟩ := Layout.exists_word_neg (word_lt x)
  have hneg : Arithmetic.neg x = ofWord p w := by rw [ofWord_eq hw, hdecode, neg_eq, datum]
  rw [hneg, datum_ofWord hw, hdecode, datum]

theorem abs_neg (x : Machine p) : Arithmetic.abs (Arithmetic.neg x) = Arithmetic.abs x := by
  rw [abs_eq, abs_eq, datum_neg, unpacked_neg_abs]

theorem widen_neg (x : Machine .single) :
    (Arithmetic.widen (Arithmetic.neg x) : Machine .double) =
      Arithmetic.neg (Arithmetic.widen x) := by
  have hsame : (datum (Arithmetic.neg (Arithmetic.widen x) : Machine .double)).Same
      (datum (Arithmetic.neg x)) := by
    rw [datum_neg, datum_neg]
    exact (same_datum_widen x).symm.neg
  exact ofDatum_of_same hsame

theorem toDouble_neg (x : Machine p) :
    Arithmetic.toDouble (Arithmetic.neg x) = Arithmetic.neg (Arithmetic.toDouble x) := by
  cases p with
  | single => exact widen_neg x
  | double => rfl

theorem extended?_zero : (Arithmetic.zero : Machine p).extended? = some 0 := by
  have hzero : (Arithmetic.zero : Machine p) = ofWord p 0 := by cases p <;> decide
  have hdatum : datum (ofWord p 0) = .finite false 0 p.layout.minExponent :=
    (datum_ofWord (by cases p <;> decide)).trans (by cases p <;> decide)
  rw [hzero, extended?, hdatum, Datum.extended?, signed_zero]
  rfl

theorem cmp_extended?_neg (d : Datum) :
    Option.map₂ cmp d.neg.extended? (some 0) =
      (Option.map₂ cmp d.extended? (some 0)).map Ordering.swap := by
  cases d with
  | nan => rfl
  | infinite negative => cases negative <;> rfl
  | finite negative m e =>
      have hneg : signed (!negative) (m * 2 ^ e) = -signed negative (m * 2 ^ e) := by
        cases negative <;> simp [signed]
      have hcmp (x : ℚ) : cmp ((x : WithTop ℚ) : Extended) 0 = cmp x 0 := cmp_coe x 0
      simp only [Datum.neg, Datum.extended?, hneg, Option.map₂_some_some, hcmp, Option.map_some]
      rcases lt_trichotomy (signed negative (m * 2 ^ e)) 0 with h | h | h
      · rw [h.cmp_eq_lt, (neg_pos.2 h).cmp_eq_gt]
        rfl
      · simp [h]
      · rw [h.cmp_eq_gt, (neg_lt_zero.2 h).cmp_eq_lt]
        rfl

theorem compare?_neg_zero (x : Machine p) :
    Arithmetic.compare? (Arithmetic.neg x) Arithmetic.zero =
      (Arithmetic.compare? x Arithmetic.zero).map Ordering.swap := by
  rw [compare?_eq, compare?_eq, extended?_zero, extended?, datum_neg]
  exact cmp_extended?_neg (datum x)

theorem isFinite_neg (x : Machine p) : isFinite (Arithmetic.neg x) = isFinite x := by
  rw [isFinite, isFinite, datum_neg]
  cases datum x <;> rfl

end Machine

end Metrology
