import Metrology.Proofs.Binary.Order
import Metrology.Proofs.Scalar.Machine

/-!
# Unpacked words

The library of floating-point numbers unpacks a word before it computes with it.  What is unpacked
is what the word is decoded to, and it is compared as the number that the word stands for.
-/

namespace Metrology.Binary

open Float.Model (Format UnpackedFloat)
open Float.Model.UnpackedFloat (Sign unpack pack unpackSign unpackExponent unpackMantissa)

def signOf (negative : Bool) : Sign := cond negative .negative .positive

def Datum.unpacked : Datum → UnpackedFloat
  | .nan => .notANumber
  | .infinite negative => .infinity (signOf negative)
  | .finite negative m e =>
    if h : 0 < m then .finite (signOf negative) m e h else .zero (signOf negative)

def Layout.ofFormat (spec : Format) : Layout :=
  ⟨spec.mantissaBitsWithoutImplicit, spec.exponentBits⟩

variable {spec : Format}

theorem toNat_unpackMantissa (b : BitVec spec.numBits) :
    (unpackMantissa b).toNat = b.toNat % 2 ^ (Layout.ofFormat spec).fractionBits := by
  have hm := spec.hm
  rw [unpackMantissa, BitVec.toNat_cast, BitVec.extractLsb_toNat, Nat.shiftRight_zero]
  congr 2
  change _ = spec.mantissaBitsWithoutImplicit
  omega

theorem toNat_unpackExponent (b : BitVec spec.numBits) :
    (unpackExponent b).toNat =
      b.toNat / 2 ^ (Layout.ofFormat spec).fractionBits %
        2 ^ (Layout.ofFormat spec).exponentBits := by
  have he := spec.he
  rw [unpackExponent, BitVec.toNat_cast, BitVec.extractLsb_toNat, Nat.shiftRight_eq_div_pow]
  congr 2
  change _ = spec.exponentBits
  omega

theorem ofBitVec_unpackSign (b : BitVec spec.numBits) :
    Sign.ofBitVec (unpackSign b) =
      signOf (b.toNat / (Layout.ofFormat spec).signBit % 2 == 1) := by
  have hsign : (unpackSign b).toNat = b.toNat / (Layout.ofFormat spec).signBit % 2 := by
    rw [unpackSign, BitVec.toNat_cast, BitVec.extractLsb_toNat, Nat.shiftRight_eq_div_pow]
    simp [Layout.signBit, Layout.ofFormat]
  rw [← hsign]
  rcases BitVec.eq_zero_or_eq_one (unpackSign b) with h | h <;> rw [h] <;> rfl

theorem unpack_eq (b : BitVec spec.numBits) :
    unpack spec b = ((Layout.ofFormat spec).decode b.toNat).unpacked := by
  have hm := toNat_unpackMantissa b
  have he := toNat_unpackExponent b
  have hbias : (Layout.ofFormat spec).minExponent =
      1 - spec.exponentBias - spec.mantissaBitsWithoutImplicit := rfl
  have hones : unpackExponent b = -1#_ ↔
      (unpackExponent b).toNat = 2 ^ (Layout.ofFormat spec).exponentBits - 1 := by
    rw [BitVec.neg_one_eq_allOnes, ← BitVec.toNat_inj, BitVec.toNat_allOnes]
    rfl
  have hzero : unpackExponent b = 0#_ ↔ (unpackExponent b).toNat = 0 := by
    rw [← BitVec.toNat_inj, BitVec.toNat_zero]
  have hnone : unpackMantissa b = 0#_ ↔ (unpackMantissa b).toNat = 0 := by
    rw [← BitVec.toNat_inj, BitVec.toNat_zero]
  have himplicit := Machine.toNat_implicit (unpackMantissa b)
  unfold unpack Layout.decode
  dsimp only
  rw [ofBitVec_unpackSign, ← hm, ← he]
  generalize (b.toNat / (Layout.ofFormat spec).signBit % 2 == 1) = negative
  by_cases h : unpackExponent b = -1#_
  · rw [if_pos h, if_pos (hones.1 h)]
    by_cases h' : unpackMantissa b = 0#_
    · rw [if_pos h', if_pos (hnone.1 h')]
      rfl
    · rw [if_neg h', if_neg (mt hnone.2 h')]
      rfl
  · rw [if_neg h, if_neg (mt hones.2 h)]
    by_cases h' : unpackExponent b = 0#_
    · rw [if_pos h', if_pos (hzero.1 h'), Datum.unpacked]
      by_cases h'' : unpackMantissa b = 0#_
      · rw [dif_pos h'', dif_neg (by rw [hnone.1 h'']; exact lt_irrefl 0)]
      · have hpos := Nat.pos_of_ne_zero (mt hnone.2 h'')
        rw [dif_neg h'', dif_pos hpos, hbias, hzero.1 h']
        congr 1
        omega
    · rw [if_neg h', if_neg (mt hzero.2 h'), Datum.unpacked, dif_pos (by positivity), hbias]
      congr 1
      · rw [himplicit, add_comm]
        rfl
      · omega

theorem cmp_coe (x y : ℚ) :
    cmp ((x : WithTop ℚ) : Extended) ((y : WithTop ℚ) : Extended) = cmp x y := by
  rw [WithBot.coe_strictMono.cmp_map_eq, WithTop.coe_strictMono.cmp_map_eq]

theorem cmp_coe_infinite (x : ℚ) (negative : Bool) :
    cmp ((x : WithTop ℚ) : Extended) (cond negative ⊥ ⊤) = cond negative .gt .lt := by
  cases negative with
  | false => exact (WithBot.coe_lt_coe.2 (WithTop.coe_lt_top x)).cmp_eq_lt
  | true => exact (WithBot.bot_lt_coe _).cmp_eq_gt

theorem cmp_infinite_coe (x : ℚ) (negative : Bool) :
    cmp (cond negative ⊥ ⊤) ((x : WithTop ℚ) : Extended) = cond negative .lt .gt := by
  rw [← cmp_swap, cmp_coe_infinite]
  cases negative <;> rfl

variable {f : Layout} {word word' m m' : Nat} {e e' : Int} {negative negative' : Bool}

theorem unpacked_of_pos (h : 0 < m) (negative : Bool) (e : Int) :
    (Datum.finite negative m e).unpacked = .finite (signOf negative) m e h :=
  dif_pos h

theorem unpacked_of_zero (negative : Bool) (e : Int) :
    (Datum.finite negative 0 e).unpacked = .zero (signOf negative) := rfl

theorem signed_zero (negative : Bool) (e : Int) : signed negative ((0 : Nat) * 2 ^ e) = 0 := by
  cases negative <;> simp [signed]

theorem compare_finite (h : f.decode word = .finite negative m e)
    (h' : f.decode word' = .finite negative' m' e') :
    (Datum.finite negative m e).unpacked.compare (Datum.finite negative' m' e').unpacked =
      some (cmp (signed negative (m * 2 ^ e)) (signed negative' (m' * 2 ^ e'))) := by
  have hmagnitude := Layout.cmp_magnitude h h'
  have hpos (h : 0 < m) : (0 : ℚ) < m * 2 ^ e := by positivity
  have hpos' (h : 0 < m') : (0 : ℚ) < m' * 2 ^ e' := by positivity
  rcases Nat.eq_zero_or_pos m with rfl | hm <;> rcases Nat.eq_zero_or_pos m' with rfl | hm'
  · rw [signed_zero, signed_zero, cmp_self_eq_eq]
    rfl
  · rw [unpacked_of_zero, unpacked_of_pos hm', signed_zero]
    cases negative'
    · exact congrArg some (hpos' hm').cmp_eq_lt.symm
    · exact congrArg some (neg_lt_zero.2 (hpos' hm')).cmp_eq_gt.symm
  · rw [unpacked_of_pos hm, unpacked_of_zero, signed_zero]
    cases negative
    · exact congrArg some (hpos hm).cmp_eq_gt.symm
    · exact congrArg some (neg_lt_zero.2 (hpos hm)).cmp_eq_lt.symm
  · rw [unpacked_of_pos hm, unpacked_of_pos hm']
    cases negative <;> cases negative'
    · exact congrArg some hmagnitude.symm
    · exact congrArg some ((neg_lt_zero.2 (hpos' hm')).trans (hpos hm)).cmp_eq_gt.symm
    · exact congrArg some ((neg_lt_zero.2 (hpos hm)).trans (hpos' hm')).cmp_eq_lt.symm
    · have hneg (x y : ℚ) : cmp (-x) (-y) = cmp y x :=
        StrictAnti.cmp_map_eq (fun _ _ => neg_lt_neg) x y
      refine congrArg some ?_
      rw [signed, signed, cond_true, cond_true, hneg, ← cmp_swap, hmagnitude]

theorem unpacked_finite (negative : Bool) (m : Nat) (e : Int) :
    (Datum.finite negative m e).unpacked = .zero (signOf negative) ∨
      ∃ hm, (Datum.finite negative m e).unpacked = .finite (signOf negative) m e hm := by
  rcases Nat.eq_zero_or_pos m with rfl | hm
  · exact .inl rfl
  · exact .inr ⟨hm, unpacked_of_pos hm negative e⟩

/-- Unpacked words are compared as the numbers that they stand for. -/
theorem compare_unpacked (word word' : Nat) :
    (f.decode word).unpacked.compare (f.decode word').unpacked =
      Option.map₂ cmp (f.decode word).extended? (f.decode word').extended? := by
  cases h : f.decode word with
  | nan => cases f.decode word' <;> rfl
  | infinite negative =>
      cases h' : f.decode word' with
      | nan => cases negative <;> rfl
      | infinite negative' => cases negative <;> cases negative' <;> rfl
      | finite negative' m' e' =>
          refine Eq.trans ?_ (congrArg some (cmp_infinite_coe _ negative).symm)
          rcases unpacked_finite negative' m' e' with hu | ⟨hm, hu⟩ <;> rw [hu] <;>
            cases negative <;> rfl
  | finite negative m e =>
      cases h' : f.decode word' with
      | nan =>
          rcases unpacked_finite negative m e with hu | ⟨hm, hu⟩ <;> rw [hu] <;>
            cases negative <;> rfl
      | infinite negative' =>
          refine Eq.trans ?_ (congrArg some (cmp_coe_infinite _ negative').symm)
          rcases unpacked_finite negative m e with hu | ⟨hm, hu⟩ <;> rw [hu] <;>
            cases negative <;> cases negative' <;> rfl
      | finite negative' m' e' =>
          exact (compare_finite h h').trans (congrArg some (cmp_coe _ _).symm)

variable {spec : Format}

theorem unpacked_eq_notANumber_iff {d : Datum} : d.unpacked = .notANumber ↔ d = .nan := by
  cases d with
  | nan => exact iff_of_true rfl rfl
  | infinite negative => exact iff_of_false (by rintro ⟨⟩) (by rintro ⟨⟩)
  | finite negative m e =>
      refine iff_of_false ?_ (by rintro ⟨⟩)
      rcases unpacked_finite negative m e with h | ⟨hm, h⟩ <;> rw [h] <;> rintro ⟨⟩

theorem valid_of_ne_nan {b : BitVec spec.numBits}
    (h : (Layout.ofFormat spec).decode b.toNat ≠ .nan) : spec.Valid b where
  eq_packedNaN hexponent hmantissa := by
    refine absurd (unpacked_eq_notANumber_iff.1 ?_) h
    rw [← unpack_eq, unpack, if_pos hexponent, if_neg hmantissa]

theorem decode_pack_unpack (spec : Format) (he : 1 < spec.exponentBits)
    (hnan : (Layout.ofFormat spec).decode (pack spec .notANumber).toNat = .nan)
    (b : BitVec spec.numBits) :
    (Layout.ofFormat spec).decode (pack spec (unpack spec b)).toNat =
      (Layout.ofFormat spec).decode b.toNat := by
  by_cases h : (Layout.ofFormat spec).decode b.toNat = .nan
  · rw [unpack_eq, h]
    exact hnan
  · rw [Machine.pack_unpack he (valid_of_ne_nan h)]

end Metrology.Binary
