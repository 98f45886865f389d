import Metrology.Scalar.Machine
import Mathlib

/-!
# Words of machine scalars

A machine scalar is known by its word: taking the word and reading it again gives the scalar back,
not-a-numbers included, because only one word of a not-a-number is ever kept.
-/

namespace Metrology.Machine

open Float.Model (Format)
open Float.Model.UnpackedFloat

variable {spec : Format} {b : BitVec spec.numBits}

theorem toBitVec_ofBitVec (v : BitVec 1) : (Sign.ofBitVec v).toBitVec = v := by
  revert v
  decide

theorem packComponents_unpack (b : BitVec spec.numBits) :
    packComponents spec (.ofBitVec (unpackSign b)) (unpackExponent b) (unpackMantissa b) = b := by
  have hm := spec.hm
  have he := spec.he
  rw [packComponents, toBitVec_ofBitVec]
  ext i hi
  simp only [unpackSign, unpackExponent, unpackMantissa, BitVec.getElem_append, BitVec.getElem_cast,
    BitVec.extractLsb, BitVec.getElem_extractLsb']
  split
  · simp [BitVec.getLsbD_eq_getElem hi]
  · split
    · have hi' : spec.mantissaBitsWithoutImplicit + (i - spec.mantissaBitsWithoutImplicit) = i := by
        omega
      rw [hi', BitVec.getLsbD_eq_getElem hi]
    · have hi' : spec.mantissaBitsWithoutImplicit + spec.exponentBits +
          (i - spec.mantissaBitsWithoutImplicit - spec.exponentBits) = i := by
        omega
      rw [hi', BitVec.getLsbD_eq_getElem hi]

theorem toNat_implicit {w : Nat} (x : BitVec w) : (1#1 ++ x).toNat = 2 ^ w + x.toNat := by
  rw [BitVec.toNat_append, ← Nat.shiftLeft_add_eq_or_of_lt x.isLt, Nat.shiftLeft_eq]
  simp

theorem log2_implicit {w : Nat} (x : BitVec w) : (1#1 ++ x).toNat.log2 = w := by
  have hx := x.isLt
  rw [toNat_implicit, Nat.log2_eq_iff (by omega), Nat.pow_succ]
  omega

theorem ofNat_implicit {w : Nat} (x : BitVec w) : BitVec.ofNat w (1#1 ++ x).toNat = x := by
  apply BitVec.eq_of_toNat_eq
  rw [BitVec.toNat_ofNat, toNat_implicit, Nat.add_mod_left, Nat.mod_eq_of_lt x.isLt]

variable {s : Sign} {m biased : Nat} {e : Int} {hm : 0 < m}

theorem pack_subnormal (hexponent : 1 < spec.exponentBits)
    (he : e = 1 - (spec.exponentBias + spec.mantissaBitsWithoutImplicit))
    (hlt : m < 2 ^ spec.mantissaBitsWithoutImplicit) :
    pack spec (.finite s m e hm) = packComponents spec s 0#_ (BitVec.ofNat _ m) := by
  have hlog : m.log2 < spec.mantissaBitsWithoutImplicit := (Nat.log2_lt hm.ne').2 hlt
  have hbiased : (e + spec.exponentBias + spec.mantissaBitsWithoutImplicit).toNat = 1 := by omega
  have hbits : 2 ^ 2 ≤ 2 ^ spec.exponentBits := Nat.pow_le_pow_right (by decide) hexponent
  unfold pack
  dsimp only
  rw [hbiased, if_neg (by omega), if_neg (by unfold Format.mantissaBits; omega)]

theorem pack_normal (he : e = biased - (spec.exponentBias + spec.mantissaBitsWithoutImplicit))
    (hlt : biased + 1 < 2 ^ spec.exponentBits) (hlog : m.log2 = spec.mantissaBitsWithoutImplicit) :
    pack spec (.finite s m e hm) =
      packComponents spec s (BitVec.ofNat _ biased) (BitVec.ofNat _ m) := by
  have hbiased : (e + spec.exponentBias + spec.mantissaBitsWithoutImplicit).toNat = biased := by
    omega
  unfold pack
  dsimp only
  rw [hbiased, if_neg (by omega), if_pos (by unfold Format.mantissaBits; omega)]

theorem packComponents_fields {exponent : BitVec spec.exponentBits}
    {mantissa : BitVec spec.mantissaBitsWithoutImplicit} (he : unpackExponent b = exponent)
    (hm : unpackMantissa b = mantissa) :
    packComponents spec (.ofBitVec (unpackSign b)) exponent mantissa = b := by
  rw [← he, ← hm, packComponents_unpack]

theorem pack_unpack_special (hb : spec.Valid b) (he : unpackExponent b = -1#_) :
    pack spec (unpack spec b) = b := by
  rw [unpack, if_pos he]
  by_cases hm : unpackMantissa b = 0#_
  · rw [if_pos hm]
    exact packComponents_fields he hm
  · rw [if_neg hm]
    exact (hb.eq_packedNaN he hm).symm

theorem pack_unpack_subnormal (hexponent : 1 < spec.exponentBits) (hne : unpackExponent b ≠ -1#_)
    (he : unpackExponent b = 0#_) : pack spec (unpack spec b) = b := by
  have hzero : (unpackExponent b).toNat = 0 := by rw [he, BitVec.toNat_zero]
  rw [unpack, if_neg hne, if_pos he]
  by_cases hm : unpackMantissa b = 0#_
  · rw [dif_pos hm]
    exact packComponents_fields he hm
  · rw [dif_neg hm, pack_subnormal hexponent (by omega) (unpackMantissa b).isLt, BitVec.ofNat_toNat,
      BitVec.setWidth_eq]
    exact packComponents_fields he rfl

theorem pack_unpack_normal (hones : unpackExponent b ≠ -1#_) (hzero : unpackExponent b ≠ 0#_) :
    pack spec (unpack spec b) = b := by
  have hne : (unpackExponent b).toNat ≠ 2 ^ spec.exponentBits - 1 := by
    rw [BitVec.neg_one_eq_allOnes] at hones
    exact fun h => hones (BitVec.eq_of_toNat_eq (h.trans BitVec.toNat_allOnes.symm))
  have hlt : (unpackExponent b).toNat + 1 < 2 ^ spec.exponentBits := by
    have := (unpackExponent b).isLt
    omega
  rw [unpack, if_neg hones, if_neg hzero, pack_normal rfl hlt (log2_implicit _), ofNat_implicit,
    BitVec.ofNat_toNat, BitVec.setWidth_eq]
  exact packComponents_unpack b

theorem pack_unpack (hexponent : 1 < spec.exponentBits) (hb : spec.Valid b) :
    pack spec (unpack spec b) = b := by
  by_cases hones : unpackExponent b = -1#_
  · exact pack_unpack_special hb hones
  · by_cases hzero : unpackExponent b = 0#_
    · exact pack_unpack_subnormal hexponent hones hzero
    · exact pack_unpack_normal hones hzero

theorem double_ofBits_toBits (x : Float) : Float.ofBits (Float.toBits x) = x := by
  obtain ⟨⟨bits, valid⟩⟩ := x
  have hbits : UInt64.ofBitVec (pack .binary64 (unpack .binary64 bits.toBitVec)) = bits :=
    congrArg UInt64.ofBitVec (pack_unpack (by decide) valid)
  refine congrArg Float.ofModel ?_
  change Float.Model.mk (UInt64.ofBitVec (pack .binary64 (unpack .binary64 bits.toBitVec))) _ = _
  congr

theorem single_ofBits_toBits (x : Float32) : Float32.ofBits (Float32.toBits x) = x := by
  obtain ⟨⟨bits, valid⟩⟩ := x
  have hbits : UInt32.ofBitVec (pack .binary32 (unpack .binary32 bits.toBitVec)) = bits :=
    congrArg UInt32.ofBitVec (pack_unpack (by decide) valid)
  refine congrArg Float32.ofModel ?_
  change Float32.Model.mk (UInt32.ofBitVec (pack .binary32 (unpack .binary32 bits.toBitVec))) _ = _
  congr

variable {p : Precision}

theorem ofWord_word (x : Machine p) : ofWord p (word x) = x := by
  cases p with
  | single =>
      change Float32.ofBits (UInt32.ofNat (Float32.toBits x).toNat) = x
      rw [UInt32.ofNat_toNat, single_ofBits_toBits]
  | double =>
      change Float.ofBits (UInt64.ofNat (Float.toBits x).toNat) = x
      rw [UInt64.ofNat_toNat, double_ofBits_toBits]

theorem word_lt (x : Machine p) : word x < 2 * p.layout.signBit := by
  cases p with
  | single => exact (Float32.toBits x).toNat_lt
  | double => exact (Float.toBits x).toNat_lt

end Metrology.Machine
