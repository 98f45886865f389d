import Metrology.Proofs.Binary.Unpack

/-!
# The order of machine scalars

Machine scalars of either precision are compared as the numbers that their words stand for, and a
not-a-number with nothing.  Widening keeps the number, so that narrowing leads back to the same
scalar and a mixed comparison is one of numbers, too.
-/

namespace Metrology

open Metrology.Binary
open Float.Model (UnpackedFloat)

theorem map₂_cmp_swap {β : Type} [LinearOrder β] (x? y? : Option β) :
    Option.map₂ cmp y? x? = (Option.map₂ cmp x? y?).map Ordering.swap := by
  cases x? <;> cases y? <;> simp [cmp_swap]

namespace Machine

variable {p : Precision}

def extended? (x : Machine p) : Option Extended := (datum x).extended?

theorem ordering_eq (c : Option Ordering) :
    ordering (c == some .lt) (c == some .eq) (c.map Ordering.swap == some .lt) = c := by
  rcases c with _ | (_ | _ | _) <;> rfl

theorem single_compare (x y : Machine .single) :
    Float32.lt x y = (Option.map₂ cmp x.extended? y.extended? == some .lt) ∧
      Float32.beq x y = (Option.map₂ cmp x.extended? y.extended? == some .eq) := by
  have hcompare : (Float32.toModel x).unpack.compare (Float32.toModel y).unpack =
      Option.map₂ cmp x.extended? y.extended? :=
    (congrArg₂ _ (unpack_eq _) (unpack_eq _)).trans (compare_unpacked _ _)
  rw [← hcompare]
  exact ⟨Bool.decide_eq_true, rfl⟩

theorem double_compare (x y : Machine .double) :
    Float.lt x y = (Option.map₂ cmp x.extended? y.extended? == some .lt) ∧
      Float.beq x y = (Option.map₂ cmp x.extended? y.extended? == some .eq) := by
  have hcompare : (Float.toModel x).unpack.compare (Float.toModel y).unpack =
      Option.map₂ cmp x.extended? y.extended? :=
    (congrArg₂ _ (unpack_eq _) (unpack_eq _)).trans (compare_unpacked _ _)
  rw [← hcompare]
  exact ⟨Bool.decide_eq_true, rfl⟩

theorem compare?_eq (x y : Machine p) :
    Arithmetic.compare? x y = Option.map₂ cmp x.extended? y.extended? := by
  have hordering := ordering_eq (Option.map₂ cmp x.extended? y.extended?)
  rw [← map₂_cmp_swap] at hordering
  cases p with
  | single =>
      obtain ⟨hlt, heq⟩ := single_compare x y
      rw [← hlt, ← heq, ← (single_compare y x).1] at hordering
      exact hordering
  | double =>
      obtain ⟨hlt, heq⟩ := double_compare x y
      rw [← hlt, ← heq, ← (double_compare y x).1] at hordering
      exact hordering

variable {w w' : Nat}

theorem datum_ofWord (hw : w < 2 * p.layout.signBit) : datum (ofWord p w) = p.layout.decode w := by
  cases p with
  | single =>
      exact (decode_pack_unpack .binary32 (by decide) rfl (UInt32.ofNat w).toBitVec).trans
        (congrArg _ (UInt32.toNat_ofNat_of_lt' hw))
  | double =>
      exact (decode_pack_unpack .binary64 (by decide) rfl (UInt64.ofNat w).toBitVec).trans
        (congrArg _ (UInt64.toNat_ofNat_of_lt' hw))

def ofUnpacked : (p : Precision) → UnpackedFloat → Machine p
  | .single, u => Float32.ofModel (.pack u)
  | .double, u => Float.ofModel (.pack u)

theorem ofWord_eq (hw : w < 2 * p.layout.signBit) :
    ofWord p w = ofUnpacked p (p.layout.decode w).unpacked := by
  cases p with
  | single =>
      exact congrArg (fun u => Float32.ofModel (.pack u)) ((unpack_eq _).trans
        (congrArg (fun w => (Layout.single.decode w).unpacked) (UInt32.toNat_ofNat_of_lt' hw)))
  | double =>
      exact congrArg (fun u => Float.ofModel (.pack u)) ((unpack_eq _).trans
        (congrArg (fun w => (Layout.double.decode w).unpacked) (UInt64.toNat_ofNat_of_lt' hw)))

theorem ofWord_congr (hw : w < 2 * p.layout.signBit) (hw' : w' < 2 * p.layout.signBit)
    (h : p.layout.decode w = p.layout.decode w') : ofWord p w = ofWord p w' := by
  rw [ofWord_eq hw, ofWord_eq hw', h]

theorem encode_nan (p : Precision) : p.layout.encode .nan < 2 * p.layout.signBit ∧
    p.layout.decode (p.layout.encode .nan) = .nan := by
  cases p <;> decide

theorem encode_infinite (p : Precision) (negative : Bool) :
    p.layout.encode (.infinite negative) < 2 * p.layout.signBit ∧
      p.layout.decode (p.layout.encode (.infinite negative)) = .infinite negative := by
  cases p <;> cases negative <;> decide

theorem ofDatum_of_same {x : Machine p} {d : Datum} (h : (datum x).Same d) : ofDatum p d = x := by
  generalize hx : datum x = d' at h
  cases h with
  | nan =>
      obtain ⟨hw, hdecode⟩ := encode_nan p
      exact (ofWord_congr hw (word_lt x) (hdecode.trans hx.symm)).trans (ofWord_word x)
  | infinite negative =>
      obtain ⟨hw, hdecode⟩ := encode_infinite p negative
      exact (ofWord_congr hw (word_lt x) (hdecode.trans hx.symm)).trans (ofWord_word x)
  | finite hv => rw [ofDatum, Layout.encode_eq (word_lt x) hx hv.symm, ofWord_word]

theorem same_datum_widen (x : Machine .single) :
    (datum x).Same (datum (Arithmetic.widen x : Machine .double)) := by
  change (datum x).Same (datum (ofWord .double (Precision.double.layout.encode (datum x))))
  cases hx : datum x with
  | nan =>
      obtain ⟨hw, hdecode⟩ := encode_nan .double
      rw [datum_ofWord hw, hdecode]
      exact .nan
  | infinite negative =>
      obtain ⟨hw, hdecode⟩ := encode_infinite .double negative
      rw [datum_ofWord hw, hdecode]
      exact .infinite negative
  | finite negative m e =>
      obtain ⟨word, hword, m', e', hdecode, hv⟩ := Layout.widens_single_double.exists_word hx
      have hencode : Precision.double.layout.encode (.finite negative m e) = word :=
        Layout.encode_eq hword hdecode hv
      have hdatum : datum (ofWord .double word) = .finite negative m' e' :=
        (datum_ofWord hword).trans hdecode
      rw [hencode, hdatum]
      exact .finite hv

theorem narrow_widen (x : Machine .single) :
    Arithmetic.narrow (Arithmetic.widen x : Machine .double) = x :=
  ofDatum_of_same (same_datum_widen x)

theorem extended?_widen (x : Machine .single) :
    extended? (Arithmetic.widen x : Machine .double) = x.extended? :=
  (same_datum_widen x).extended?_eq.symm

end Machine

namespace Scalar

def extended? (s : Scalar Machine) : Option Extended := s.value.extended?

def IsNaN (s : Scalar Machine) : Prop := Machine.datum s.value = .nan

theorem extended?_eq_none_iff {s : Scalar Machine} : s.extended? = none ↔ s.IsNaN :=
  Datum.extended?_eq_none_iff

theorem extended?_promoteLeft (a b : Scalar Machine) :
    (a.promoteLeft b).extended? = a.extended? := by
  obtain ⟨p, x⟩ := a
  obtain ⟨q, y⟩ := b
  cases p with
  | single =>
      cases q with
      | single => rfl
      | double => exact Machine.extended?_widen x
  | double => cases q <;> rfl

theorem extended?_promoteRight (a b : Scalar Machine) :
    (a.promoteRight b).extended? = b.extended? := by
  obtain ⟨p, x⟩ := a
  obtain ⟨q, y⟩ := b
  cases q with
  | single =>
      cases p with
      | single => rfl
      | double => exact Machine.extended?_widen y
  | double => cases p <;> rfl

theorem extended?_cast_double (s : Scalar Machine) : (s.cast .double).extended? = s.extended? := by
  obtain ⟨p, x⟩ := s
  cases p with
  | single => exact Machine.extended?_widen x
  | double => rfl

theorem compare?_eq (a b : Scalar Machine) :
    a.compare? b = Option.map₂ cmp a.extended? b.extended? := by
  rw [← extended?_promoteLeft a b, ← extended?_promoteRight a b]
  exact Machine.compare?_eq _ _

end Scalar

end Metrology
