import Metrology.Proofs.Quantity.Order

/-!
# The lesser and the greater of two quantities

Both choices take the second operand only where it beats the first one strictly, so that the first
one is left on ties and where there is no order.  The number of what is chosen is the minimum or the
maximum of two numbers, and the laws of a lattice follow from those of the numbers.
-/

namespace Metrology

open Metrology.Binary

def Chooses {β : Type} [LinearOrder β] (o : Ordering) (f : β → β → β) : Prop :=
  ∀ x y, (if cmp y x = o then y else x) = f x y

theorem chooses_min {β : Type} [LinearOrder β] : Chooses .lt (min : β → β → β) := by
  intro x y
  rw [min_comm, min_def_lt]
  exact if_congr (cmp_eq_lt_iff y x) rfl rfl

theorem chooses_max {β : Type} [LinearOrder β] : Chooses .gt (max : β → β → β) := by
  intro x y
  rw [max_def_lt]
  exact if_congr (cmp_eq_gt_iff y x) rfl rfl

namespace Quantity

section

variable {α : Precision → Type} [Arithmetic α] {a b : Quantity α} {o o' : Ordering}

/-- `b` if it stands to `a` in the order `o`, `a` otherwise. -/
def choose (o : Ordering) (a b : Quantity α) : Except OperationError (Quantity α) :=
  select (fun x y => Arithmetic.compare? x y == some o) a b

theorem choose_eq (hd : b.dimension = a.dimension)
    (hp : b.scalar.precision = a.scalar.precision) :
    choose o a b = .ok (if b.scalar.compare? a.scalar = some o then b else a) := by
  obtain ⟨d, ⟨p, x⟩, h⟩ := a
  obtain ⟨e, ⟨q, y⟩, h'⟩ := b
  dsimp only at hd hp
  subst hd hp
  have hcompare : Scalar.compare? ⟨q, y⟩ ⟨q, x⟩ = Arithmetic.compare? y x := by cases q <;> rfl
  rw [choose, select, sameDimension, if_pos rfl, hcompare]
  simp [bind, Except.bind, pure, Except.pure]

theorem choose_operand (hd : b.dimension = a.dimension)
    (hp : b.scalar.precision = a.scalar.precision) :
    choose o a b = .ok a ∨ choose o a b = .ok b := by
  rw [choose_eq hd hp]
  split
  · exact .inr rfl
  · exact .inl rfl

theorem choose_absorb (hd : b.dimension = a.dimension)
    (hp : b.scalar.precision = a.scalar.precision) (ho : o' ≠ o) :
    (do choose o a (← choose o' a b)) = .ok a := by
  rw [choose_eq hd hp]
  change choose o a (if b.scalar.compare? a.scalar = some o' then b else a) = .ok a
  split
  next hbeats => rw [choose_eq hd hp, if_neg (hbeats ▸ mt Option.some.inj ho)]
  next => rw [choose_eq rfl rfl, ite_self]

end

variable {a b c : Quantity Machine} {o : Ordering} {x y : Extended}

def Alike (a b : Quantity Machine) : Prop := ∃ c, a.comparison b = .ok c ∧ c.eq = true

def AtMost (a b : Quantity Machine) : Prop := ∃ c, a.comparison b = .ok c ∧ c.le = true

theorem alike_of_extended? (hd : a.dimension = b.dimension) (ha : a.scalar.extended? = some x)
    (hb : b.scalar.extended? = some x) : a.Alike b :=
  ⟨_, comparison_eq hd, Comparison.eq_between_iff.2 ⟨x, ha, x, hb, rfl⟩⟩

theorem atMost_of_extended? (hd : a.dimension = b.dimension) (ha : a.scalar.extended? = some x)
    (hb : b.scalar.extended? = some y) (h : x ≤ y) : a.AtMost b :=
  ⟨_, comparison_eq hd, Comparison.le_between_iff.2 ⟨x, ha, y, hb, h⟩⟩

theorem exists_extended? (h : ¬a.scalar.IsNaN) : ∃ x, a.scalar.extended? = some x :=
  Option.ne_none_iff_exists'.1 (mt Scalar.extended?_eq_none_iff.1 h)

theorem choose_of_not_beaten (hd : b.dimension = a.dimension)
    (hp : b.scalar.precision = a.scalar.precision) (ho : o ≠ .eq)
    (h : a.Alike b ∨ a.scalar.IsNaN ∨ b.scalar.IsNaN) : choose o a b = .ok a := by
  rw [choose_eq hd hp, if_neg]
  rw [Scalar.compare?_eq]
  rcases h with ⟨c, hc, heq⟩ | ha | hb
  · rw [comparison_eq hd.symm] at hc
    cases hc
    obtain ⟨x, hx, y, hy, rfl⟩ := Comparison.eq_between_iff.1 heq
    rw [hx, hy, Option.map₂_some_some, cmp_self_eq_eq]
    exact fun h => ho (Option.some.inj h).symm
  · rw [Scalar.extended?_eq_none_iff.2 ha, Option.map₂_none_right]
    rintro ⟨⟩
  · rw [Scalar.extended?_eq_none_iff.2 hb, Option.map₂_none_left]
    rintro ⟨⟩

variable {f : Extended → Extended → Extended}

theorem exists_choose (hf : Chooses o f) (hd : b.dimension = a.dimension)
    (hp : b.scalar.precision = a.scalar.precision) (ha : a.scalar.extended? = some x)
    (hb : b.scalar.extended? = some y) :
    ∃ q, choose o a b = .ok q ∧ q.dimension = a.dimension ∧
      q.scalar.precision = a.scalar.precision ∧ q.scalar.extended? = some (f x y) := by
  have hcompare : b.scalar.compare? a.scalar = some (cmp y x) := by
    rw [Scalar.compare?_eq, ha, hb, Option.map₂_some_some]
  rw [choose_eq hd hp, hcompare, ← hf x y]
  by_cases h : cmp y x = o
  · rw [if_pos h]
    exact ⟨b, congrArg Except.ok (if_pos (congrArg some h)), hd, hp, hb⟩
  · rw [if_neg h]
    exact ⟨a, congrArg Except.ok (if_neg (mt Option.some.inj h)), rfl, rfl, ha⟩

structure ChoiceLaws
    (choice : Quantity Machine → Quantity Machine → Except OperationError (Quantity Machine))
    (a b c : Quantity Machine) : Prop where
  operand : choice a b = .ok a ∨ choice a b = .ok b
  first : a.Alike b ∨ a.scalar.IsNaN ∨ b.scalar.IsNaN → choice a b = .ok a
  comm : ¬a.scalar.IsNaN → ¬b.scalar.IsNaN →
    ∃ l r, choice a b = .ok l ∧ choice b a = .ok r ∧ l.Alike r
  assoc : ¬a.scalar.IsNaN → ¬b.scalar.IsNaN → ¬c.scalar.IsNaN →
    ∃ l r, (do choice (← choice a b) c) = .ok l ∧ (do choice a (← choice b c)) = .ok r ∧ l.Alike r

structure LatticeLaws (a b c : Quantity Machine) : Prop where
  min : ChoiceLaws Quantity.min a b c
  max : ChoiceLaws Quantity.max a b c
  min_max : (do a.min (← a.max b)) = .ok a
  max_min : (do a.max (← a.min b)) = .ok a
  bounds : ¬a.scalar.IsNaN → ¬b.scalar.IsNaN → ∃ low high, a.min b = .ok low ∧
    a.max b = .ok high ∧ low.AtMost a ∧ low.AtMost b ∧ a.AtMost high ∧ b.AtMost high

theorem choiceLaws [Std.Commutative f] [Std.Associative f] (hf : Chooses o f) (ho : o ≠ .eq)
    (hb : b.dimension = a.dimension) (hc : c.dimension = a.dimension)
    (hbp : b.scalar.precision = a.scalar.precision)
    (hcp : c.scalar.precision = a.scalar.precision) : ChoiceLaws (choose o) a b c where
  operand := choose_operand hb hbp
  first := choose_of_not_beaten hb hbp ho
  comm ha hb' := by
    obtain ⟨x, hx⟩ := exists_extended? ha
    obtain ⟨y, hy⟩ := exists_extended? hb'
    obtain ⟨l, hl, hld, -, hln⟩ := exists_choose hf hb hbp hx hy
    obtain ⟨r, hr, hrd, -, hrn⟩ := exists_choose hf hb.symm hbp.symm hy hx
    refine ⟨l, r, hl, hr, alike_of_extended? (hld.trans (hrd.trans hb).symm) hln ?_⟩
    exact hrn.trans (congrArg some (Std.Commutative.comm y x))
  assoc ha hb' hc' := by
    obtain ⟨x, hx⟩ := exists_extended? ha
    obtain ⟨y, hy⟩ := exists_extended? hb'
    obtain ⟨z, hz⟩ := exists_extended? hc'
    obtain ⟨ab, hab, habd, habp, habn⟩ := exists_choose hf hb hbp hx hy
    obtain ⟨bc, hbc, hbcd, hbcp, hbcn⟩ :=
      exists_choose hf (hc.trans hb.symm) (hcp.trans hbp.symm) hy hz
    obtain ⟨l, hl, hld, -, hln⟩ :=
      exists_choose hf (hc.trans habd.symm) (hcp.trans habp.symm) habn hz
    obtain ⟨r, hr, hrd, -, hrn⟩ := exists_choose hf (hbcd.trans hb) (hbcp.trans hbp) hx hbcn
    refine ⟨l, r, ?_, ?_, alike_of_extended? (hld.trans (habd.trans hrd.symm)) hln ?_⟩
    · rw [hab]
      exact hl
    · rw [hbc]
      exact hr
    · exact hrn.trans (congrArg some (Std.Associative.assoc x y z).symm)

/-- The lesser and the greater of two quantities of one dimension and precision make a lattice that
is biased to the first operand. -/
theorem min_max_lattice (hb : b.dimension = a.dimension) (hc : c.dimension = a.dimension)
    (hbp : b.scalar.precision = a.scalar.precision)
    (hcp : c.scalar.precision = a.scalar.precision) : LatticeLaws a b c where
  min := choiceLaws chooses_min (by decide) hb hc hbp hcp
  max := choiceLaws chooses_max (by decide) hb hc hbp hcp
  min_max := choose_absorb hb hbp (by decide)
  max_min := choose_absorb hb hbp (by decide)
  bounds ha hb' := by
    obtain ⟨x, hx⟩ := exists_extended? ha
    obtain ⟨y, hy⟩ := exists_extended? hb'
    obtain ⟨low, hlow, hlowd, -, hlown⟩ := exists_choose chooses_min hb hbp hx hy
    obtain ⟨high, hhigh, hhighd, -, hhighn⟩ := exists_choose chooses_max hb hbp hx hy
    refine ⟨low, high, hlow, hhigh, ?_, ?_, ?_, ?_⟩
    · exact atMost_of_extended? hlowd hlown hx (min_le_left x y)
    · exact atMost_of_extended? (hlowd.trans hb.symm) hlown hy (min_le_right x y)
    · exact atMost_of_extended? hhighd.symm hx hhighn (le_max_left x y)
    · exact atMost_of_extended? (hb.trans hhighd.symm) hy hhighn (le_max_right x y)

def ofDoubleWord (word : Nat) : Quantity Machine := metres ⟨.double, Machine.ofWord .double word⟩

theorem dimension_ofDoubleWord (word : Nat) :
    (ofDoubleWord word).dimension = Kind.length.dimension := rfl

theorem precision_ofDoubleWord (word : Nat) :
    (ofDoubleWord word).scalar.precision = .double := rfl

theorem extended?_ofDoubleWord_zero (negative : Bool) :
    (ofDoubleWord (cond negative Layout.double.signBit 0)).scalar.extended? = some 0 := by
  have hdatum : Machine.datum (Machine.ofWord .double (cond negative Layout.double.signBit 0)) =
      .finite negative 0 Layout.double.minExponent :=
    (Machine.datum_ofWord (by cases negative <;> decide)).trans (by cases negative <;> decide)
  refine (congrArg Datum.extended? hdatum).trans ?_
  rw [Datum.extended?, signed_zero]
  rfl

/-- Of two zeros, which are equal, the first one is chosen with its sign. -/
theorem min_max_lattice_zeros :
    LatticeLaws (ofDoubleWord 0) (ofDoubleWord Layout.double.signBit)
        (ofDoubleWord Layout.double.infinity) ∧
      (ofDoubleWord 0).min (ofDoubleWord Layout.double.signBit) = .ok (ofDoubleWord 0) ∧
      (ofDoubleWord Layout.double.signBit).min (ofDoubleWord 0) =
        .ok (ofDoubleWord Layout.double.signBit) := by
  have hlaws (word word' : Nat) : LatticeLaws (ofDoubleWord word) (ofDoubleWord word')
      (ofDoubleWord Layout.double.infinity) :=
    min_max_lattice ((dimension_ofDoubleWord _).trans (dimension_ofDoubleWord _).symm)
      ((dimension_ofDoubleWord _).trans (dimension_ofDoubleWord _).symm)
      ((precision_ofDoubleWord _).trans (precision_ofDoubleWord _).symm)
      ((precision_ofDoubleWord _).trans (precision_ofDoubleWord _).symm)
  have hpositive := extended?_ofDoubleWord_zero false
  have hnegative := extended?_ofDoubleWord_zero true
  refine ⟨hlaws _ _, (hlaws _ _).min.first (.inl ?_), (hlaws _ _).min.first (.inl ?_)⟩
  · exact alike_of_extended? rfl hpositive hnegative
  · exact alike_of_extended? rfl hnegative hpositive

end Quantity

end Metrology
