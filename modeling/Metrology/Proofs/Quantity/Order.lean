import Metrology.Proofs.Scalar.Order
import Metrology.Proofs.Worksheet

/-!
# The order of quantities

Quantities of one dimension are compared as the numbers that their scalars stand for.  The order is
therefore one and the same for all mixtures of precisions, and only a not-a-number is left out of
it.
-/

namespace Metrology

open Metrology.Binary

namespace Comparison

/-- Exactly one of the three strict answers is yes, and the others follow from them. -/
structure Decided (c : Comparison) : Prop where
  trichotomy : [c.lt, c.eq, c.gt].count true = 1
  le : c.le = (c.lt || c.eq)
  ge : c.ge = (c.gt || c.eq)
  ne : c.ne = !c.eq

structure Undecided (c : Comparison) : Prop where
  lt : c.lt = false
  eq : c.eq = false
  gt : c.gt = false
  le : c.le = false
  ge : c.ge = false
  ne : c.ne = true

theorem exists_trans {β : Type} {r : β → β → Prop} {x? y? z? : Option β}
    (hr : ∀ x y z, r x y → r y z → r x z) (h : ∃ x ∈ x?, ∃ y ∈ y?, r x y)
    (h' : ∃ y ∈ y?, ∃ z ∈ z?, r y z) : ∃ x ∈ x?, ∃ z ∈ z?, r x z := by
  obtain ⟨x, hx, y, hy, hxy⟩ := h
  obtain ⟨y', hy', z, hz, hyz⟩ := h'
  obtain rfl := Option.mem_unique hy hy'
  exact ⟨x, hx, z, hz, hr x y z hxy hyz⟩

def between {β : Type} [LinearOrder β] (x? y? : Option β) : Comparison := ⟨Option.map₂ cmp x? y?⟩

variable {β : Type} [LinearOrder β] {x? y? : Option β}

theorem decided_between (hx : x? ≠ none) (hy : y? ≠ none) : (between x? y?).Decided := by
  obtain ⟨x, rfl⟩ := Option.ne_none_iff_exists'.1 hx
  obtain ⟨y, rfl⟩ := Option.ne_none_iff_exists'.1 hy
  refine ⟨?_, rfl, rfl, rfl⟩
  change [some (cmp x y) == some .lt, some (cmp x y) == some .eq, some (cmp x y) == some .gt].count
    true = 1
  cases cmp x y <;> rfl

theorem undecided_between (h : x? = none ∨ y? = none) : (between x? y?).Undecided := by
  have hnone : between x? y? = ⟨none⟩ := by
    rcases h with rfl | rfl
    · rfl
    · cases x? <;> rfl
  rw [hnone]
  exact ⟨rfl, rfl, rfl, rfl, rfl, rfl⟩

theorem between_swap : between y? x? = ⟨(between x? y?).ordering.map Ordering.swap⟩ :=
  congrArg Comparison.mk (map₂_cmp_swap x? y?)

theorem lt_between_iff : (between x? y?).lt = true ↔ ∃ x ∈ x?, ∃ y ∈ y?, x < y := by
  cases x? <;> cases y? <;> simp [between, lt, cmp_eq_lt_iff]

theorem eq_between_iff : (between x? y?).eq = true ↔ ∃ x ∈ x?, ∃ y ∈ y?, x = y := by
  cases x? with
  | none => simp [between, eq]
  | some x =>
      cases y? with
      | none => simp [between, eq]
      | some y => simpa [between, eq, cmp_eq_eq_iff] using eq_comm

theorem le_between_iff : (between x? y?).le = true ↔ ∃ x ∈ x?, ∃ y ∈ y?, x ≤ y := by
  rw [le, Bool.or_eq_true, lt_between_iff, eq_between_iff]
  cases x? <;> cases y? <;> simp [le_iff_lt_or_eq, eq_comm]

end Comparison

namespace Quantity

def comparison {α : Precision → Type} [Arithmetic α] (a b : Quantity α) :
    Except OperationError Comparison := do
  return ⟨← a.compare? b⟩

theorem comparison_of_compare? {α : Precision → Type} [Arithmetic α] {a b : Quantity α}
    {o? : Option Ordering} (h : a.compare? b = .ok o?) : a.comparison b = .ok ⟨o?⟩ := by
  rw [comparison, h]
  rfl

variable {a b c : Quantity Machine}

theorem comparison_eq (h : a.dimension = b.dimension) :
    a.comparison b = .ok (.between a.scalar.extended? b.scalar.extended?) := by
  have hcompare : a.compare? b = .ok (a.scalar.compare? b.scalar) := by
    rw [compare?, sameDimension, if_pos h]
    rfl
  rw [comparison_of_compare? hcompare, Scalar.compare?_eq]
  rfl

theorem comparison_cast_left (h : a.dimension = b.dimension) :
    (a.cast .double).comparison b = a.comparison b := by
  have hcast : (a.cast .double).scalar.extended? = a.scalar.extended? :=
    a.scalar.extended?_cast_double
  rw [comparison_eq h, comparison_eq (a := a.cast .double) h, hcast]

theorem comparison_cast_right (h : a.dimension = b.dimension) :
    a.comparison (b.cast .double) = a.comparison b := by
  have hcast : (b.cast .double).scalar.extended? = b.scalar.extended? :=
    b.scalar.extended?_cast_double
  rw [comparison_eq h, comparison_eq (b := b.cast .double) h, hcast]

structure ComparisonLaws (a b c : Quantity Machine) (ab ba bc ac : Comparison) : Prop where
  decided : ¬a.scalar.IsNaN → ¬b.scalar.IsNaN → ab.Decided
  undecided : a.scalar.IsNaN ∨ b.scalar.IsNaN → ab.Undecided
  reversed : ba.ordering = ab.ordering.map Ordering.swap
  eq_trans : ab.eq = true → bc.eq = true → ac.eq = true
  lt_trans : ab.lt = true → bc.lt = true → ac.lt = true
  le_trans : ab.le = true → bc.le = true → ac.le = true
  widened : ∀ a' ∈ [a, a.cast .double], ∀ b' ∈ [b, b.cast .double], a'.comparison b' = .ok ab

theorem comparisonLaws (h : a.dimension = b.dimension) :
    ComparisonLaws a b c (.between a.scalar.extended? b.scalar.extended?)
      (.between b.scalar.extended? a.scalar.extended?)
      (.between b.scalar.extended? c.scalar.extended?)
      (.between a.scalar.extended? c.scalar.extended?) where
  decided ha hb := Comparison.decided_between (mt Scalar.extended?_eq_none_iff.1 ha)
    (mt Scalar.extended?_eq_none_iff.1 hb)
  undecided hnan := Comparison.undecided_between
    (hnan.imp Scalar.extended?_eq_none_iff.2 Scalar.extended?_eq_none_iff.2)
  reversed := by rw [Comparison.between_swap]
  eq_trans hab hbc := by
    rw [Comparison.eq_between_iff] at hab hbc ⊢
    exact Comparison.exists_trans (fun _ _ _ h h' => h.trans h') hab hbc
  lt_trans hab hbc := by
    rw [Comparison.lt_between_iff] at hab hbc ⊢
    exact Comparison.exists_trans (fun _ _ _ h h' => h.trans h') hab hbc
  le_trans hab hbc := by
    rw [Comparison.le_between_iff] at hab hbc ⊢
    exact Comparison.exists_trans (fun _ _ _ h h' => h.trans h') hab hbc
  widened a' ha' b' hb' := by
    rw [← comparison_eq h]
    simp only [List.mem_cons, List.not_mem_nil, or_false] at ha' hb'
    obtain rfl | rfl := ha' <;> obtain rfl | rfl := hb'
    · rfl
    · exact comparison_cast_right h
    · exact comparison_cast_left h
    · exact (comparison_cast_left (b := b.cast .double) h).trans (comparison_cast_right h)

/-- Quantities of one dimension have one order, whatever the precision of each: three-way on
numbers, empty on a not-a-number, antisymmetric, transitive and blind to widening. -/
theorem comparison_lawful (hb : b.dimension = a.dimension) (hc : c.dimension = a.dimension) :
    ∃ ab ba bc ac : Comparison, a.comparison b = .ok ab ∧ b.comparison a = .ok ba ∧
      b.comparison c = .ok bc ∧ a.comparison c = .ok ac ∧ ComparisonLaws a b c ab ba bc ac :=
  ⟨_, _, _, _, comparison_eq hb.symm, comparison_eq hb, comparison_eq (hb.trans hc.symm),
    comparison_eq hc.symm, comparisonLaws hb.symm⟩

theorem isDimensionless_length : Kind.length.dimension.isDimensionless = false := rfl

def metres (s : Scalar Machine) : Quantity Machine :=
  ⟨Kind.length.dimension, s, isDimensionless_length⟩

def tenth (p : Precision) : Quantity Machine := metres ⟨p, Machine.ofRat (1 / 10)⟩

/-- Narrowing the second one would have made the two equal. -/
theorem comparison_lawful_tenths :
    ∃ ab ba bc ac : Comparison, (tenth .single).comparison (tenth .double) = .ok ab ∧
      ab.gt = true ∧
      ComparisonLaws (tenth .single) (tenth .double) (tenth .single) ab ba bc ac := by
  obtain ⟨ab, ba, bc, ac, hab, -, -, -, hlaws⟩ :=
    comparison_lawful (a := tenth .single) (b := tenth .double) (c := tenth .single) rfl rfl
  have hgt : (tenth .single).comparison (tenth .double) = .ok ⟨some .gt⟩ :=
    comparison_of_compare? (by decide +kernel)
  cases hab.symm.trans hgt
  exact ⟨_, ba, bc, ac, hgt, rfl, hlaws⟩

end Quantity

namespace Worksheet

variable {w : Worksheet} {x y : String} {u v : Value Machine}

theorem quantity_of_get? (h : w.get? x = some v) : w.quantity x = lift v.toQuantity := by
  rw [quantity, value_of_get? h]
  rfl

theorem answer_compare (hu : w.get? x = some u) (hv : w.get? y = some v) :
    (w.answer (.compare x y)).result =
      (lift do (← u.toQuantity).comparison (← v.toQuantity)).map .comparison := by
  rw [answer, quantity_of_get? hu, quantity_of_get? hv]
  cases u with
  | scalar s => rfl
  | quantity a =>
      cases v with
      | scalar s => rfl
      | quantity b =>
          change (do return Answer.comparison ⟨← lift (a.compare? b)⟩) =
            (lift (do return ⟨← a.compare? b⟩)).map Answer.comparison
          cases a.compare? b <;> rfl

/-- Two cells of one dimension are compared as the numbers in them. -/
theorem answer_compare_of_dimension_eq {a b : Quantity Machine}
    (ha : w.get? x = some (.quantity a)) (hb : w.get? y = some (.quantity b))
    (h : a.dimension = b.dimension) :
    (w.answer (.compare x y)).result =
      .ok (.comparison (.between a.scalar.extended? b.scalar.extended?)) := by
  have hcomparison := Quantity.comparison_eq h
  rw [answer_compare ha hb]
  change (lift (a.comparison b)).map Answer.comparison = _
  rw [hcomparison]
  rfl

end Worksheet

end Metrology
