import Metrology.Proofs.Engineering.Double

/-!
# The range of scaling

Splitting a number is run once more with a record of the powers of ten that it forms and of the
shifts that it makes.  No power leaves the exponents from -300 to 300, and no product of a shift
comes near either end of double precision, down to the least positive number and for every number of
digits.
-/

namespace Metrology

open Metrology.Decimal

theorem Moderate.lt {y : ℚ} (hy : Moderate y) :
    (10 : ℚ) ^ (-300 : Int) < y ∧ y < (10 : ℚ) ^ (300 : Int) :=
  ⟨(zpow_lt_zpow_right₀ (by norm_num) (by decide)).trans_le hy.1,
    hy.2.trans_lt (zpow_lt_zpow_right₀ (by norm_num) (by decide))⟩

namespace Engineering

/-- A result, the exponents of the powers of ten that were formed for it, and the places by which a
number was shifted. -/
structure Traced (β : Type) where
  result : β
  powers : List Int
  shifts : List Int

namespace Traced

instance : Monad Traced where
  pure b := ⟨b, [], []⟩
  bind t f :=
    ⟨(f t.result).result, t.powers ++ (f t.result).powers, t.shifts ++ (f t.result).shifts⟩

variable {β γ : Type}

@[simp] theorem pure_eq (b : β) : (pure b : Traced β) = ⟨b, [], []⟩ := rfl

@[simp] theorem bind_eq (t : Traced β) (f : β → Traced γ) : t >>= f =
    ⟨(f t.result).result, t.powers ++ (f t.result).powers, t.shifts ++ (f t.result).shifts⟩ := rfl

end Traced

/-! ## Scaling with a record -/

section

variable {α : Precision → Type} [Arithmetic α]

/-- The products that a shift goes through, the last of them being its result. -/
def products (x : α .double) (n : Int) : List (α .double) :=
  ((shiftSteps n).scanl (fun y k => Arithmetic.mul y (tenTo k)) x).tail

def tracedTenTo (n : Int) : Traced (α .double) := ⟨tenTo n, [n], []⟩

def tracedShift (x : α .double) (n : Int) : Traced (α .double) := do
  let y ← (shiftSteps n).foldlM (fun y k => do return Arithmetic.mul y (← tracedTenTo k)) x
  ⟨y, [], [n]⟩

def tracedLeadingExponent (estimate : Int) (x : α .double) (digits : Nat) : Traced Int := do
  let scaled ← tracedShift x (digits - 1 - estimate)
  let lowest ← tracedTenTo (digits - 1)
  return if Arithmetic.lt scaled lowest then estimate - 1
    else if atLeast scaled (Arithmetic.mul lowest (Arithmetic.ofRat 10)) then estimate + 1
    else estimate

def tracedPlace (y : α .double) (places : Int) : Traced (α .double) := do
  if 0 ≤ places then return Arithmetic.div y (← tracedTenTo places)
  else return Arithmetic.mul y (← tracedTenTo (-places))

end

section

variable {α : Precision → Type} [Decadic α]

/-- `split` with a record of the powers that it forms and of the shifts that it makes. -/
def tracedSplit (estimate : Int) (x : α .double) (digits : Nat) : Traced (α .double × Int) := do
  let digits := clampDigits digits
  let lowest ← tracedTenTo (digits - 1)
  let leading ← tracedLeadingExponent estimate x digits
  let rounded := roundHalfUp (← tracedShift x (digits - 1 - leading))
  let carried := atLeast rounded (Arithmetic.mul lowest (Arithmetic.ofRat 10))
  let rounded := if carried then Arithmetic.div rounded (Arithmetic.ofRat 10) else rounded
  let leading := if carried then leading + 1 else leading
  let exponent := leading / 3 * 3
  let places := digits - 1 - (leading - exponent)
  return (← tracedPlace rounded places, exponent)

end

section

variable {α : Precision → Type} [Arithmetic α]

theorem foldlM_tracedTenTo (x : α .double) (ks : List Int) :
    ks.foldlM (fun y k => do return Arithmetic.mul y (← tracedTenTo k)) x =
      (⟨ks.foldl (fun y k => Arithmetic.mul y (tenTo k)) x, ks, []⟩ : Traced (α .double)) := by
  induction ks generalizing x with
  | nil => rfl
  | cons k ks ih => rw [List.foldlM_cons, Traced.bind_eq, ih]; rfl

theorem tracedShift_eq (x : α .double) (n : Int) :
    tracedShift x n = ⟨shift x n, shiftSteps n, [n]⟩ := by
  rw [tracedShift, foldlM_tracedTenTo]
  simp [shift]

theorem tracedLeadingExponent_eq (estimate : Int) (x : α .double) (digits : Nat) :
    tracedLeadingExponent estimate x digits = ⟨leadingExponent estimate x digits,
      shiftSteps (digits - 1 - estimate) ++ [(digits - 1 : Int)], [digits - 1 - estimate]⟩ := by
  rw [tracedLeadingExponent, tracedShift_eq]
  simp [tracedTenTo, leadingExponent]

theorem tracedPlace_eq (y : α .double) (places : Int) : tracedPlace y places =
    ⟨if 0 ≤ places then Arithmetic.div y (tenTo places) else Arithmetic.mul y (tenTo (-places)),
      [|places|], []⟩ := by
  unfold tracedPlace
  split
  next h => rw [abs_of_nonneg h]; rfl
  next h => rw [abs_of_neg (not_le.1 h)]; rfl

end

variable {α : Precision → Type} [Decadic α]

theorem result_tracedSplit (estimate : Int) (x : α .double) (digits : Nat) :
    (tracedSplit estimate x digits).result = split estimate x digits := by
  rw [tracedSplit]
  simp only [tracedLeadingExponent_eq, tracedShift_eq, tracedPlace_eq]
  rfl

theorem shifts_tracedSplit (estimate : Int) (x : α .double) (digits : Nat) :
    (tracedSplit estimate x digits).shifts = [clampDigits digits - 1 - estimate,
      clampDigits digits - 1 - leadingExponent estimate x (clampDigits digits)] := by
  rw [tracedSplit]
  simp only [tracedLeadingExponent_eq, tracedShift_eq, tracedPlace_eq]
  rfl

theorem abs_places_le (digits : Nat) (leading : Int) :
    |(clampDigits digits - 1 - (leading - leading / 3 * 3) : Int)| ≤ 16 := by
  have hdigits := clampDigits_range digits
  rw [abs_le]
  omega

theorem mem_powers_tracedSplit {estimate : Int} {x : α .double} {digits : Nat} {k : Int}
    (hk : k ∈ (tracedSplit estimate x digits).powers) :
    |k| ≤ 16 ∨ ∃ n ∈ (tracedSplit estimate x digits).shifts, k ∈ shiftSteps n := by
  have hlowest := abs_places_le digits 0
  have hplaces := abs_places_le digits
  rw [shifts_tracedSplit]
  rw [tracedSplit] at hk
  simp only [tracedLeadingExponent_eq, tracedShift_eq, tracedPlace_eq, tracedTenTo, Traced.bind_eq,
    Traced.pure_eq, List.mem_append, List.mem_singleton, List.not_mem_nil, or_false] at hk
  rcases hk with rfl | (hk | rfl) | hk | rfl
  · exact .inl (by simpa using hlowest)
  · exact .inr ⟨_, List.mem_cons_self, hk⟩
  · exact .inl (by simpa using hlowest)
  · exact .inr ⟨_, List.mem_cons_of_mem _ List.mem_cons_self, hk⟩
  · exact .inl (by rw [abs_abs]; exact hplaces _)

theorem abs_of_mem_shiftSteps {n k : Int} (hn : |n| ≤ 350) (hk : k ∈ shiftSteps n) : |k| ≤ 300 := by
  obtain ⟨hfirst, hsecond⟩ := halves_le hn
  unfold shiftSteps at hk
  split at hk
  · simp only [List.mem_cons, List.not_mem_nil, or_false] at hk
    rcases hk with rfl | rfl <;> omega
  · rw [List.mem_singleton] at hk
    subst hk
    rw [abs_le]
    omega

theorem abs_leadingExponent_sub_le (estimate : Int) (x : α .double) (n : Nat) :
    |leadingExponent estimate x n - estimate| ≤ 1 := by
  unfold leadingExponent
  dsimp only
  rw [abs_le]
  split
  · omega
  · split <;> omega

variable {x : α .double} {v : ℚ} {estimate : Int} {digits : Nat}

theorem exists_leading_of_mem_shifts {n : Int}
    (hn : n ∈ (tracedSplit estimate x digits).shifts) :
    ∃ k, n = clampDigits digits - 1 - k ∧
      (k = estimate ∨ k = leadingExponent estimate x (clampDigits digits)) := by
  rw [shifts_tracedSplit] at hn
  simp only [List.mem_cons, List.not_mem_nil, or_false] at hn
  rcases hn with rfl | rfl
  · exact ⟨_, rfl, .inl rfl⟩
  · exact ⟨_, rfl, .inr rfl⟩

/-- However the arithmetic compares, the estimate is changed by one at most. -/
theorem exists_near_of_mem_shifts (hest : |estimate - exponent v| ≤ 1) {n : Int}
    (hn : n ∈ (tracedSplit estimate x digits).shifts) :
    ∃ k, n = clampDigits digits - 1 - k ∧ |k - exponent v| ≤ 2 := by
  obtain ⟨k, hk, hleading⟩ := exists_leading_of_mem_shifts hn
  have hmended := abs_le.1 (abs_leadingExponent_sub_le estimate x (clampDigits digits))
  refine ⟨k, hk, ?_⟩
  rw [abs_le] at hest ⊢
  rcases hleading with rfl | rfl <;> omega

theorem abs_of_mem_shifts (hrange : InRange v) (hest : |estimate - exponent v| ≤ 1) {n : Int}
    (hn : n ∈ (tracedSplit estimate x digits).shifts) : |n| ≤ 350 := by
  obtain ⟨k, rfl, hk⟩ := exists_near_of_mem_shifts hest hn
  obtain ⟨hleast, hgreatest⟩ := hrange
  have hdigits := clampDigits_range digits
  rw [abs_le] at hk ⊢
  omega

theorem abs_of_mem_powers (hrange : InRange v) (hest : |estimate - exponent v| ≤ 1) {k : Int}
    (hk : k ∈ (tracedSplit estimate x digits).powers) : |k| ≤ 300 := by
  rcases mem_powers_tracedSplit hk with hk | ⟨n, hn, hk⟩
  · exact hk.trans (by decide)
  · exact abs_of_mem_shiftSteps (abs_of_mem_shifts hrange hest hn) hk

/-! ## Exact products -/

section

variable {β : Precision → Type} [Arithmetic β]

theorem products_eq (y : β .double) (n : Int) :
    products y n = if 300 < n.natAbs then [Arithmetic.mul y (tenTo (n.tdiv 2)), shift y n]
      else [shift y n] := by
  unfold products shift shiftSteps
  split <;> rfl

theorem getLast?_products (y : β .double) (n : Int) :
    (products y n).getLast? = some (shift y n) := by
  rw [products_eq]
  split <;> rfl

theorem mem_products_iff {y z : β .double} {n : Int} : z ∈ products y n ↔
    z = shift y n ∨ 300 < n.natAbs ∧ z = Arithmetic.mul y (tenTo (n.tdiv 2)) := by
  rw [products_eq]
  split
  next h => simp [h, or_comm]
  next h => simp [h]

end

theorem shifted_range (hv : 0 < v) {k j : Int} (hk : |k - exponent v| ≤ j) (digits : Nat) :
    (10 : ℚ) ^ (-j) ≤ v * 10 ^ (clampDigits digits - 1 - k : Int) ∧
      v * 10 ^ (clampDigits digits - 1 - k : Int) < (10 : ℚ) ^ (17 + j) := by
  have hpos : 0 < v * 10 ^ (clampDigits digits - 1 - k : Int) := by positivity
  have hdigits := clampDigits_range digits
  rw [zpow_le_iff hpos, lt_zpow_iff hpos, exponent_mul_zpow hv]
  rw [abs_le] at hk
  omega

theorem shift_range (hv : 0 < v) (hest : |estimate - exponent v| ≤ 1) {n : Int}
    (hn : n ∈ (tracedSplit estimate x digits).shifts) :
    (10 : ℚ) ^ (-2 : Int) ≤ v * 10 ^ n ∧ v * 10 ^ n < (10 : ℚ) ^ (19 : Int) := by
  obtain ⟨k, rfl, hk⟩ := exists_near_of_mem_shifts hest hn
  exact shifted_range hv hk digits

theorem moderate_products (hv : 0 < v) (hrange : InRange v) (hest : |estimate - exponent v| ≤ 1)
    {n : Int} (hn : n ∈ (tracedSplit estimate x digits).shifts) {y : ℚ}
    (hy : y ∈ products (α := Exact) v n) : Moderate y := by
  obtain ⟨hlow, hhigh⟩ := shift_range hv hest hn
  have hmoderate {j : Int} (hj : |j| ≤ 180) := moderate_zpow_mul hlow
    (hhigh.le.trans (zpow_le_zpow_right₀ (by norm_num) (by decide))) hj
  rcases mem_products_iff.1 hy with rfl | ⟨-, rfl⟩
  · rw [shift_eq]
    simpa using hmoderate (j := 0) (by decide)
  · have hhalf : v * 10 ^ n * 10 ^ (-(n - n.tdiv 2)) = v * 10 ^ n.tdiv 2 := by
      rw [mul_assoc, ← zpow_add₀ (by norm_num)]
      congr 2
      omega
    have hrest := (halves_le (abs_of_mem_shifts hrange hest hn)).2
    rw [← abs_neg] at hrest
    have hbetween := hmoderate hrest
    rw [hhalf] at hbetween
    exact hbetween

/-- The powers of ten of a scaling and the exact products of its shifts stay off both ends of double
precision, and what is shifted to comes from a hundredth up to the nineteenth power of ten. -/
structure StaysInRange (v : ℚ) {β : Type} (t : Traced β) : Prop where
  power : ∀ k ∈ t.powers, -300 ≤ k ∧ k ≤ 300
  power_normal : ∀ k ∈ t.powers, (2 : ℚ) ^ (-1022 : Int) ≤ 10 ^ k ∧ (10 : ℚ) ^ k < 2 ^ (1024 : Int)
  product : ∀ n ∈ t.shifts, ∀ y ∈ products (α := Exact) v n,
    (10 : ℚ) ^ (-300 : Int) < y ∧ y < (10 : ℚ) ^ (300 : Int)
  shifted : ∀ n ∈ t.shifts, (10 : ℚ) ^ (-2 : Int) < shift (α := Exact) v n ∧
    shift (α := Exact) v n < (10 : ℚ) ^ (19 : Int)

theorem zpow_normal {k : Int} (hk : |k| ≤ 300) :
    (2 : ℚ) ^ (-1022 : Int) ≤ 10 ^ k ∧ (10 : ℚ) ^ k < 2 ^ (1024 : Int) := by
  obtain ⟨hlow, hhigh⟩ := abs_le.1 hk
  constructor
  · calc (2 : ℚ) ^ (-1022 : Int) ≤ 2 ^ (-1000 : Int) := zpow_le_zpow_right₀ one_le_two (by omega)
      _ ≤ 10 ^ (-300 : Int) := Machine.le_ten_pow
      _ ≤ 10 ^ k := zpow_le_zpow_right₀ (by norm_num) hlow
  · calc (10 : ℚ) ^ k ≤ 10 ^ (300 : Int) := zpow_le_zpow_right₀ (by norm_num) hhigh
      _ ≤ 2 ^ (1000 : Int) := Machine.ten_pow_le
      _ < 2 ^ (1024 : Int) := zpow_lt_zpow_right₀ one_lt_two (by omega)

theorem staysInRange_tracedSplit (h : Faithful α) (hx : Denotes x v) (hv : 0 < v)
    (hrange : InRange v) (hest : |estimate - exponent v| ≤ 1) (digits : Nat) :
    StaysInRange v (tracedSplit estimate x digits) where
  power _ hk := abs_le.1 (abs_of_mem_powers hrange hest hk)
  power_normal _ hk := zpow_normal (abs_of_mem_powers hrange hest hk)
  product _ hn _ hy := (moderate_products hv hrange hest hn hy).lt
  shifted n hn := by
    obtain ⟨k, rfl, hleading⟩ := exists_leading_of_mem_shifts hn
    have hnear : |k - exponent v| ≤ 1 := by
      rcases hleading with rfl | rfl
      · exact hest
      · have hmem := (isLeading_leadingExponent h hx hv hrange hest
          (clampDigits_range digits)).exponent_mem hv
        rw [abs_le]
        omega
    obtain ⟨hlow, hhigh⟩ := shifted_range hv hnear digits
    rw [shift_eq]
    exact ⟨(zpow_lt_zpow_right₀ (by norm_num) (by decide)).trans_le hlow,
      hhigh.trans (zpow_lt_zpow_right₀ (by norm_num) (by decide))⟩

theorem products_approximate (h : Faithful α) (hx : Denotes x v) (hv : 0 < v) (hrange : InRange v)
    (hest : |estimate - exponent v| ≤ 1) {n : Int}
    (hn : n ∈ (tracedSplit estimate x digits).shifts) {y : α .double} (hy : y ∈ products x n) :
    ∃ w ∈ products (α := Exact) v n, Approximates 4 y w := by
  have habs := abs_of_mem_shifts hrange hest hn
  rcases mem_products_iff.1 hy with rfl | ⟨hlong, rfl⟩
  · obtain ⟨hlow, hhigh⟩ := shift_range hv hest hn
    refine ⟨shift (α := Exact) v n, mem_products_iff.2 (.inl rfl), ?_⟩
    rw [shift_eq]
    exact shift_approximates h hx hv habs hlow
      (hhigh.le.trans (zpow_le_zpow_right₀ (by norm_num) (by decide)))
  · have hten : (0 : ℚ) < 10 ^ n.tdiv 2 := by positivity
    have hhalf : |n.tdiv 2| ≤ 300 := (halves_le habs).1.trans (by decide)
    have hmem : v * 10 ^ n.tdiv 2 ∈ products (α := Exact) v n :=
      mem_products_iff.2 (.inr ⟨hlong, rfl⟩)
    have hproduct := Approximates.mul h (.of_denotes hx) (h.tenTo hhalf) hv hten (by decide)
      (moderate_products hv hrange hest hn hmem)
    exact ⟨_, hmem, hproduct.mono (by decide) (mul_pos hv hten)⟩

end Engineering

/-! ## Normal numbers -/

namespace Machine

open Engineering

def IsNormal (x : Machine .double) : Prop :=
  ∃ negative m e, datum x = .finite negative m e ∧ 2 ^ 52 ≤ m

variable {x : Machine .double} {u v : ℚ}

theorem isNormal_of_denotes (hx : Denotes (α := Machine) x u) (hu : 2 ^ (-1022 : Int) ≤ u) :
    IsNormal x := by
  obtain ⟨negative, m, e, hd, rfl⟩ := exists_datum (denotes_iff.1 hx)
  refine ⟨negative, m, e, hd, ?_⟩
  rcases double_leading hd with hm | rfl
  · exact hm
  · have hsize : (2 : ℚ) ^ (52 : Int) * 2 ^ (-1074 : Int) ≤ m * 2 ^ (-1074 : Int) :=
      calc (2 : ℚ) ^ (52 : Int) * 2 ^ (-1074 : Int) = 2 ^ (-1022 : Int) :=
            (zpow_add₀ two_ne_zero _ _).symm
        _ ≤ Binary.signed negative (m * 2 ^ (-1074 : Int)) := hu
        _ ≤ |Binary.signed negative (m * 2 ^ (-1074 : Int))| := le_abs_self _
        _ = m * 2 ^ (-1074 : Int) := Binary.abs_signed negative (by positivity)
    have hm := le_of_mul_le_mul_right hsize (by positivity)
    exact_mod_cast hm

theorem isNormal_of_approximates {n : Nat} (hx : Approximates (α := Machine) n x v) (hn : n ≤ 10)
    (hv : 10 ^ (-300 : Int) ≤ v) : IsNormal x := by
  have hpos : 0 < v := lt_of_lt_of_le (by positivity) hv
  obtain ⟨u, hu, hclose⟩ := hx
  obtain ⟨hlow, -⟩ := hclose.hundredth (hclose.pos hpos).le hpos.le hn
  refine isNormal_of_denotes hu ?_
  calc (2 : ℚ) ^ (-1022 : Int) ≤ 2 ^ (-1 + -1000 : Int) := zpow_le_zpow_right₀ one_le_two (by omega)
    _ = 2 ^ (-1 : Int) * 2 ^ (-1000 : Int) := zpow_add₀ two_ne_zero _ _
    _ ≤ 0.99 * v := mul_le_mul (by norm_num) (le_ten_pow.trans hv) (by positivity) (by norm_num)
    _ ≤ u := hlow

theorem isNormal_tenTo (h : Faithful Machine) {k : Int} (hk : |k| ≤ 300) :
    IsNormal (tenTo (α := Machine) k) :=
  isNormal_of_approximates (h.tenTo hk) (by decide)
    (zpow_le_zpow_right₀ (by norm_num) (abs_le.1 hk).1)

theorem isNormal_product (h : Faithful Machine) (hx : Denotes (α := Machine) x v) (hv : 0 < v)
    (hrange : InRange v) {estimate : Int} (hest : |estimate - exponent v| ≤ 1) {digits : Nat}
    {n : Int} (hn : n ∈ (tracedSplit (α := Machine) estimate x digits).shifts)
    {y : Machine .double} (hy : y ∈ products (α := Machine) x n) : IsNormal y := by
  obtain ⟨w, hw, happrox⟩ := products_approximate h hx hv hrange hest hn hy
  exact isNormal_of_approximates happrox (by decide)
    (moderate_products hv hrange hest hn hw).lt.1.le

theorem exponent_least : exponent (2 ^ (-1074 : Int)) = -324 := by
  have hlow : (2 : Nat) ^ 1074 ≤ 10 ^ 324 := by decide +kernel
  have hhigh : (10 : Nat) ^ 323 < 2 ^ 1074 := by decide +kernel
  apply exponent_eq
  · rw [zpow_neg, zpow_neg]
    exact inv_anti₀ (by positivity) (by exact_mod_cast hlow)
  · change (2 : ℚ) ^ (-1074 : Int) < 10 ^ (-323 : Int)
    rw [zpow_neg, zpow_neg]
    exact inv_strictAnti₀ (by positivity) (by exact_mod_cast hhigh)

/-- Every positive number of double precision is scaled without leaving the range, whatever the
number of digits, from an estimate of its exponent that is at most one off.  In exact arithmetic the
powers and products stay off both ends.  In double precision they do so with any library; with an
accurate one they are normal numbers themselves. -/
theorem scaling_in_range (hx : Denotes (α := Machine) x v) (hv : 0 < v) {estimate : Int}
    (hest : |estimate - exponent v| ≤ 1) (digits : Nat) :
    let exactly := tracedSplit (α := Exact) estimate v digits
    let rounded := tracedSplit (α := Machine) estimate x digits
    exactly.result = split (α := Exact) estimate v digits ∧ StaysInRange v exactly ∧
      rounded.result = split (α := Machine) estimate x digits ∧
      (∀ k ∈ rounded.powers, -300 ≤ k ∧ k ≤ 300) ∧
      (∀ n ∈ rounded.shifts, (∀ y ∈ products (α := Exact) v n,
          (10 : ℚ) ^ (-300 : Int) < y ∧ y < (10 : ℚ) ^ (300 : Int)) ∧
        ((10 : ℚ) ^ (-2 : Int) ≤ shift (α := Exact) v n ∧
          shift (α := Exact) v n < (10 : ℚ) ^ (19 : Int)) ∧
        (products (α := Machine) x n).getLast? = some (shift (α := Machine) x n)) ∧
      (AccurateLibrary Float.pow Float.log10 Float.floor → StaysInRange v rounded ∧
        (∀ k ∈ rounded.powers, IsNormal (tenTo (α := Machine) k)) ∧
        ∀ n ∈ rounded.shifts, ∀ y ∈ products (α := Machine) x n, IsNormal y) := by
  have hrange := inRange (denotes_iff.1 hx) hv.ne'
  refine ⟨result_tracedSplit _ _ _,
    staysInRange_tracedSplit faithful_exact ⟨rfl, rfl⟩ hv hrange hest digits,
    result_tracedSplit _ _ _, fun k hk => abs_le.1 (abs_of_mem_powers hrange hest hk),
    fun n hn => ⟨fun y hy => (moderate_products hv hrange hest hn hy).lt, ?_,
      getLast?_products x n⟩, fun hlibrary => ?_⟩
  · rw [shift_eq]
    exact shift_range hv hest hn
  · have h := faithful hlibrary
    exact ⟨staysInRange_tracedSplit h hx hv hrange hest digits,
      fun k hk => isNormal_tenTo h (abs_of_mem_powers hrange hest hk),
      fun n hn y hy => isNormal_product h hx hv hrange hest hn hy⟩

/-- The least positive number, from an estimate that is one too low, is shifted by 341 places. -/
theorem scaling_in_range_least :
    Denotes (α := Machine) (ofWord .double 1) (2 ^ (-1074 : Int)) ∧ (0 : ℚ) < 2 ^ (-1074 : Int) ∧
      |(-325 : Int) - exponent (2 ^ (-1074 : Int))| ≤ 1 ∧
      let exactly := tracedSplit (α := Exact) (-325) ((2 : ℚ) ^ (-1074 : Int)) 17
      let rounded := tracedSplit (α := Machine) (-325) (ofWord .double 1) 17
      exactly.result = split (α := Exact) (-325) ((2 : ℚ) ^ (-1074 : Int)) 17 ∧
        StaysInRange (2 ^ (-1074 : Int)) exactly ∧
        rounded.result = split (α := Machine) (-325) (ofWord .double 1) 17 ∧
        (∀ k ∈ rounded.powers, -300 ≤ k ∧ k ≤ 300) ∧
        (∀ n ∈ rounded.shifts, (∀ y ∈ products (α := Exact) ((2 : ℚ) ^ (-1074 : Int)) n,
            (10 : ℚ) ^ (-300 : Int) < y ∧ y < (10 : ℚ) ^ (300 : Int)) ∧
          ((10 : ℚ) ^ (-2 : Int) ≤ shift (α := Exact) ((2 : ℚ) ^ (-1074 : Int)) n ∧
            shift (α := Exact) ((2 : ℚ) ^ (-1074 : Int)) n < (10 : ℚ) ^ (19 : Int)) ∧
          (products (α := Machine) (ofWord .double 1) n).getLast? =
            some (shift (α := Machine) (ofWord .double 1) n)) ∧
        (AccurateLibrary Float.pow Float.log10 Float.floor →
          StaysInRange (2 ^ (-1074 : Int)) rounded ∧
          (∀ k ∈ rounded.powers, IsNormal (tenTo (α := Machine) k)) ∧
          ∀ n ∈ rounded.shifts, ∀ y ∈ products (α := Machine) (ofWord .double 1) n,
            IsNormal y) := by
  have hdatum : datum (ofWord .double 1) = .finite false 1 (-1074) :=
    (datum_ofWord (p := .double) (by decide)).trans (by decide)
  have hx : Denotes (α := Machine) (ofWord .double 1) (2 ^ (-1074 : Int)) := by
    have h := denotes_of_datum hdatum
    rwa [Nat.cast_one, one_mul] at h
  have hest : |(-325 : Int) - exponent (2 ^ (-1074 : Int))| ≤ 1 := by
    rw [exponent_least]
    decide
  exact ⟨hx, by positivity, hest, scaling_in_range hx (by positivity) hest 17⟩

end Machine

end Metrology
