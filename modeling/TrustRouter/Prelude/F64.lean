import Mathlib.Algebra.Order.Ring.Rat
import Mathlib.Data.Prod.Lex
import Mathlib.Data.Rat.Floor
import Mathlib.Tactic.Linarith
import Mathlib.Tactic.Positivity

/-!
# `f64` values up to a rounding

An `f64` operation computes the exact result and then rounds it.  `F64` is the
type of results (a finite value, one of the infinities, or NaN) and `Rounding`
is the second half of every operation, kept as a parameter.  A statement proved
for every `Rounding` is a statement about exact arithmetic (`Rounding.exact`)
and about IEEE binary64 (`Rounding.nearestEven`, in `Prelude.Binary64`) at once;
a counterexample picks the instance it lives in.

The sign of zero is not represented: `-0.0` and `0.0` compare equal, and none of
the operations below is ever applied to a divisor whose sign it would decide.

## What a rounding promises

Three laws, all of which round-to-nearest-even has: rounding is monotone, it
leaves its own results alone, and it fixes zero.  They are what a search over
rounded sums needs.  Monotonicity makes a cheaper prefix give a cheaper sum, and
the last two make adding a non-negative cost never give less than one started
from (`Cost.le_of_add_eq`).

`NotNeg` is the working invariant of cost expressions: it is closed under every
operation a cost model uses, NaN included, so that what survives the finiteness
test of a search is a finite non-negative number.
-/

namespace TrustRouter

/-- A 64-bit floating point value, without the sign of zero. -/
inductive F64 where
  | nan
  | negInf
  | finite (value : ℚ)
  | posInf
  deriving DecidableEq

namespace F64

instance : Inhabited F64 := ⟨finite 0⟩

/-- The IEEE comparison `<`; false as soon as one side is NaN. -/
def lt : F64 → F64 → Bool
  | finite a, finite b => decide (a < b)
  | negInf, finite _ | negInf, posInf | finite _, posInf => true
  | _, _ => false

/-- The IEEE comparison `<=`; false as soon as one side is NaN. -/
def le : F64 → F64 → Bool
  | nan, _ | _, nan => false
  | finite a, finite b => decide (a ≤ b)
  | negInf, _ | _, posInf => true
  | posInf, _ | _, negInf => false

instance : LT F64 := ⟨fun a b => lt a b = true⟩

instance : LE F64 := ⟨fun a b => le a b = true⟩

instance (a b : F64) : Decidable (a < b) := inferInstanceAs (Decidable (lt a b = true))

instance (a b : F64) : Decidable (a ≤ b) := inferInstanceAs (Decidable (le a b = true))

@[simp] theorem finite_lt_finite {a b : ℚ} : finite a < finite b ↔ a < b :=
  decide_eq_true_iff

@[simp] theorem finite_le_finite {a b : ℚ} : finite a ≤ finite b ↔ a ≤ b :=
  decide_eq_true_iff

@[simp] theorem finite_lt_posInf (a : ℚ) : finite a < posInf := rfl

@[simp] theorem finite_le_posInf (a : ℚ) : finite a ≤ posInf := rfl

@[simp] theorem not_posInf_lt (x : F64) : ¬ posInf < x := by
  cases x <;> exact Bool.false_ne_true

@[simp] theorem not_nan_lt (x : F64) : ¬ nan < x := by
  cases x <;> exact Bool.false_ne_true

@[simp] theorem not_lt_nan (x : F64) : ¬ x < nan := by
  cases x <;> exact Bool.false_ne_true

@[simp] theorem not_nan_le (x : F64) : ¬ nan ≤ x := by
  cases x <;> exact Bool.false_ne_true

@[simp] theorem not_le_nan (x : F64) : ¬ x ≤ nan := by
  cases x <;> exact Bool.false_ne_true

@[simp] theorem not_finite_le_negInf (a : ℚ) : ¬ finite a ≤ negInf := Bool.false_ne_true

@[simp] theorem not_posInf_le_finite (a : ℚ) : ¬ posInf ≤ finite a := Bool.false_ne_true

/-- Numbers that are not NaN are comparable. -/
theorem le_of_not_lt {x y : F64} (hx : x ≠ nan) (hy : y ≠ nan) (notLt : ¬ y < x) : x ≤ y := by
  cases x with
  | nan => exact absurd rfl hx
  | finite a =>
      cases y with
      | nan => exact absurd rfl hy
      | finite b => exact finite_le_finite.mpr (not_lt.mp fun lt => notLt (finite_lt_finite.mpr lt))
      | negInf => exact absurd rfl notLt
      | posInf => rfl
  | negInf => cases y <;> first | rfl | exact absurd rfl hy
  | posInf => cases y <;> first | rfl | exact absurd rfl hy | exact absurd rfl notLt

theorem not_lt_of_le {x y : F64} (order : x ≤ y) : ¬ y < x := by
  cases x <;> cases y <;> first | exact absurd order Bool.false_ne_true | skip
  case finite.finite a b => simpa using order
  all_goals exact Bool.false_ne_true

/-- What a comparison that is false says of numbers that are not NaN. -/
theorem not_lt_iff {x y : F64} (hx : x ≠ nan) (hy : y ≠ nan) : ¬ y < x ↔ x ≤ y :=
  ⟨le_of_not_lt hx hy, not_lt_of_le⟩

/-- `f64::is_finite`. -/
def isFinite : F64 → Bool
  | finite _ => true
  | _ => false

/-- `f64::is_infinite`. -/
def isInfinite : F64 → Bool
  | posInf | negInf => true
  | _ => false

/-- `f64::is_nan`. -/
def isNan : F64 → Bool
  | nan => true
  | _ => false

@[simp] theorem isFinite_finite (a : ℚ) : (finite a).isFinite = true := rfl

theorem isFinite_iff {x : F64} : x.isFinite = true ↔ ∃ a, x = finite a := by
  cases x <;> simp [isFinite]

/-- The value of a finite number. -/
def toRat : F64 → ℚ
  | finite a => a
  | _ => 0

/-- `f64::clamp(lo, hi)`; NaN stays NaN. -/
def clamp (x lo hi : F64) : F64 :=
  if x < lo then lo else if hi < x then hi else x

/-- `f64::min`, which ignores a NaN. -/
protected def min (x y : F64) : F64 := if x < y ∨ y = nan then x else y

/-- `f64::max`, which ignores a NaN. -/
protected def max (x y : F64) : F64 := if y < x ∨ y = nan then x else y

@[simp] theorem finite_min_finite (a b : ℚ) :
    (finite a).min (finite b) = finite (min a b) := by
  by_cases below : a < b
  · simp [F64.min, below, below.le]
  · simp [F64.min, below, not_lt.mp below]

@[simp] theorem finite_max_finite (a b : ℚ) :
    (finite a).max (finite b) = finite (max a b) := by
  by_cases above : b < a
  · simp [F64.max, above, above.le]
  · simp [F64.max, above, not_lt.mp above]

/-- `f64::round`: to the nearest integer, halves away from zero. -/
def roundAway : F64 → F64
  | finite a => finite (if a < 0 then ⌈a - 1 / 2⌉ else ⌊a + 1 / 2⌋)
  | x => x

/-- The saturating cast `as usize` on a 64-bit target. -/
def toUsize : F64 → ℕ
  | finite a => min ⌊a⌋₊ (2 ^ 64 - 1)
  | posInf => 2 ^ 64 - 1
  | nan | negInf => 0

/-- The saturating cast `as u64`. -/
def toU64 (x : F64) : UInt64 := .ofNat x.toUsize

/-- `f64::abs`. -/
def abs : F64 → F64
  | finite a => finite |a|
  | negInf | posInf => posInf
  | nan => nan

/-- `f64::MAX`. -/
def maxFinite : F64 := finite ((2 ^ 53 - 1) * 2 ^ 971)

/-- `f64::EPSILON`. -/
def epsilon : F64 := finite (1 / 2 ^ 52)

/-- `f64::partial_cmp`. -/
def partialCmp (x y : F64) : Option Ordering :=
  if x < y then some .lt
  else if y < x then some .gt
  else if x = nan ∨ y = nan then none
  else some .eq

/-- The place of a value in the order of `total_cmp`.  A NaN is taken to be positive, which
puts it above everything. -/
def totalKey : F64 → ℕ ×ₗ ℚ
  | negInf => toLex (0, 0)
  | finite a => toLex (1, a)
  | posInf => toLex (2, 0)
  | nan => toLex (3, 0)

/-- `f64::total_cmp`. -/
def totalCmp (x y : F64) : Ordering := compare x.totalKey y.totalKey

/-- The total order extends the IEEE comparison. -/
theorem totalKey_lt_of_lt {x y : F64} (lt : x < y) : x.totalKey < y.totalKey := by
  cases x with
  | nan => exact absurd lt (not_nan_lt y)
  | posInf => exact absurd lt (not_posInf_lt y)
  | negInf =>
      cases y with
      | nan | negInf => exact absurd lt Bool.false_ne_true
      | finite | posInf => exact Prod.Lex.toLex_lt_toLex.mpr (.inl (Nat.zero_lt_succ _))
  | finite a =>
      cases y with
      | nan | negInf => exact absurd lt Bool.false_ne_true
      | finite b => exact Prod.Lex.toLex_lt_toLex.mpr (.inr ⟨rfl, finite_lt_finite.mp lt⟩)
      | posInf => exact Prod.Lex.toLex_lt_toLex.mpr (.inl (Nat.lt_succ_self _))

/-- Only equal values compare equal in the total order. -/
theorem totalKey_injective : Function.Injective totalKey := by
  intro x y same
  cases x <;> cases y <;> simp_all [totalKey]

/-- The IEEE comparison `==`; NaN is not equal to itself. -/
def ieeeEq (x y : F64) : Bool := x ≠ nan && x = y

/-! ### Expressions that are never negative -/

/-- Not below zero.  NaN qualifies, which is what makes the predicate closed
under all the operations of a cost expression. -/
def NotNeg (x : F64) : Prop := ¬ x < finite 0

@[simp] theorem notNeg_finite {a : ℚ} : NotNeg (finite a) ↔ 0 ≤ a := by
  simp [NotNeg]

theorem notNeg_posInf : NotNeg posInf := not_posInf_lt _

theorem notNeg_nan : NotNeg nan := not_nan_lt _

theorem not_notNeg_negInf : ¬ NotNeg negInf := fun h => h rfl

/-- What is not negative is NaN, infinite, or a number from zero on. -/
theorem NotNeg.cases {x : F64} (hx : NotNeg x) :
    x = nan ∨ x = posInf ∨ ∃ a : ℚ, x = finite a ∧ 0 ≤ a := by
  cases x with
  | nan => exact .inl rfl
  | negInf => exact absurd hx not_notNeg_negInf
  | posInf => exact .inr (.inl rfl)
  | finite a => exact .inr (.inr ⟨a, rfl, notNeg_finite.mp hx⟩)

/-- Clamping from below by zero gives a value that is not negative, whatever is
clamped. -/
theorem notNeg_clamp_zero (x : F64) {hi : F64} (hhi : NotNeg hi) :
    NotNeg (x.clamp (finite 0) hi) := by
  unfold clamp
  split_ifs with negative
  · exact notNeg_finite.mpr le_rfl
  · exact hhi
  · exact negative

theorem not_lt_clamp {lo hi : ℚ} (order : lo ≤ hi) (x : F64) :
    ¬ finite hi < x.clamp (finite lo) (finite hi) := by
  unfold clamp
  split_ifs with below above
  · simpa using order
  · simp
  · exact above

/-- What passes a test for infinity and NaN and is not negative is a finite
non-negative number. -/
theorem NotNeg.exists_finite {x : F64} (hx : NotNeg x) (notInf : x.isInfinite = false)
    (notNan : x.isNan = false) : ∃ a : ℚ, x = finite a ∧ 0 ≤ a := by
  rcases hx.cases with rfl | rfl | number
  · cases notNan
  · cases notInf
  · exact number

end F64

open F64

/-- The rounding that ends every arithmetic operation: what becomes of its exact
result. -/
class Rounding where
  /-- The `f64` an operation returns for an exact finite result. -/
  round : ℚ → F64
  /-- Rounding is monotone (and so never NaN). -/
  round_mono : ∀ {p q : ℚ}, p ≤ q → round p ≤ round q
  /-- A finite result of rounding is rounded to itself. -/
  round_idem : ∀ {p q : ℚ}, round p = finite q → round q = finite q
  /-- Zero is exact. -/
  round_zero : round 0 = finite 0

/-- Exact arithmetic: nothing is rounded and nothing overflows. -/
abbrev Rounding.exact : Rounding where
  round := finite
  round_mono := finite_le_finite.mpr
  round_idem := fun _ => rfl
  round_zero := rfl

/-- A rounding fit for counting: integers up to `2 ^ 53` are exact, and so is what is left
of an `f64` in that range when one is taken from it. -/
class Rounding.CountsExactly [Rounding] : Prop where
  round_natCast : ∀ {n : ℕ}, n < 2 ^ 53 → Rounding.round n = finite n
  round_sub_one : ∀ {q : ℚ}, Rounding.round q = finite q → 1 ≤ q → q < 2 ^ 53 →
    Rounding.round (q - 1) = finite (q - 1)

theorem Rounding.countsExactly_exact :
    letI := Rounding.exact
    Rounding.CountsExactly := by
  let _ := Rounding.exact
  exact ⟨fun _ => rfl, fun _ _ _ => rfl⟩

namespace F64

variable [Rounding]

/-- A decimal literal or an integer cast `as f64`: the exact value, rounded. -/
def ofRat (q : ℚ) : F64 := Rounding.round q

theorem ofRat_ne_nan (q : ℚ) : ofRat q ≠ nan := by
  intro isNan
  have le := Rounding.round_mono (le_refl q)
  rw [ofRat] at isNan
  rw [isNan] at le
  exact not_nan_le _ le

/-- The cast of a `u64`. -/
def ofU64 (n : UInt64) : F64 := ofRat n.toNat

def add : F64 → F64 → F64
  | finite a, finite b => Rounding.round (a + b)
  | nan, _ | _, nan | posInf, negInf | negInf, posInf => nan
  | posInf, _ | _, posInf => posInf
  | negInf, _ | _, negInf => negInf

def neg : F64 → F64
  | finite a => finite (-a)
  | posInf => negInf
  | negInf => posInf
  | nan => nan

def sub (x y : F64) : F64 := add x (neg y)

def mul : F64 → F64 → F64
  | finite a, finite b => Rounding.round (a * b)
  | nan, _ | _, nan => nan
  | posInf, finite b | finite b, posInf =>
      if b = 0 then nan else if 0 < b then posInf else negInf
  | negInf, finite b | finite b, negInf =>
      if b = 0 then nan else if 0 < b then negInf else posInf
  | posInf, posInf | negInf, negInf => posInf
  | posInf, negInf | negInf, posInf => negInf

def div : F64 → F64 → F64
  | finite a, finite b =>
      if b = 0 then (if a = 0 then nan else if 0 < a then posInf else negInf)
      else Rounding.round (a / b)
  | nan, _ | _, nan => nan
  | finite _, _ => finite 0
  | posInf, finite b => if 0 ≤ b then posInf else negInf
  | negInf, finite b => if 0 ≤ b then negInf else posInf
  | _, _ => nan

instance : Add F64 := ⟨add⟩

instance : Sub F64 := ⟨sub⟩

instance : Mul F64 := ⟨mul⟩

instance : Div F64 := ⟨div⟩

@[simp] theorem finite_add_finite (a b : ℚ) :
    finite a + finite b = Rounding.round (a + b) := rfl

theorem finite_sub_finite (a b : ℚ) : finite a - finite b = Rounding.round (a - b) :=
  congrArg Rounding.round (sub_eq_add_neg a b).symm

theorem finite_mul_finite (a b : ℚ) : finite a * finite b = Rounding.round (a * b) := rfl

theorem finite_div_finite (a : ℚ) {b : ℚ} (notZero : b ≠ 0) :
    finite a / finite b = Rounding.round (a / b) :=
  if_neg notZero

/-- A sum is finite only if both terms are. -/
theorem exists_finite_of_add {x y : F64} {r : ℚ} (sum : x + y = finite r) :
    ∃ a b, x = finite a ∧ y = finite b := by
  cases x with
  | finite a =>
      cases y with
      | finite b => exact ⟨a, b, rfl, rfl⟩
      | nan | negInf | posInf => cases sum
  | nan | negInf | posInf => cases y <;> cases sum

/-! ### Never-negative operations -/

theorem notNeg_round {q : ℚ} (nonneg : 0 ≤ q) : NotNeg (Rounding.round q) := by
  have above := Rounding.round_mono nonneg
  rw [Rounding.round_zero] at above
  cases value : Rounding.round q with
  | nan => exact notNeg_nan
  | posInf => exact notNeg_posInf
  | negInf => simp [value] at above
  | finite a => simpa [value] using above

theorem NotNeg.add {x y : F64} (hx : NotNeg x) (hy : NotNeg y) : NotNeg (x + y) := by
  rcases hx.cases with rfl | rfl | ⟨a, rfl, ha⟩
  · cases y <;> exact notNeg_nan
  · rcases hy.cases with rfl | rfl | ⟨b, rfl, -⟩
    · exact notNeg_nan
    · exact notNeg_posInf
    · exact notNeg_posInf
  · rcases hy.cases with rfl | rfl | ⟨b, rfl, hb⟩
    · exact notNeg_nan
    · exact notNeg_posInf
    · exact notNeg_round (add_nonneg ha hb)

theorem NotNeg.mul {x y : F64} (hx : NotNeg x) (hy : NotNeg y) : NotNeg (x * y) := by
  have scaled : ∀ b : ℚ, 0 ≤ b →
      NotNeg (if b = 0 then nan else if 0 < b then posInf else negInf) := by
    intro b nonneg
    rcases nonneg.eq_or_lt with rfl | pos
    · simpa using notNeg_nan
    · simpa [pos.ne', pos] using notNeg_posInf
  rcases hx.cases with rfl | rfl | ⟨a, rfl, ha⟩
  · cases y <;> exact notNeg_nan
  · rcases hy.cases with rfl | rfl | ⟨b, rfl, hb⟩
    · exact notNeg_nan
    · exact notNeg_posInf
    · exact scaled b hb
  · rcases hy.cases with rfl | rfl | ⟨b, rfl, hb⟩
    · exact notNeg_nan
    · exact scaled a ha
    · exact notNeg_round (mul_nonneg ha hb)

theorem NotNeg.div {x y : F64} (hx : NotNeg x) (hy : NotNeg y) : NotNeg (x / y) := by
  rcases hx.cases with rfl | rfl | ⟨a, rfl, ha⟩
  · cases y <;> exact notNeg_nan
  · rcases hy.cases with rfl | rfl | ⟨b, rfl, hb⟩
    · exact notNeg_nan
    · exact notNeg_nan
    · show NotNeg (if 0 ≤ b then posInf else negInf)
      simpa [hb] using notNeg_posInf
  · rcases hy.cases with rfl | rfl | ⟨b, rfl, hb⟩
    · exact notNeg_nan
    · exact notNeg_finite.mpr le_rfl
    · show NotNeg (if b = 0 then (if a = 0 then nan else if 0 < a then posInf else negInf)
        else Rounding.round (a / b))
      by_cases zero : b = 0
      · rcases ha.eq_or_lt with rfl | pos
        · simpa [zero] using notNeg_nan
        · simpa [zero, pos.ne', pos] using notNeg_posInf
      · simpa [zero] using notNeg_round (div_nonneg ha hb)

theorem notNeg_one_sub {x : F64} (hx : ¬ finite 1 < x) : NotNeg (finite 1 - x) := by
  cases x with
  | nan => exact notNeg_nan
  | negInf => exact notNeg_posInf
  | posInf => exact absurd rfl hx
  | finite a =>
      have le_one : a ≤ 1 := not_lt.mp fun h => hx (finite_lt_finite.mpr h)
      exact notNeg_round (by linarith)

end F64

/-! ## Non-negative representable costs -/

section Cost

variable [Rounding]

/-- A finite non-negative `f64`: what a search keeps in its queue. -/
structure Cost where
  /-- The number itself. -/
  value : ℚ
  /-- It is not negative. -/
  nonneg : 0 ≤ value
  /-- It is an `f64`: rounding leaves it alone. -/
  representable : Rounding.round value = finite value

namespace Cost

theorem value_injective : Function.Injective (value : Cost → ℚ) := by
  rintro ⟨a, _, _⟩ ⟨b, _, _⟩ (rfl : a = b)
  rfl

noncomputable instance : LinearOrder Cost := LinearOrder.lift' value value_injective

theorem le_iff {c d : Cost} : c ≤ d ↔ c.value ≤ d.value := Iff.rfl

theorem lt_iff {c d : Cost} : c < d ↔ c.value < d.value := Iff.rfl

/-- The cost as the `f64` the program holds; `⊤` is `f64::INFINITY`. -/
def toF64 : WithTop Cost → F64
  | ⊤ => posInf
  | (c : Cost) => finite c.value

@[simp] theorem toF64_top : toF64 ⊤ = posInf := rfl

@[simp] theorem toF64_coe (c : Cost) : toF64 (c : WithTop Cost) = finite c.value := rfl

theorem toF64_injective : Function.Injective toF64 := by
  intro x y equal
  cases x with
  | top =>
      cases y with
      | top => rfl
      | coe d => cases equal
  | coe c =>
      cases y with
      | top => cases equal
      | coe d => exact congrArg _ (value_injective (F64.finite.inj equal))

theorem finite_lt_toF64 {c : Cost} {x : WithTop Cost} :
    finite c.value < toF64 x ↔ (c : WithTop Cost) < x := by
  cases x with
  | top => simp
  | coe d => simp [lt_iff]

/-- The zero cost a search starts from. -/
def zero : Cost := ⟨0, le_rfl, Rounding.round_zero⟩

@[simp] theorem zero_value : zero.value = 0 := rfl

/-- Adding a non-negative number to a cost and rounding never gives less than
the cost: the sum is at least the cost before rounding, and rounding is monotone
and keeps the cost where it is. -/
theorem le_of_add_eq {c : Cost} {w r : ℚ} (nonneg : 0 ≤ w)
    (sum : finite c.value + finite w = finite r) : c.value ≤ r := by
  have rounded := Rounding.round_mono (le_add_of_nonneg_right nonneg : c.value ≤ c.value + w)
  rw [c.representable] at rounded
  rw [finite_add_finite] at sum
  simpa [sum] using rounded

/-- The rounded sum of a cost and a non-negative number, where it stays finite. -/
def ofAdd (c : Cost) {w r : ℚ} (nonneg : 0 ≤ w)
    (sum : finite c.value + finite w = finite r) : Cost where
  value := r
  nonneg := c.nonneg.trans (le_of_add_eq nonneg sum)
  representable := Rounding.round_idem sum

/-- A rounded sum of a cost and a non-negative number is finite or `+∞`. -/
theorem add_eq_finite_or_posInf (c : Cost) {w : ℚ} (nonneg : 0 ≤ w) :
    (∃ r, finite c.value + finite w = finite r) ∨
      finite c.value + finite w = posInf := by
  have above : finite 0 ≤ finite c.value + finite w := by
    rw [finite_add_finite, ← Rounding.round_zero]
    exact Rounding.round_mono (add_nonneg c.nonneg nonneg)
  cases sum : finite c.value + finite w with
  | nan => simp [sum] at above
  | negInf => simp [sum] at above
  | posInf => exact Or.inr rfl
  | finite r => exact Or.inl ⟨r, rfl⟩

/-- A cheaper cost gives a cheaper rounded sum, which is finite when the dearer
one is. -/
theorem add_mono {c d : Cost} (le : c ≤ d) {w r : ℚ} (nonneg : 0 ≤ w)
    (sum : finite d.value + finite w = finite r) :
    ∃ q ≤ r, finite c.value + finite w = finite q := by
  have below : finite c.value + finite w ≤ finite r := by
    rw [← sum, finite_add_finite, finite_add_finite]
    exact Rounding.round_mono (add_le_add (le_iff.mp le) le_rfl)
  rcases add_eq_finite_or_posInf c nonneg with ⟨q, eq⟩ | overflow
  · exact ⟨q, by simpa [eq] using below, eq⟩
  · simp [overflow] at below

end Cost

end Cost

end TrustRouter
