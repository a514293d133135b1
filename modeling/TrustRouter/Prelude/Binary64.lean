import Mathlib.Data.Int.Log
import Mathlib.Tactic.NormNum
import TrustRouter.Prelude.F64

/-!
# IEEE binary64, round to nearest, ties to even

The `Rounding` of the hardware.  A non-zero exact result `q` is written in units
of the last place of its binade, `2 ^ ulpExp q`; the number of units is rounded
to the nearest integer, ties to even; and a result that reaches `2 ^ 1024`
becomes an infinity.

Two observations carry the three laws.  A binade is rounded by one monotone map
(`roundTies_mono`), and the powers of two that separate binades are fixed, so a
value from a lower binade cannot overtake one from a higher (`magnitude_mono`).
A rounded value lies on the grid of its own binade, or is the power of two above
it, which lies on every finer grid (`magnitude_magnitude`).
-/

namespace TrustRouter

namespace Binary64

/-! ### Ties to even on the integers -/

/-- The nearest integer, ties to even. -/
def roundTies (x : ℚ) : ℤ :=
  if x - ⌊x⌋ < 1 / 2 then ⌊x⌋
  else if 1 / 2 < x - ⌊x⌋ then ⌊x⌋ + 1
  else ⌊x⌋ + ⌊x⌋ % 2

theorem floor_le_roundTies (x : ℚ) : ⌊x⌋ ≤ roundTies x := by
  unfold roundTies
  split_ifs <;> omega

theorem roundTies_le_floor_add_one (x : ℚ) : roundTies x ≤ ⌊x⌋ + 1 := by
  unfold roundTies
  split_ifs <;> omega

@[simp] theorem roundTies_intCast (n : ℤ) : roundTies n = n := by
  simp [roundTies]

theorem roundTies_mono {x y : ℚ} (le : x ≤ y) : roundTies x ≤ roundTies y := by
  rcases (Int.floor_le_floor le).lt_or_eq with lt | same
  · -- different unit cells: the upper end of one is the lower end of the next
    exact (roundTies_le_floor_add_one x).trans (Int.add_one_le_iff.mpr lt |>.trans
      (floor_le_roundTies y))
  · -- one cell: only the fractional part decides
    unfold roundTies
    rw [same]
    have parity := Int.emod_nonneg ⌊y⌋ (by decide : (2 : ℤ) ≠ 0)
    have parity' : ⌊y⌋ % 2 < 2 := Int.emod_lt_of_pos _ (by decide)
    split_ifs <;> first | omega | (exfalso; linarith)

/-- An integer bound on the argument is a bound on the result. -/
theorem roundTies_le {x : ℚ} {n : ℤ} (le : x ≤ n) : roundTies x ≤ n := by
  simpa using roundTies_mono le

theorem le_roundTies {x : ℚ} {n : ℤ} (le : (n : ℚ) ≤ x) : n ≤ roundTies x := by
  simpa using roundTies_mono le

/-! ### Magnitudes -/

/-- The exponent of the unit in the last place: 52 below the leading bit, and
never below that of the subnormal numbers. -/
def ulpExp (q : ℚ) : ℤ := max (Int.log 2 q) (-1022) - 52

/-- A non-negative exact result, rounded without regard to overflow. -/
def magnitude (q : ℚ) : ℚ := roundTies (q / 2 ^ ulpExp q) * 2 ^ ulpExp q

private theorem two_zpow_pos (e : ℤ) : (0 : ℚ) < 2 ^ e := zpow_pos (by norm_num) e

@[simp] theorem magnitude_zero : magnitude 0 = 0 := by
  have ties : roundTies 0 = 0 := by simpa using roundTies_intCast 0
  simp [magnitude, ties]

theorem magnitude_nonneg {q : ℚ} (nonneg : 0 ≤ q) : 0 ≤ magnitude q := by
  have units : (0 : ℤ) ≤ roundTies (q / 2 ^ ulpExp q) :=
    le_roundTies (by simpa using div_nonneg nonneg (two_zpow_pos _).le)
  exact mul_nonneg (by exact_mod_cast units) (two_zpow_pos _).le

/-- A value on the grid of its own binade is left alone. -/
theorem magnitude_of_grid {q : ℚ} {n : ℤ} (grid : q = n * 2 ^ ulpExp q) :
    magnitude q = q := by
  have units : q / 2 ^ ulpExp q = n := by
    rw [div_eq_iff (two_zpow_pos _).ne']
    exact grid
  rw [magnitude, units, roundTies_intCast]
  exact grid.symm

/-- A multiple of a power of two is on every finer grid. -/
theorem magnitude_of_le {q : ℚ} {n e : ℤ} (le : ulpExp q ≤ e) (value : q = n * 2 ^ e) :
    magnitude q = q := by
  obtain ⟨k, rfl⟩ : ∃ k : ℕ, e = ulpExp q + k := ⟨(e - ulpExp q).toNat, by omega⟩
  refine magnitude_of_grid (n := n * 2 ^ k) ?_
  push_cast
  rw [zpow_add₀ (by norm_num), zpow_natCast] at value
  linarith [value]

theorem lt_two_zpow_ulpExp (q : ℚ) : q < 2 ^ (ulpExp q + 53) := by
  refine (Int.lt_zpow_succ_log_self (by norm_num : 1 < 2) q).trans_le ?_
  exact_mod_cast zpow_le_zpow_right₀ (by norm_num : (1 : ℚ) ≤ 2) (by unfold ulpExp; omega)

theorem units_le (q : ℚ) : roundTies (q / 2 ^ ulpExp q) ≤ 2 ^ 53 := by
  refine roundTies_le ?_
  rw [div_le_iff₀ (two_zpow_pos _)]
  have bound := (lt_two_zpow_ulpExp q).le
  rw [zpow_add₀ (by norm_num)] at bound
  push_cast
  linarith

/-- The upper end of a binade bounds what the binade is rounded to. -/
theorem magnitude_le_two_zpow (q : ℚ) : magnitude q ≤ 2 ^ (ulpExp q + 53) := by
  have units : (roundTies (q / 2 ^ ulpExp q) : ℚ) ≤ 2 ^ (53 : ℕ) := by
    exact_mod_cast units_le q
  rw [magnitude, add_comm, zpow_add₀ (by norm_num)]
  exact mul_le_mul_of_nonneg_right (by exact_mod_cast units) (two_zpow_pos _).le

/-- The lower end of a normal binade bounds it from below. -/
theorem two_zpow_le_magnitude {q : ℚ} (pos : 0 < q) (normal : -1022 ≤ Int.log 2 q) :
    2 ^ (ulpExp q + 52) ≤ magnitude q := by
  have leading : (2 : ℚ) ^ (ulpExp q + 52) ≤ q := by
    have self := Int.zpow_log_le_self (by norm_num : 1 < 2) pos
    have same : ulpExp q + 52 = Int.log 2 q := by unfold ulpExp; omega
    rw [same]
    exact_mod_cast self
  have units : (2 : ℤ) ^ 52 ≤ roundTies (q / 2 ^ ulpExp q) := by
    refine le_roundTies ?_
    rw [le_div_iff₀ (two_zpow_pos _)]
    rw [add_comm, zpow_add₀ (by norm_num)] at leading
    exact_mod_cast leading
  have units' : (2 : ℚ) ^ (52 : ℕ) ≤ roundTies (q / 2 ^ ulpExp q) := by exact_mod_cast units
  rw [magnitude, add_comm, zpow_add₀ (by norm_num)]
  exact mul_le_mul_of_nonneg_right (by exact_mod_cast units') (two_zpow_pos _).le

theorem magnitude_mono {p q : ℚ} (nonneg : 0 ≤ p) (le : p ≤ q) :
    magnitude p ≤ magnitude q := by
  rcases nonneg.eq_or_lt with rfl | pos
  · simpa using magnitude_nonneg le
  have log_le : Int.log 2 p ≤ Int.log 2 q := Int.log_mono_right pos le
  rcases (show ulpExp p ≤ ulpExp q by unfold ulpExp; omega).lt_or_eq with lt | same
  · -- the power of two between the binades separates the results
    have normal : -1022 ≤ Int.log 2 q := by unfold ulpExp at lt; omega
    calc magnitude p ≤ 2 ^ (ulpExp p + 53) := magnitude_le_two_zpow p
      _ ≤ 2 ^ (ulpExp q + 52) := zpow_le_zpow_right₀ (by norm_num) (by omega)
      _ ≤ magnitude q := two_zpow_le_magnitude (pos.trans_le le) normal
  · have units := roundTies_mono (div_le_div_of_nonneg_right le (two_zpow_pos (ulpExp q)).le)
    unfold magnitude
    rw [same]
    exact mul_le_mul_of_nonneg_right (by exact_mod_cast units) (two_zpow_pos _).le

/-- Rounding a rounded magnitude changes nothing. -/
theorem magnitude_magnitude {q : ℚ} (nonneg : 0 ≤ q) :
    magnitude (magnitude q) = magnitude q := by
  rcases nonneg.eq_or_lt with rfl | pos
  · simp
  rcases (magnitude_nonneg nonneg).eq_or_lt with zero | positive
  · rw [← zero, magnitude_zero]
  rcases (units_le q).lt_or_eq with below | top
  · -- still inside the binade: the grid can only have become finer
    refine magnitude_of_le (n := roundTies (q / 2 ^ ulpExp q)) (e := ulpExp q) ?_ rfl
    have inside : magnitude q < 2 ^ (ulpExp q + 53) := by
      rw [magnitude, add_comm (ulpExp q), zpow_add₀ (by norm_num)]
      exact mul_lt_mul_of_pos_right (by exact_mod_cast below) (two_zpow_pos _)
    have log_lt : Int.log 2 (magnitude q) < ulpExp q + 53 :=
      (Int.lt_zpow_iff_log_lt (by norm_num) positive).mp (by exact_mod_cast inside)
    have floor : -1022 - 52 ≤ ulpExp q := by unfold ulpExp; omega
    have unfolded : ulpExp (magnitude q) = max (Int.log 2 (magnitude q)) (-1022) - 52 := rfl
    omega
  · -- rounded up to the power of two above the binade
    have value : magnitude q = 2 ^ (ulpExp q + 53) := by
      rw [magnitude, top, add_comm, zpow_add₀ (by norm_num)]
      norm_num
    have log_eq : Int.log 2 (magnitude q) = ulpExp q + 53 := by
      rw [value]
      exact_mod_cast Int.log_zpow (R := ℚ) (by norm_num : 1 < 2) (ulpExp q + 53)
    refine magnitude_of_le (n := 1) (e := ulpExp q + 53) ?_ (by simpa using value)
    have floor : -1022 - 52 ≤ ulpExp q := by unfold ulpExp; omega
    have unfolded : ulpExp (magnitude q) = max (Int.log 2 (magnitude q)) (-1022) - 52 := rfl
    omega

/-! ### Signs and overflow -/

/-- Round to nearest, ties to even, overflowing to an infinity at `2 ^ 1024`. -/
def nearest (q : ℚ) : F64 :=
  if 0 ≤ q then
    if magnitude q < 2 ^ 1024 then .finite (magnitude q) else .posInf
  else
    if magnitude (-q) < 2 ^ 1024 then .finite (-magnitude (-q)) else .negInf

theorem nearest_of_nonneg {q : ℚ} (nonneg : 0 ≤ q) :
    nearest q = if magnitude q < 2 ^ 1024 then .finite (magnitude q) else .posInf :=
  if_pos nonneg

theorem nearest_of_neg {q : ℚ} (neg : q < 0) :
    nearest q = if magnitude (-q) < 2 ^ 1024 then .finite (-magnitude (-q)) else .negInf :=
  if_neg (not_le.mpr neg)

theorem nearest_mono {p q : ℚ} (le : p ≤ q) : nearest p ≤ nearest q := by
  rcases le_or_gt 0 p with hp | hp
  · have mono := magnitude_mono hp le
    rw [nearest_of_nonneg hp, nearest_of_nonneg (hp.trans le)]
    split_ifs with fits fits' fits'
    · simpa using mono
    · simp
    · exact absurd (mono.trans_lt fits') fits
    · rfl
  · rw [nearest_of_neg hp]
    rcases le_or_gt 0 q with hq | hq
    · have lower := magnitude_nonneg (neg_nonneg.mpr hp.le)
      have upper := magnitude_nonneg hq
      rw [nearest_of_nonneg hq]
      split_ifs
      · simpa using (neg_nonpos.mpr lower).trans upper
      · simp
      · rfl
      · rfl
    · have mono := magnitude_mono (neg_nonneg.mpr hq.le) (neg_le_neg le)
      rw [nearest_of_neg hq]
      split_ifs with fits fits' fits'
      · simpa using mono
      · exact absurd (mono.trans_lt fits) fits'
      · rfl
      · rfl

theorem nearest_idem {p q : ℚ} (value : nearest p = .finite q) : nearest q = .finite q := by
  rcases le_or_gt 0 p with hp | hp
  · rw [nearest_of_nonneg hp] at value
    split_ifs at value with fits
    obtain rfl := F64.finite.inj value
    rw [nearest_of_nonneg (magnitude_nonneg hp), magnitude_magnitude hp, if_pos fits]
  · have hp' := neg_nonneg.mpr hp.le
    rw [nearest_of_neg hp] at value
    split_ifs at value with fits
    obtain rfl := F64.finite.inj value
    rcases (magnitude_nonneg hp').eq_or_lt with zero | positive
    · rw [← zero]
      simp [nearest]
    · rw [nearest_of_neg (neg_neg_of_pos positive), neg_neg, magnitude_magnitude hp',
        if_pos fits]

end Binary64

/-- IEEE binary64 arithmetic. -/
abbrev Rounding.nearestEven : Rounding where
  round := Binary64.nearest
  round_mono := Binary64.nearest_mono
  round_idem := Binary64.nearest_idem
  round_zero := by simp [Binary64.nearest]

/-- A representable number of at least one lies on a grid that contains one, and so does
what is left when one is taken from it. -/
theorem Rounding.countsExactly_nearestEven :
    letI := Rounding.nearestEven
    Rounding.CountsExactly := by
  let _ := Rounding.nearestEven
  have onGrid : ∀ {q : ℚ} {n e : ℤ}, 0 ≤ q → q < 2 ^ 53 → Binary64.ulpExp q ≤ e →
      q = n * 2 ^ e → Binary64.nearest q = .finite q := by
    intro q n e nonneg small fine grid
    have fixed : Binary64.magnitude q = q := Binary64.magnitude_of_le fine grid
    have fits : Binary64.magnitude q < 2 ^ 1024 := by
      rw [fixed]
      exact small.trans (pow_lt_pow_right₀ (by norm_num) (by norm_num))
    rw [Binary64.nearest_of_nonneg nonneg, if_pos fits, fixed]
  have coarse : ∀ {q : ℚ}, 0 < q → q < 2 ^ 53 → Binary64.ulpExp q ≤ 0 := by
    intro q pos small
    have log_lt : Int.log 2 q < 53 :=
      (Int.lt_zpow_iff_log_lt (by norm_num) pos).mp (by exact_mod_cast small)
    unfold Binary64.ulpExp
    omega
  constructor
  · intro n small
    have small' : (n : ℚ) < 2 ^ 53 := by exact_mod_cast small
    rcases n.eq_zero_or_pos with rfl | pos
    · simpa using Rounding.round_zero
    · exact onGrid (n := n) (Nat.cast_nonneg n) small' (coarse (Nat.cast_pos.mpr pos) small')
        (by simp)
  · intro q representable least small
    have pos : 0 < q := by linarith
    have ulp := coarse pos small
    have value : Binary64.nearest q = .finite q := representable
    rw [Binary64.nearest_of_nonneg pos.le] at value
    split_ifs at value with fits
    have fixed : Binary64.magnitude q = q := F64.finite.inj value
    -- zero has no exponent, so it is a case of its own
    rcases least.eq_or_lt with one | more
    · have zero : q - 1 = 0 := by linarith
      rw [zero]
      exact Rounding.round_zero
    have lower : Binary64.ulpExp (q - 1) ≤ Binary64.ulpExp q := by
      have log_le : Int.log 2 (q - 1) ≤ Int.log 2 q :=
        Int.log_mono_right (by linarith) (by linarith)
      unfold Binary64.ulpExp
      omega
    obtain ⟨k, exponent⟩ : ∃ k : ℕ, Binary64.ulpExp q = -k := ⟨(-Binary64.ulpExp q).toNat, by omega⟩
    refine onGrid (n := Binary64.roundTies (q / 2 ^ Binary64.ulpExp q) - 2 ^ k) (by linarith)
      (by linarith) lower ?_
    have grid : q = Binary64.roundTies (q / 2 ^ Binary64.ulpExp q) * 2 ^ Binary64.ulpExp q :=
      fixed.symm
    -- one is a multiple of the spacing, so taking it stays on the grid
    have unit : (2 : ℚ) ^ k * 2 ^ Binary64.ulpExp q = 1 := by
      rw [exponent, zpow_neg, zpow_natCast]
      exact mul_inv_cancel₀ (by positivity)
    push_cast
    rw [sub_mul, unit, ← grid]

/-- The cast of a `u64` is finite. -/
theorem Rounding.isFinite_ofU64_nearestEven :
    letI := Rounding.nearestEven
    ∀ n : UInt64, (F64.ofU64 n).isFinite = true := by
  let _ := Rounding.nearestEven
  intro n
  have above : F64.ofRat 0 ≤ F64.ofU64 n := Rounding.round_mono (Nat.cast_nonneg _)
  have below : F64.ofU64 n ≤ F64.ofRat (2 ^ 64) := by
    refine Rounding.round_mono ?_
    exact_mod_cast n.toNat_lt.le
  have least : F64.ofRat 0 = .finite 0 := Rounding.round_zero
  have most : F64.ofRat (2 ^ 64) = .finite (2 ^ 64) := by decide +kernel
  rw [least] at above
  rw [most] at below
  cases value : F64.ofU64 n with
  | finite a => rfl
  | nan => simp [value] at above
  | negInf => simp [value] at above
  | posInf => simp [value] at below

/-- `0.1 + 0.2` is not `0.3`: the decimal literals are rounded, and so is the
sum. -/
example :
    letI := Rounding.nearestEven
    F64.ofRat (1 / 10) + F64.ofRat (2 / 10) ≠ F64.ofRat (3 / 10) := by
  decide +kernel

end TrustRouter
