import TrustRouter.Prelude.F64

/-!
# `f64` values as a program can tell them apart

`F64` is what comparisons and arithmetic see.  A program can see more: `total_cmp` tells
`-0.0` from `0.0` and one NaN from another.  `Float64` is a type of such values, with what
they look like to a comparison (`toF64`) and a total order in which only identical values
compare equal.  A statement about every `Float64` is one about the bit patterns of the
hardware, whatever their arithmetic gives (`Float64.ofBits`), and about `F64` itself.
-/

namespace TrustRouter

/-- A type of `f64` values. -/
class Float64 (φ : Type) extends Add φ, Sub φ, Mul φ, Div φ where
  /-- The value as IEEE comparisons see it. -/
  toF64 : φ → F64
  zero : φ
  one : φ
  /-- `f64::total_cmp`. -/
  totalCmp : φ → φ → Ordering
  transCmp : Std.TransCmp totalCmp
  lawfulEqCmp : Std.LawfulEqCmp totalCmp

attribute [instance] Float64.transCmp Float64.lawfulEqCmp

namespace Float64

instance [Rounding] : Float64 F64 where
  toF64 := id
  zero := .finite 0
  one := .finite 1
  totalCmp := F64.totalCmp
  transCmp := inferInstanceAs (Std.TransCmp (compareOn F64.totalKey))
  lawfulEqCmp :=
    { compare_self := Std.ReflOrd.compare_self
      eq_of_compare := fun same => F64.totalKey_injective (compare_eq_iff_eq.mp same) }

@[simp] theorem toF64_self [Rounding] (x : F64) : toF64 x = x := rfl

/-! ### Bit patterns -/

/-- The value of a bit pattern: a sign, eleven bits of exponent and 52 of fraction. -/
def value (bits : UInt64) : F64 :=
  let negative := 2 ^ 63 ≤ bits.toNat
  let exponent : ℕ := bits.toNat / 2 ^ 52 % 2 ^ 11
  let fraction : ℕ := bits.toNat % 2 ^ 52
  if exponent = 2 ^ 11 - 1 then
    if fraction ≠ 0 then .nan else if negative then .negInf else .posInf
  else
    let magnitude : ℚ :=
      if exponent = 0 then fraction / 2 ^ 1074
      else (2 ^ 52 + fraction) * 2 ^ exponent / 2 ^ 1075
    .finite (if negative then -magnitude else magnitude)

/-- The place of a bit pattern in the total order: those with the sign bit come first, the
larger ones earlier. -/
def place (bits : UInt64) : ℕ :=
  if bits.toNat < 2 ^ 63 then 2 ^ 63 + bits.toNat else 2 ^ 64 - 1 - bits.toNat

theorem place_injective : Function.Injective place := by
  intro a b same
  have below := a.toNat_lt
  have below' := b.toNat_lt
  rw [← UInt64.toNat_inj]
  unfold place at same
  split_ifs at same <;> omega

/-- The bit patterns, with any arithmetic on them. -/
abbrev ofBits (add sub mul div : UInt64 → UInt64 → UInt64) : Float64 UInt64 where
  add := add
  sub := sub
  mul := mul
  div := div
  toF64 := value
  zero := 0
  one := 0x3FF0000000000000
  totalCmp := compareOn place
  transCmp := inferInstance
  lawfulEqCmp :=
    { compare_self := Std.ReflOrd.compare_self
      eq_of_compare := fun same => place_injective (Std.LawfulEqOrd.eq_of_compare same) }

/-- The two zeros are equal to a comparison, and apart in the total order. -/
example : value 0x8000000000000000 = value 0 ∧ place 0x8000000000000000 < place 0 := by
  decide +kernel

end Float64

end TrustRouter
