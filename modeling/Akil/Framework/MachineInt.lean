import Mathlib

/-!
# Machine integers

Go's `int64` wraps silently, so a counter that is only ever added to is determined modulo
`2 ^ 64` by the integers that were added.  `Int64` is given its additive monoid structure here
and `int64OfInt` is the additive quotient map from `ℤ`; a sum that fits in the type is
recovered exactly by `toInt_int64OfInt`, whatever wrapped on the way to it.  The kernel's `__u64`
clock readings are `UInt64`, ordered as their values.  An `int32` that counts one up or down is the
integer count as long as it does not pass the ends of its range.
-/

namespace Akil

instance instAddCommMonoidInt64 : AddCommMonoid Int64 where
  add_assoc := Int64.add_assoc
  zero_add := Int64.zero_add
  add_zero := Int64.add_zero
  add_comm := Int64.add_comm
  nsmul := nsmulRec

/-- The quotient map from the integers onto `int64`. -/
def int64OfInt : ℤ →+ Int64 where
  toFun := Int64.ofInt
  map_zero' := rfl
  map_add' := Int64.ofInt_add

/-- The integers an `int64` represents. -/
def FitsInt64 (z : ℤ) : Prop := -2 ^ 63 ≤ z ∧ z < 2 ^ 63

instance (z : ℤ) : Decidable (FitsInt64 z) := inferInstanceAs (Decidable (_ ∧ _))

@[simp] lemma int64OfInt_toInt (x : Int64) : int64OfInt x.toInt = x := Int64.ofInt_toInt x

lemma toInt_int64OfInt {z : ℤ} (h : FitsInt64 z) : (int64OfInt z).toInt = z :=
  Int64.toInt_ofInt_of_le h.1 h.2

/-- Only what fits comes back. -/
lemma toInt_int64OfInt_iff {z : ℤ} : (int64OfInt z).toInt = z ↔ FitsInt64 z := by
  refine ⟨fun h => ?_, toInt_int64OfInt⟩
  rw [← h]
  exact ⟨Int64.le_toInt _, Int64.toInt_lt _⟩

lemma int64OfInt_emod (z : ℤ) : int64OfInt (z % 2 ^ 64) = int64OfInt z := by
  refine Int64.toInt_inj.mp ?_
  change (Int64.ofInt _).toInt = (Int64.ofInt _).toInt
  rw [Int64.toInt_ofInt, Int64.toInt_ofInt]
  exact Int.emod_bmod z (2 ^ 64)

/-- The conversion of a `uint64` to an `int64` keeps it modulo `2 ^ 64`. -/
lemma toInt_toInt64_emod (u : UInt64) : u.toInt64.toInt % 2 ^ 64 = (u.toNat : ℤ) := by
  have hlt : (u.toNat : ℤ) < 2 ^ 64 := by exact_mod_cast u.toNat_lt
  change u.toBitVec.toInt % 2 ^ 64 = (u.toNat : ℤ)
  rw [BitVec.toInt_eq_toNat_bmod]
  refine Int.bmod_emod.trans ?_
  exact Int.emod_eq_of_lt (Int.natCast_nonneg _) hlt

/-- Unsigned words in the order of their values. -/
instance instPreorderUInt64 : Preorder UInt64 where
  toLE := instLEUInt64
  toLT := instLTUInt64
  le_refl a := UInt64.le_refl a
  le_trans _ _ _ hab hbc := UInt64.le_trans hab hbc
  lt_iff_le_not_ge a b := by
    rw [UInt64.lt_iff_toNat_lt, UInt64.le_iff_toNat_le, UInt64.le_iff_toNat_le]
    exact lt_iff_le_not_ge

/-! ## Counting in 32 bits -/

lemma int32_toInt_add_one {c : Int32} (h : c.toInt + 1 < 2 ^ 31) :
    (c + 1).toInt = c.toInt + 1 := by
  have hlow := c.le_toInt
  rw [Int32.toInt_add, Int32.toInt_one]
  exact Int.bmod_eq_of_le (by norm_num at *; omega) (by norm_num at *; omega)

lemma int32_toInt_sub_one {c : Int32} (h : -2 ^ 31 < c.toInt) : (c - 1).toInt = c.toInt - 1 := by
  have hhigh := c.toInt_lt
  rw [Int32.toInt_sub, Int32.toInt_one]
  exact Int.bmod_eq_of_le (by norm_num at *; omega) (by norm_num at *; omega)

lemma int32_toInt_min (a b : Int32) : (min a b).toInt = min a.toInt b.toInt := by
  change (if a ≤ b then a else b).toInt = _
  split_ifs with h
  · rw [min_eq_left (Int32.le_iff_toInt_le.mp h)]
  · rw [min_eq_right (le_of_not_ge (fun hle => h (Int32.le_iff_toInt_le.mpr hle)))]

end Akil
