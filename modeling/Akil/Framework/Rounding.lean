import Mathlib

/-!
# Rounding to the nearest integer

Two rounding modes over an ordered field with a floor function.  They agree except on ties:
`roundHalfUp` sends a half-way value to the integer above it, `roundHalfEven` to the even one of
its two neighbours.  Both keep to any integer bound their argument keeps to, which is what makes
rounding commute with clamping between integers.
-/

namespace Akil

variable {K : Type*} [Field K] [LinearOrder K] [IsStrictOrderedRing K] [FloorRing K]

/-- To the nearest integer, halves towards `+∞`. -/
def roundHalfUp (x : K) : ℤ := ⌊x + 1 / 2⌋

/-- To the nearest integer, halves to the even neighbour. -/
def roundHalfEven (x : K) : ℤ :=
  if Int.fract x < 1 / 2 ∨ (Int.fract x = 1 / 2 ∧ Even ⌊x⌋) then ⌊x⌋ else ⌊x⌋ + 1

lemma roundHalfUp_mono {x y : K} (h : x ≤ y) : roundHalfUp x ≤ roundHalfUp y :=
  Int.floor_le_floor (by linarith)

lemma roundHalfUp_eq (x : K) :
    roundHalfUp x = if Int.fract x < 1 / 2 then ⌊x⌋ else ⌊x⌋ + 1 := by
  have hfract := Int.floor_add_fract x
  have hlt := Int.fract_lt_one x
  have hnonneg := Int.fract_nonneg x
  unfold roundHalfUp
  split_ifs with h
  · rw [Int.floor_eq_iff]
    constructor <;> linarith
  · rw [Int.floor_eq_iff]
    push_cast
    constructor <;> linarith [not_lt.mp h]

/-- The modes differ exactly half-way above an even integer. -/
lemma roundHalfEven_eq_roundHalfUp_iff (x : K) :
    roundHalfEven x = roundHalfUp x ↔ ¬ ∃ m : ℤ, x = 2 * m + 1 / 2 := by
  have hfract := Int.floor_add_fract x
  rw [roundHalfUp_eq, roundHalfEven]
  by_cases hlt : Int.fract x < 1 / 2
  · rw [if_pos (Or.inl hlt), if_pos hlt]
    refine iff_of_true rfl ?_
    rintro ⟨m, rfl⟩
    have hhalf : Int.fract (2 * (m : K) + 1 / 2) = 1 / 2 := by
      rw [Int.fract_eq_iff]
      refine ⟨by norm_num, by norm_num, 2 * m, by push_cast; ring⟩
    exact absurd hhalf hlt.ne
  · rw [if_neg hlt]
    by_cases htie : Int.fract x = 1 / 2 ∧ Even ⌊x⌋
    · obtain ⟨m, hm⟩ := htie.2
      rw [if_pos (Or.inr htie)]
      refine iff_of_false (by omega) (not_not.mpr ⟨m, ?_⟩)
      rw [← hfract, htie.1, hm]
      push_cast
      ring
    · rw [if_neg (not_or.mpr ⟨hlt, htie⟩)]
      refine iff_of_true rfl ?_
      rintro ⟨m, rfl⟩
      apply htie
      have hfloor : ⌊2 * (m : K) + 1 / 2⌋ = 2 * m := by
        rw [Int.floor_eq_iff]
        push_cast
        constructor <;> linarith
      refine ⟨?_, m, by rw [hfloor]; ring⟩
      rw [Int.fract, hfloor]
      push_cast
      ring

/-- Half-to-even rounding moves by at most one half. -/
lemma roundHalfEven_near (x : K) :
    x - 1 / 2 ≤ roundHalfEven x ∧ (roundHalfEven x : K) ≤ x + 1 / 2 := by
  have hfract := Int.floor_add_fract x
  have hlt := Int.fract_lt_one x
  have hnonneg := Int.fract_nonneg x
  unfold roundHalfEven
  split_ifs with h
  · have hle : Int.fract x ≤ 1 / 2 := h.elim le_of_lt (fun h => h.1.le)
    constructor <;> linarith
  · have hge : 1 / 2 ≤ Int.fract x := not_lt.mp (fun hlt => h (Or.inl hlt))
    push_cast
    constructor <;> linarith

lemma roundHalfEven_le {x : K} {k : ℤ} (h : x ≤ k) : roundHalfEven x ≤ k := by
  have hnear := (roundHalfEven_near x).2
  have hlt : (roundHalfEven x : K) < (k + 1 : ℤ) := by
    push_cast
    linarith
  exact Int.lt_add_one_iff.mp (by exact_mod_cast hlt)

lemma le_roundHalfEven {x : K} {k : ℤ} (h : k ≤ x) : k ≤ roundHalfEven x := by
  have hnear := (roundHalfEven_near x).1
  have hlt : (k : K) < (roundHalfEven x + 1 : ℤ) := by
    push_cast
    linarith
  exact Int.lt_add_one_iff.mp (by exact_mod_cast hlt)

end Akil
