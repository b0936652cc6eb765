import Mathlib.Algebra.Order.Floor.Semiring
import Mathlib.Algebra.Order.Field.Rat
import Mathlib.Data.Rat.Floor
import Mathlib.Tactic.Linarith

/-!
# Quantiles of a sorted list

The usual way to read a percentile off a sorted list of `n` samples is to take the entry number
`⌊n q⌋`, and the last one if there is no such entry.  What the entry says about the samples is
`quantile_le_iff`: it is at most `t` exactly if less than a share `1 - q` of them exceeds `t`.  All
that one wants of a percentile follows, and with it that several of them come in order.
-/

namespace Akil

variable {α : Type*}

/-- The entry number `⌊n q⌋` of a sorted list, or its last one. -/
def quantile (sorted : List α) (q : ℚ) : Option α :=
  sorted[min (sorted.length - 1) ⌊sorted.length * q⌋₊]?

/-- A quantile below the greatest is the entry with its number. -/
lemma quantile_eq_some {sorted : List α} {q : ℚ} (h1 : q < 1) {v : α}
    (hv : quantile sorted q = some v) :
    ∃ hk : ⌊sorted.length * q⌋₊ < sorted.length, sorted[⌊sorted.length * q⌋₊] = v := by
  obtain ⟨hlt, hv⟩ := List.getElem?_eq_some_iff.mp hv
  have hlength : (0 : ℚ) < sorted.length := by exact_mod_cast (Nat.zero_le _).trans_lt hlt
  have hfloor : ⌊sorted.length * q⌋₊ < sorted.length := by
    refine (Nat.floor_lt' (by exact_mod_cast hlength.ne')).mpr ?_
    exact mul_lt_of_lt_one_right hlength h1
  have hmin : min (sorted.length - 1) ⌊sorted.length * q⌋₊ = ⌊sorted.length * q⌋₊ := by omega
  refine ⟨hfloor, ?_⟩
  rw [← hv]
  simp only [hmin]

variable [LinearOrder α]

/-- In a sorted list the entries above `t` are behind those that are not. -/
lemma getElem_le_iff_countP {sorted : List α} (hsorted : sorted.Pairwise (· ≤ ·)) {k : ℕ}
    (hk : k < sorted.length) (t : α) :
    sorted[k] ≤ t ↔ sorted.countP (fun x => t < x) < sorted.length - k := by
  have hsplit := List.take_append_drop k sorted
  have hcons : sorted.drop k = sorted[k] :: sorted.drop (k + 1) := (List.drop_eq_getElem_cons hk)
  have hlength : (sorted.drop (k + 1)).length = sorted.length - k - 1 := by
    rw [List.length_drop]
    omega
  constructor
  · intro hle
    -- Nothing up to the entry exceeds `t`.
    have hlow : (sorted.take k).countP (fun x => t < x) = 0 := by
      rw [List.countP_eq_zero]
      intro x hx
      rw [← hsplit, hcons, List.pairwise_append] at hsorted
      simpa using (hsorted.2.2 x hx _ List.mem_cons_self).trans hle
    have hhigh := List.countP_le_length (p := fun x => decide (t < x)) (l := sorted.drop (k + 1))
    rw [← hsplit, List.countP_append, hlow, hcons, List.countP_cons_of_neg (by simpa using hle)]
    rw [List.length_append, List.length_cons, List.length_take]
    omega
  · intro hcount
    by_contra hlt
    -- Everything from the entry on exceeds `t`.
    have hhigh : (sorted.drop k).countP (fun x => t < x) = (sorted.drop k).length := by
      rw [List.countP_eq_length]
      intro x hx
      rw [← hsplit, List.pairwise_append, hcons, List.pairwise_cons] at hsorted
      rw [hcons] at hx
      have hle : sorted[k] ≤ x := by
        rcases List.mem_cons.mp hx with rfl | hx
        · exact le_rfl
        · exact hsorted.2.1.1 x hx
      simpa using (not_le.mp hlt).trans_le hle
    have hle : (sorted.drop k).countP (fun x => t < x) ≤ sorted.countP (fun x => t < x) :=
      (List.drop_sublist k sorted).countP_le
    rw [hhigh, List.length_drop] at hle
    omega

/-- **What a quantile says.**  It is at most `t` exactly if less than a share `1 - q` of the samples
exceeds `t`. -/
lemma quantile_le_iff {sorted : List α} (hsorted : sorted.Pairwise (· ≤ ·)) {q : ℚ} (h0 : 0 ≤ q)
    (h1 : q < 1) {v : α} (hv : quantile sorted q = some v) (t : α) :
    v ≤ t ↔ (sorted.countP (fun x => t < x) : ℚ) < (1 - q) * sorted.length := by
  obtain ⟨hk, rfl⟩ := quantile_eq_some h1 hv
  have hcount := List.countP_le_length (p := fun x => decide (t < x)) (l := sorted)
  rw [getElem_le_iff_countP hsorted hk, Nat.lt_sub_iff_add_lt, ← Nat.lt_sub_iff_add_lt',
    Nat.floor_lt (by positivity), Nat.cast_sub hcount]
  constructor <;> intro h <;> linarith

/-- Greater shares have greater quantiles. -/
lemma quantile_mono {sorted : List α} (hsorted : sorted.Pairwise (· ≤ ·)) {q q' : ℚ} (h : q ≤ q')
    (h1 : q' < 1) {v v' : α} (hv : quantile sorted q = some v)
    (hv' : quantile sorted q' = some v') : v ≤ v' := by
  obtain ⟨hk, rfl⟩ := quantile_eq_some (h.trans_lt h1) hv
  obtain ⟨hk', rfl⟩ := quantile_eq_some h1 hv'
  have hle : ⌊sorted.length * q⌋₊ ≤ ⌊sorted.length * q'⌋₊ :=
    Nat.floor_le_floor (mul_le_mul_of_nonneg_left h (Nat.cast_nonneg _))
  rcases hle.eq_or_lt with heq | hlt
  · simp only [heq, le_refl]
  · exact List.pairwise_iff_getElem.mp hsorted _ _ hk hk' hlt

end Akil
