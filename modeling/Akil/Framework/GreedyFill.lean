import Mathlib.Algebra.BigOperators.Group.List.Basic
import Mathlib.Algebra.Order.BigOperators.Group.List
import Mathlib.Algebra.Order.Ring.Nat
import Mathlib.Data.List.Pairwise

/-!
# Filling bins one item at a time

Items go into a row of bins in the order they come, each into one bin that a rule allows.  The rule
sees all bins, so what it guarantees is often about two bins at once: the lower of them is taken
first, no second one is opened before the first is nearly full.  Such a guarantee is a symmetric
relation between bins, and an item changes one bin only; `Fills.pairwise` is the induction this
asks for.
-/

namespace Akil

variable {β ι : Type*}

/-- What putting items into bins can make of `bins`, when an item may go into a bin that `allowed`
permits among the bins there are. -/
inductive Fills (allowed : ι → List β → β → Prop) (put : ι → β → β) (bins : List β) :
    List β → Prop
  | refl : Fills allowed put bins bins
  | put {bins' : List β} {i : ℕ} {b : β} (item : ι) (hfills : Fills allowed put bins bins')
      (hi : bins'[i]? = some b) (hb : allowed item bins' b) :
      Fills allowed put bins (bins'.set i (put item b))

/-- The bin at one position changes; the others stand in the relation they stood in. -/
lemma pairwise_set {R : β → β → Prop} (hsymm : ∀ b c, R b c → R c b) {bins : List β} {i : ℕ}
    {b b' : β} (hi : bins[i]? = some b) (hbins : bins.Pairwise R)
    (hb' : ∀ c ∈ bins, R b c → R b' c) : (bins.set i b').Pairwise R := by
  obtain ⟨hlt, rfl⟩ := List.getElem?_eq_some_iff.mp hi
  rw [List.pairwise_iff_getElem] at hbins ⊢
  intro j k hj hk hjk
  rw [List.length_set] at hj hk
  rw [List.getElem_set, List.getElem_set]
  rcases eq_or_ne i j with rfl | hij
  · rw [if_pos rfl, if_neg hjk.ne]
    exact hb' _ (List.getElem_mem hk) (hbins i k hj hk hjk)
  rcases eq_or_ne i k with rfl | hik
  · rw [if_neg hij, if_pos rfl]
    exact hsymm _ _ (hb' _ (List.getElem_mem hj) (hsymm _ _ (hbins j i hj hk hjk)))
  · rw [if_neg hij, if_neg hik]
    exact hbins j k hj hk hjk

namespace Fills

variable {allowed : ι → List β → β → Prop} {put : ι → β → β} {bins bins' bins'' : List β}

lemma trans (h : Fills allowed put bins bins') (h' : Fills allowed put bins' bins'') :
    Fills allowed put bins bins'' := by
  induction h' with
  | refl => exact h
  | put item _ hi hb ih => exact ih.put item hi hb

lemma length_eq (h : Fills allowed put bins bins') : bins'.length = bins.length := by
  induction h with
  | refl => rfl
  | put item _ _ _ ih => rw [List.length_set, ih]

/-- What a bin keeps when an item is added. -/
lemma forall_mem (h : Fills allowed put bins bins') {P : β → Prop}
    (hput : ∀ item b, P b → P (put item b)) (hbins : ∀ b ∈ bins, P b) : ∀ b ∈ bins', P b := by
  induction h with
  | refl => exact hbins
  | put item _ hi _ ih =>
      intro c hc
      rcases List.mem_or_eq_of_mem_set hc with hc | rfl
      · exact ih c hc
      · exact hput item _ (ih _ (List.mem_of_getElem? hi))

/-- **What any two bins keep.**  It is enough that the bin an allowed item went into still stands
in the relation to the bins it stood in it with. -/
lemma pairwise (h : Fills allowed put bins bins') {R : β → β → Prop} (hsymm : ∀ b c, R b c → R c b)
    (hput : ∀ item bins b, allowed item bins b → ∀ c ∈ bins, R b c → R (put item b) c)
    (hbins : bins.Pairwise R) : bins'.Pairwise R := by
  induction h with
  | refl => exact hbins
  | put item _ hi hb ih => exact pairwise_set hsymm hi ih (hput item _ _ hb)

end Fills

/-! ## Totals -/

/-- Of any two bins at least one holds `θ`: all but one do. -/
lemma sum_of_pairwise_or {load : β → ℕ} {θ : ℕ} {bins : List β}
    (h : bins.Pairwise (fun b c => θ ≤ load b ∨ θ ≤ load c)) :
    (bins.length - 1) * θ ≤ (bins.map load).sum := by
  induction bins with
  | nil => simp
  | cons b bins ih =>
      rw [List.pairwise_cons] at h
      rw [List.length_cons, Nat.add_sub_cancel, List.map_cons, List.sum_cons]
      by_cases hb : θ ≤ load b
      · cases bins with
        | nil => simp
        | cons c bins =>
            have htail := ih h.2
            rw [List.length_cons, Nat.add_sub_cancel] at htail
            rw [List.length_cons, Nat.add_mul, Nat.one_mul]
            omega
      · have hall : ∀ c ∈ bins, θ ≤ load c := fun c hc => (h.1 c hc).resolve_left hb
        have hsum := List.card_nsmul_le_sum (bins.map load) θ (by simpa using hall)
        rw [List.length_map, nsmul_eq_mul, Nat.cast_id] at hsum
        omega

/-- If no bin gets a second item while another is empty, no more items than bins are one each. -/
lemma le_one_of_sum_le {load : β → ℕ} {bins : List β}
    (h : ∀ b ∈ bins, load b = 0 → ∀ c ∈ bins, load c ≤ 1)
    (hsum : (bins.map load).sum ≤ bins.length) : ∀ c ∈ bins, load c ≤ 1 := by
  intro c hc
  by_contra hload
  have hused : ∀ b ∈ bins, 1 ≤ load b := by
    intro b hb
    by_contra hzero
    exact hload (h b hb (by omega) c hc)
  have hlt := List.sum_lt_sum (fun _ => 1) load hused ⟨c, hc, not_le.mp hload⟩
  rw [List.map_const', List.sum_replicate, nsmul_eq_mul, mul_one, Nat.cast_id] at hlt
  exact absurd hlt (not_lt.mpr hsum)

end Akil
