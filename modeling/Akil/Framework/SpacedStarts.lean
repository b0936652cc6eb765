import Mathlib

/-!
# The latest end of spaced intervals

Intervals of one width `d` are given by their start times.  `latestEnd` looks for the latest end in
one pass that compares each start with the end found so far, and takes the end of the interval if
its start is later.  On start times that are `Spaced`, equal or at least a width apart and never
going back, an interval that starts exactly where the previous one ends is passed over, the next
one is not, and so on: the pass finds the last end or the last start according to the parity of
the number of touching intervals at the end of the list (`latestEnd_spaced`).
-/

namespace Akil

/-- One step of the pass: a later start moves the end. -/
def pushEnd (d : ℤ) (stop : Option ℤ) (start : ℤ) : Option ℤ :=
  match stop with
  | none => some (start + d)
  | some e => if start > e then some (start + d) else some e

/-- The end the pass finds. -/
def latestEnd (d : ℤ) (starts : List ℤ) : Option ℤ := starts.foldl (pushEnd d) none

/-- How many steps of exactly one width lead back from the first start, the latest, equal starts
passed over. -/
def backToBack (d : ℤ) : List ℤ → ℕ
  | [] => 0
  | [_] => 0
  | x :: y :: starts =>
      if x = y then backToBack d (y :: starts)
      else if x = y + d then backToBack d (y :: starts) + 1
      else 0

/-- Each start equals the one before it or is at least a width later. -/
def Spaced (d : ℤ) (starts : List ℤ) : Prop := starts.Pairwise (fun x y => x = y ∨ x + d ≤ y)

variable {d x : ℤ} {starts later : List ℤ}

/-- Neighbours decide it. -/
lemma spaced_iff_isChain (hd : 0 ≤ d) :
    Spaced d starts ↔ starts.IsChain (fun x y => x = y ∨ x + d ≤ y) := by
  have htrans : ∀ x y z : ℤ, (x = y ∨ x + d ≤ y) → (y = z ∨ y + d ≤ z) → (x = z ∨ x + d ≤ z) := by
    intro x y z hxy hyz
    omega
  have : Trans (fun x y : ℤ => x = y ∨ x + d ≤ y) (fun x y => x = y ∨ x + d ≤ y)
      (fun x y => x = y ∨ x + d ≤ y) := ⟨htrans _ _ _⟩
  exact List.isChain_iff_pairwise.symm

/-- The last of spaced starts is the greatest. -/
lemma Spaced.le_last (hd : 0 ≤ d) (h : Spaced d (starts ++ [x])) : ∀ y ∈ starts ++ [x], y ≤ x := by
  intro y hy
  rcases List.mem_append.mp hy with hy | hy
  · rcases (List.pairwise_append.mp h).2.2 y hy x (List.mem_singleton_self x) with heq | hle
    · exact heq.le
    · linarith
  · exact (List.mem_singleton.mp hy).le

/-- Starts a width after the last one may follow. -/
lemma Spaced.append_replicate (hd : 0 ≤ d) {now : ℤ} (h : Spaced d (starts ++ [x]))
    (hlate : x + d ≤ now) (j k : ℕ) :
    Spaced d ((starts ++ [x]).drop j ++ List.replicate k now) := by
  refine List.pairwise_append.mpr ⟨h.sublist (List.drop_sublist _ _), ?_, ?_⟩
  · exact List.pairwise_replicate.mpr (Or.inr (Or.inl rfl))
  · intro y hy z hz
    obtain rfl := List.eq_of_mem_replicate hz
    have hle := h.le_last hd y (List.mem_of_mem_drop hy)
    exact Or.inr (by linarith)

lemma latestEnd_concat : latestEnd d (starts ++ [x]) = pushEnd d (latestEnd d starts) x := by
  rw [latestEnd, List.foldl_append]
  rfl

/-- Starts not later than the end found do not move it. -/
lemma latestEnd_append_of_le {e : ℤ} (h : latestEnd d starts = some e) (hle : ∀ y ∈ later, y ≤ e) :
    latestEnd d (starts ++ later) = some e := by
  induction later using List.reverseRecOn with
  | nil => rwa [List.append_nil]
  | append_singleton later y ih =>
      rw [← List.append_assoc, latestEnd_concat,
        ih (fun z hz => hle z (List.mem_append_left _ hz)), pushEnd]
      exact if_neg (not_lt.mpr (hle y (by simp)))

/-- **The pass on spaced starts.**  It finds the last end if the number of touching intervals at
the end of the list is even, and the last start if it is odd. -/
theorem latestEnd_spaced (hd : 0 < d) (h : Spaced d (starts ++ [x])) :
    latestEnd d (starts ++ [x])
      = some (if Even (backToBack d (starts ++ [x]).reverse) then x + d else x) := by
  induction starts using List.reverseRecOn generalizing x with
  | nil => simp [latestEnd, pushEnd, backToBack]
  | append_singleton starts y ih =>
      have hspaced : Spaced d (starts ++ [y]) := h.sublist (List.sublist_append_left _ _)
      have hgap : y = x ∨ y + d ≤ x :=
        (List.pairwise_append.mp h).2.2 y (by simp) x (by simp)
      have hback : backToBack d (starts ++ [y] ++ [x]).reverse
          = if x = y then backToBack d (starts ++ [y]).reverse
            else if x = y + d then backToBack d (starts ++ [y]).reverse + 1 else 0 := by
        simp [backToBack]
      rw [latestEnd_concat, ih hspaced, pushEnd, hback]
      -- The last start repeats the one before, touches its end, or leaves a gap.
      rcases eq_or_ne x y with rfl | hne
      · rw [if_pos rfl]
        split_ifs with heven hlt hlt
        · linarith
        · rfl
        · exact absurd hlt (lt_irrefl _)
        · rfl
      · have hle : y + d ≤ x := hgap.resolve_left (Ne.symm hne)
        rw [if_neg hne]
        rcases eq_or_ne x (y + d) with rfl | hfar
        · rw [if_pos rfl]
          by_cases heven : Even (backToBack d (starts ++ [y]).reverse)
          · have hodd : ¬ Even (backToBack d (starts ++ [y]).reverse + 1) :=
              fun h => Nat.even_add_one.mp h heven
            rw [if_pos heven, if_neg hodd, if_neg (lt_irrefl _)]
          · rw [if_neg heven, if_pos (Nat.even_add_one.mpr heven), if_pos (by linarith)]
        · rw [if_neg hfar, if_pos (by split_ifs <;> omega)]
          simp

end Akil
