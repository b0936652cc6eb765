import Mathlib

/-!
# Cutting text

The searches in text the repository uses.  Two are on lists of characters: `lastIndex`, the position
of the last occurrence of a character, and `afterFirst`, what follows the first occurrence of a
separator; `stringsContains` asks whether there is one.  `lastIndex` and the last part of
`List.splitOn` come with the equations that compute them on a text given by its parts.  A text of
three parts is determined by its parts, and a word with a separator on both sides is found in it
exactly if it is the one in the middle.

Go's `strings` package works on bytes.  The searches here are for ASCII text, which never
occurs inside the encoding of another character, so cutting characters and cutting bytes give
the same parts.
-/

namespace Akil

variable {α : Type*} [DecidableEq α]

/-- The position of the last occurrence of `c`. -/
def lastIndex (c : α) : List α → Option ℕ
  | [] => none
  | x :: xs =>
      match lastIndex c xs with
      | some i => some (i + 1)
      | none => if x = c then some 0 else none

lemma lastIndex_eq_none {c : α} {xs : List α} (h : c ∉ xs) : lastIndex c xs = none := by
  induction xs with
  | nil => rfl
  | cons x xs ih =>
      rw [List.mem_cons, not_or] at h
      rw [lastIndex, ih h.2]
      exact if_neg (Ne.symm h.1)

/-- The last occurrence is the one with none after it. -/
lemma lastIndex_append_cons {c : α} (xs : List α) {ys : List α} (h : c ∉ ys) :
    lastIndex c (xs ++ c :: ys) = some xs.length := by
  induction xs with
  | nil => simp [lastIndex, lastIndex_eq_none h]
  | cons x xs ih => simp [lastIndex, ih]

/-- Whatever comes before it, a part without the separator that ends a text is the last part. -/
lemma getLast?_splitOn_append_cons {c : α} (xs : List α) {ys : List α} (h : c ∉ ys) :
    ((xs ++ c :: ys).splitOn c).getLast? = some ys := by
  rw [List.splitOn_append_cons_self, List.splitOn_eq_singleton h, List.getLast?_concat]

/-- The last part ends the text. -/
lemma suffix_of_getLast?_splitOn {c : α} {xs ys : List α}
    (h : (xs.splitOn c).getLast? = some ys) : ys <:+ xs := by
  by_cases hmem : c ∈ xs
  · -- cut at the last occurrence, which is the first one from the end
    obtain ⟨front, back, hsplit, hback⟩ := List.eq_append_cons_of_mem (List.mem_reverse.mpr hmem)
    have hcut : xs = back.reverse ++ c :: front.reverse := by
      rw [← List.reverse_reverse xs, hsplit]
      simp
    rw [hcut, getLast?_splitOn_append_cons _ (by simpa using hback)] at h
    obtain rfl := Option.some.inj h
    rw [hcut]
    exact (List.suffix_cons c _).trans (List.suffix_append _ _)
  · rw [List.splitOn_eq_singleton hmem, List.getLast?_singleton] at h
    rw [Option.some.inj h]

/-- What follows the first occurrence of `sep`, if there is one. -/
def afterFirst (sep : List α) : List α → Option (List α)
  | [] => if sep = [] then some [] else none
  | x :: xs =>
      if sep <+: x :: xs then some ((x :: xs).drop sep.length)
      else afterFirst sep xs

/-- `strings.Contains` -/
def stringsContains (s substr : String) : Prop := substr.toList <:+: s.toList

instance (s substr : String) : Decidable (stringsContains s substr) :=
  inferInstanceAs (Decidable (_ <:+: _))

/-! ## Three parts -/

section ThreeParts

variable {c : α} {x y z x' y' z' : List α}

/-- Parts without the separator can be told apart again. -/
lemma splitOn_three (hx : c ∉ x) (hy : c ∉ y) (hz : c ∉ z) :
    (x ++ c :: (y ++ c :: z)).splitOn c = [x, y, z] := by
  rw [List.splitOn_append_cons_self_of_not_mem hx, List.splitOn_append_cons_self_of_not_mem hy,
    List.splitOn_eq_singleton hz]

lemma three_parts_inj (hx : c ∉ x) (hy : c ∉ y) (hz : c ∉ z) (hx' : c ∉ x') (hy' : c ∉ y')
    (hz' : c ∉ z') :
    x ++ c :: (y ++ c :: z) = x' ++ c :: (y' ++ c :: z') ↔ x = x' ∧ y = y' ∧ z = z' := by
  constructor
  · intro h
    have hsplit := congrArg (List.splitOn c) h
    rw [splitOn_three hx hy hz, splitOn_three hx' hy' hz'] at hsplit
    simpa using hsplit
  · rintro ⟨rfl, rfl, rfl⟩
    rfl

/-- A word between two separators is found exactly if it is the middle part. -/
lemma separated_infix_iff {word : List α} (hword : c ∉ word) (hx : c ∉ x) (hy : c ∉ y)
    (hz : c ∉ z) : c :: (word ++ [c]) <:+: x ++ c :: (y ++ c :: z) ↔ word = y := by
  constructor
  · rintro ⟨s, t, h⟩
    have hparts : s ++ c :: (word ++ c :: t) = x ++ c :: (y ++ c :: z) := by
      rw [← h]
      simp
    have hsplit := congrArg (List.splitOn c) hparts
    rw [splitOn_three hx hy hz, List.splitOn_append_cons_self,
      List.splitOn_append_cons_self_of_not_mem hword] at hsplit
    -- Something comes before the word and something after it, so they are one part each.
    obtain ⟨s₁, ss, hs⟩ := List.exists_cons_of_ne_nil (List.splitOn_ne_nil c s)
    obtain ⟨t₁, ts, ht⟩ := List.exists_cons_of_ne_nil (List.splitOn_ne_nil c t)
    rw [hs, ht] at hsplit
    have hlen := congrArg List.length hsplit
    simp only [List.length_append, List.length_cons, List.length_nil] at hlen
    obtain rfl : ss = [] := List.length_eq_zero_iff.mp (by omega)
    simp only [List.cons_append, List.nil_append, List.cons.injEq] at hsplit
    exact hsplit.2.1
  · rintro rfl
    exact ⟨x, z, by simp⟩

end ThreeParts

end Akil
