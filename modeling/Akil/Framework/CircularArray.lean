import Mathlib

/-!
# Circular arrays by age

A circular array is a list of cells with the index of its current cell.  A writer updates the
current cell, or advances the index cyclically and clears the cell it lands on.  `byAge` reads the
cells in the order in which they were entered, oldest first and current last, and in that order
the index disappears: an update changes the last cell, and an advance drops the oldest cell and
adds a clear one at the end.  Two arrays with the same reading hold the same cells, whatever their
indices.
-/

namespace Akil

variable {α : Type*}

/-- The cells of a circular array with current index `i`, oldest first. -/
def byAge (cells : List α) (i : ℕ) : List α := cells.rotate (i + 1)

@[simp] lemma length_byAge (cells : List α) (i : ℕ) : (byAge cells i).length = cells.length :=
  List.length_rotate _ _

lemma byAge_perm (cells : List α) (i : ℕ) : (byAge cells i).Perm cells := List.rotate_perm _ _

/-- The cells after the index are older than those up to it. -/
lemma byAge_eq_append {cells : List α} {i : ℕ} (h : i < cells.length) :
    byAge cells i = cells.drop (i + 1) ++ cells.take (i + 1) :=
  List.rotate_eq_drop_append_take h

/-- An update of the current cell is an update of the last one. -/
lemma byAge_modify (f : α → α) {cells : List α} {i : ℕ} (h : i < cells.length) :
    byAge (cells.modify i f) i = (byAge cells i).modify (cells.length - 1) f := by
  apply List.ext_getElem (by simp)
  intro j hj hj'
  have hlt : j < cells.length := by simpa using hj
  -- Going round from the cell after the index, the index itself comes last.
  have hmod : (j + (i + 1)) % cells.length = i ↔ j = cells.length - 1 := by
    rcases Nat.lt_or_ge (j + (i + 1)) cells.length with hsmall | hbig
    · rw [Nat.mod_eq_of_lt hsmall]
      omega
    · rw [Nat.mod_eq_sub_mod hbig, Nat.mod_eq_of_lt (by omega)]
      omega
  simp only [byAge, List.getElem_rotate, List.getElem_modify, List.length_modify,
    eq_comm (a := i), hmod, eq_comm (a := cells.length - 1)]

lemma modify_length_append (f : α → α) (l : List α) (x : α) :
    (l ++ [x]).modify l.length f = l ++ [f x] := by
  induction l with
  | nil => rfl
  | cons y l ih => rw [List.cons_append, List.length_cons, List.modify_succ_cons, ih,
      List.cons_append]

/-- An advance drops the oldest cell and adds a clear one. -/
lemma byAge_advance {clear : α → α} {x : α} (hclear : ∀ y, clear y = x) {cells : List α} {i : ℕ}
    (h : i < cells.length) :
    byAge (cells.modify ((i + 1) % cells.length) clear) ((i + 1) % cells.length)
      = (byAge cells i).tail ++ [x] := by
  have hpos : 0 < cells.length := by omega
  have hstep : byAge cells ((i + 1) % cells.length) = (byAge cells i).rotate 1 := by
    rw [byAge, byAge, ← List.rotate_rotate, List.rotate_mod]
  rw [byAge_modify clear (Nat.mod_lt _ hpos), hstep]
  have hlen := length_byAge cells i
  cases hread : byAge cells i with
  | nil =>
      rw [hread, List.length_nil] at hlen
      omega
  | cons y ys =>
      rw [hread, List.length_cons] at hlen
      have hlast : cells.length - 1 = ys.length := by omega
      rw [hlast, List.rotate_cons_succ, List.rotate_zero, modify_length_append, hclear,
        List.tail_cons]

end Akil
