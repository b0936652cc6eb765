import Mathlib

/-!
# Rotation-stamped logs, and the cyclic buffer that implements one

A *rotation log* is an append-only list of payloads in which every entry is stamped with the
number of rotations performed before it was appended.  The *age* of an entry is the number of
rotations since, and an entry is *live* for a horizon `n` while its age is below `n`.  The log
is the abstract side: it forgets nothing, and what a reader may count is decided by ages alone.

The concrete side is a list of `n` accumulator cells over a commutative monoid together with
the index of the current one.  A rotation advances the index cyclically and zeroes the cell it
lands on; an append adds a weight to the current cell.  `CyclicBuffer` is the coupling between
the two: the index is the rotation count modulo `n`, and cell `i` holds the total weight of the
live entries whose stamp is `i` modulo `n`.  A rotation zeroes exactly the cell whose entries
reach age `n`, because among the stamps of live entries the residue modulo `n` determines the
stamp; this is the whole content of `CyclicBuffer.advance`.

Two readings of a coupled buffer are derived: the sum of all cells is the total weight of the
live entries (`CyclicBuffer.sum_eq`), and the cell `j` places behind the current one holds
exactly the entries of age `j` (`CyclicBuffer.cell_of_age`).

Entries are live for a while and then no longer: in a log whose stamps are `Ordered`, as appending
keeps them, the live entries are the last ones (`RotationLog.Ordered.split_live`).

`ShiftRegister` is a second implementation of the same log, without an index: the cells stand in
the order of age, and a rotation drops the oldest and adds a zero.

Two logs that rotate at different times can still agree.  A log is `Dated` by a clock when ages,
up to the horizon, are distances on the clock; what is live is then a matter of the payloads and
the clock alone (`RotationLog.Dated.map_live`).
-/

namespace Akil

/-- An append-only log whose entries carry the rotation count at which they were appended. -/
structure RotationLog (α : Type*) where
  /-- Rotations performed so far. -/
  rotations : ℕ
  /-- Entries, oldest first, each with its stamp. -/
  entries : List (ℕ × α)
  /-- No entry is stamped in the future. -/
  stamp_le : ∀ e ∈ entries, e.1 ≤ rotations

namespace RotationLog

variable {α : Type*}

/-- The log with no entries and no rotations. -/
def empty : RotationLog α where
  rotations := 0
  entries := []
  stamp_le := by simp

/-- Perform `k` rotations: every entry grows older by `k`. -/
def advance (L : RotationLog α) (k : ℕ) : RotationLog α where
  rotations := L.rotations + k
  entries := L.entries
  stamp_le e he := (L.stamp_le e he).trans (Nat.le_add_right _ _)

/-- Append a payload at the current rotation count. -/
def append (L : RotationLog α) (x : α) : RotationLog α where
  rotations := L.rotations
  entries := L.entries ++ [(L.rotations, x)]
  stamp_le := by
    intro e he
    rcases List.mem_append.mp he with he | he
    · exact L.stamp_le e he
    · simp only [List.mem_singleton] at he
      simp [he]

/-- Forget every entry; the rotation count goes on. -/
def clear (L : RotationLog α) : RotationLog α where
  rotations := L.rotations
  entries := []
  stamp_le := by simp

/-- Rotations performed since the entry was appended. -/
def age (L : RotationLog α) (e : ℕ × α) : ℕ := L.rotations - e.1

/-- The entries younger than the horizon `n`. -/
def live (n : ℕ) (L : RotationLog α) : List (ℕ × α) :=
  L.entries.filter (fun e => L.age e < n)

@[simp] lemma rotations_advance (L : RotationLog α) (k : ℕ) :
    (L.advance k).rotations = L.rotations + k := rfl

@[simp] lemma entries_advance (L : RotationLog α) (k : ℕ) :
    (L.advance k).entries = L.entries := rfl

@[simp] lemma rotations_append (L : RotationLog α) (x : α) :
    (L.append x).rotations = L.rotations := rfl

@[simp] lemma entries_append (L : RotationLog α) (x : α) :
    (L.append x).entries = L.entries ++ [(L.rotations, x)] := rfl

@[simp] lemma rotations_clear (L : RotationLog α) : L.clear.rotations = L.rotations := rfl

@[simp] lemma entries_clear (L : RotationLog α) : L.clear.entries = [] := rfl

@[simp] lemma rotations_empty : (empty : RotationLog α).rotations = 0 := rfl

@[simp] lemma entries_empty : (empty : RotationLog α).entries = [] := rfl

@[simp] lemma live_empty (n : ℕ) : (empty : RotationLog α).live n = [] := rfl

@[simp] lemma live_clear (n : ℕ) (L : RotationLog α) : L.clear.live n = [] := rfl

lemma mem_live {n : ℕ} {L : RotationLog α} {e : ℕ × α} :
    e ∈ L.live n ↔ e ∈ L.entries ∧ L.age e < n := by
  simp [live]

@[simp] lemma age_append (L : RotationLog α) (x : α) (e : ℕ × α) :
    (L.append x).age e = L.age e := rfl

lemma age_advance (L : RotationLog α) (k : ℕ) {e : ℕ × α} (he : e ∈ L.entries) :
    (L.advance k).age e = L.age e + k := by
  have hle := L.stamp_le e he
  simp only [age, rotations_advance]
  omega

lemma stamp_add_age (L : RotationLog α) {e : ℕ × α} (he : e ∈ L.entries) :
    e.1 + L.age e = L.rotations := by
  have hle := L.stamp_le e he
  simp only [age]
  omega

lemma live_append {n : ℕ} (hn : 0 < n) (L : RotationLog α) (x : α) :
    (L.append x).live n = L.live n ++ [(L.rotations, x)] := by
  have hage : L.age (L.rotations, x) < n := by simpa [age] using hn
  change (L.entries ++ [(L.rotations, x)]).filter (fun e => L.age e < n) = _
  simp [live, hage]

/-- Rotating only lets entries go. -/
lemma live_advance_sublist (n : ℕ) (L : RotationLog α) (k : ℕ) :
    ((L.advance k).live n).Sublist (L.live n) := by
  have hfilter : (L.advance k).live n
      = (L.live n).filter (fun e => (L.advance k).age e < n) := by
    rw [live, live, List.filter_filter, entries_advance]
    apply List.filter_congr
    intro e he
    rw [← Bool.decide_and, decide_eq_decide, L.age_advance k he]
    omega
  rw [hfilter]
  exact List.filter_sublist

@[ext] lemma ext {L L' : RotationLog α} (hr : L.rotations = L'.rotations)
    (he : L.entries = L'.entries) : L = L' := by
  cases L
  cases L'
  simp_all

lemma advance_zero (L : RotationLog α) : L.advance 0 = L := RotationLog.ext rfl rfl

lemma advance_advance (L : RotationLog α) (j k : ℕ) :
    (L.advance j).advance k = L.advance (j + k) :=
  RotationLog.ext (Nat.add_assoc _ _ _) rfl

end RotationLog

/-! ## Weights of entries -/

section Weights

variable {α M : Type*} [AddCommMonoid M]

/-- The total weight of a list of stamped entries. -/
def totalWeight (w : α → M) (l : List (ℕ × α)) : M := (l.map (fun e => w e.2)).sum

@[simp] lemma totalWeight_nil (w : α → M) : totalWeight w [] = 0 := rfl

@[simp] lemma totalWeight_cons (w : α → M) (e : ℕ × α) (l : List (ℕ × α)) :
    totalWeight w (e :: l) = w e.2 + totalWeight w l := rfl

@[simp] lemma totalWeight_append (w : α → M) (l l' : List (ℕ × α)) :
    totalWeight w (l ++ l') = totalWeight w l + totalWeight w l' := by
  simp [totalWeight]

/-- Sorting entries into `n` classes loses and duplicates no weight. -/
lemma sum_totalWeight_classes (w : α → M) {n : ℕ} (c : ℕ × α → ℕ) (l : List (ℕ × α))
    (hc : ∀ e ∈ l, c e < n) :
    ((List.range n).map (fun i => totalWeight w (l.filter (fun e => c e = i)))).sum
      = totalWeight w l := by
  induction l with
  | nil => simp
  | cons e l ih =>
      have hsplit : ∀ i, totalWeight w ((e :: l).filter (fun e => c e = i))
          = (if c e = i then w e.2 else 0) + totalWeight w (l.filter (fun e => c e = i)) := by
        intro i
        by_cases h : c e = i <;> simp [h]
      have hrest := ih (fun e he => hc e (List.mem_cons_of_mem _ he))
      simp only [hsplit, List.sum_map_add, hrest, totalWeight_cons]
      congr 1
      have hmem : c e ∈ Finset.range n := Finset.mem_range.mpr (hc e List.mem_cons_self)
      calc ((List.range n).map (fun i => if c e = i then w e.2 else 0)).sum
          = ∑ i ∈ Finset.range n, (if c e = i then w e.2 else 0) := rfl
        _ = w e.2 := by rw [Finset.sum_ite_eq, if_pos hmem]

/-- If `n` cells hold the weights of the `n` classes of a list, in any fixed order, they sum to
its total weight. -/
lemma sum_of_classes {w : α → M} {n : ℕ} {c : ℕ × α → ℕ} {l : List (ℕ × α)} {cells : List M}
    (hlength : cells.length = n) (hc : ∀ e ∈ l, c e < n)
    (hcells : ∀ i < n, cells[i]? = some (totalWeight w (l.filter (fun e => c e = i)))) :
    cells.sum = totalWeight w l := by
  have heq : cells = (List.range n).map
      (fun i => totalWeight w (l.filter (fun e => c e = i))) := by
    apply List.ext_getElem?
    intro i
    by_cases hi : i < n
    · rw [hcells i hi]
      simp [hi]
    · rw [List.getElem?_eq_none (by rw [hlength]; omega),
        List.getElem?_eq_none (by simp; omega)]
  rw [heq, sum_totalWeight_classes w c l hc]

end Weights

/-! ## The cyclic buffer -/

section Cyclic

variable {α M : Type*} [AddCommMonoid M]

/-- **The coupling.**  `cells` with current index `idx` implements the log `L` for the horizon
`n`: the index is the rotation count modulo `n`, and each cell carries the weight of the live
entries whose stamp has that residue. -/
structure CyclicBuffer (n : ℕ) (w : α → M) (cells : List M) (idx : ℕ) (L : RotationLog α) :
    Prop where
  length_eq : cells.length = n
  idx_eq : idx = L.rotations % n
  cell_eq : ∀ i < n,
    cells[i]? = some (totalWeight w ((L.live n).filter (fun e => e.1 % n = i)))

namespace CyclicBuffer

variable {n : ℕ} {w : α → M} {cells : List M} {idx : ℕ} {L : RotationLog α}

/-- Zeroing all cells implements forgetting all entries, wherever the index stands. -/
lemma clear (h : CyclicBuffer n w cells idx L) :
    CyclicBuffer n w (List.replicate n 0) idx L.clear where
  length_eq := List.length_replicate
  idx_eq := h.idx_eq
  cell_eq i hi := by simp [hi]

lemma empty (n : ℕ) (w : α → M) :
    CyclicBuffer n w (List.replicate n 0) 0 RotationLog.empty where
  length_eq := List.length_replicate
  idx_eq := by simp
  cell_eq i hi := by simp [hi]

/-- Adding to the current cell implements an append. -/
lemma append (hn : 0 < n) (h : CyclicBuffer n w cells idx L) (x : α) :
    CyclicBuffer n w (cells.modify idx (· + w x)) idx (L.append x) where
  length_eq := by simpa using h.length_eq
  idx_eq := h.idx_eq
  cell_eq i hi := by
    rw [List.getElem?_modify, h.cell_eq i hi, RotationLog.live_append hn, List.filter_append,
      totalWeight_append, h.idx_eq]
    by_cases hc : L.rotations % n = i <;> simp [hc]

/-- Among live entries the residue of the stamp determines the age. -/
lemma age_eq_of_residue {e : ℕ × α} {j : ℕ} (he : e ∈ L.entries) (hage : L.age e < n)
    (hj : j < n) (hres : (e.1 + j) % n = L.rotations % n) : L.age e = j := by
  rw [← L.stamp_add_age he] at hres
  have hmod : j % n = L.age e % n := Nat.ModEq.add_left_cancel' e.1 hres
  rw [Nat.mod_eq_of_lt hj, Nat.mod_eq_of_lt hage] at hmod
  exact hmod.symm

/-- **One rotation.**  Stepping the index and zeroing the cell it lands on makes every entry
one rotation older: the zeroed cell is that of the entries whose age reaches `n`. -/
lemma advance (hn : 0 < n) (h : CyclicBuffer n w cells idx L) :
    CyclicBuffer n w (cells.set ((idx + 1) % n) 0) ((idx + 1) % n) (L.advance 1) where
  length_eq := by simpa using h.length_eq
  idx_eq := by simp [h.idx_eq, Nat.add_mod]
  cell_eq i hi := by
    have hidx : (idx + 1) % n = (L.rotations + 1) % n := by simp [h.idx_eq, Nat.add_mod]
    rw [List.getElem?_set, h.length_eq]
    by_cases hc : (idx + 1) % n = i
    · -- an entry live after the rotation would need age `n` to share the new residue
      rw [if_pos hc, if_pos (Nat.mod_lt _ hn)]
      have hnone : ((L.advance 1).live n).filter (fun e => e.1 % n = i) = [] := by
        rw [List.filter_eq_nil_iff]
        intro e he
        obtain ⟨hmem, hage⟩ := RotationLog.mem_live.mp he
        simp only [decide_eq_true_eq]
        intro hres
        have hage0 : (L.advance 1).age e = 0 := by
          apply age_eq_of_residue hmem hage hn
          rw [Nat.add_zero, hres, ← hc, hidx, RotationLog.rotations_advance]
        rw [L.age_advance 1 hmem] at hage0
        omega
      rw [hnone, totalWeight_nil]
    · rw [if_neg hc, h.cell_eq i hi]
      congr 2
      simp only [RotationLog.live, List.filter_filter, RotationLog.entries_advance]
      apply List.filter_congr
      intro e he
      rw [L.age_advance 1 he]
      by_cases hres : e.1 % n = i
      · -- the two liveness tests differ only at age `n - 1`, which has the new residue
        have hne : L.age e ≠ n - 1 := by
          intro hage
          apply hc
          have hrot : L.rotations + 1 = e.1 + n := by
            have := L.stamp_add_age he
            omega
          rw [hidx, ← hres, hrot, Nat.add_mod_right]
        have hiff : L.age e < n ↔ L.age e + 1 < n := by omega
        simp [hres, hiff]
      · simp [hres]

/-- The cells sum to the total weight of the live entries. -/
lemma sum_eq (hn : 0 < n) (h : CyclicBuffer n w cells idx L) :
    cells.sum = totalWeight w (L.live n) :=
  sum_of_classes h.length_eq (fun _ _ => Nat.mod_lt _ hn) h.cell_eq

/-- The cell `j` places behind the current one holds exactly the entries of age `j`. -/
lemma cell_of_age (h : CyclicBuffer n w cells idx L) {j : ℕ} (hj : j < n) :
    cells[(idx + (n - j)) % n]?
      = some (totalWeight w (L.entries.filter (fun e => L.age e = j))) := by
  have hn : 0 < n := by omega
  rw [h.cell_eq _ (Nat.mod_lt _ hn)]
  congr 2
  rw [RotationLog.live, List.filter_filter]
  apply List.filter_congr
  intro e he
  have hback : ((idx + (n - j)) % n + j) % n = L.rotations % n := by
    rw [Nat.mod_add_mod, show idx + (n - j) + j = idx + n by omega, Nat.add_mod_right, h.idx_eq,
      Nat.mod_mod]
  by_cases hage : L.age e = j
  · have hrot : (e.1 + j) % n = ((idx + (n - j)) % n + j) % n := by
      rw [hback, ← hage, L.stamp_add_age he]
    have hres : e.1 % n = (idx + (n - j)) % n := by
      have := Nat.ModEq.add_right_cancel' j hrot
      rwa [Nat.ModEq, Nat.mod_mod] at this
    simp [hage, hres, hj]
  · have hne : ¬ (e.1 % n = (idx + (n - j)) % n ∧ L.age e < n) := by
      rintro ⟨hres, hlt⟩
      apply hage
      apply age_eq_of_residue he hlt hj
      rw [← hback, ← hres, Nat.mod_add_mod]
    simpa [hage] using hne

end CyclicBuffer

end Cyclic

/-! ## The shift register -/

section Shift

variable {α M : Type*} [AddCommMonoid M]

/-- **The coupling without an index.**  The oldest cell comes first, the current one last, and
the cell `j` places before the last carries the weight of the entries of age `j`. -/
structure ShiftRegister (n : ℕ) (w : α → M) (cells : List M) (L : RotationLog α) : Prop where
  length_eq : cells.length = n
  cell_eq : ∀ i < n,
    cells[i]? = some (totalWeight w
      (L.entries.filter (fun e => n - 1 - L.age e = i ∧ L.age e < n)))

namespace ShiftRegister

variable {n : ℕ} {w : α → M} {cells : List M} {L : RotationLog α}

lemma empty (n : ℕ) (w : α → M) :
    ShiftRegister n w (List.replicate n 0) (RotationLog.empty : RotationLog α) where
  length_eq := List.length_replicate
  cell_eq i hi := by simp [hi]

/-- Adding to the last cell implements an append. -/
lemma append (hn : 0 < n) (h : ShiftRegister n w cells L) (x : α) :
    ShiftRegister n w (cells.modify (n - 1) (· + w x)) (L.append x) where
  length_eq := by simpa using h.length_eq
  cell_eq i hi := by
    have hage : L.age (L.rotations, x) = 0 := Nat.sub_self _
    have hnew : [(L.rotations, x)].filter
        (fun e => n - 1 - (L.append x).age e = i ∧ (L.append x).age e < n)
        = if n - 1 = i then [(L.rotations, x)] else [] := by
      by_cases hc : n - 1 = i <;> simp [hc, hage, hn]
    have hold : L.entries.filter
        (fun e => n - 1 - (L.append x).age e = i ∧ (L.append x).age e < n)
        = L.entries.filter (fun e => n - 1 - L.age e = i ∧ L.age e < n) := rfl
    rw [List.getElem?_modify, h.cell_eq i hi, RotationLog.entries_append, List.filter_append,
      totalWeight_append, hnew, hold]
    generalize L.entries.filter (fun e => n - 1 - L.age e = i ∧ L.age e < n) = old
    by_cases hc : n - 1 = i <;> simp [hc]

/-- **One rotation.**  Dropping the first cell and adding a zero at the end makes every entry one
rotation older. -/
lemma shift (hn : 0 < n) (h : ShiftRegister n w cells L) :
    ShiftRegister n w (cells.tail ++ [0]) (L.advance 1) where
  length_eq := by
    have := h.length_eq
    simp only [List.length_append, List.length_tail, List.length_singleton]
    omega
  cell_eq i hi := by
    have hlen : cells.tail.length = n - 1 := by rw [List.length_tail, h.length_eq]
    rw [List.getElem?_append, hlen, RotationLog.entries_advance]
    by_cases hlast : i < n - 1
    · rw [if_pos hlast, List.getElem?_tail, h.cell_eq (i + 1) (by omega)]
      congr 2
      apply List.filter_congr
      intro e he
      rw [L.age_advance 1 he, decide_eq_decide]
      omega
    · -- no entry has age zero after a rotation
      have hnone : L.entries.filter
          (fun e => n - 1 - (L.advance 1).age e = i ∧ (L.advance 1).age e < n) = [] := by
        rw [List.filter_eq_nil_iff]
        intro e he
        rw [L.age_advance 1 he, decide_eq_true_eq]
        omega
      rw [if_neg hlast, hnone, show i - (n - 1) = 0 by omega]
      rfl

lemma iterate_shift (hn : 0 < n) (h : ShiftRegister n w cells L) (k : ℕ) :
    ShiftRegister n w ((fun cells => cells.tail ++ [0])^[k] cells) (L.advance k) := by
  induction k with
  | zero => rwa [Function.iterate_zero, RotationLog.advance_zero]
  | succ k ih =>
      rw [Function.iterate_succ_apply', ← RotationLog.advance_advance]
      exact ih.shift hn

/-- The cells sum to the total weight of the live entries. -/
lemma sum_eq (hn : 0 < n) (h : ShiftRegister n w cells L) :
    cells.sum = totalWeight w (L.live n) := by
  apply sum_of_classes h.length_eq (c := fun e => n - 1 - L.age e)
  · intro e he
    omega
  · intro i hi
    rw [h.cell_eq i hi, RotationLog.live, List.filter_filter]
    simp

end ShiftRegister

end Shift

/-! ## Ages read off a clock -/

namespace RotationLog

variable {α : Type*}

/-- Every payload lies in a cell of some clock, and up to the horizon `n` the age of an entry is
the number of cells from its own to `now`. -/
def Dated (n : ℕ) (cell : α → ℤ) (now : ℤ) (L : RotationLog α) : Prop :=
  ∀ e ∈ L.entries, cell e.2 ≤ now ∧ min n (L.age e) = min n (now - cell e.2).toNat

namespace Dated

variable {n : ℕ} {cell : α → ℤ} {now now' : ℤ} {L : RotationLog α}

lemma empty (n : ℕ) (cell : α → ℤ) (now : ℤ) : (RotationLog.empty).Dated n cell now := by
  intro e he
  cases he

lemma append (h : L.Dated n cell now) {x : α} (hx : cell x = now) :
    (L.append x).Dated n cell now := by
  intro e he
  rcases List.mem_append.mp he with he | he
  · exact h e he
  · rw [List.mem_singleton.mp he]
    simp [RotationLog.age, hx]

/-- Rotations count as many cells as the clock does, as far as the horizon can tell. -/
lemma advance (h : L.Dated n cell now) (hle : now ≤ now') {k : ℕ}
    (hk : min n k = min n (now' - now).toNat) : (L.advance k).Dated n cell now' := by
  intro e he
  obtain ⟨hcell, hage⟩ := h e he
  rw [L.age_advance k he]
  omega

/-- What is live is decided by the clock. -/
lemma map_live (h : L.Dated n cell now) :
    (L.live n).map Prod.snd = (L.entries.map Prod.snd).filter (fun x => now - cell x < n) := by
  rw [live, List.filter_map]
  congr 1
  apply List.filter_congr
  intro e he
  obtain ⟨hcell, hage⟩ := h e he
  rw [Function.comp_apply, decide_eq_decide]
  omega

end Dated

end RotationLog

/-! ## What is live comes last -/

/-- In a list along which a predicate, once true, stays true, what satisfies it comes last. -/
lemma exists_append_filter {β : Type*} {p : β → Bool} {l : List β}
    (h : l.Pairwise (fun a b => p a → p b)) : ∃ l', l = l' ++ l.filter p ∧ ∀ a ∈ l', ¬ p a := by
  induction l with
  | nil => exact ⟨[], rfl, by simp⟩
  | cons a l ih =>
      obtain ⟨hhead, htail⟩ := List.pairwise_cons.mp h
      by_cases ha : p a
      · have hall : l.filter p = l := List.filter_eq_self.mpr fun b hb => hhead b hb ha
        exact ⟨[], by rw [List.filter_cons_of_pos ha, hall, List.nil_append], by simp⟩
      · obtain ⟨l', heq, hnot⟩ := ih htail
        refine ⟨a :: l', ?_, ?_⟩
        · rw [List.filter_cons_of_neg ha, List.cons_append, ← heq]
        · rintro b (_ | ⟨_, hb⟩)
          · exact ha
          · exact hnot b hb

namespace RotationLog

variable {α : Type*} {L : RotationLog α}

/-- The stamps stand in order. -/
def Ordered (L : RotationLog α) : Prop := L.entries.Pairwise (fun a b => a.1 ≤ b.1)

lemma Ordered.empty : (RotationLog.empty : RotationLog α).Ordered := List.Pairwise.nil

lemma Ordered.clear (L : RotationLog α) : L.clear.Ordered := List.Pairwise.nil

lemma Ordered.advance (h : L.Ordered) (k : ℕ) : (L.advance k).Ordered := h

lemma Ordered.append (h : L.Ordered) (x : α) : (L.append x).Ordered := by
  refine List.pairwise_append.mpr ⟨h, List.pairwise_singleton _ _, fun a ha b hb => ?_⟩
  rw [List.mem_singleton.mp hb]
  exact L.stamp_le a ha

/-- The live entries are the last ones. -/
lemma Ordered.split_live (h : L.Ordered) (n : ℕ) :
    ∃ older, L.entries = older ++ L.live n ∧ ∀ e ∈ older, ¬ L.age e < n := by
  have hmono : L.entries.Pairwise
      (fun a b => decide (L.age a < n) = true → decide (L.age b < n) = true) := by
    refine List.Pairwise.imp (fun {a b} hab hlive => decide_eq_true ?_) h
    have hlive : L.age a < n := of_decide_eq_true hlive
    rw [age] at hlive ⊢
    omega
  obtain ⟨older, heq, hnot⟩ := exists_append_filter hmono
  exact ⟨older, heq, fun e he hlive => hnot e he (decide_eq_true hlive)⟩

end RotationLog

end Akil
