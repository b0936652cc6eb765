import Mathlib

/-!
# Little-endian integers in byte strings

`leBytes k v` writes `v` in `k` bytes, least significant first, and `leValue` reads a byte
string back; each undoes the other.  `overwrite xs off ys` stores the bytes `ys` at offset `off` of `xs`, and
`slice xs lo hi` is the range `xs[lo:hi]`.  A slice of a store is what was stored when the two
ranges are the same (`slice_overwrite_self`) and what was there before when they are disjoint
(`slice_overwrite_of_le`, `slice_overwrite_of_ge`); stores keep the length.  With these a
record layout is checked field by field.
-/

namespace Akil

/-! ## Integers as bytes -/

/-- The `k` low bytes of `v`, least significant first. -/
def leBytes : ℕ → ℕ → List UInt8
  | 0, _ => []
  | k + 1, v => UInt8.ofNat v :: leBytes k (v / 256)

/-- The value of a byte string, least significant byte first. -/
def leValue : List UInt8 → ℕ
  | [] => 0
  | b :: bs => b.toNat + 256 * leValue bs

@[simp] lemma length_leBytes (k v : ℕ) : (leBytes k v).length = k := by
  induction k generalizing v with
  | zero => rfl
  | succ k ih => simp [leBytes, ih]

/-- Reading back what was written gives the value modulo the width. -/
lemma leValue_leBytes (k v : ℕ) : leValue (leBytes k v) = v % 256 ^ k := by
  induction k generalizing v with
  | zero => simp [leBytes, leValue, Nat.mod_one]
  | succ k ih =>
      have hbyte : (UInt8.ofNat v).toNat = v % 256 := UInt8.toNat_ofNat'
      rw [leBytes, leValue, ih, hbyte, pow_succ' 256, Nat.mod_mul]

lemma leValue_lt (bs : List UInt8) : leValue bs < 256 ^ bs.length := by
  induction bs with
  | nil => exact Nat.one_pos
  | cons b bs ih =>
      have hbyte : b.toNat < 256 := b.toNat_lt
      rw [leValue, List.length_cons, pow_succ']
      omega

/-- Writing back what was read gives the bytes. -/
lemma leBytes_leValue (bs : List UInt8) : leBytes bs.length (leValue bs) = bs := by
  induction bs with
  | nil => rfl
  | cons b bs ih =>
      have hbyte : b.toNat < 256 := b.toNat_lt
      have hlow : UInt8.ofNat (b.toNat + 256 * leValue bs) = b := by
        rw [← UInt8.toNat_inj, UInt8.toNat_ofNat']
        omega
      have hhigh : (b.toNat + 256 * leValue bs) / 256 = leValue bs := by omega
      rw [List.length_cons, leValue, leBytes, hlow, hhigh, ih]

/-- The eight bytes of a 64-bit integer. -/
def uint64Bytes (v : UInt64) : List UInt8 := leBytes 8 v.toNat

/-- The 64-bit integer of eight bytes. -/
def uint64OfBytes (bs : List UInt8) : UInt64 := UInt64.ofNat (leValue bs)

@[simp] lemma length_uint64Bytes (v : UInt64) : (uint64Bytes v).length = 8 := length_leBytes _ _

@[simp] lemma uint64OfBytes_uint64Bytes (v : UInt64) : uint64OfBytes (uint64Bytes v) = v := by
  have hlt : v.toNat < 256 ^ 8 := v.toNat_lt
  rw [uint64OfBytes, uint64Bytes, leValue_leBytes, Nat.mod_eq_of_lt hlt]
  exact UInt64.ofNat_toNat

lemma uint64Bytes_uint64OfBytes {bs : List UInt8} (h : bs.length = 8) :
    uint64Bytes (uint64OfBytes bs) = bs := by
  have hlt : leValue bs < 2 ^ 64 := (leValue_lt bs).trans_eq (by rw [h]; rfl)
  have hbytes := leBytes_leValue bs
  rwa [h, ← UInt64.toNat_ofNat_of_lt' hlt] at hbytes

/-! ## Stores and slices -/

section Stores

variable {α : Type*}

/-- The bytes `ys` stored at offset `off`. -/
def overwrite (xs : List α) (off : ℕ) (ys : List α) : List α :=
  xs.take off ++ ys ++ xs.drop (off + ys.length)

/-- The range `xs[lo:hi]`. -/
def slice (xs : List α) (lo hi : ℕ) : List α := (xs.drop lo).take (hi - lo)

lemma length_overwrite {xs ys : List α} {off : ℕ} (h : off + ys.length ≤ xs.length) :
    (overwrite xs off ys).length = xs.length := by
  simp only [overwrite, List.length_append, List.length_take, List.length_drop]
  omega

/-- A slice of exactly the stored range is what was stored. -/
lemma slice_overwrite_self {xs ys : List α} {lo hi : ℕ} (hlo : lo ≤ xs.length)
    (hhi : hi = lo + ys.length) : slice (overwrite xs lo ys) lo hi = ys := by
  have htake : (xs.take lo).length = lo := by simpa using hlo
  have hdrop : (overwrite xs lo ys).drop lo = ys ++ xs.drop (lo + ys.length) := by
    rw [overwrite, List.append_assoc, List.drop_append_of_le_length (by omega),
      List.drop_of_length_le (by omega), List.nil_append]
  rw [slice, hdrop, hhi, Nat.add_sub_cancel_left, List.take_left]

/-- A slice that ends before the stored range is not changed. -/
lemma slice_overwrite_of_le {xs ys : List α} {off lo hi : ℕ} (hoff : off ≤ xs.length)
    (h : hi ≤ off) : slice (overwrite xs off ys) lo hi = slice xs lo hi := by
  refine List.ext_getElem? (fun i => ?_)
  simp only [slice, overwrite, List.getElem?_take, List.getElem?_drop, List.append_assoc]
  by_cases hi' : i < hi - lo
  · rw [if_pos hi', if_pos hi', List.getElem?_append_left (by simp; omega),
      List.getElem?_take_of_lt (by omega)]
  · rw [if_neg hi', if_neg hi']

/-- A slice that starts after the stored range is not changed. -/
lemma slice_overwrite_of_ge {xs ys : List α} {off lo hi : ℕ} (hoff : off ≤ xs.length)
    (h : off + ys.length ≤ lo) : slice (overwrite xs off ys) lo hi = slice xs lo hi := by
  refine List.ext_getElem? (fun i => ?_)
  have hhead : (xs.take off ++ ys).length = off + ys.length := by simp; omega
  have hindex : off + ys.length + (lo + i - (off + ys.length)) = lo + i := by omega
  simp only [slice, overwrite, List.getElem?_take, List.getElem?_drop]
  rw [List.getElem?_append_right (by omega), hhead, List.getElem?_drop, hindex]

lemma length_slice {xs : List α} {lo hi : ℕ} (h : hi ≤ xs.length) :
    (slice xs lo hi).length = hi - lo := by
  rw [slice, List.length_take, List.length_drop]
  omega

/-- A slice and what comes after it. -/
lemma slice_append_drop (xs : List α) {lo hi : ℕ} (h : lo ≤ hi) :
    slice xs lo hi ++ xs.drop hi = xs.drop lo := by
  have hdrop : xs.drop hi = (xs.drop lo).drop (hi - lo) := by
    rw [List.drop_drop, Nat.add_sub_cancel' h]
  rw [slice, hdrop, List.take_append_drop]

/-- A slice of a first part is that part. -/
lemma slice_append_left {pre : List α} (post : List α) {hi : ℕ} (h : pre.length = hi) :
    slice (pre ++ post) 0 hi = pre := by
  rw [slice, List.drop_zero, Nat.sub_zero, List.take_left' h]

/-- A slice of a middle part is that part. -/
lemma slice_append_middle {pre mid : List α} (post : List α) {lo hi : ℕ} (hlo : pre.length = lo)
    (hhi : hi = lo + mid.length) : slice (pre ++ (mid ++ post)) lo hi = mid := by
  rw [slice, List.drop_left' hlo, hhi, Nat.add_sub_cancel_left, List.take_left]

end Stores

end Akil
