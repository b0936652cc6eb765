import Akil.Properties.WindowBounds

/-!
# The ring buffer of a window

What `maybeRotate` keeps true of the array, said in its own indices.  Reading cyclically from the
bucket after `currentIdx` round to `currentIdx`, the start times never go back, differ by a bucket
duration at least where they differ, and end with `lastRotation`
(`WorkloadProfile.RingBuffer`).  In the order of the timeline this is `Timeline.Ordered`
(`WorkloadProfile.ringBuffer_iff`), so what holds there of every call holds here, whatever the
clock does.
-/

namespace Akil

namespace WorkloadProfile

/-- The start time `k` buckets after the one that follows the current bucket, going round. -/
def cyclicStart (wp : WorkloadProfile) (k : ℕ) : Option ℤ :=
  wp.starts[(wp.currentIdx + 1 + k) % wp.bucketCount]?

/-- **The representation invariant.** -/
structure RingBuffer (wp : WorkloadProfile) : Prop where
  length_eq : wp.buckets.length = wp.bucketCount
  idx_lt : wp.currentIdx < wp.bucketCount
  duration_pos : 0 < wp.bucketDuration
  nondecreasing : ∀ j k, j < k → k < wp.bucketCount →
    ∀ s ∈ wp.cyclicStart j, ∀ s' ∈ wp.cyclicStart k, s ≤ s'
  newest : wp.starts[wp.currentIdx]? = some wp.lastRotation
  spaced : ∀ k, k + 1 < wp.bucketCount →
    ∀ s ∈ wp.cyclicStart k, ∀ s' ∈ wp.cyclicStart (k + 1), s ≠ s' → s + wp.bucketDuration ≤ s'

variable {wp : WorkloadProfile}

lemma length_starts (h : wp.InRange) : wp.starts.length = wp.bucketCount :=
  (List.length_map _).trans h.length_eq

lemma length_starts_timeline (h : wp.InRange) : wp.timeline.starts.length = wp.bucketCount := by
  rw [Timeline.starts, List.length_map, timeline, length_byAge, h.length_eq]

/-- The timeline lists the start times in cyclic order. -/
lemma cyclicStart_eq (h : wp.InRange) {k : ℕ} (hk : k < wp.bucketCount) :
    wp.cyclicStart k = wp.timeline.starts[k]? := by
  have hrotate : wp.timeline.starts = wp.starts.rotate (wp.currentIdx + 1) :=
    (List.map_rotate _ _ _)
  rw [hrotate, List.getElem?_rotate (by rwa [length_starts h]), cyclicStart, length_starts h,
    add_comm k]

/-- The last of them is that of the current bucket. -/
lemma getLast?_starts_timeline (h : wp.InRange) :
    wp.timeline.starts.getLast? = wp.starts[wp.currentIdx]? := by
  have hidx := h.idx_lt
  have hround : (wp.currentIdx + 1 + (wp.bucketCount - 1)) % wp.bucketCount = wp.currentIdx := by
    rw [show wp.currentIdx + 1 + (wp.bucketCount - 1) = wp.currentIdx + wp.bucketCount by omega,
      Nat.add_mod_right, Nat.mod_eq_of_lt hidx]
  rw [List.getLast?_eq_getElem?, length_starts_timeline h, ← cyclicStart_eq h (by omega),
    cyclicStart, hround]

/-- Neighbours in cyclic order a duration apart make spaced start times. -/
lemma RingBuffer.ordered (h : wp.RingBuffer) : wp.timeline.Ordered := by
  have hrange : wp.InRange := ⟨h.length_eq, h.idx_lt⟩
  have hlen := length_starts_timeline hrange
  have hd : 0 < wp.timeline.bucketDuration := h.duration_pos
  refine ⟨hd, ?_, ?_⟩
  · rw [spaced_iff_isChain hd.le, List.isChain_iff_getElem]
    intro k hk
    rw [hlen] at hk
    have hfst : wp.timeline.starts[k] ∈ wp.cyclicStart k := by
      rw [cyclicStart_eq hrange (by omega)]
      exact List.getElem?_eq_getElem _
    have hsnd : wp.timeline.starts[k + 1] ∈ wp.cyclicStart (k + 1) := by
      rw [cyclicStart_eq hrange hk]
      exact List.getElem?_eq_getElem _
    exact or_iff_not_imp_left.mpr (h.spaced k hk _ hfst _ hsnd)
  · have hlast := (getLast?_starts_timeline hrange).trans h.newest
    exact ⟨_, (List.dropLast_append_getLast? _ hlast).symm⟩

/-- And the other way round. -/
lemma RingBuffer.of_ordered (h : wp.InRange) (ho : wp.timeline.Ordered) : wp.RingBuffer := by
  have hd : 0 < wp.bucketDuration := ho.duration_pos
  have hpair : ∀ j k, j < k → k < wp.bucketCount → ∀ s ∈ wp.cyclicStart j,
      ∀ s' ∈ wp.cyclicStart k, s = s' ∨ s + wp.bucketDuration ≤ s' := by
    intro j k hjk hk s hs s' hs'
    rw [cyclicStart_eq h (by omega)] at hs
    rw [cyclicStart_eq h hk] at hs'
    obtain ⟨hj, rfl⟩ := List.getElem?_eq_some_iff.mp hs
    obtain ⟨hk', rfl⟩ := List.getElem?_eq_some_iff.mp hs'
    exact List.pairwise_iff_getElem.mp ho.spaced j k hj hk' hjk
  refine ⟨h.length_eq, h.idx_lt, hd, fun j k hjk hk s hs s' hs' => ?_, ?_,
    fun k hk s hs s' hs' hne => (hpair k (k + 1) (by omega) hk s hs s' hs').resolve_left hne⟩
  · rcases hpair j k hjk hk s hs s' hs' with heq | hle
    · exact heq.le
    · linarith
  · obtain ⟨older, holder⟩ := ho.newest
    rw [← getLast?_starts_timeline h, holder, List.getLast?_concat]
    rfl

/-- In the order of age the invariant says that the timeline is ordered. -/
lemma ringBuffer_iff : wp.RingBuffer ↔ wp.InRange ∧ wp.timeline.Ordered :=
  ⟨fun h => ⟨⟨h.length_eq, h.idx_lt⟩, h.ordered⟩, fun h => RingBuffer.of_ordered h.1 h.2⟩

/-- A rotation keeps it.  It leaves less than a bucket duration since the last rotation, which is
the one before or one at the reading. -/
lemma RingBuffer.maybeRotate (h : wp.RingBuffer) (t : ℤ) :
    (wp.maybeRotate t).RingBuffer ∧
      t - (wp.maybeRotate t).lastRotation < wp.bucketDuration ∧
      ((wp.maybeRotate t).lastRotation = wp.lastRotation ∨
        (wp.maybeRotate t).lastRotation = t) := by
  obtain ⟨hrange, hordered⟩ := ringBuffer_iff.mp h
  obtain ⟨hrange', htimeline⟩ := timeline_maybeRotate hrange t
  obtain ⟨hordered', hcover, -, hlast⟩ := hordered.rotate t
  rw [← htimeline] at hordered' hcover hlast
  have hcover' : t < (wp.maybeRotate t).lastRotation + wp.bucketDuration := hcover
  exact ⟨RingBuffer.of_ordered hrange' hordered', by linarith, hlast⟩

/-- **One step.**  Every call keeps it, at whatever reading. -/
lemma RingBuffer.exec (h : wp.RingBuffer) (t : ℤ) (c : ProfileCall) :
    (wp.exec t c).RingBuffer := by
  obtain ⟨hrange, hordered⟩ := ringBuffer_iff.mp h
  obtain ⟨hrange', htimeline⟩ := timeline_exec hrange t c
  refine RingBuffer.of_ordered hrange' ?_
  rw [htimeline]
  exact (hordered.exec t c).1

end WorkloadProfile

/-- **The ring buffer.**  Every call and every rotation keeps the representation invariant.  So
in every state that a run from a new profile of `n` buckets reaches, by a clock that does not go
back, the array has `n` buckets and the invariant holds; it holds right after a further rotation
too, and the current bucket then started less than `d` ago. -/
theorem ringBuffer_invariant (key : String) (n d created : ℤ) (hn : 1 ≤ n) (hd : 0 < d)
    (calls : List (ℤ × ProfileCall)) (hclock : NondecreasingFrom created calls) :
    (∀ wp : WorkloadProfile, wp.RingBuffer → ∀ t c, (wp.exec t c).RingBuffer ∧
      (wp.maybeRotate t).RingBuffer) ∧
    let wp := (newWorkloadProfile key n d created).run calls
    wp.RingBuffer ∧ (wp.bucketCount : ℤ) = n ∧ wp.bucketDuration = d ∧
      wp.lastRotation ≤ lastTime created calls ∧
      ∀ t, lastTime created calls ≤ t → (wp.maybeRotate t).RingBuffer ∧
        0 ≤ t - (wp.maybeRotate t).lastRotation ∧ t - (wp.maybeRotate t).lastRotation < d := by
  refine ⟨fun wp h t c => ⟨h.exec t c, (h.maybeRotate t).1⟩, ?_⟩
  intro wp
  obtain ⟨hrange, hordered, hlast⟩ :=
    WorkloadProfile.ordered_run key n d created calls hclock
  have hring : wp.RingBuffer := WorkloadProfile.RingBuffer.of_ordered hrange hordered
  have hparams := WorkloadProfile.params_run (newWorkloadProfile key n d created) calls
  have hcount : (wp.bucketCount : ℤ) = n := by
    have hnew : wp.bucketCount = n.toNat :=
      (WorkloadProfile.bucketCount_eq_of_params hparams).trans
        (congrArg Int.toNat (if_neg (by omega)))
    omega
  have hduration : wp.bucketDuration = d :=
    (WorkloadProfile.bucketDuration_eq_of_params hparams).trans (if_neg (by omega))
  refine ⟨hring, hcount, hduration, hlast, fun t ht => ?_⟩
  obtain ⟨hring', hcover, hrotated⟩ := hring.maybeRotate t
  refine ⟨hring', ?_, hduration ▸ hcover⟩
  rcases hrotated with heq | heq
  · linarith
  · linarith

/-- Three buckets of ten, and a record that finds two of them over: it clears them round the end of
the array. -/
theorem ringBuffer_invariant_wrap :
    let wp := (newWorkloadProfile "default/Deployment/web" 3 10 0).run
      [(12, .computeProfile), (24, .computeProfile), (45, .record .pageFault "node-1")]
    wp.RingBuffer ∧ wp.currentIdx = 1 ∧ wp.starts = [45, 45, 24] ∧ wp.lastRotation = 45 := by
  intro wp
  have hring := (ringBuffer_invariant "default/Deployment/web" 3 10 0 (by decide) (by decide)
    [(12, .computeProfile), (24, .computeProfile), (45, .record .pageFault "node-1")]
    (by decide)).2.1
  exact ⟨hring, by decide +kernel, by decide +kernel, by decide +kernel⟩

end Akil
