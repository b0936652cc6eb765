import Akil.Framework.SpacedStarts
import Akil.Properties.Timeline

/-!
# The bounds of the window

Buckets start when a rotation resets them, and a rotation happens no sooner than a bucket duration
after the one before.  So along the timeline the start times never go back, differ by at least a
duration where they differ, and end with the time of the last rotation (`Timeline.Ordered`).

`ComputeProfile` finds `WindowStart` as the least start time.  For `WindowEnd` it walks over the
array and compares each start time with the end found so far, which already includes a bucket
duration: a bucket that starts exactly where the previous one ended is passed over.  `windowEnd`
is then right or one duration short by the parity of the buckets that touch, going back in the
array from the newest one (`windowBounds_iff`).
-/

namespace Akil

/-- No whole duration has passed. -/
lemma tdiv_le_zero_iff {elapsed d : ℤ} (hd : 0 < d) : elapsed.tdiv d ≤ 0 ↔ elapsed < d := by
  rcases le_or_gt 0 elapsed with hnonneg | hneg
  · rw [Int.tdiv_eq_ediv_of_nonneg hnonneg]
    have hlt : elapsed / d < 1 ↔ elapsed < 1 * d := Int.ediv_lt_iff_lt_mul hd
    omega
  · have hle : elapsed.tdiv d ≤ 0 := by
      rw [← Int.neg_nonneg, ← Int.neg_tdiv]
      exact Int.tdiv_nonneg (by omega) hd.le
    omega

/-! ## Start times along the timeline -/

namespace Timeline

/-- The start times, oldest first. -/
def starts (T : Timeline) : List ℤ := T.buckets.map Bucket.startTime

/-- The start times are spaced, and the newest is that of the last rotation. -/
structure Ordered (T : Timeline) : Prop where
  duration_pos : 0 < T.bucketDuration
  spaced : Spaced T.bucketDuration T.starts
  newest : ∃ older, T.starts = older ++ [T.lastRotation]

variable {T : Timeline}

lemma iterate_shift (now : ℤ) {k : ℕ} (hk : k ≤ T.buckets.length) :
    (shift now)^[k] T
      = { T with buckets := T.buckets.drop k ++ List.replicate k ⟨0, now⟩ } := by
  induction k with
  | zero => simp
  | succ k ih =>
      have hne : T.buckets.drop k ≠ [] := by
        rw [ne_eq, List.drop_eq_nil_iff]
        omega
      rw [Function.iterate_succ_apply', ih (by omega), shift, List.tail_append_of_ne_nil hne,
        List.tail_drop, List.append_assoc, ← List.replicate_succ']

/-- Start times that are all equal. -/
lemma Ordered.of_replicate {k : ℕ} (hk : 0 < k) (hd : 0 < T.bucketDuration)
    (h : T.starts = List.replicate k T.lastRotation) : T.Ordered := by
  obtain ⟨k, rfl⟩ := Nat.exists_eq_succ_of_ne_zero hk.ne'
  refine ⟨hd, ?_, List.replicate k T.lastRotation, ?_⟩
  · rw [h]
    exact List.pairwise_replicate.mpr (Or.inr (Or.inl rfl))
  · rw [h, Nat.succ_eq_add_one, List.replicate_succ']

lemma Ordered.length_pos (h : T.Ordered) : 0 < T.buckets.length := by
  obtain ⟨older, heq⟩ := h.newest
  have hlen := congrArg List.length heq
  rw [starts, List.length_map, List.length_append, List.length_singleton] at hlen
  omega

/-- A rotation keeps the order, and the newest bucket then covers the reading. -/
lemma Ordered.rotate (h : T.Ordered) (now : ℤ) :
    (T.rotate now).Ordered ∧ now < (T.rotate now).lastRotation + T.bucketDuration ∧
      (T.rotate now).bucketDuration = T.bucketDuration ∧
      ((T.rotate now).lastRotation = T.lastRotation ∨ (T.rotate now).lastRotation = now) := by
  have hd := h.duration_pos
  obtain ⟨older, hstarts⟩ := h.newest
  by_cases hnone : (now - T.lastRotation).tdiv T.bucketDuration ≤ 0
  · have hsame : T.rotate now = T := if_pos hnone
    have hlt := (tdiv_le_zero_iff hd).mp hnone
    rw [hsame]
    exact ⟨h, by omega, rfl, Or.inl rfl⟩
  · -- At least one duration has passed since the newest bucket started.
    have hlate : T.lastRotation + T.bucketDuration ≤ now := by
      rw [tdiv_le_zero_iff hd] at hnone
      omega
    obtain ⟨k, hpos, hle, hrot⟩ : ∃ k : ℕ, 0 < k ∧ k ≤ T.buckets.length ∧
        T.rotate now = { (shift now)^[k] T with lastRotation := now } := by
      have hlen := h.length_pos
      rw [Timeline.rotate, if_neg hnone]
      split_ifs with hmany
      · exact ⟨_, by omega, by omega, rfl⟩
      · exact ⟨_, by omega, by omega, rfl⟩
    rw [iterate_shift now hle] at hrot
    have hnew : (T.rotate now).starts = T.starts.drop k ++ List.replicate k now := by
      rw [hrot]
      simp [starts]
    have hlast : (T.rotate now).lastRotation = now := by rw [hrot]
    have hdur : (T.rotate now).bucketDuration = T.bucketDuration := by rw [hrot]
    refine ⟨⟨hdur ▸ hd, ?_, ?_⟩, by rw [hlast]; omega, hdur, Or.inr hlast⟩
    · rw [hnew, hdur, hstarts]
      exact Spaced.append_replicate hd.le (hstarts ▸ h.spaced) hlate k k
    · obtain ⟨k, rfl⟩ := Nat.exists_eq_succ_of_ne_zero hpos.ne'
      rw [hnew, hlast, Nat.succ_eq_add_one, List.replicate_succ', ← List.append_assoc]
      exact ⟨_, rfl⟩

/-- A call leaves the order of the start times, and rotates to its own reading if at all. -/
lemma Ordered.exec (h : T.Ordered) (now : ℤ) (c : ProfileCall) :
    (T.exec now c).Ordered ∧
      ((T.exec now c).lastRotation = T.lastRotation ∨ (T.exec now c).lastRotation = now) := by
  obtain ⟨hrot, -, -, hlast⟩ := h.rotate now
  cases c with
  | record r nodeName =>
      have hstarts : (T.exec now (.record r nodeName)).starts = (T.rotate now).starts := by
        apply List.ext_getElem?
        intro i
        simp only [starts, Timeline.exec, Timeline.record, List.getElem?_map,
          List.getElem?_modify]
        split_ifs <;> cases (T.rotate now).buckets[i]? <;> rfl
      refine ⟨⟨hrot.duration_pos, ?_, ?_⟩, hlast⟩
      · rw [hstarts]
        exact hrot.spaced
      · rw [hstarts]
        exact hrot.newest
  | resetData =>
      refine ⟨Ordered.of_replicate h.length_pos h.duration_pos ?_, Or.inr rfl⟩
      rw [starts, Timeline.exec, Timeline.resetData, List.map_map]
      exact List.map_eq_replicate_iff.mpr (fun _ _ => rfl)
  | computeProfile => exact ⟨hrot, hlast⟩

end Timeline

namespace WorkloadProfile

lemma duration_pos_new (key : String) (bucketCount bucketDuration now : ℤ) :
    0 < (newWorkloadProfile key bucketCount bucketDuration now).bucketDuration := by
  simp only [newWorkloadProfile]
  split_ifs with h
  · decide
  · omega

/-- **Reachable states.**  Along every run whose clock does not go back, the timeline is ordered
and its last rotation is not in the future. -/
lemma ordered_run (key : String) (bucketCount bucketDuration created : ℤ)
    (calls : List (ℤ × ProfileCall)) (hclock : NondecreasingFrom created calls) :
    let wp := (newWorkloadProfile key bucketCount bucketDuration created).run calls
    wp.InRange ∧ wp.timeline.Ordered ∧ wp.lastRotation ≤ lastTime created calls := by
  refine timedRun_invariant (f := exec) (P := fun _ _ _ => True)
    (I := fun now wp => wp.InRange ∧ wp.timeline.Ordered ∧ wp.lastRotation ≤ now) ?_ ?_ hclock
    (allSteps_of_forall (fun _ _ => trivial) _)
  · rintro now t c wp ⟨hrange, hordered, hlast⟩ hle -
    obtain ⟨hrange', htimeline⟩ := timeline_exec hrange t c
    obtain ⟨hordered', hlast'⟩ := hordered.exec t c
    rw [← htimeline] at hordered' hlast'
    refine ⟨hrange', hordered', ?_⟩
    rcases hlast' with heq | heq
    · exact heq.le.trans (hlast.trans hle)
    · exact heq.le
  · have hrange := InRange.new key bucketCount bucketDuration created
    have hnew := timeline_new key bucketCount bucketDuration created
    refine ⟨hrange, ?_, le_rfl⟩
    refine Timeline.Ordered.of_replicate (Nat.zero_lt_of_lt hrange.idx_lt)
      (duration_pos_new key bucketCount bucketDuration created) ?_
    rw [Timeline.starts, hnew]
    exact List.map_replicate

/-! ## The pass of `ComputeProfile` -/

/-- The start times in the order of the array. -/
def starts (wp : WorkloadProfile) : List ℤ := wp.buckets.map Bucket.startTime

/-- The start times of the current bucket and of those before it in the array, going back. -/
def startsBack (wp : WorkloadProfile) : List ℤ := (wp.starts.take (wp.currentIdx + 1)).reverse

lemma windowEnd_eq_latestEnd (wp : WorkloadProfile) :
    wp.windowEnd = latestEnd wp.bucketDuration wp.starts := by
  rw [windowEnd, latestEnd, starts, List.foldl_map]
  rfl

/-- In the order of age the buckets after the index come first. -/
lemma starts_timeline {wp : WorkloadProfile} (h : wp.InRange) :
    wp.timeline.starts
      = wp.starts.drop (wp.currentIdx + 1) ++ wp.starts.take (wp.currentIdx + 1) := by
  rw [Timeline.starts, timeline, byAge_eq_append (h.length_eq ▸ h.idx_lt), List.map_append, starts,
    List.map_drop, List.map_take]

/-- The end the pass finds in an ordered window. -/
lemma windowEnd_of_ordered {wp : WorkloadProfile} (h : wp.InRange) (ho : wp.timeline.Ordered) :
    wp.windowEnd = some (if Even (backToBack wp.bucketDuration wp.startsBack)
      then wp.lastRotation + wp.bucketDuration else wp.lastRotation) := by
  have hd : 0 < wp.bucketDuration := ho.duration_pos
  have hspaced : Spaced wp.bucketDuration
      (wp.starts.drop (wp.currentIdx + 1) ++ wp.starts.take (wp.currentIdx + 1)) :=
    starts_timeline h ▸ ho.spaced
  -- The newest bucket is the last of those up to the index.
  obtain ⟨front, hfront⟩ : ∃ front, wp.starts.take (wp.currentIdx + 1)
      = front ++ [wp.lastRotation] := by
    obtain ⟨older, holder⟩ := ho.newest
    have hne : wp.starts.take (wp.currentIdx + 1) ≠ [] := by
      have hlen : wp.starts.length = wp.bucketCount := (List.length_map _).trans h.length_eq
      have hidx := h.idx_lt
      rw [ne_eq, List.take_eq_nil_iff, ← List.length_eq_zero_iff]
      omega
    have hlast := congrArg List.getLast? ((starts_timeline h).symm.trans holder)
    rw [List.getLast?_append_of_ne_nil _ hne, List.getLast?_append, List.getLast?_singleton]
      at hlast
    refine ⟨(wp.starts.take (wp.currentIdx + 1)).dropLast, ?_⟩
    exact (List.dropLast_append_getLast? _ hlast).symm
  rw [hfront] at hspaced
  have hend := latestEnd_spaced hd (hspaced.sublist (List.sublist_append_right _ _))
  have hback : (front ++ [wp.lastRotation]).reverse = wp.startsBack := by
    rw [startsBack, hfront]
  rw [hback] at hend
  rw [windowEnd_eq_latestEnd, ← List.take_append_drop (wp.currentIdx + 1) wp.starts, hfront]
  refine latestEnd_append_of_le hend ?_
  intro y hy
  have hle : y ≤ wp.lastRotation := by
    rw [← List.append_assoc] at hspaced
    exact hspaced.le_last hd.le y (List.mem_append_left _ (List.mem_append_left _ hy))
  split_ifs <;> linarith

/-- What the bounds of a reported window have to be: the oldest start time, and the newest plus a
bucket duration, with the reading in between. -/
def BoundsRight (wp : WorkloadProfile) (p : RuntimeProfile) (t : ℤ) : Prop :=
  ∃ oldest newest : ℤ, IsLeast {s | s ∈ wp.starts} oldest ∧ IsGreatest {s | s ∈ wp.starts} newest ∧
    p.windowStart = some oldest ∧ p.windowEnd = some (newest + wp.bucketDuration) ∧
    oldest ≤ t ∧ t < newest + wp.bucketDuration

/-- The last rotation is the newest start time. -/
lemma isGreatest_lastRotation {wp : WorkloadProfile} (ho : wp.timeline.Ordered) :
    IsGreatest {s | s ∈ wp.starts} wp.lastRotation := by
  have hmem : ∀ s, s ∈ wp.starts ↔ s ∈ wp.timeline.starts :=
    fun s => ((byAge_perm wp.buckets wp.currentIdx).map Bucket.startTime).mem_iff.symm
  obtain ⟨older, holder⟩ := ho.newest
  have hlast : wp.timeline.lastRotation = wp.lastRotation := rfl
  rw [hlast] at holder
  constructor
  · simp [hmem, holder]
  · intro s hs
    have hspaced := ho.spaced
    rw [Set.mem_ofPred_eq, hmem, holder] at hs
    rw [holder] at hspaced
    exact hspaced.le_last ho.duration_pos.le s hs

/-- `WindowStart` is the oldest start time. -/
lemma isLeast_windowStart {wp : WorkloadProfile} (ho : wp.timeline.Ordered) :
    ∃ oldest, wp.windowStart = some oldest ∧ IsLeast {s | s ∈ wp.starts} oldest := by
  have hne : wp.starts ≠ [] := List.ne_nil_of_mem (isGreatest_lastRotation ho).1
  obtain ⟨oldest, hmin⟩ : ∃ oldest, wp.starts.min? = some oldest :=
    ⟨_, List.min?_eq_some_min hne⟩
  refine ⟨oldest, wp.windowStart_eq_min?.trans hmin, ?_⟩
  obtain ⟨hmem, hle⟩ := List.min?_eq_some_iff.mp hmin
  exact ⟨hmem, fun s hs => hle s hs⟩

end WorkloadProfile

/-- **The reported bounds.**  For every run of a new profile and every `ComputeProfile` after it,
by a clock that does not go back, the bounds are right if and only if the number of buckets is
even that, going back in the array from the newest one and passing over equal start times, start
exactly one duration before the one after them. -/
theorem windowBounds_iff (key : String) (bucketCount bucketDuration created : ℤ)
    (calls : List (ℤ × ProfileCall)) (t : ℤ)
    (hclock : NondecreasingFrom created (calls ++ [(t, .computeProfile)])) :
    let wp := (newWorkloadProfile key bucketCount bucketDuration created).run calls
    let rotated := wp.maybeRotate t
    rotated.BoundsRight (wp.computeProfile t).1 t ↔
      Even (backToBack rotated.bucketDuration rotated.startsBack) := by
  intro wp rotated
  obtain ⟨hcalls, ht⟩ := nondecreasingFrom_concat.mp hclock
  obtain ⟨hrange₀, hordered₀, hlast₀⟩ :=
    WorkloadProfile.ordered_run key bucketCount bucketDuration created calls hcalls
  obtain ⟨hrange, htimeline⟩ := WorkloadProfile.timeline_maybeRotate hrange₀ t
  obtain ⟨hordered, hcover, hdur, hlast⟩ := hordered₀.rotate t
  rw [← htimeline] at hordered hcover hdur hlast
  have hnewest := WorkloadProfile.isGreatest_lastRotation hordered
  have hend := WorkloadProfile.windowEnd_of_ordered hrange hordered
  have hd : 0 < rotated.bucketDuration := hordered.duration_pos
  constructor
  · rintro ⟨oldest, newest, -, hgreatest, -, hwindowEnd, -, -⟩
    obtain rfl := hgreatest.unique hnewest
    by_contra hodd
    have heq := hend.symm.trans hwindowEnd
    rw [if_neg hodd, Option.some_inj] at heq
    omega
  · intro heven
    obtain ⟨oldest, hstart, hleast⟩ := WorkloadProfile.isLeast_windowStart hordered
    have holdest : oldest ≤ rotated.lastRotation := hleast.2 hnewest.1
    have hpast : rotated.lastRotation ≤ t := by
      rcases hlast with heq | heq
      · exact heq.le.trans (hlast₀.trans ht)
      · exact heq.le
    refine ⟨oldest, rotated.lastRotation, hleast, hnewest, hstart, ?_, holdest.trans hpast, ?_⟩
    · rw [if_pos heven] at hend
      exact hend
    · rw [← hdur] at hcover
      exact hcover

/-- Three buckets of ten, recorded into at `3` and at `10` and read at `20`: each bucket starts
where the one before it ended, and of two such steps the second undoes the first. -/
theorem windowBounds_iff_three :
    let wp := (newWorkloadProfile "default/Deployment/web" 3 10 0).run
      [(3, .record .pageFault "node-1"), (10, .record .ctxSwitch "node-1")]
    (wp.maybeRotate 20).starts = [0, 10, 20] ∧
      (wp.maybeRotate 20).BoundsRight (wp.computeProfile 20).1 20 ∧
      (wp.computeProfile 20).1.windowStart = some 0 ∧
      (wp.computeProfile 20).1.windowEnd = some 30 := by
  intro wp
  refine ⟨by decide +kernel, ?_, by decide +kernel, by decide +kernel⟩
  refine (windowBounds_iff "default/Deployment/web" 3 10 0 _ 20 (by decide)).mpr ?_
  decide +kernel

/-- One bucket duration after it was made, the second bucket has started exactly where the first
ended.  The window is reported to end at `10`, the reading itself, and not at `20`. -/
theorem windowBounds_touching :
    let wp := newWorkloadProfile "default/Deployment/web" 2 10 0
    (wp.computeProfile 10).1.windowStart = some 0 ∧ (wp.computeProfile 10).1.windowEnd = some 10 ∧
      (wp.maybeRotate 10).starts = [0, 10] ∧
      ¬ (wp.maybeRotate 10).BoundsRight (wp.computeProfile 10).1 10 := by
  intro wp
  have hend : (wp.computeProfile 10).1.windowEnd = some 10 := by decide +kernel
  refine ⟨by decide +kernel, hend, by decide +kernel, ?_⟩
  rintro ⟨oldest, newest, -, -, -, hwindowEnd, -, hlt⟩
  rw [hend, Option.some_inj] at hwindowEnd
  omega

end Akil
