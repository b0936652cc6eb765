import Akil.Properties.EventLog

/-!
# How old a counted record can be, and who can change that

`maybeRotate` counts the whole bucket durations since `lastRotation` and then restarts the
clock at `now`.  The remainder of the division is lost, so a bucket boundary moves later every
time a call arrives between two boundaries.  Both halves of this file are about the runs in
which that does not happen.

The first half is staleness.  A call *keeps the boundary* when it rotates nothing, rotates by
an exact multiple of the bucket duration, or finds the whole window expired.  Along a run of
such calls every live record satisfies `lastRotation - time ≤ age * d` (`FreshInv`), so no
record made `n * d` or more before a `ComputeProfile` is counted by it (`staleness_bound`).
A single call that loses a remainder is enough to break the bound (`staleness_bound_fails`).

The second half is observation.  `ComputeProfile` rotates, hence writes.  When every rotating
call, original or inserted, sees an exact multiple of the bucket duration, `lastRotation` stays
on the grid laid out from the last reset, and a record's liveness is a function of its time and
the query's time alone (`Aligned.counted_eq`); inserting queries then changes nothing that is
reported (`queries_do_not_perturb`).  Off the grid it does (`queries_do_perturb`).
-/

namespace Akil

/-! ## What a call does to the log's clock -/

namespace EventLog

/-- Rotating forgets no record. -/
lemma entries_rotate (n : ℕ) (d t : ℤ) (E : EventLog) :
    (E.rotate n d t).log.entries = E.log.entries := by
  unfold rotate
  split_ifs <;> rfl

/-- The inversion of `rotate`: either less than one duration has passed and nothing happens, or
`q ≥ 1` whole durations have, the log ages by `min n q` and the clock restarts. -/
lemma rotate_cases {n : ℕ} (hn : 1 ≤ n) {d : ℤ} (hd : 0 < d) (E : EventLog) {t : ℤ}
    (hle : E.lastRotation ≤ t) :
    (t - E.lastRotation < d ∧ E.rotate n d t = E) ∨
      ∃ q : ℕ, 1 ≤ q ∧ q * d ≤ t - E.lastRotation ∧ t - E.lastRotation < (q + 1) * d ∧
        E.rotate n d t = ⟨t, E.log.advance (min n q)⟩ := by
  have hq : 0 ≤ (t - E.lastRotation) / d := Int.ediv_nonneg (by omega) hd.le
  obtain ⟨q, hq⟩ := Int.eq_ofNat_of_zero_le hq
  have hrot : E.rotationsAt n d t = min n q := by rw [rotationsAt, hq, Int.toNat_natCast]
  have hlow : q * d ≤ t - E.lastRotation := by
    rw [← hq]
    exact Int.ediv_mul_le _ hd.ne'
  have hupp : t - E.lastRotation < (q + 1) * d := by
    rw [← hq]
    exact Int.lt_ediv_add_one_mul_self _ hd
  rw [rotate, hrot]
  rcases Nat.eq_zero_or_pos q with rfl | hpos
  · exact Or.inl ⟨by simpa using hupp, by simp⟩
  · exact Or.inr ⟨q, hpos, hlow, hupp, if_neg (by omega)⟩

/-- After the rotations of a call at `t` the last rotation is less than one duration ago. -/
lemma rotate_recent {n : ℕ} (hn : 1 ≤ n) {d : ℤ} (hd : 0 < d) (E : EventLog) {t : ℤ}
    (hle : E.lastRotation ≤ t) :
    (E.rotate n d t).lastRotation ≤ t ∧ t - (E.rotate n d t).lastRotation < d := by
  rcases E.rotate_cases hn hd hle with ⟨hlt, heq⟩ | ⟨q, -, -, -, heq⟩
  · rw [heq]
    exact ⟨hle, hlt⟩
  · rw [heq]
    exact ⟨le_rfl, by simpa using hd⟩

end EventLog

/-- The record a call makes, if it makes one. -/
def ProfileCall.logEntry (t : ℤ) : ProfileCall → Option LogEntry
  | .record r nodeName => some ⟨t, nodeName, r.counts⟩
  | _ => none

/-- All records of a run, whether or not they are still counted. -/
def recordsOf (calls : List (ℤ × ProfileCall)) : List LogEntry :=
  calls.filterMap (fun c => c.2.logEntry c.1)

/-- The records of a run made after `since` and not after `t`. -/
def recordsWithin (since t : ℤ) (calls : List (ℤ × ProfileCall)) : List LogEntry :=
  (recordsOf calls).filter (fun e => since < e.time ∧ e.time ≤ t)

/-- The log remembers only records of the run, each once and in order. -/
lemma entries_run_sublist (n : ℕ) (d : ℤ) (E : EventLog) (calls : List (ℤ × ProfileCall)) :
    ((E.run n d calls).log.entries.map Prod.snd).Sublist
      (E.log.entries.map Prod.snd ++ recordsOf calls) := by
  induction calls generalizing E with
  | nil => simp [EventLog.run, recordsOf]
  | cons c calls ih =>
      obtain ⟨t, c⟩ := c
      have hrot := E.entries_rotate n d t
      refine (ih (E.exec n d t c)).trans ?_
      cases c with
      | record r nodeName =>
          simp [EventLog.exec, recordsOf, ProfileCall.logEntry, hrot]
      | resetData =>
          simp [EventLog.exec, recordsOf, ProfileCall.logEntry]
      | computeProfile =>
          simp [EventLog.exec, recordsOf, ProfileCall.logEntry, hrot]

/-! ## Runs of a profile together with its log -/

/-- One call on a profile and on its log. -/
def coupledExec (n : ℕ) (d : ℤ) (t : ℤ) (c : ProfileCall) (p : WorkloadProfile × EventLog) :
    WorkloadProfile × EventLog :=
  (p.1.exec t c, p.2.exec n d t c)

/-- The profile has the given parameters and implements the log. -/
structure Coupled (key : String) (n : ℕ) (d : ℤ) (p : WorkloadProfile × EventLog) : Prop where
  params : p.1.params = (key, n, d)
  refines : Refines p.1 p.2

namespace Coupled

variable {key : String} {n : ℕ} {d : ℤ} {p : WorkloadProfile × EventLog}

lemma bucketCount (h : Coupled key n d p) : p.1.bucketCount = n :=
  congrArg (fun q => q.2.1) h.params

lemma bucketDuration (h : Coupled key n d p) : p.1.bucketDuration = d :=
  congrArg (fun q => q.2.2) h.params

lemma exec (h : Coupled key n d p) (t : ℤ) (c : ProfileCall) :
    Coupled key n d (coupledExec n d t c p) := by
  refine ⟨(p.1.params_exec t c).trans h.params, ?_⟩
  have hstep := refines_exec t c h.refines
  rwa [h.bucketCount, h.bucketDuration] at hstep

lemma new (key : String) {n : ℕ} (hn : 1 ≤ n) {d : ℤ} (hd : 0 < d) (created : ℤ) :
    Coupled key n d (newWorkloadProfile key n d created, EventLog.new created) :=
  ⟨(refines_new_run key hn hd created []).2, refines_new key hn hd created⟩

lemma new_run (key : String) {n : ℕ} (hn : 1 ≤ n) {d : ℤ} (hd : 0 < d) (created : ℤ)
    (calls : List (ℤ × ProfileCall)) :
    Coupled key n d ((newWorkloadProfile key n d created).run calls,
      (EventLog.new created).run n d calls) :=
  ⟨(refines_new_run key hn hd created calls).2, (refines_new_run key hn hd created calls).1⟩

lemma totals_eq (h : Coupled key n d p) :
    p.1.totals = Counts.wrap (sumCounts (p.2.counted n)) := by
  rw [h.refines.totals_eq, h.bucketCount]

end Coupled

lemma coupledRun_eq (n : ℕ) (d : ℤ) (wp : WorkloadProfile) (E : EventLog)
    (calls : List (ℤ × ProfileCall)) :
    timedRun (coupledExec n d) (wp, E) calls = (wp.run calls, E.run n d calls) :=
  timedRun_prod _ _ _ _ _

/-! ## The staleness bound -/

/-- The call loses no part of a bucket duration, unless the whole window has expired.  This is
a condition on the clock reading and on the state the call finds. -/
def WorkloadProfile.KeepsBoundary (t : ℤ) (c : ProfileCall) (wp : WorkloadProfile) : Prop :=
  c = .resetData ∨ t - wp.lastRotation < wp.bucketDuration ∨
    wp.bucketDuration ∣ t - wp.lastRotation ∨
    wp.bucketCount * wp.bucketDuration ≤ t - wp.lastRotation

instance (t : ℤ) (c : ProfileCall) (wp : WorkloadProfile) : Decidable (wp.KeepsBoundary t c) :=
  inferInstanceAs (Decidable (_ ∨ _ ∨ _ ∨ _))

/-- **The invariant of the staleness bound.**  A live record of age `a` was made at most `a`
bucket durations before the last rotation. -/
structure FreshInv (n : ℕ) (d : ℤ) (now : ℤ) (E : EventLog) : Prop where
  last_le : E.lastRotation ≤ now
  time_le : ∀ e ∈ E.log.entries, e.2.time ≤ now
  live_le : ∀ e ∈ E.log.entries, E.log.age e < n →
    E.lastRotation - e.2.time ≤ E.log.age e * d

namespace FreshInv

variable {n : ℕ} {d now t : ℤ} {E : EventLog}

lemma new (n : ℕ) (d created : ℤ) : FreshInv n d created (EventLog.new created) where
  last_le := le_rfl
  time_le := by simp [EventLog.new]
  live_le := by simp [EventLog.new]

lemma rotate (hn : 1 ≤ n) (hd : 0 < d) (h : FreshInv n d now E) (hle : now ≤ t)
    (hkeep : t - E.lastRotation < d ∨ d ∣ t - E.lastRotation ∨ n * d ≤ t - E.lastRotation) :
    FreshInv n d t (E.rotate n d t) := by
  have hlast := h.last_le.trans hle
  rcases E.rotate_cases hn hd hlast with ⟨hlt, heq⟩ | ⟨q, hq, hlow, hupp, heq⟩
  · rw [heq]
    exact ⟨hlast, fun e he => (h.time_le e he).trans hle, h.live_le⟩
  · rw [heq]
    refine ⟨le_rfl, fun e he => (h.time_le e he).trans hle, fun e he hage => ?_⟩
    rw [E.log.age_advance _ he] at hage ⊢
    have hqn : q < n := by omega
    have hlt : t - E.lastRotation < n * d := by
      have : ((q : ℤ) + 1) * d ≤ n * d := by
        apply mul_le_mul_of_nonneg_right _ hd.le
        exact_mod_cast hqn
      omega
    -- a partial expiry that keeps the boundary is an exact multiple
    have hexact : t - E.lastRotation = q * d := by
      rcases hkeep with hk | hk | hk
      · have : (1 : ℤ) * d ≤ q * d := by
          apply mul_le_mul_of_nonneg_right _ hd.le
          exact_mod_cast hq
        omega
      · obtain ⟨m, hm⟩ := hk
        have hmq : m = q := by
          rw [hm, mul_comm d m] at hlow hupp
          have h₁ : (q : ℤ) ≤ m := le_of_mul_le_mul_right hlow hd
          have h₂ : m < q + 1 := lt_of_mul_lt_mul_right hupp hd.le
          omega
        rw [hm, hmq, mul_comm]
      · omega
    have hold := h.live_le e he (by omega)
    have hmin : min n q = q := by omega
    rw [hmin]
    push_cast
    rw [add_mul]
    change t - e.2.time ≤ _
    omega

lemma exec (hn : 1 ≤ n) (hd : 0 < d) (h : FreshInv n d now E) (hle : now ≤ t)
    {c : ProfileCall} (hkeep : c = .resetData ∨ t - E.lastRotation < d ∨
      d ∣ t - E.lastRotation ∨ n * d ≤ t - E.lastRotation) :
    FreshInv n d t (E.exec n d t c) := by
  cases c with
  | record r nodeName =>
      have hrot := h.rotate hn hd hle (by simpa using hkeep)
      refine ⟨hrot.last_le, fun e he => ?_, fun e he hage => ?_⟩
      · rcases List.mem_append.mp he with he | he
        · exact hrot.time_le e he
        · rw [List.mem_singleton.mp he]
      · rcases List.mem_append.mp he with he | he
        · exact hrot.live_le e he hage
        · rw [List.mem_singleton.mp he]
          have := hrot.last_le
          simp only [EventLog.exec, RotationLog.age, RotationLog.rotations_append, Nat.sub_self,
            Nat.cast_zero, zero_mul]
          omega
  | resetData => exact ⟨le_rfl, by simp [EventLog.exec], by simp [EventLog.exec]⟩
  | computeProfile => exact h.rotate hn hd hle (by simpa using hkeep)

/-- The bound itself: a record counted at `t` is younger than the window is long. -/
lemma age_lt (hd : 0 < d) (h : FreshInv n d t E) (hrecent : t - E.lastRotation < d) :
    ∀ e ∈ E.counted n, t - n * d < e.time ∧ e.time ≤ t := by
  intro x hx
  obtain ⟨e, he, rfl⟩ := List.mem_map.mp hx
  obtain ⟨hmem, hage⟩ := RotationLog.mem_live.mp he
  refine ⟨?_, h.time_le e hmem⟩
  have hold := h.live_le e hmem hage
  have hmul : ((E.log.age e : ℤ) + 1) * d ≤ n * d := by
    apply mul_le_mul_of_nonneg_right _ hd.le
    exact_mod_cast hage
  rw [add_mul, one_mul] at hmul
  omega

end FreshInv

/-- Counters are compared one by one. -/
instance : Preorder (Counts ℤ) where
  le a b := a.eventCount ≤ b.eventCount ∧ a.pageFaults ≤ b.pageFaults ∧
    a.cacheMisses ≤ b.cacheMisses ∧ a.lockDurationNs ≤ b.lockDurationNs ∧
    a.ctxSwitches ≤ b.ctxSwitches
  le_refl a := ⟨le_rfl, le_rfl, le_rfl, le_rfl, le_rfl⟩
  le_trans a b c := fun ⟨h₁, h₂, h₃, h₄, h₅⟩ ⟨k₁, k₂, k₃, k₄, k₅⟩ =>
    ⟨h₁.trans k₁, h₂.trans k₂, h₃.trans k₃, h₄.trans k₄, h₅.trans k₅⟩

instance : IsOrderedAddMonoid (Counts ℤ) where
  add_le_add_left _ _ := fun ⟨h₁, h₂, h₃, h₄, h₅⟩ _ =>
    ⟨add_le_add_left h₁ _, add_le_add_left h₂ _, add_le_add_left h₃ _, add_le_add_left h₄ _,
      add_le_add_left h₅ _⟩

/-- The records a `ComputeProfile` at `t` after the run counts. -/
def countedAt (n : ℕ) (d created : ℤ) (calls : List (ℤ × ProfileCall)) (t : ℤ) :
    List LogEntry :=
  (((EventLog.new created).run n d calls).rotate n d t).counted n

/-- No record as old as the window contributes to the `ComputeProfile` at `t`. -/
def StaleFree (n : ℕ) (d created : ℤ) (calls : List (ℤ × ProfileCall)) (t : ℤ) : Prop :=
  ∀ e ∈ countedAt n d created calls t, ¬ t - e.time ≥ n * d

instance (n : ℕ) (d created : ℤ) (calls : List (ℤ × ProfileCall)) (t : ℤ) :
    Decidable (StaleFree n d created calls t) := inferInstanceAs (Decidable (∀ _ ∈ _, _))

/-- At a query at the end of a run that keeps boundaries, the log the code implements is fresh
and was rotated less than one bucket duration ago. -/
lemma fresh_at_query (key : String) {n : ℕ} (hn : 1 ≤ n) {d : ℤ} (hd : 0 < d) {created : ℤ}
    {calls : List (ℤ × ProfileCall)} {t : ℤ}
    (hclock : NondecreasingFrom created (calls ++ [(t, .computeProfile)]))
    (hsteps : AllSteps WorkloadProfile.exec WorkloadProfile.KeepsBoundary
      (newWorkloadProfile key n d created) (calls ++ [(t, .computeProfile)])) :
    FreshInv n d t (((EventLog.new created).run n d calls).rotate n d t) ∧
      t - (((EventLog.new created).run n d calls).rotate n d t).lastRotation < d := by
  obtain ⟨hclock, hlast⟩ := nondecreasingFrom_concat.mp hclock
  obtain ⟨hsteps, hkeep⟩ := allSteps_concat.mp hsteps
  have hrun := timedRun_invariant (f := coupledExec n d)
    (P := fun t c p => p.1.KeepsBoundary t c)
    (I := fun now p => Coupled key n d p ∧ FreshInv n d now p.2)
    (fun now t c p ⟨hc, hf⟩ hle hk => by
      rw [WorkloadProfile.KeepsBoundary, hc.bucketCount, hc.bucketDuration,
        hc.refines.lastRotation_eq] at hk
      exact ⟨hc.exec t c, hf.exec hn hd hle hk⟩)
    ⟨Coupled.new key hn hd created, FreshInv.new n d created⟩ hclock
    (allSteps_prod _ _ _ hsteps)
  rw [coupledRun_eq] at hrun
  obtain ⟨hc, hf⟩ := hrun
  change WorkloadProfile.KeepsBoundary t .computeProfile
    ((newWorkloadProfile key n d created).run calls) at hkeep
  rw [WorkloadProfile.KeepsBoundary, hc.bucketCount, hc.bucketDuration,
    hc.refines.lastRotation_eq] at hkeep
  exact ⟨hf.exec hn hd hlast hkeep, (EventLog.rotate_recent hn hd _ (hf.last_le.trans hlast)).2⟩

/-- The records counted at a query are records of the run, each once and in order. -/
lemma countedAt_sublist (n : ℕ) (d created : ℤ) (calls : List (ℤ × ProfileCall)) (t : ℤ) :
    (countedAt n d created calls t).Sublist (recordsOf calls) := by
  have hentries := entries_run_sublist n d (EventLog.new created)
    (calls ++ [(t, ProfileCall.computeProfile)])
  rw [EventLog.run_concat] at hentries
  have hrec : recordsOf (calls ++ [(t, ProfileCall.computeProfile)]) = recordsOf calls := by
    simp [recordsOf, ProfileCall.logEntry]
  rw [hrec] at hentries
  exact (List.filter_sublist.map Prod.snd).trans hentries

/-- **The documented staleness bound, along runs that keep bucket boundaries.**  Every call up
to and including the query meets `KeepsBoundary` in the state it finds.  Then the query counts
only records of the run made in the last `n * d` nanoseconds; with non-negative amounts and no
overflow each reported figure is at most what was really recorded there. -/
theorem staleness_bound (key : String) (n : ℕ) (hn : 1 ≤ n) (d : ℤ) (hd : 0 < d) (created : ℤ)
    (calls : List (ℤ × ProfileCall)) (t : ℤ)
    (hclock : NondecreasingFrom created (calls ++ [(t, .computeProfile)]))
    (hsteps : AllSteps WorkloadProfile.exec WorkloadProfile.KeepsBoundary
      (newWorkloadProfile key n d created) (calls ++ [(t, .computeProfile)])) :
    let p := ((newWorkloadProfile key n d created).run calls).computeProfile t
    p.2.totals = Counts.wrap (sumCounts (countedAt n d created calls t)) ∧
      StaleFree n d created calls t ∧
      (countedAt n d created calls t).Sublist (recordsWithin (t - n * d) t calls) ∧
      ((∀ e ∈ recordsOf calls, 0 ≤ e.counts) →
        (sumCounts (countedAt n d created calls t)).Fits →
        ∃ c, p.1.Reports (windowSeconds n d) c ∧
          c ≤ sumCounts (recordsWithin (t - n * d) t calls)) := by
  intro p
  obtain ⟨hfresh, hrecent⟩ := fresh_at_query key hn hd hclock hsteps
  have hage := hfresh.age_lt hd hrecent
  have hcoupled : Coupled key n d
      (p.2, ((EventLog.new created).run n d calls).rotate n d t) :=
    (Coupled.new_run key hn hd created calls).exec t .computeProfile
  have hsub : (countedAt n d created calls t).Sublist (recordsWithin (t - n * d) t calls) := by
    have hfilter := (countedAt_sublist n d created calls t).filter
      (fun e => t - n * d < e.time ∧ e.time ≤ t)
    rwa [List.filter_eq_self.mpr (fun e he => by simpa using hage e he)] at hfilter
  refine ⟨hcoupled.totals_eq, fun e he => ?_, hsub, fun hnonneg hfits => ?_⟩
  · have := (hage e he).1
    omega
  · have hreports := hcoupled.refines.report_reports
    rw [hcoupled.bucketCount, hcoupled.bucketDuration] at hreports
    refine ⟨_, hreports hfits, ?_⟩
    apply (hsub.map LogEntry.counts).sum_le_sum
    intro c hc
    obtain ⟨e, he, rfl⟩ := List.mem_map.mp hc
    exact hnonneg e (List.mem_filter.mp he).1

/-- Two buckets of ten nanoseconds, calls at the boundaries: the fault of `0` is gone at `20`,
the one of `10` is counted. -/
theorem staleness_bound_on_boundaries :
    StaleFree 2 10 0 [(0, .record .pageFault "node-1"), (10, .record .pageFault "node-1")] 20 :=
  (staleness_bound "default/Deployment/web" 2 (by decide) 10 (by decide) 0
    [(0, .record .pageFault "node-1"), (10, .record .pageFault "node-1")] 20
    (by decide) (by decide)).2.1

/-- **The bound fails when a remainder is lost.**  With two buckets of ten nanoseconds, a poll
at `19` rotates once and restarts the clock there, so the fault of `0` is still reported at
`28`, eight nanoseconds after the whole window has passed. -/
theorem staleness_bound_fails :
    NondecreasingFrom 0 [((0 : ℤ), ProfileCall.record .pageFault "node-1"),
        (19, .computeProfile), (28, .computeProfile)] ∧
      ¬ StaleFree 2 10 0 [(0, .record .pageFault "node-1"), (19, .computeProfile)] 28 ∧
      (((newWorkloadProfile "default/Deployment/web" 2 10 0).run
        [(0, .record .pageFault "node-1"), (19, .computeProfile)]).computeProfile 28).1.sampleCount
        = 1 := by
  decide

/-! ## Inserted queries -/

/-- The call rotates nothing, or by an exact multiple of the bucket duration. -/
def WorkloadProfile.OnGrid (t : ℤ) (c : ProfileCall) (wp : WorkloadProfile) : Prop :=
  c = .resetData ∨ t - wp.lastRotation < wp.bucketDuration ∨
    wp.bucketDuration ∣ t - wp.lastRotation

instance (t : ℤ) (c : ProfileCall) (wp : WorkloadProfile) : Decidable (wp.OnGrid t c) :=
  inferInstanceAs (Decidable (_ ∨ _ ∨ _))

/-- The cell of the grid of step `d` laid out from `anchor` in which `x` lies. -/
def gridCell (d anchor x : ℤ) : ℤ := (x - anchor) / d

/-- A point less than a step after a grid point lies in that point's cell. -/
lemma gridCell_eq {d anchor x y : ℤ} (hd : 0 < d) (hdvd : d ∣ x - anchor) (hle : x ≤ y)
    (hlt : y - x < d) : gridCell d anchor y = gridCell d anchor x := by
  obtain ⟨m, hm⟩ := hdvd
  rw [gridCell, gridCell, show y - anchor = (y - x) + d * m by omega, hm,
    Int.add_mul_ediv_left _ _ hd.ne', Int.mul_ediv_cancel_left _ hd.ne',
    Int.ediv_eq_zero_of_lt (by omega) hlt, zero_add]

/-- **The invariant of runs on the grid.**  The last rotation is a grid point, and up to the
horizon the age of a record is the number of grid cells since it was made. -/
structure Aligned (n : ℕ) (d anchor now : ℤ) (E : EventLog) : Prop where
  last_le : E.lastRotation ≤ now
  on_grid : d ∣ E.lastRotation - anchor
  cell_le : ∀ e ∈ E.log.entries, gridCell d anchor e.2.time ≤ gridCell d anchor E.lastRotation
  age_eq : ∀ e ∈ E.log.entries, (min n (E.log.age e) : ℕ)
    = min n (gridCell d anchor E.lastRotation - gridCell d anchor e.2.time).toNat

namespace Aligned

variable {n : ℕ} {d anchor now t : ℤ} {E : EventLog}

lemma new (n : ℕ) (d created : ℤ) : Aligned n d created created (EventLog.new created) where
  last_le := le_rfl
  on_grid := by simp [EventLog.new]
  cell_le := by simp [EventLog.new]
  age_eq := by simp [EventLog.new]

lemma mono (h : Aligned n d anchor now E) (hle : now ≤ t) : Aligned n d anchor t E :=
  { h with last_le := h.last_le.trans hle }

/-- A log on the grid is dated by the grid cells. -/
lemma dated (h : Aligned n d anchor now E) :
    E.log.Dated n (fun x => gridCell d anchor x.time) (gridCell d anchor E.lastRotation) :=
  fun e he => ⟨h.cell_le e he, h.age_eq e he⟩

lemma of_dated (hlast : E.lastRotation ≤ now) (hgrid : d ∣ E.lastRotation - anchor)
    (hdated : E.log.Dated n (fun x => gridCell d anchor x.time)
      (gridCell d anchor E.lastRotation)) : Aligned n d anchor now E :=
  ⟨hlast, hgrid, fun e he => (hdated e he).1, fun e he => (hdated e he).2⟩

lemma rotate (hn : 1 ≤ n) (hd : 0 < d) (h : Aligned n d anchor now E) (hle : now ≤ t)
    (hgrid : t - E.lastRotation < d ∨ d ∣ t - E.lastRotation) :
    Aligned n d anchor t (E.rotate n d t) := by
  have hlast := h.last_le.trans hle
  rcases E.rotate_cases hn hd hlast with ⟨-, heq⟩ | ⟨q, hq, hlow, hupp, heq⟩
  · rw [heq]
    exact h.mono hle
  · have hqd : d ≤ q * d := by
      have : (1 : ℤ) * d ≤ q * d := by
        apply mul_le_mul_of_nonneg_right _ hd.le
        exact_mod_cast hq
      omega
    have hdvd : d ∣ t - E.lastRotation := hgrid.resolve_left (by omega)
    -- `q` whole durations exactly, so the grid cell advances by `q`
    have hexact : t - E.lastRotation = d * q := by
      obtain ⟨m, hm⟩ := hdvd
      rw [hm, mul_comm d m] at hlow hupp
      have h₁ : (q : ℤ) ≤ m := le_of_mul_le_mul_right hlow hd
      have h₂ : m < q + 1 := lt_of_mul_lt_mul_right hupp hd.le
      rw [hm, show m = q by omega]
    have hcell : gridCell d anchor t = gridCell d anchor E.lastRotation + q := by
      rw [gridCell, gridCell, show t - anchor = (E.lastRotation - anchor) + d * q by omega,
        Int.add_mul_ediv_left _ _ hd.ne']
    rw [heq]
    refine of_dated le_rfl ?_ (h.dated.advance ?_ ?_)
    · have := dvd_add hdvd h.on_grid
      rwa [sub_add_sub_cancel] at this
    · dsimp only
      omega
    · dsimp only
      omega

lemma exec (hn : 1 ≤ n) (hd : 0 < d) (h : Aligned n d anchor now E) (hle : now ≤ t)
    {c : ProfileCall} (hc : c ≠ .resetData)
    (hgrid : t - E.lastRotation < d ∨ d ∣ t - E.lastRotation) :
    Aligned n d anchor t (E.exec n d t c) := by
  have hrot := h.rotate hn hd hle hgrid
  cases c with
  | record r nodeName =>
      obtain ⟨hlast, hrecent⟩ := E.rotate_recent hn hd (h.last_le.trans hle)
      have hcell := gridCell_eq hd hrot.on_grid hlast hrecent
      exact of_dated hrot.last_le hrot.on_grid (hrot.dated.append hcell)
  | resetData => exact absurd rfl hc
  | computeProfile => exact hrot

/-- On the grid, what is counted depends only on the records' times and the last rotation. -/
lemma counted_eq (h : Aligned n d anchor now E) :
    E.counted n = (E.log.entries.map Prod.snd).filter (fun x =>
      gridCell d anchor E.lastRotation - gridCell d anchor x.time < n) :=
  h.dated.map_live

/-- Right after a call at `t`, the last rotation of a run on the grid is determined by `t`. -/
lemma cell_of_recent (hd : 0 < d) (h : Aligned n d anchor t E) (hrecent : t - E.lastRotation < d) :
    gridCell d anchor E.lastRotation = gridCell d anchor t :=
  (gridCell_eq hd h.on_grid h.last_le hrecent).symm

end Aligned

/-- What `ComputeProfile` reports, window bounds aside, is a function of parameters and
totals. -/
lemma report_measures_congr {wp wp' : WorkloadProfile} (hparams : wp.params = wp'.params)
    (htotals : wp.totals = wp'.totals) : wp.report.measures = wp'.report.measures := by
  simp only [WorkloadProfile.params, Prod.mk.injEq] at hparams
  obtain ⟨hkey, hcount, hdur⟩ := hparams
  simp [WorkloadProfile.report, RuntimeProfile.measures, WorkloadProfile.windowDuration, hkey,
    hcount, hdur, htotals]

/-- Rates, ratio, sample count and confidence a call returns, if it returns any. -/
def WorkloadProfile.reported (t : ℤ) (c : ProfileCall) (wp : WorkloadProfile) :
    Option RuntimeProfile :=
  (wp.result t c).map RuntimeProfile.measures

/-- The relation between the run with inserted queries and the original run: both on the grid
laid out from the same reset, with the same records. -/
structure SameRecords (key : String) (n : ℕ) (d now : ℤ) (p q : WorkloadProfile × EventLog) :
    Prop where
  left : Coupled key n d p
  right : Coupled key n d q
  entries_eq : p.2.log.entries.map Prod.snd = q.2.log.entries.map Prod.snd
  aligned : ∃ anchor, Aligned n d anchor now p.2 ∧ Aligned n d anchor now q.2

namespace SameRecords

variable {key : String} {n : ℕ} {d now t : ℤ} {p q : WorkloadProfile × EventLog}

/-- `OnGrid` in the terms of the coupled log. -/
lemma onGrid_log (h : Coupled key n d p) {c : ProfileCall} (hgrid : p.1.OnGrid t c)
    (hc : c ≠ .resetData) : t - p.2.lastRotation < d ∨ d ∣ t - p.2.lastRotation := by
  rw [WorkloadProfile.OnGrid, h.bucketDuration, h.refines.lastRotation_eq] at hgrid
  exact hgrid.resolve_left hc

/-- A query inserted on the left keeps the relation. -/
lemma skip (hn : 1 ≤ n) (hd : 0 < d) (h : SameRecords key n d now p q) (hle : now ≤ t)
    (hgrid : p.1.OnGrid t .computeProfile) :
    SameRecords key n d t (coupledExec n d t .computeProfile p) q := by
  obtain ⟨anchor, hp, hq⟩ := h.aligned
  refine ⟨h.left.exec t _, h.right, ?_, anchor, ?_, hq.mono hle⟩
  · exact (congrArg _ (p.2.entries_rotate n d t)).trans h.entries_eq
  · exact hp.rotate hn hd hle (onGrid_log h.left hgrid (by simp))

/-- A call made on both sides keeps the relation. -/
lemma both (hn : 1 ≤ n) (hd : 0 < d) (h : SameRecords key n d now p q) (hle : now ≤ t)
    {c : ProfileCall} (hp : p.1.OnGrid t c) (hq : q.1.OnGrid t c) :
    SameRecords key n d t (coupledExec n d t c p) (coupledExec n d t c q) := by
  obtain ⟨anchor, hpa, hqa⟩ := h.aligned
  by_cases hc : c = .resetData
  · -- both logs are emptied and the grid starts afresh at `t`
    subst hc
    have hreset : ∀ L : RotationLog LogEntry, Aligned n d t t ⟨t, L.clear⟩ := fun L =>
      ⟨le_rfl, by simp, by simp, by simp⟩
    exact ⟨h.left.exec t _, h.right.exec t _, rfl, t, hreset _, hreset _⟩
  · refine ⟨h.left.exec t c, h.right.exec t c, ?_, anchor,
      hpa.exec hn hd hle hc (onGrid_log h.left hp hc),
      hqa.exec hn hd hle hc (onGrid_log h.right hq hc)⟩
    cases c with
    | record r nodeName =>
        simp [coupledExec, EventLog.exec, EventLog.entries_rotate, h.entries_eq]
    | resetData => exact absurd rfl hc
    | computeProfile =>
        simp [coupledExec, EventLog.exec, EventLog.entries_rotate, h.entries_eq]

/-- A query made on both sides reports the same. -/
lemma reported_eq (hn : 1 ≤ n) (hd : 0 < d) (h : SameRecords key n d now p q) (hle : now ≤ t)
    {c : ProfileCall} (hp : p.1.OnGrid t c) (hq : q.1.OnGrid t c) :
    p.1.reported t c = q.1.reported t c := by
  cases c with
  | record r nodeName => rfl
  | resetData => rfl
  | computeProfile =>
      have hafter := h.both hn hd hle hp hq
      obtain ⟨anchor, hpa, hqa⟩ := h.aligned
      obtain ⟨anchor', hpa', hqa'⟩ := hafter.aligned
      have hprec := (p.2.rotate_recent hn hd (hpa.last_le.trans hle)).2
      have hqrec := (q.2.rotate_recent hn hd (hqa.last_le.trans hle)).2
      have hcounted : (p.2.rotate n d t).counted n = (q.2.rotate n d t).counted n := by
        have hpc := hpa'.counted_eq
        have hqc := hqa'.counted_eq
        rw [hpa'.cell_of_recent hd hprec] at hpc
        rw [hqa'.cell_of_recent hd hqrec] at hqc
        exact (hpc.trans (by rw [← hafter.entries_eq])).trans hqc.symm
      have htotals : (p.1.maybeRotate t).totals = (q.1.maybeRotate t).totals := by
        have hpt := hafter.left.totals_eq
        have hqt := hafter.right.totals_eq
        exact hpt.trans ((congrArg (fun l => Counts.wrap (sumCounts l)) hcounted).trans hqt.symm)
      have hparams : (p.1.maybeRotate t).params = (q.1.maybeRotate t).params :=
        hafter.left.params.trans hafter.right.params.symm
      exact congrArg some (report_measures_congr hparams htotals)

end SameRecords

/-- **Queries do not perturb later queries, on the grid.**  `sched` is a run with extra
`ComputeProfile` calls inserted and marked.  If every call of the run with the insertions and
every call of the run without them meets `OnGrid` in the state it finds, each original
`ComputeProfile` call reports the same in both. -/
theorem queries_do_not_perturb (key : String) (n : ℕ) (hn : 1 ≤ n) (d : ℤ) (hd : 0 < d)
    (created : ℤ) (sched : List (ℤ × ProfileCall × Bool))
    (hclock : NondecreasingFrom created sched)
    (hins : ∀ c ∈ sched, c.2.2 = true → c.2.1 = .computeProfile)
    (hfull : AllSteps WorkloadProfile.exec WorkloadProfile.OnGrid
      (newWorkloadProfile key n d created) (allCalls sched))
    (horig : AllSteps WorkloadProfile.exec WorkloadProfile.OnGrid
      (newWorkloadProfile key n d created) (originals sched)) :
    originalOutputs WorkloadProfile.exec WorkloadProfile.reported
        (newWorkloadProfile key n d created) sched
      = timedOutputs WorkloadProfile.exec WorkloadProfile.reported
          (newWorkloadProfile key n d created) (originals sched) := by
  refine originalOutputs_eq_of_stutter (J := fun c => c = .computeProfile)
    (R := fun now wp wp' => ∃ E E', SameRecords key n d now (wp, E) (wp', E'))
    ?_ ?_ ?_ hclock hins hfull horig
  · rintro now t c wp wp' ⟨E, E', h⟩ hle hp hq
    exact ⟨h.reported_eq hn hd hle hp hq, _, _, h.both hn hd hle hp hq⟩
  · rintro now t c wp wp' ⟨E, E', h⟩ hle hp rfl
    have hskip := h.skip hn hd hle hp
    exact ⟨_, E', hskip⟩
  · have hnew := Coupled.new key hn hd created
    have haligned := Aligned.new n d created
    exact ⟨_, _, hnew, hnew, rfl, created, haligned, haligned⟩

/-- Three buckets of ten nanoseconds, with queries inserted at `4`, at the boundaries `10` and `20`
and at `27`: the two queries of the run still report three samples each, though of the four records
the first is dropped in between. -/
theorem queries_do_not_perturb_on_boundaries :
    let sched : List (ℤ × ProfileCall × Bool) :=
      [(0, .record .pageFault "node-1", false), (4, .computeProfile, true),
        (10, .computeProfile, true), (10, .record .ctxSwitch "node-1", false),
        (13, .record (.cacheMiss 50) "node-1", false), (20, .computeProfile, true),
        (20, .computeProfile, false), (24, .record .pageFault "node-2", false),
        (27, .computeProfile, true), (30, .computeProfile, false)]
    let wp := newWorkloadProfile "default/Deployment/web" (3 : ℕ) 10 0
    originalOutputs WorkloadProfile.exec WorkloadProfile.reported wp sched
        = timedOutputs WorkloadProfile.exec WorkloadProfile.reported wp (originals sched) ∧
      (timedOutputs WorkloadProfile.exec WorkloadProfile.reported wp (originals sched)).map
        (fun p => p.sampleCount) = [3, 3] :=
  ⟨queries_do_not_perturb "default/Deployment/web" 3 (by decide) 10 (by decide) 0 _
    (by decide) (by decide) (by decide +kernel) (by decide +kernel), by decide +kernel⟩

/-- **Off the grid a query perturbs.**  With two buckets of ten nanoseconds, the query at `28`
after a fault at `0` reports no sample; with a query inserted at `19` it reports one. -/
theorem queries_do_perturb :
    let sched : List (ℤ × ProfileCall × Bool) :=
      [(0, .record .pageFault "node-1", false), (19, .computeProfile, true),
        (28, .computeProfile, false)]
    let wp := newWorkloadProfile "default/Deployment/web" 2 10 0
    NondecreasingFrom 0 sched ∧
      (originalOutputs WorkloadProfile.exec WorkloadProfile.reported wp sched).map
        (fun p => (p.sampleCount, p.confidence)) = [(1, .low)] ∧
      (timedOutputs WorkloadProfile.exec WorkloadProfile.reported wp (originals sched)).map
        (fun p => (p.sampleCount, p.confidence)) = [(0, .unknown)] := by
  decide

end Akil
