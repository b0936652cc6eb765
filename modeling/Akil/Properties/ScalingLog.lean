import Akil.Construction.Aggregator.Autoscaler

/-!
# How long the scaling log gets

Two functions append to `scalingLogs`.  `logScaling` appends and, if the log has become longer
than fifty entries, drops the oldest one; `setAutoscaling` appends and drops nothing.  So the log
is always made of the latest entries, but every toggle that finds it full makes it longer by one,
and `logScaling` never makes it shorter again (`scaling_log_overflows`).

`scaling_log_bounded_iff` is the exact account: along a run the log is at every moment the latest
fifty entries if and only if no toggle ever found it full, that is, if no toggle comes after the
first fifty entries.
-/

namespace Akil

/-- The calls that write the scaling log. -/
inductive LogCall
  | logScaling (old n : Int32) (reason : String)
  | setAutoscaling (enabled : Bool)
  deriving DecidableEq

namespace LogCall

/-- The variables after a call at `now`. -/
def exec (now : ℤ) (c : LogCall) (v : AutoscalerVars) : AutoscalerVars :=
  match c with
  | .logScaling old n reason => v.logScaling old n reason now
  | .setAutoscaling enabled => v.setAutoscaling enabled now

/-- The entry a call at `now` adds. -/
def entry (now : ℤ) : LogCall → ScalingLog
  | .logScaling old n reason => ⟨now, if n > old then .scaleUp else .scaleDown, reason, n⟩
  | .setAutoscaling enabled => ⟨now, .info,
      "Adaptive Autoscaling Toggled: " ++ (if enabled then "ON" else "OFF"), -1⟩

/-- All entries a run adds, in the order they were added. -/
def entries (calls : List (ℤ × LogCall)) : List ScalingLog := calls.map (fun c => c.2.entry c.1)

/-- A toggle finds fewer than fifty entries in the log. -/
def FindsRoom (_now : ℤ) (c : LogCall) (v : AutoscalerVars) : Prop :=
  match c with
  | .logScaling _ _ _ => True
  | .setAutoscaling _ => v.getScalingLogs.length < 50

instance (now : ℤ) (c : LogCall) (v : AutoscalerVars) : Decidable (c.FindsRoom now v) :=
  match c with
  | .logScaling _ _ _ => isTrue trivial
  | .setAutoscaling _ => inferInstanceAs (Decidable (_ < _))

/-- `logScaling` appends and trims by one. -/
lemma getScalingLogs_logScaling (now : ℤ) (old n : Int32) (reason : String) (v : AutoscalerVars) :
    ((LogCall.logScaling old n reason).exec now v).getScalingLogs
      = if v.getScalingLogs.length + 1 > 50
        then (v.getScalingLogs ++ [(LogCall.logScaling old n reason).entry now]).tail
        else v.getScalingLogs ++ [(LogCall.logScaling old n reason).entry now] := by
  rw [← List.length_singleton (a := (LogCall.logScaling old n reason).entry now),
    ← List.length_append]
  rfl

/-- `setAutoscaling` appends and never trims. -/
lemma getScalingLogs_setAutoscaling (now : ℤ) (enabled : Bool) (v : AutoscalerVars) :
    ((LogCall.setAutoscaling enabled).exec now v).getScalingLogs
      = v.getScalingLogs ++ [(LogCall.setAutoscaling enabled).entry now] := rfl

end LogCall

lemma rtake_of_length_le {α : Type*} {l : List α} {k : ℕ} (h : l.length ≤ k) : l.rtake k = l := by
  rw [List.rtake, Nat.sub_eq_zero_of_le h, List.drop_zero]

/-- The latest `k` of at least `k + 1` elements are the latest `k + 1` without the oldest. -/
lemma rtake_eq_tail {α : Type*} {l : List α} {k : ℕ} (h : k < l.length) :
    l.rtake k = (l.rtake (k + 1)).tail := by
  rw [List.rtake, List.rtake, List.tail_drop]
  congr 1
  omega

/-- **One call.**  If the log is the latest fifty of the entries so far, it is so after a call
exactly if the call was not a toggle that found it full. -/
lemma rtake_exec_iff {v : AutoscalerVars} {added : List ScalingLog}
    (hv : v.getScalingLogs = added.rtake 50) (now : ℤ) (c : LogCall) :
    (c.exec now v).getScalingLogs = (added ++ [c.entry now]).rtake 50 ↔ c.FindsRoom now v := by
  have hlen : v.getScalingLogs.length = min 50 added.length := by
    rw [hv, List.rtake, List.length_drop]
    omega
  rw [List.rtake_concat_succ]
  cases c with
  | logScaling old n reason =>
      rw [LogCall.getScalingLogs_logScaling, hlen]
      refine iff_of_true ?_ trivial
      by_cases hfull : 50 ≤ added.length
      · have hne : v.getScalingLogs ≠ [] := by
          rw [← List.length_pos_iff, hlen]
          omega
        rw [if_pos (by omega), List.tail_append_of_ne_nil hne, hv, ← rtake_eq_tail (by omega)]
      · rw [if_neg (by omega), hv, rtake_of_length_le (by omega), rtake_of_length_le (by omega)]
  | setAutoscaling enabled =>
      rw [LogCall.getScalingLogs_setAutoscaling, List.append_left_inj, LogCall.FindsRoom]
      constructor
      · intro heq
        rw [heq, List.rtake, List.length_drop]
        omega
      · intro hroom
        rw [hv, rtake_of_length_le (by omega), rtake_of_length_le (by omega)]

/-- Only entries that were added are in the log, the latest ones and in order. -/
lemma getScalingLogs_suffix (v : AutoscalerVars) (calls : List (ℤ × LogCall)) :
    (timedRun LogCall.exec v calls).getScalingLogs
      <:+ v.getScalingLogs ++ LogCall.entries calls := by
  induction calls generalizing v with
  | nil => simp [LogCall.entries]
  | cons c calls ih =>
      obtain ⟨now, c⟩ := c
      have hstep : (c.exec now v).getScalingLogs <:+ v.getScalingLogs ++ [c.entry now] := by
        cases c with
        | logScaling old n reason =>
            rw [LogCall.getScalingLogs_logScaling]
            split_ifs
            · exact List.tail_suffix _
            · exact List.suffix_refl _
        | setAutoscaling enabled => exact List.suffix_refl _
      refine (ih (c.exec now v)).trans ?_
      have hcons : v.getScalingLogs ++ LogCall.entries ((now, c) :: calls)
          = (v.getScalingLogs ++ [c.entry now]) ++ LogCall.entries calls := by
        simp [LogCall.entries]
      rw [hcons]
      obtain ⟨older, hold⟩ := hstep
      exact ⟨older, by rw [← hold, List.append_assoc]⟩

/-- The log is at every moment the latest fifty entries exactly if every toggle finds room. -/
lemma rtake_run_iff (v : AutoscalerVars) (hv : v.getScalingLogs = []) (calls : List (ℤ × LogCall)) :
    (∀ k, (timedRun LogCall.exec v (calls.take k)).getScalingLogs
        = (LogCall.entries (calls.take k)).rtake 50) ↔
      AllSteps LogCall.exec LogCall.FindsRoom v calls := by
  refine forall_take_iff_allSteps
    (P := fun before => (timedRun LogCall.exec v before).getScalingLogs
      = (LogCall.entries before).rtake 50) hv ?_
  rintro before ⟨now, c⟩ - hbefore
  have hentries : LogCall.entries (before ++ [(now, c)])
      = LogCall.entries before ++ [c.entry now] := by
    rw [LogCall.entries, List.map_append]
    rfl
  rw [hentries, timedRun_append]
  exact rtake_exec_iff hbefore now c

/-- In a run that is bounded so far a call finds room unless it is a toggle after fifty entries. -/
lemma findsRoom_run_iff {v : AutoscalerVars} (hv : v.getScalingLogs = [])
    {calls : List (ℤ × LogCall)} (h : AllSteps LogCall.exec LogCall.FindsRoom v calls) (now : ℤ)
    (c : LogCall) : c.FindsRoom now (timedRun LogCall.exec v calls) ↔
      (50 ≤ calls.length → ∀ enabled, c ≠ .setAutoscaling enabled) := by
  have hlog := (rtake_run_iff v hv calls).mpr h calls.length
  rw [List.take_length] at hlog
  have hlen : (timedRun LogCall.exec v calls).getScalingLogs.length = min 50 calls.length := by
    rw [hlog, List.rtake, List.length_drop, LogCall.entries, List.length_map]
    omega
  cases c with
  | logScaling old n reason => exact iff_of_true trivial (fun _ _ => by simp)
  | setAutoscaling enabled =>
      rw [LogCall.FindsRoom, hlen]
      refine ⟨fun hroom hfull => by omega, fun hno => ?_⟩
      by_contra hroom
      exact hno (by omega) enabled rfl

lemma allSteps_findsRoom_iff {v : AutoscalerVars} (hv : v.getScalingLogs = [])
    (calls : List (ℤ × LogCall)) :
    AllSteps LogCall.exec LogCall.FindsRoom v calls ↔
      ∀ c ∈ calls.drop 50, ∀ enabled, c.2 ≠ .setAutoscaling enabled := by
  induction calls using List.reverseRecOn with
  | nil => simp [AllSteps]
  | append_singleton calls c ih =>
      have hlast : (∀ c' ∈ [c].drop (50 - calls.length), ∀ enabled,
            c'.2 ≠ .setAutoscaling enabled) ↔
          (50 ≤ calls.length → ∀ enabled, c.2 ≠ .setAutoscaling enabled) := by
        by_cases hfull : 50 ≤ calls.length
        · simp [Nat.sub_eq_zero_of_le hfull, hfull]
        · have hshort : [c].length ≤ 50 - calls.length := by
            rw [List.length_singleton]
            omega
          simp [hfull, List.drop_eq_nil_of_le hshort]
      rw [allSteps_concat, List.drop_append, List.forall_mem_append, hlast, ← ih]
      exact and_congr_right (fun h => findsRoom_run_iff hv h c.1 c.2)

/-- **When the scaling log is bounded.**  In every run of `logScaling` calls and toggles, in any
order and of any length, the log holds at every moment the latest entries in the order they were
added; and it holds at every moment no more than fifty, the latest fifty of them, if and only if
every toggle finds fewer than fifty entries in it, which is the case if and only if none comes after
the first fifty calls. -/
theorem scaling_log_bounded_iff (enabled : Bool) (replicas : Int32)
    (calls : List (ℤ × LogCall)) :
    let logAfter := fun k =>
      (timedRun LogCall.exec ⟨enabled, [], replicas⟩ (calls.take k)).getScalingLogs
    (∀ k, logAfter k <:+ LogCall.entries (calls.take k)) ∧
      ((∀ k, (logAfter k).length ≤ 50 ∧ logAfter k = (LogCall.entries (calls.take k)).rtake 50) ↔
        AllSteps LogCall.exec LogCall.FindsRoom ⟨enabled, [], replicas⟩ calls) ∧
      (AllSteps LogCall.exec LogCall.FindsRoom ⟨enabled, [], replicas⟩ calls ↔
        ∀ c ∈ calls.drop 50, ∀ enabled, c.2 ≠ .setAutoscaling enabled) := by
  intro logAfter
  have hrun := rtake_run_iff ⟨enabled, [], replicas⟩ rfl calls
  refine ⟨fun k => getScalingLogs_suffix ⟨enabled, [], replicas⟩ (calls.take k), ?_,
    allSteps_findsRoom_iff rfl calls⟩
  rw [← hrun]
  refine forall_congr' (fun k => ⟨fun h => h.2, fun h => ⟨?_, h⟩⟩)
  rw [show logAfter k = _ from h, List.rtake, List.length_drop]
  omega

/-- **Fifty-one toggles make a log of fifty-one entries.** -/
theorem scaling_log_overflows :
    let calls : List (ℤ × LogCall) := List.replicate 51 (0, .setAutoscaling true)
    (timedRun LogCall.exec ⟨false, [], 2⟩ calls).getScalingLogs.length = 51 := by
  decide

end Akil
