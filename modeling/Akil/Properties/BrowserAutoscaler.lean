import Akil.Construction.Frontend.Cluster
import Akil.Framework.TimedRun
import Akil.Properties.ScalingRule

/-!
# The browser's autoscaler and the aggregator's

`autoscaleTick` says that it mirrors `decide`.  It is written differently: a reason and a flag
instead of early returns, a `break`, an empty list that is not nominal from the start instead of a
return at the top, and one clamp on both sides at the end.  Both follow `Autoscaler.pressure`.
They respond to it alike on the counts from one to six, which are the only ones the browser ever
has (`LocalBackend.replicas_mem`).
-/

namespace Akil.Frontend

open Autoscaler (Hot Nominal hotReason pressure respond readings)

/-- The browser's profile shows the key and the rates the aggregator has read. -/
structure SameRates (r : String × RuntimeProfile) (p : Profile) : Prop where
  key : p.key = r.1
  ctxSwitchRate : p.ctxSwitchRate = r.2.contextSwitchRate
  pageFaultRate : p.pageFaultRate = r.2.pageFaultRate
  cacheMissRate : p.cacheMissRate = r.2.cacheMissRate

/-- What the page does to its backend. -/
inductive LocalCall
  | record (w : WorkloadSpec)
  | reset (key : String)
  | profiles
  | setAutoscale (on : Bool)
  | autoscaleTick
  deriving DecidableEq

namespace LocalBackend

/-- One call of the page. -/
def exec (now : ℤ) (c : LocalCall) (b : LocalBackend) : LocalBackend :=
  match c with
  | .record w => b.record w now
  | .reset key => b.reset key
  | .profiles => (b.profiles now).2
  | .setAutoscale on => { b with autoscale := on }
  | .autoscaleTick => b.autoscaleTick now

/-- The backend after a run of timed calls. -/
def run (b : LocalBackend) (calls : List (ℤ × LocalCall)) : LocalBackend := timedRun exec b calls

/-- The count and the reason `autoscaleTick` arrives at. -/
def nextReplicas (ps : List Profile) (replicas : ℤ) : ℤ × String :=
  let (hot, allNominal) := tickLoop ps (decide (ps.length > 0))
  let next := replicas + (if hot.isSome then 1 else 0)
  let (next, reason) := if allNominal = true ∧ replicas > 1
    then (next - 1, "All workload metrics nominal. Scaling DOWN to conserve resources.")
    else (next, hot.getD "")
  (max 1 (min 6 next), reason)

/-- The last thing a tick does to the count is to clamp it. -/
lemma nextReplicas_mem (ps : List Profile) (replicas : ℤ) :
    1 ≤ (nextReplicas ps replicas).1 ∧ (nextReplicas ps replicas).1 ≤ 6 :=
  ⟨le_max_left _ _, max_le (by norm_num) (min_le_left _ _)⟩

/-! ## Only a tick changes the count -/

@[simp] lemma replicas_rotate (now : ℤ) (b : LocalBackend) :
    (b.rotate now).replicas = b.replicas := by
  unfold rotate
  dsimp only
  split_ifs <;> rfl

@[simp] lemma logs_rotate (now : ℤ) (b : LocalBackend) : (b.rotate now).logs = b.logs := by
  unfold rotate
  dsimp only
  split_ifs <;> rfl

@[simp] lemma replicas_profiles (now : ℤ) (b : LocalBackend) :
    (b.profiles now).2.replicas = b.replicas := b.replicas_rotate now

@[simp] lemma logs_profiles (now : ℤ) (b : LocalBackend) :
    (b.profiles now).2.logs = b.logs := b.logs_rotate now

@[simp] lemma replicas_record (w : WorkloadSpec) (now : ℤ) (b : LocalBackend) :
    (b.record w now).replicas = b.replicas := by
  unfold record
  dsimp only
  split_ifs <;> exact b.replicas_rotate now

/-- A tick sets the count it arrives at, and logs it if it is a new one. -/
lemma autoscaleTick_spec {b : LocalBackend} (h : b.autoscale = true) (now : ℤ) :
    (b.autoscaleTick now).replicas = (nextReplicas (b.profiles now).1 b.replicas).1 ∧
      ((nextReplicas (b.profiles now).1 b.replicas).1 ≠ b.replicas →
        (b.autoscaleTick now).logs = (b.logs ++
          [(⟨now, if (nextReplicas (b.profiles now).1 b.replicas).1 > b.replicas
              then .scaleUp else .scaleDown,
            (nextReplicas (b.profiles now).1 b.replicas).2,
            (nextReplicas (b.profiles now).1 b.replicas).1⟩ : ScalingEvent)]).rtake 50) := by
  have htick : b.autoscaleTick now
      = let n := nextReplicas (b.profiles now).1 (b.profiles now).2.replicas
        if n.1 ≠ (b.profiles now).2.replicas then
          let event : ScalingEvent :=
            ⟨now, if n.1 > (b.profiles now).2.replicas then .scaleUp else .scaleDown, n.2, n.1⟩
          { (b.profiles now).2 with
            logs := ((b.profiles now).2.logs ++ [event]).rtake 50
            replicas := n.1 }
        else (b.profiles now).2 := by
    rw [autoscaleTick, if_neg (by simp [h])]
    rfl
  rw [htick]
  dsimp only
  rw [replicas_profiles, logs_profiles]
  by_cases hne : (nextReplicas (b.profiles now).1 b.replicas).1 ≠ b.replicas
  · rw [if_pos hne]
    exact ⟨rfl, fun _ => rfl⟩
  · rw [if_neg hne, replicas_profiles]
    exact ⟨(not_not.mp hne).symm, fun h => absurd h hne⟩

/-- The counts the browser ever has. -/
lemma replicas_mem (start : ℤ) (calls : List (ℤ × LocalCall)) :
    1 ≤ ((new start).run calls).replicas ∧ ((new start).run calls).replicas ≤ 6 := by
  refine timedRun_preserves (I := fun b : LocalBackend => 1 ≤ b.replicas ∧ b.replicas ≤ 6)
    ?_ ?_ calls
  · intro now c b hb
    cases c with
    | record w => simpa [exec] using hb
    | reset key => exact hb
    | profiles => simpa [exec] using hb
    | setAutoscale on => exact hb
    | autoscaleTick =>
        by_cases hon : b.autoscale = true
        · rw [exec, (autoscaleTick_spec hon now).1]
          exact nextReplicas_mem _ _
        · rw [exec, autoscaleTick, if_pos (by simpa using hon)]
          exact hb
  · exact ⟨by norm_num [new], by norm_num [new]⟩

/-! ## The loop -/

variable {rs : List (String × RuntimeProfile)} {ps : List Profile}

/-- The loop of the browser finds the reason the rule gives, and otherwise whether all profiles
are nominal. -/
lemma tickLoop_eq (h : List.Forall₂ SameRates rs ps) (allNominal : Bool) :
    tickLoop ps allNominal
      = match rs.findSome? (fun r => hotReason r.1 r.2) with
        | some reason => (some reason, false)
        | none => (none, decide (allNominal = true ∧ ∀ r ∈ rs, Nominal r.2)) := by
  induction h generalizing allNominal with
  | nil => simp [tickLoop]
  | @cons r p rs ps hrate _ ih =>
      obtain ⟨hkey, hcs, hpf, hcm⟩ := hrate
      rw [tickLoop, hkey, hcs, hpf, hcm, List.findSome?_cons]
      unfold hotReason
      -- One case for each arm of the `switch`, and one for a profile that is not hot.
      split_ifs with h₁ h₂ h₃ hnom
      · rfl
      · rfl
      · rfl
      · rw [ih]
        have hr : Nominal r.2 := hnom
        simp only [List.forall_mem_cons, hr, true_and]
        rfl
      · rw [ih]
        have hr : ¬ Nominal r.2 := hnom
        simp only [List.forall_mem_cons, hr, Bool.false_eq_true, false_and, and_false]
        rfl

/-- The reason and the flag after the whole loop, by the pressure. -/
lemma tickLoop_pressure (h : List.Forall₂ SameRates rs ps) :
    tickLoop ps (decide (ps.length > 0))
      = match pressure rs with
        | .hot reason => (some reason, false)
        | .nominal => (none, true)
        | .neither => (none, false) := by
  have hlen : ps.length > 0 ↔ rs ≠ [] := by
    rw [← h.length_eq]
    exact List.length_pos_iff
  rw [tickLoop_eq h, pressure]
  cases rs.findSome? (fun r => hotReason r.1 r.2) with
  | some reason => rfl
  | none =>
      simp only [decide_eq_true_eq, hlen]
      by_cases hnom : rs ≠ [] ∧ ∀ r ∈ rs, Nominal r.2
      · rw [if_pos hnom, decide_eq_true hnom]
      · rw [if_neg hnom, decide_eq_false hnom]

/-- The browser responds to the pressure as the aggregator does. -/
lemma nextReplicas_eq (h : List.Forall₂ SameRates rs ps) {current : Int32}
    (hlow : 1 ≤ current.toInt) (hhigh : current.toInt ≤ 6) :
    nextReplicas ps current.toInt
      = ((respond current (pressure rs)).1.toInt, (respond current (pressure rs)).2) := by
  have hone : current > 1 ↔ current.toInt > 1 := Int32.lt_iff_toInt_lt
  unfold nextReplicas
  rw [tickLoop_pressure h]
  cases pressure rs with
  | hot reason =>
      have hroom : current.toInt + 1 < 2 ^ 31 := by omega
      simp [respond, Autoscaler.toInt_capped hroom]
      omega
  | nominal =>
      by_cases hgt : current > 1
      · simp [respond, hgt, hone.mp hgt, int32_toInt_sub_one (c := current) (by omega)]
        omega
      · have hle : ¬ current.toInt > 1 := fun h => hgt (hone.mpr h)
        simp [respond, hgt, hle]
        omega
  | neither =>
      simp [respond]
      omega

end LocalBackend

/-- The page's entry for one the aggregator logs. -/
def toScalingEvent (entry : ScalingLog) : ScalingEvent :=
  ⟨entry.timestamp, entry.action, entry.reason, entry.replicas.toInt⟩

/-- **The browser's autoscaler mirrors the aggregator's.**  On every list of profiles and every
count from one to six the two arrive at the same count with the same reason.  So do a tick of the
page's backend and `decide` on the same workloads in the same order, and when the count changes,
the entry the page logs is the one `logScaling` would write: same action, same reason, same count.
The counts from one to six are all the page's backend ever has. -/
theorem autoscaleTick_mirrors_decide :
    (∀ (rs : List (String × RuntimeProfile)) (ps : List Profile) (current : Int32),
      List.Forall₂ SameRates rs ps → 1 ≤ current.toInt → current.toInt ≤ 6 →
      LocalBackend.nextReplicas ps current.toInt
        = ((respond current (pressure rs)).1.toInt, (respond current (pressure rs)).2)) ∧
    (∀ (b : LocalBackend) (now : ℤ) (s : Store) (keys : List (String × ℤ)) (current : Int32),
      b.autoscale = true → b.replicas = current.toInt → 1 ≤ b.replicas → b.replicas ≤ 6 →
      List.Forall₂ SameRates (readings keys s) (b.profiles now).1 →
      let decision := (Autoscaler.decide s keys current).1
      (b.autoscaleTick now).replicas = decision.1.toInt ∧
        ((b.autoscaleTick now).replicas ≠ b.replicas → ∀ v : AutoscalerVars,
          (b.autoscaleTick now).logs.getLast?
            = (v.logScaling current decision.1 decision.2 now).scalingLogs.getLast?.map
                toScalingEvent)) ∧
    ∀ (start : ℤ) (calls : List (ℤ × LocalCall)),
      1 ≤ ((LocalBackend.new start).run calls).replicas ∧
        ((LocalBackend.new start).run calls).replicas ≤ 6 := by
  refine ⟨fun rs ps current h => LocalBackend.nextReplicas_eq h, ?_, LocalBackend.replicas_mem⟩
  intro b now s keys current hon hcur hlow hhigh hsame decision
  obtain ⟨hreplicas, hlogs⟩ := LocalBackend.autoscaleTick_spec hon now
  have hdecision : decision = respond current (pressure (readings keys s)) :=
    Autoscaler.decide_eq s keys current
  have hnext : LocalBackend.nextReplicas (b.profiles now).1 b.replicas
      = (decision.1.toInt, decision.2) := by
    rw [hcur, hdecision]
    exact LocalBackend.nextReplicas_eq hsame (by omega) (by omega)
  rw [hnext] at hreplicas hlogs
  refine ⟨hreplicas, fun hne v => ?_⟩
  have hup : decision.1.toInt > b.replicas ↔ decision.1 > current := by
    rw [hcur]
    exact Int32.lt_iff_toInt_lt.symm
  rw [hlogs (hreplicas ▸ hne), Autoscaler.getLast?_logScaling, List.rtake_concat_succ]
  simp [toScalingEvent, hup]

/-- One workload at five hundred context switches per second: the page's backend goes from two
replicas to three, as `decide` does, and logs the same reason. -/
theorem autoscaleTick_mirrors_decide_hot :
    let spec : WorkloadSpec := ⟨"a", "n", 0, 0, 0, 6000⟩
    let b := (LocalBackend.new 0).run [(0, .record spec)]
    let s := (newStore 12 (10 ^ 9)).run
      [(0, .getOrCreate "a"), (0, .onProfile "a" (.record (.bulk 0 0 6000 0) "n"))]
    (b.autoscaleTick 0).replicas = (Autoscaler.decide s [("a", 0)] 2).1.1.toInt ∧
      (b.autoscaleTick 0).logs
        = [(⟨0, .scaleUp, (Autoscaler.decide s [("a", 0)] 2).1.2, 3⟩ : ScalingEvent)] ∧
      (Autoscaler.decide s [("a", 0)] 2).1.1 = 3 := by
  intro spec b s
  have hprofiles : (b.profiles 0).1 = [⟨"a", 0, 0, 0, 500, 6000, .high⟩] := by decide +kernel
  have hsame : List.Forall₂ SameRates (readings [("a", 0)] s) (b.profiles 0).1 := by
    rw [hprofiles, readings, readings]
    refine List.Forall₂.cons (SameRates.mk ?_ ?_ ?_ ?_) List.Forall₂.nil <;> decide +kernel
  refine ⟨?_, by decide +kernel, by decide +kernel⟩
  exact (autoscaleTick_mirrors_decide.2.1 b 0 s [("a", 0)] 2 (by decide +kernel)
    (by decide +kernel) (by decide +kernel) (by decide +kernel) hsame).1

end Akil.Frontend
