import Akil.Construction.Aggregator.Autoscaler

/-!
# When a scale request is lost

A tick of the autoscaler reads the replica count, decides, and writes the new count, and takes
the mutex for the read and for the write separately.  A `POST /api/scale` that lands in between
is acknowledged and then overwritten by a decision made from the count before it
(`scale_request_lost`).

The cluster branch of the same loop is safe: it sends the scale object it read back with its
resource version.  Here nothing ties the write to the read, so a run is safe exactly as long as
no request changes the count between the two.  `InForce` is the invariant: the count a tick has
read is still in force when it writes.
-/

namespace Akil

/-- A rejected request changes nothing. -/
lemma AutoscalerVars.postScale_of_rejected {v : AutoscalerVars} {replicas : Option ℤ}
    (h : (v.postScale replicas).1 = false) : (v.postScale replicas).2 = v := by
  cases replicas with
  | none => rfl
  | some r =>
      by_cases hr : r < 1 ∨ r > 10
      · simp [postScale, hr]
      · simp [postScale, hr] at h

namespace ScaleState

/-- The count the tick under way has read, if it has not yet written. -/
def readCount (s : ScaleState) : Option Int32 :=
  match s.stage with
  | .read cur | .decided _ cur _ _ => some cur
  | .waiting | .enabled | .written _ _ _ => none

/-- An acknowledged request that arrives between the read and the write of a tick asks for the
count already in force. -/
def Undisturbed (_now : ℤ) (a : ScaleAction) (s : ScaleState) : Prop :=
  match a with
  | .post replicas => (s.vars.postScale replicas).1 = true → s.readCount ≠ none →
      (s.vars.postScale replicas).2.simulatedReplicas = s.vars.simulatedReplicas
  | .toggle _ | .autoscaler _ => True

/-- If the step is the autoscaler's write, the value written is `decide`'s for the count in force
just before it, and the count the decision was made from is that count. -/
def WritesCurrentDecision (_now : ℤ) (a : ScaleAction) (s : ScaleState) : Prop :=
  match a, s.stage with
  | .autoscaler _, .decided walk cur n _ =>
      n ≠ cur → n = (walk.decide s.vars.simulatedReplicas).1 ∧ cur = s.vars.simulatedReplicas
  | _, _ => True

instance (now : ℤ) (a : ScaleAction) (s : ScaleState) : Decidable (s.Undisturbed now a) :=
  match a with
  | .post _ => inferInstanceAs (Decidable (_ → _ → _))
  | .toggle _ => isTrue trivial
  | .autoscaler _ => isTrue trivial

/-- A count that a tick has read is the one in force, and a decision is `decide`'s for it. -/
structure InForce (s : ScaleState) : Prop where
  read : ∀ cur, s.readCount = some cur → cur = s.vars.simulatedReplicas
  decided : ∀ walk cur n reason, s.stage = .decided walk cur n reason → n = (walk.decide cur).1

lemma InForce.writesCurrentDecision {s : ScaleState} (h : s.InForce) (now : ℤ)
    (a : ScaleAction) : s.WritesCurrentDecision now a := by
  obtain ⟨vars, stage⟩ := s
  cases a with
  | post replicas => trivial
  | toggle enabled => trivial
  | autoscaler walk' =>
      cases stage with
      | decided walk cur n reason =>
          intro _
          have hcur : cur = vars.simulatedReplicas := h.read cur rfl
          exact ⟨hcur ▸ h.decided walk cur n reason rfl, hcur⟩
      | _ => trivial

/-- The variables of a toggle keep the count. -/
lemma InForce.withVars {s : ScaleState} (h : s.InForce) {vars : AutoscalerVars}
    (hcount : s.readCount ≠ none → vars.simulatedReplicas = s.vars.simulatedReplicas) :
    ({ s with vars := vars } : ScaleState).InForce where
  read cur hcur := by
    have hsome : s.readCount = some cur := hcur
    rw [h.read cur hsome, hcount (by simp [hsome])]
  decided := h.decided

lemma InForce.of_readCount_none {s : ScaleState} (h : s.readCount = none) : s.InForce where
  read cur hcur := by
    rw [h] at hcur
    cases hcur
  decided walk cur n reason hstage := by
    rw [readCount, hstage] at h
    cases h

/-- The autoscaler's own steps keep the invariant. -/
lemma InForce.autoscalerStep {s : ScaleState} (h : s.InForce) (now : ℤ) (walk : Walk) :
    (s.autoscalerStep now walk).InForce := by
  obtain ⟨vars, stage⟩ := s
  cases stage with
  | waiting =>
      refine InForce.of_readCount_none ?_
      cases hon : vars.autoscalingEnabled <;> simp [ScaleState.autoscalerStep, readCount, hon]
  | enabled =>
      refine ⟨fun cur hcur => ?_, fun walk cur n reason hstage => by cases hstage⟩
      exact (Option.some_inj.mp hcur).symm
  | read cur =>
      refine ⟨fun cur' hcur => ?_, fun walk' cur' n reason hstage => ?_⟩
      · obtain rfl : cur = cur' := Option.some_inj.mp hcur
        exact h.read cur rfl
      · obtain ⟨rfl, rfl, rfl, rfl⟩ := TickStage.decided.inj hstage
        rfl
  | decided walk' cur n reason =>
      refine InForce.of_readCount_none ?_
      by_cases hne : n ≠ cur
      · simp [ScaleState.autoscalerStep, readCount, hne]
      · simp [ScaleState.autoscalerStep, readCount, not_not.mp hne]
  | written cur n reason => exact InForce.of_readCount_none rfl

/-- **One step.** -/
lemma InForce.exec {s : ScaleState} (h : s.InForce) {now : ℤ} {a : ScaleAction}
    (hu : s.Undisturbed now a) : (s.exec now a).InForce := by
  cases a with
  | autoscaler walk => exact h.autoscalerStep now walk
  | toggle enabled => exact h.withVars (fun _ => rfl)
  | post replicas =>
      refine h.withVars (fun hread => ?_)
      cases hack : (s.vars.postScale replicas).1 with
      | true => exact hu hack hread
      | false =>
          rw [AutoscalerVars.postScale_of_rejected hack]

end ScaleState

/-- **No scale request is lost while ticks are undisturbed.**  From a loop that is waiting for
its next tick, in every run of requests, toggles and autoscaler steps in any order in which no
acknowledged request changes the count between the read and the write of a tick, every value the
autoscaler writes is `decide`'s for the count in force just before the write. -/
theorem no_scale_request_lost (vars : AutoscalerVars) (actions : List (ℤ × ScaleAction))
    (hsteps : AllSteps ScaleState.exec ScaleState.Undisturbed ⟨vars, .waiting⟩ actions) :
    AllSteps ScaleState.exec ScaleState.WritesCurrentDecision ⟨vars, .waiting⟩ actions := by
  have hinit : (⟨vars, .waiting⟩ : ScaleState).InForce := .of_readCount_none rfl
  exact hsteps.of_invariant
    (fun now a _ hforce hundisturbed =>
      ⟨hforce.writesCurrentDecision now a, hforce.exec hundisturbed⟩) hinit

/-- The walk of the examples below: a store that holds one workload without telemetry. -/
def idleWalk : Walk :=
  ⟨(newStore 2 10).run [(0, .getOrCreate "default/Deployment/web")],
    [("default/Deployment/web", 5)]⟩

/-- A request before the tick and one after its write: the tick scales the eight replicas it
finds down to seven. -/
theorem no_scale_request_lost_between_ticks :
    let vars : AutoscalerVars := ⟨true, [], 2⟩
    let actions : List (ℤ × ScaleAction) :=
      [(0, .post (some 8)), (3, .autoscaler idleWalk), (3, .autoscaler idleWalk),
        (3, .autoscaler idleWalk), (4, .autoscaler idleWalk), (5, .post (some 5))]
    AllSteps ScaleState.exec ScaleState.WritesCurrentDecision ⟨vars, .waiting⟩ actions ∧
      (timedRun ScaleState.exec ⟨vars, .waiting⟩ (actions.take 5)).vars.simulatedReplicas = 7 := by
  intro vars actions
  exact ⟨no_scale_request_lost vars actions (by decide +kernel), by decide +kernel⟩

/-- **A lost request.**  The tick reads two replicas, `POST /api/scale` sets eight and is
acknowledged, and the tick writes one, `decide`'s result for two.  For the eight in force
`decide` gives seven. -/
theorem scale_request_lost :
    let s : ScaleState := timedRun ScaleState.exec ⟨⟨true, [], 2⟩, .waiting⟩
      [(3, .autoscaler idleWalk), (3, .autoscaler idleWalk), (3, .post (some 8)),
        (3, .autoscaler idleWalk)]
    (AutoscalerVars.postScale (some 8) ⟨true, [], 2⟩).1 = true ∧
      s.vars.simulatedReplicas = 8 ∧
      (s.exec 4 (.autoscaler idleWalk)).vars.simulatedReplicas = 1 ∧
      (idleWalk.decide s.vars.simulatedReplicas).1 = 7 ∧
      ¬ s.WritesCurrentDecision 4 (.autoscaler idleWalk) := by
  refine ⟨by decide, by decide, by decide +kernel, by decide +kernel, fun h => ?_⟩
  have hstale : (idleWalk.decide 2).1 ≠ 2 := by decide +kernel
  exact absurd (h hstale).2 (by decide)

end Akil
