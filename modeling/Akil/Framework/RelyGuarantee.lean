import Akil.Framework.Interleaving

/-!
# Rely and guarantee

Every process of a system keeps an assertion about the shared state and its own.  What the others
do to the shared state in between it does not know, but it knows a relation they all stay within: a
step *guarantees* the relation, and an assertion may *rely* on it if it is stable under it.

`System.rely_guarantee` is the rule: obligations about single steps of single processes, and from
them a property of every step of every interleaving.
-/

namespace Akil

namespace System

variable {T S P : Type*} {step : T → S → P → S × P} {A Q : T → S → P → Prop} {G : S → S → Prop}
  {L : S → P → Prop} {sys : System S P} {sched : List (T × ℕ)}

/-- The step of one process keeps the assertions of all. -/
lemma assertions_exec
    (hstep : ∀ t s p, A t s p → L s p → G s (step t s p).1 ∧ L (step t s p).1 (step t s p).2)
    (hstable : ∀ s s' p, G s s' → L s p → L s' p) {t : T} {i : ℕ} (hok : Takes A t i sys)
    (h : ∀ p ∈ sys.procs, L sys.shared p) :
    ∀ p ∈ (exec step t i sys).procs, L (exec step t i sys).shared p := by
  cases hi : sys.procs[i]? with
  | none => rwa [exec, hi]
  | some p =>
      obtain ⟨hguarantee, hown⟩ := hstep t sys.shared p (hok p hi) (h p (List.mem_of_getElem? hi))
      rw [exec_of_getElem? hi]
      intro q hq
      rcases List.mem_or_eq_of_mem_set hq with hmem | rfl
      · exact hstable _ _ q hguarantee (h q hmem)
      · exact hown

/-- **Rely and guarantee.**  If every step that meets `A` from an asserted state satisfies `Q`,
stays within the guarantee and keeps its own assertion, and assertions are stable under the
guarantee, then every step of a run whose steps meet `A` satisfies `Q`. -/
theorem rely_guarantee
    (hstep : ∀ t s p, A t s p → L s p →
      Q t s p ∧ G s (step t s p).1 ∧ L (step t s p).1 (step t s p).2)
    (hstable : ∀ s s' p, G s s' → L s p → L s' p) (hinit : ∀ p ∈ sys.procs, L sys.shared p)
    (hsteps : AllSteps (exec step) (Takes A) sys sched) :
    AllSteps (exec step) (Takes Q) sys sched := by
  refine AllSteps.of_invariant (I := fun sys : System S P => ∀ p ∈ sys.procs, L sys.shared p)
    (fun t i sys hL hok => ⟨fun p hi => ?_, ?_⟩) hinit hsteps
  · exact (hstep t _ p (hok p hi) (hL p (List.mem_of_getElem? hi))).1
  · exact assertions_exec (fun t s p hok hL => (hstep t s p hok hL).2) hstable hok hL

/-- What all steps of a run return. -/
lemma forall_mem_trace {B : Type*} {out : T → S → P → Option B} {R : B → Prop}
    (h : AllSteps (exec step) (Takes fun t s p => ∀ b ∈ out t s p, R b) sys sched) :
    ∀ b ∈ trace step out sys sched, R b := by
  induction sched generalizing sys with
  | nil => simp [trace, timedOutputs]
  | cons c sched ih =>
      intro b hb
      rcases List.mem_append.mp hb with hnow | hlater
      · obtain ⟨p, hp, hout⟩ := Option.bind_eq_some_iff.mp (Option.mem_toList.mp hnow)
        exact h.1 p hp b hout
      · exact ih h.2 b hlater

end System

end Akil
