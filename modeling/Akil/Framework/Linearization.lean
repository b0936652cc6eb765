import Akil.Framework.Interleaving

/-!
# Linearization

Processes that share a state implement a sequential machine if each step of each process either
changes nothing the machine can see or is one call of it.  `label` names that call, with the reading
at which the machine is to make it, and `System.trace` of the labels is the *linearization* of a
run: the calls in the order in which they took effect.  A call takes effect while the process that
makes it is at work on it, so the linearization contradicts neither the order in which one process
makes its calls nor the order of two calls of which one had returned before the other began.

`System.linearizes` is the proof rule.  It asks for a relation between the machine and the system
that one step of one process keeps, the machine making the call of the label, and that makes the
two return the same.  Then the machine, given the linearization of a run, ends in a related state
and has returned exactly what the processes have.
-/

namespace Akil

namespace System

variable {T U S P A C B : Type*}

/-- **Linearization.**  If every step keeps a relation to a sequential machine that makes the call
the step is labelled with, and returns what the machine returns, then so does every run. -/
theorem linearizes {step : T → S → P → S × P} {label : T → S → P → Option (U × C)}
    {out : T → S → P → Option B} {exec : U → C → A → A} {result : U → C → A → Option B}
    {R : A → System S P → Prop}
    (hstep : ∀ t i sys p a, sys.procs[i]? = some p → R a sys →
      R (timedRun exec a (label t sys.shared p).toList)
          ⟨(step t sys.shared p).1, sys.procs.set i (step t sys.shared p).2⟩ ∧
        (out t sys.shared p).toList
          = timedOutputs exec result a (label t sys.shared p).toList)
    {a : A} {sys : System S P} (hinit : R a sys) (sched : List (T × ℕ)) :
    R (timedRun exec a (trace step label sys sched)) (timedRun (System.exec step) sys sched) ∧
      trace step out sys sched = timedOutputs exec result a (trace step label sys sched) := by
  induction sched generalizing a sys with
  | nil => exact ⟨hinit, rfl⟩
  | cons c sched ih =>
      obtain ⟨t, i⟩ := c
      have hlabels : trace step label sys ((t, i) :: sched)
          = (output label t i sys).toList ++ trace step label (System.exec step t i sys) sched :=
        rfl
      have houts : trace step out sys ((t, i) :: sched)
          = (output out t i sys).toList ++ trace step out (System.exec step t i sys) sched := rfl
      rw [hlabels, houts, timedRun_append, timedOutputs_append, timedRun_cons]
      cases hi : sys.procs[i]? with
      | none =>
          have hidle : System.exec step t i sys = sys := by rw [System.exec, hi]
          have hlabel : output label t i sys = none := by rw [output, hi, Option.bind_none]
          have hout : output out t i sys = none := by rw [output, hi, Option.bind_none]
          rw [hlabel, hout, hidle]
          exact ih hinit
      | some p =>
          obtain ⟨hrel, heq⟩ := hstep t i sys p a hi hinit
          have hlabel : output label t i sys = label t sys.shared p := by
            rw [output, hi, Option.bind_some]
          have hout : output out t i sys = out t sys.shared p := by
            rw [output, hi, Option.bind_some]
          obtain ⟨hrest, hrestouts⟩ := ih hrel
          rw [hlabel, hout, exec_of_getElem? hi, heq, hrestouts]
          exact ⟨hrest, rfl⟩

/-! ## The part of one process -/

/-- Processes neither come nor go. -/
lemma length_procs_run (step : T → S → P → S × P) (sys : System S P) (sched : List (T × ℕ)) :
    (timedRun (exec step) sys sched).procs.length = sys.procs.length := by
  refine timedRun_preserves (f := exec step) (I := fun sys' => sys'.procs.length
    = sys.procs.length) (fun t i sys' h => ?_) rfl sched
  cases hi : sys'.procs[i]? with
  | none => rwa [exec, hi]
  | some p => rw [exec_of_getElem? hi, List.length_set, h]

lemma exists_getElem?_run (step : T → S → P → S × P) {sys : System S P} {i : ℕ} {p : P}
    (hi : sys.procs[i]? = some p) (sched : List (T × ℕ)) :
    ∃ p', (timedRun (exec step) sys sched).procs[i]? = some p' := by
  have hlt := (List.getElem?_eq_some_iff.mp hi).1
  rw [← length_procs_run step sys sched] at hlt
  exact ⟨_, List.getElem?_eq_getElem hlt⟩

/-- What the steps of process `i` return, in order. -/
def traceOf (step : T → S → P → S × P) (out : T → S → P → Option B) (i : ℕ) (sys : System S P)
    (sched : List (T × ℕ)) : List B :=
  timedOutputs (exec step) (fun t j sys => if j = i then output out t j sys else none) sys sched

lemma traceOf_cons (step : T → S → P → S × P) (out : T → S → P → Option B) (i : ℕ)
    (sys : System S P) (t : T) (j : ℕ) (sched : List (T × ℕ)) :
    traceOf step out i sys ((t, j) :: sched)
      = (if j = i then output out t j sys else none).toList
        ++ traceOf step out i (exec step t j sys) sched := rfl

/-- **Progress of one process.**  An assertion about what a process has returned so far and about
its own state, kept by its own steps whatever the shared state is, holds at every point of every
run. -/
theorem traceOf_invariant {step : T → S → P → S × P} {out : T → S → P → Option B}
    {I : List B → P → Prop}
    (hstep : ∀ t s p outs, I outs p → I (outs ++ (out t s p).toList) (step t s p).2)
    {i : ℕ} {sys : System S P} (outs : List B)
    (hinit : ∀ p, sys.procs[i]? = some p → I outs p) (sched : List (T × ℕ)) :
    ∀ p, (timedRun (exec step) sys sched).procs[i]? = some p →
      I (outs ++ traceOf step out i sys sched) p := by
  induction sched generalizing sys outs with
  | nil => simpa [traceOf, timedOutputs] using hinit
  | cons c sched ih =>
      obtain ⟨t, j⟩ := c
      rw [traceOf_cons, ← List.append_assoc, timedRun_cons]
      apply ih
      intro p hp
      cases hj : sys.procs[j]? with
      | none =>
          have hidle : exec step t j sys = sys := by rw [exec, hj]
          have hnone : output out t j sys = none := by rw [output, hj, Option.bind_none]
          rw [hidle] at hp
          rw [hnone, ite_self, Option.toList_none, List.append_nil]
          exact hinit p hp
      | some q =>
          rw [exec_of_getElem? hj] at hp
          by_cases hji : j = i
          · subst hji
            have hlt := (List.getElem?_eq_some_iff.mp hj).1
            have hq : (step t sys.shared q).2 = p := by
              simpa [List.getElem?_set, hlt] using hp
            rw [if_pos rfl, output, hj, Option.bind_some, ← hq]
            exact hstep t sys.shared q outs (hinit q hj)
          · have hp' : sys.procs[i]? = some p := by
              simpa [List.getElem?_set, hji] using hp
            rw [if_neg hji, Option.toList_none, List.append_nil]
            exact hinit p hp'

/-- What a process returns through a function. -/
lemma traceOf_map {D : Type*} (step : T → S → P → S × P) (out : T → S → P → Option B) (f : B → D)
    (i : ℕ) (sys : System S P) (sched : List (T × ℕ)) :
    traceOf step (fun t s p => (out t s p).map f) i sys sched
      = (traceOf step out i sys sched).map f := by
  induction sched generalizing sys with
  | nil => rfl
  | cons c sched ih =>
      obtain ⟨t, j⟩ := c
      have hout : output (fun t s p => (out t s p).map f) t j sys = (output out t j sys).map f := by
        rw [output, output, Option.map_bind]
        rfl
      rw [traceOf_cons, traceOf_cons, List.map_append, ih, hout]
      by_cases hji : j = i
      · rw [if_pos hji, if_pos hji, Option.toList_map]
      · rw [if_neg hji, if_neg hji]
        rfl

/-- A list in one place of many. -/
lemma flatMap_range_single {n j : ℕ} (hj : j < n) (l : List B) :
    (List.range n).flatMap (fun i => if j = i then l else []) = l := by
  induction n with
  | zero => omega
  | succ n ih =>
      rw [List.range_succ, List.flatMap_append, List.flatMap_singleton]
      rcases Nat.lt_succ_iff_lt_or_eq.mp hj with hlt | rfl
      · rw [ih hlt, if_neg (by omega), List.append_nil]
      · rw [if_pos rfl, List.flatMap_eq_nil_iff.mpr, List.nil_append]
        intro i hi
        rw [if_neg (by rw [List.mem_range] at hi; omega)]

/-- **The parts make up the whole.**  What a run returns is what its processes return, put
together. -/
theorem trace_perm (step : T → S → P → S × P) (out : T → S → P → Option B) (sys : System S P)
    (sched : List (T × ℕ)) :
    (trace step out sys sched).Perm
      ((List.range sys.procs.length).flatMap fun i => traceOf step out i sys sched) := by
  induction sched generalizing sys with
  | nil =>
      have hnil : (List.range sys.procs.length).flatMap (fun i => traceOf step out i sys [])
          = [] := List.flatMap_eq_nil_iff.mpr fun _ _ => rfl
      rw [hnil]
      exact .refl _
  | cons c sched ih =>
      obtain ⟨t, j⟩ := c
      have htrace : trace step out sys ((t, j) :: sched)
          = (output out t j sys).toList ++ trace step out (exec step t j sys) sched := rfl
      have hof : ∀ i, traceOf step out i sys ((t, j) :: sched)
          = (if j = i then (output out t j sys).toList else [])
            ++ traceOf step out i (exec step t j sys) sched := by
        intro i
        rw [traceOf_cons]
        by_cases hji : j = i
        · rw [if_pos hji, if_pos hji]
        · rw [if_neg hji, if_neg hji, Option.toList_none]
      have hhead : (List.range sys.procs.length).flatMap
          (fun i => if j = i then (output out t j sys).toList else [])
          = (output out t j sys).toList := by
        by_cases hj : j < sys.procs.length
        · exact flatMap_range_single hj _
        · have hnone : output out t j sys = none := by
            rw [output, List.getElem?_eq_none (not_lt.mp hj), Option.bind_none]
          simp [hnone]
      have hrest := ih (exec step t j sys)
      have hlength : (exec step t j sys).procs.length = sys.procs.length :=
        length_procs_run step sys [(t, j)]
      rw [hlength] at hrest
      simp only [htrace, hof]
      refine List.Perm.trans ?_ (List.flatMap_append_perm _ _ _)
      rw [hhead]
      exact hrest.append_left _

end System

end Akil
