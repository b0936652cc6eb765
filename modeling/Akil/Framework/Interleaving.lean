import Akil.Framework.TimedRun

/-!
# Interleaved processes over shared state

A `System` is a shared state with a list of processes.  One action of a run is the index of the
process that moves next, at a clock reading; `step` says what an atomic step of one process does
to the shared state and to its own.  A run is any list of such actions, so a statement about all
runs is a statement about all interleavings.

`System.run_conserves` is the rule for processes that work off queues.  `pending p` is what
process `p` still has to do.  Each step takes some part off the front of the moving process's
work (possibly nothing) and accounts for it in the shared state (`R`), keeps an assertion `L`
about the moving process, and does not disturb `L` of any other process.  Then at every point of
every run some list of work is accounted for in the shared state, and together with what is
still pending it is a permutation of all the work there was: nothing is lost and nothing is done
twice.  `System.trace_invariant` is plain induction, for assertions that also speak of what the
steps so far have returned.

`Chan` is a buffered Go channel.  Sending never blocks here: `trySend` is the `select` with a
`default` case.  Sending on a closed channel and closing it twice panic, receiving from an empty
one waits.
-/

namespace Akil

variable {T S P W : Type*}

/-- A shared state and the processes that act on it. -/
structure System (S P : Type*) where
  shared : S
  procs : List P

namespace System

/-- Process `i` takes one step, if there is such a process. -/
def exec (step : T → S → P → S × P) (t : T) (i : ℕ) (sys : System S P) : System S P :=
  match sys.procs[i]? with
  | none => sys
  | some p => ⟨(step t sys.shared p).1, sys.procs.set i (step t sys.shared p).2⟩

lemma exec_of_getElem? {step : T → S → P → S × P} {i : ℕ} {sys : System S P} {p : P}
    (hi : sys.procs[i]? = some p) (t : T) :
    exec step t i sys = ⟨(step t sys.shared p).1, sys.procs.set i (step t sys.shared p).2⟩ := by
  rw [exec, hi]

/-- The step process `i` takes, if there is such a process, meets `ok`. -/
def Takes (ok : T → S → P → Prop) (t : T) (i : ℕ) (sys : System S P) : Prop :=
  ∀ p, sys.procs[i]? = some p → ok t sys.shared p

/-- All the work still to be done. -/
def pending (pending : P → List W) (sys : System S P) : List W := sys.procs.flatMap pending

/-- Replacing one process exchanges what it has. -/
lemma flatMap_set_perm (f : P → List W) {procs : List P} {i : ℕ} {p : P}
    (hi : procs[i]? = some p) (p' : P) :
    (f p ++ (procs.set i p').flatMap f).Perm (f p' ++ procs.flatMap f) := by
  obtain ⟨hlt, rfl⟩ := List.getElem?_eq_some_iff.mp hi
  have hset : ((procs.set i p').flatMap f).Perm (f p' ++ (procs.eraseIdx i).flatMap f) :=
    (List.set_perm_cons_eraseIdx hlt p').flatMap_right f
  have hold : (f procs[i] ++ (procs.eraseIdx i).flatMap f).Perm (procs.flatMap f) :=
    (List.getElem_cons_eraseIdx_perm hlt).flatMap_right f
  refine (hset.append_left _).trans ?_
  rw [← List.append_assoc]
  refine (List.perm_append_comm.append_right _).trans ?_
  rw [List.append_assoc]
  exact hold.append_left _

/-- The exchange, counted. -/
lemma count_flatMap_set [BEq W] (f : P → List W) {procs : List P} {i : ℕ} {p : P}
    (hi : procs[i]? = some p) (p' : P) (w : W) :
    (f p).count w + ((procs.set i p').flatMap f).count w
      = (f p').count w + (procs.flatMap f).count w := by
  rw [← List.count_append, ← List.count_append]
  exact (flatMap_set_perm f hi p').count_eq w

/-- Work taken off one process's queue is taken off the system's. -/
lemma pending_set_perm {todo : P → List W} {procs : List P} {i : ℕ} {p p' : P}
    (hi : procs[i]? = some p) {taken : List W} (htaken : todo p = taken ++ todo p') :
    (taken ++ (procs.set i p').flatMap todo).Perm (procs.flatMap todo) := by
  have hset := flatMap_set_perm todo hi p'
  rw [htaken] at hset
  refine (List.perm_append_left_iff (todo p')).mp ((List.Perm.trans ?_ hset))
  rw [← List.append_assoc]
  exact List.perm_append_comm.append_right _

/-! ## Traces -/

section Traces

variable {B : Type*}

/-- What the step of process `i` returns, if there is such a process. -/
def output (out : T → S → P → Option B) (t : T) (i : ℕ) (sys : System S P) : Option B :=
  (sys.procs[i]?).bind (out t sys.shared)

/-- What the steps of a run return, in order. -/
def trace (step : T → S → P → S × P) (out : T → S → P → Option B) (sys : System S P)
    (sched : List (T × ℕ)) : List B :=
  timedOutputs (exec step) (output out) sys sched

/-- **Induction along an interleaving.**  An assertion about the trace and the system that the
step of any one process keeps holds at every point of every run. -/
theorem trace_invariant {step : T → S → P → S × P} {out : T → S → P → Option B}
    {Q : T → ℕ → System S P → Prop} {I : List B → System S P → Prop}
    (hstep : ∀ t i sys p outs, sys.procs[i]? = some p → Q t i sys → I outs sys →
      I (outs ++ (out t sys.shared p).toList)
        ⟨(step t sys.shared p).1, sys.procs.set i (step t sys.shared p).2⟩)
    {sys : System S P} {sched : List (T × ℕ)} (hinit : I [] sys)
    (hsteps : AllSteps (exec step) Q sys sched) :
    I (trace step out sys sched) (timedRun (exec step) sys sched) := by
  have hexec : ∀ t i sys outs, I outs sys → Q t i sys →
      I (outs ++ (output out t i sys).toList) (exec step t i sys) := by
    intro t i sys outs hI hQ
    rw [exec, output]
    cases hi : sys.procs[i]? with
    | none => simpa using hI
    | some p => exact hstep t i sys p outs hi hQ hI
  exact timedOutputs_invariant hexec hinit hsteps

end Traces

section Conservation

variable {step : T → S → P → S × P} {ok : T → S → P → Prop} {todo : P → List W}
  {R : List W → S → Prop} {L : S → P → Prop}

/-- **Conservation of work.**  If every step accounts for exactly the work it takes off the
queue of the moving process and keeps the assertions of all processes, then in every run the work
accounted for and the work pending are together all the work. -/
theorem run_conserves
    (hstep : ∀ t s p done, ok t s p → R done s → L s p →
      (∃ taken, todo p = taken ++ todo (step t s p).2 ∧ R (done ++ taken) (step t s p).1) ∧
        L (step t s p).1 (step t s p).2 ∧ ∀ q, L s q → L (step t s p).1 q)
    {sys : System S P} {done : List W} (hR : R done sys.shared)
    (hL : ∀ p ∈ sys.procs, L sys.shared p) {sched : List (T × ℕ)}
    (hok : AllSteps (exec step) (Takes ok) sys sched) :
    ∃ done', (done' ++ (timedRun (exec step) sys sched).pending todo).Perm
        (done ++ sys.pending todo) ∧
      R done' (timedRun (exec step) sys sched).shared ∧
      ∀ p ∈ (timedRun (exec step) sys sched).procs,
        L (timedRun (exec step) sys sched).shared p := by
  induction sched generalizing sys done with
  | nil => exact ⟨done, List.Perm.refl _, hR, hL⟩
  | cons a sched ih =>
      obtain ⟨t, i⟩ := a
      rw [timedRun_cons]
      cases hi : sys.procs[i]? with
      | none =>
          have hidle : exec step t i sys = sys := by rw [exec, hi]
          have hrest := hok.2
          dsimp only at hrest ⊢
          rw [hidle] at hrest ⊢
          exact ih hR hL hrest
      | some p =>
          have hmove : exec step t i sys
              = ⟨(step t sys.shared p).1, sys.procs.set i (step t sys.shared p).2⟩ :=
            exec_of_getElem? hi t
          obtain ⟨⟨taken, htaken, hR'⟩, hLp, hLq⟩ :=
            hstep t sys.shared p done (hok.1 p hi) hR (hL p (List.mem_of_getElem? hi))
          have hL' : ∀ q ∈ sys.procs.set i (step t sys.shared p).2,
              L (step t sys.shared p).1 q := by
            intro q hq
            rcases List.mem_or_eq_of_mem_set hq with hq | rfl
            · exact hLq q (hL q hq)
            · exact hLp
          have hrest := hok.2
          dsimp only at hrest ⊢
          rw [hmove] at hrest ⊢
          obtain ⟨done', hperm, hRL⟩ := ih hR' hL' hrest
          refine ⟨done', hperm.trans ?_, hRL⟩
          rw [List.append_assoc]
          exact (pending_set_perm hi htaken).append_left done

end Conservation

end System

/-! ## Channels -/

/-- A buffered channel: what it holds, the oldest first, how much it can hold, and whether it has
been closed. -/
structure Chan (α : Type*) where
  queue : List α
  cap : ℕ
  closed : Bool
  deriving DecidableEq

namespace Chan

variable {α : Type*}

/-- `make(chan α, cap)` -/
def new (cap : ℕ) : Chan α := ⟨[], cap, false⟩

/-- `select { case c <- x: default: }`: whether `x` was sent, or `none` for the panic. -/
def trySend (x : α) (c : Chan α) : Option (Chan α × Bool) :=
  if c.closed then none
  else if c.queue.length < c.cap then some ({ c with queue := c.queue ++ [x] }, true)
  else some (c, false)

/-- `<-c`, or `none` if it has to wait.  The zero value a closed and empty channel delivers ends a
`range` over it and is left out. -/
def recv (c : Chan α) : Option (α × Chan α) :=
  match c.queue with
  | [] => none
  | x :: queue => some (x, { c with queue := queue })

/-- `close(c)`, or `none` for the panic. -/
def close (c : Chan α) : Option (Chan α) :=
  if c.closed then none else some { c with closed := true }

end Chan

end Akil
