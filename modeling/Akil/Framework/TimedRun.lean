import Mathlib

/-!
# Timed runs

A timed run applies a deterministic step function along a list of actions, each carried out at
its own clock reading, of any ordered type `T`.  `timedRun` is the final state, `timedOutputs` the
list of what the actions returned, `NondecreasingFrom` the assumption that the clock never goes
back, and `AllSteps P` the statement that every action of the run satisfies `P` in the state it is
taken in.  An action that reads the clock at its start and at its end has a `Span` for its reading.

Eight proof rules are packaged.  `timedRun_preserves` is induction along a run.
`timedRun_invariant` is the same for an invariant that may mention the current clock reading
and that is preserved by the steps satisfying `P`; `AllSteps.of_invariant` and
`allSteps_of_invariant` draw from such invariants that every action of the run was taken safely.
`timedOutputs_invariant` is induction for assertions about the outputs so far, and
`timedOutputs_map_eq_of_simulation` compares what two runs of the same actions return.
`forall_take_iff_allSteps` turns an exact step condition into an exact condition on runs.
`originalOutputs_eq_of_stutter` compares a run with one in which extra actions have been
inserted: actions of a *schedule* are marked as original or inserted, a relation between the
two states survives an inserted action on one side only, and an original action keeps it and
returns the same on both sides; then the outputs of the original actions agree.
-/

namespace Akil

variable {T σ τ α β : Type*}

/-! ## Runs, outputs and clocks -/

/-- The state after a list of actions, each at its clock reading. -/
def timedRun (step : T → α → σ → σ) (s : σ) (calls : List (T × α)) : σ :=
  calls.foldl (fun s c => step c.1 c.2 s) s

@[simp] lemma timedRun_nil (step : T → α → σ → σ) (s : σ) : timedRun step s [] = s := rfl

@[simp] lemma timedRun_cons (step : T → α → σ → σ) (s : σ) (c : T × α)
    (calls : List (T × α)) :
    timedRun step s (c :: calls) = timedRun step (step c.1 c.2 s) calls := rfl

lemma timedRun_append (step : T → α → σ → σ) (s : σ) (calls calls' : List (T × α)) :
    timedRun step s (calls ++ calls') = timedRun step (timedRun step s calls) calls' :=
  List.foldl_append

/-- What the actions of a run returned, in order. -/
def timedOutputs (step : T → α → σ → σ) (out : T → α → σ → Option β) :
    σ → List (T × α) → List β
  | _, [] => []
  | s, c :: calls => (out c.1 c.2 s).toList ++ timedOutputs step out (step c.1 c.2 s) calls

lemma timedOutputs_append (step : T → α → σ → σ) (out : T → α → σ → Option β) (s : σ)
    (calls calls' : List (T × α)) :
    timedOutputs step out s (calls ++ calls')
      = timedOutputs step out s calls ++ timedOutputs step out (timedRun step s calls) calls' := by
  induction calls generalizing s with
  | nil => rfl
  | cons c calls ih =>
      rw [List.cons_append, timedOutputs, ih, timedOutputs, timedRun_cons, List.append_assoc]

/-- Two machines run side by side on the same actions. -/
lemma timedRun_prod (f : T → α → σ → σ) (g : T → α → τ → τ) (s : σ) (s' : τ)
    (calls : List (T × α)) :
    timedRun (fun t a p => (f t a p.1, g t a p.2)) (s, s') calls
      = (timedRun f s calls, timedRun g s' calls) := by
  induction calls generalizing s s' with
  | nil => rfl
  | cons c calls ih => exact ih _ _

section Clock

variable [LE T]

/-- The readings of a run start at `now` or later and never go back. -/
def NondecreasingFrom : T → List (T × α) → Prop
  | _, [] => True
  | now, c :: calls => now ≤ c.1 ∧ NondecreasingFrom c.1 calls

instance decidableNondecreasingFrom [DecidableLE T] : ∀ (now : T) (calls : List (T × α)),
    Decidable (NondecreasingFrom now calls)
  | _, [] => isTrue trivial
  | now, c :: calls =>
      have := decidableNondecreasingFrom c.1 calls
      inferInstanceAs (Decidable (now ≤ c.1 ∧ NondecreasingFrom c.1 calls))

/-- The clock reading of the last action, or `now` if there was none. -/
def lastTime : T → List (T × α) → T
  | now, [] => now
  | _, c :: calls => lastTime c.1 calls

lemma nondecreasingFrom_append {now : T} {calls calls' : List (T × α)} :
    NondecreasingFrom now (calls ++ calls')
      ↔ NondecreasingFrom now calls ∧ NondecreasingFrom (lastTime now calls) calls' := by
  induction calls generalizing now with
  | nil => simp [NondecreasingFrom, lastTime]
  | cons c calls ih => simp [NondecreasingFrom, lastTime, ih, and_assoc]

lemma nondecreasingFrom_concat {now : T} {calls : List (T × α)} {c : T × α} :
    NondecreasingFrom now (calls ++ [c])
      ↔ NondecreasingFrom now calls ∧ lastTime now calls ≤ c.1 := by
  rw [nondecreasingFrom_append]
  simp [NondecreasingFrom]

lemma NondecreasingFrom.le_of_mem [IsTrans T (· ≤ ·)] {now : T} {calls : List (T × α)}
    (h : NondecreasingFrom now calls) {c : T × α} (hc : c ∈ calls) : now ≤ c.1 := by
  induction calls generalizing now with
  | nil => cases hc
  | cons c' calls ih =>
      rcases List.mem_cons.mp hc with rfl | hc
      · exact h.1
      · exact IsTrans.trans _ _ _ h.1 (ih h.2 hc)

lemma NondecreasingFrom.le_lastTime {T : Type*} [Preorder T] {now : T} {calls : List (T × α)}
    (h : NondecreasingFrom now calls) : now ≤ lastTime now calls := by
  induction calls generalizing now with
  | nil => exact le_refl now
  | cons c calls ih => exact h.1.trans (ih h.2)

lemma NondecreasingFrom.le_lastTime_of_mem {T : Type*} [Preorder T] {now : T}
    {calls : List (T × α)} (h : NondecreasingFrom now calls) {c : T × α} (hc : c ∈ calls) :
    c.1 ≤ lastTime now calls := by
  induction calls generalizing now with
  | nil => cases hc
  | cons c' calls ih =>
      rcases List.mem_cons.mp hc with rfl | hc
      · exact h.2.le_lastTime
      · exact ih h.2 hc

end Clock

lemma lastTime_concat (now : T) (calls : List (T × α)) (c : T × α) :
    lastTime now (calls ++ [c]) = c.1 := by
  induction calls generalizing now with
  | nil => rfl
  | cons c' calls ih => exact ih c'.1

/-! ## Calls that take time -/

/-- The readings of a call that looks at the clock when it starts and again before it returns. -/
structure Span where
  start : ℤ
  stop : ℤ
  le : start ≤ stop
  deriving DecidableEq

/-- One call starts after another has returned. -/
instance : LE Span := ⟨fun a b => a.stop ≤ b.start⟩

instance : DecidableLE Span := fun a b => inferInstanceAs (Decidable (a.stop ≤ b.start))

lemma Span.le_def {a b : Span} : a ≤ b ↔ a.stop ≤ b.start := Iff.rfl

instance : IsTrans Span (· ≤ ·) := ⟨fun _ b _ hab hbc => (le_trans hab b.le).trans hbc⟩

/-! ## Invariants -/

/-- Every action of the run satisfies `P` in the state it is taken in. -/
def AllSteps (step : T → α → σ → σ) (P : T → α → σ → Prop) : σ → List (T × α) → Prop
  | _, [] => True
  | s, c :: calls => P c.1 c.2 s ∧ AllSteps step P (step c.1 c.2 s) calls

instance decidableAllSteps (step : T → α → σ → σ) (P : T → α → σ → Prop)
    [∀ t a s, Decidable (P t a s)] : ∀ (s : σ) (calls : List (T × α)),
    Decidable (AllSteps step P s calls)
  | _, [] => isTrue trivial
  | s, c :: calls =>
      have := decidableAllSteps step P (step c.1 c.2 s) calls
      inferInstanceAs (Decidable (P c.1 c.2 s ∧ AllSteps step P (step c.1 c.2 s) calls))

lemma allSteps_concat {step : T → α → σ → σ} {P : T → α → σ → Prop} {s : σ}
    {calls : List (T × α)} {c : T × α} :
    AllSteps step P s (calls ++ [c])
      ↔ AllSteps step P s calls ∧ P c.1 c.2 (timedRun step s calls) := by
  induction calls generalizing s with
  | nil => simp [AllSteps]
  | cons c' calls ih => simp [AllSteps, ih, and_assoc]

/-- Step by step. -/
lemma allSteps_iff_getElem? {f : T → α → σ → σ} {P : T → α → σ → Prop} {s : σ}
    {calls : List (T × α)} : AllSteps f P s calls ↔
      ∀ k c, calls[k]? = some c → P c.1 c.2 (timedRun f s (calls.take k)) := by
  induction calls generalizing s with
  | nil => simp [AllSteps]
  | cons c calls ih =>
      rw [AllSteps, ih]
      constructor
      · rintro ⟨hnow, hlater⟩ k c' hk
        cases k with
        | zero =>
            obtain rfl := Option.some.inj hk
            exact hnow
        | succ k => exact hlater k c' hk
      · exact fun h => ⟨h 0 c rfl, fun k c' hk => h (k + 1) c' hk⟩

/-- A condition on the actions alone. -/
lemma allSteps_of_forall {f : T → α → σ → σ} {P : T → α → Prop} {calls : List (T × α)}
    (h : ∀ c ∈ calls, P c.1 c.2) (s : σ) : AllSteps f (fun t a _ => P t a) s calls := by
  induction calls generalizing s with
  | nil => trivial
  | cons c calls ih =>
      exact ⟨h c List.mem_cons_self, ih (fun c hc => h c (List.mem_cons_of_mem _ hc)) _⟩

/-- **Prefixes of a run.**  If, once a property of runs holds, it goes on to hold exactly when the
next action satisfies `Q` in the state it is taken in, then it holds of every prefix of a run
exactly when every action of the run satisfies `Q`. -/
theorem forall_take_iff_allSteps {f : T → α → σ → σ} {Q : T → α → σ → Prop}
    {P : List (T × α) → Prop} {s : σ} (hnil : P []) {calls : List (T × α)}
    (hstep : ∀ before c, before ++ [c] <+: calls → P before →
      (P (before ++ [c]) ↔ Q c.1 c.2 (timedRun f s before))) :
    (∀ k, P (calls.take k)) ↔ AllSteps f Q s calls := by
  induction calls using List.reverseRecOn with
  | nil => simpa [AllSteps] using hnil
  | append_singleton calls c ih =>
      have hprev := ih (fun before c hbefore =>
        hstep before c (hbefore.trans (List.prefix_append _ _)))
      have htake : (∀ k, P ((calls ++ [c]).take k))
          ↔ (∀ k, P (calls.take k)) ∧ P (calls ++ [c]) := by
        constructor
        · intro h
          refine ⟨fun k => ?_, ?_⟩
          · rcases le_or_gt k calls.length with hk | hk
            · have := h k
              rwa [List.take_append_of_le_length hk] at this
            · have := h calls.length
              rw [List.take_append_of_le_length le_rfl, List.take_length] at this
              rwa [List.take_of_length_le hk.le]
          · have := h (calls ++ [c]).length
            rwa [List.take_length] at this
        · rintro ⟨hshort, hfull⟩ k
          rcases le_or_gt k calls.length with hk | hk
          · rw [List.take_append_of_le_length hk]
            exact hshort k
          · rw [List.take_of_length_le (by simpa using hk)]
            exact hfull
      rw [htake, allSteps_concat, ← hprev]
      refine and_congr_right (fun hshort => hstep calls c (List.prefix_refl _) ?_)
      have := hshort calls.length
      rwa [List.take_length] at this

/-- A condition on one machine of a pair is a condition on the pair. -/
lemma allSteps_prod (f : T → α → σ → σ) (g : T → α → τ → τ) {P : T → α → σ → Prop} {s : σ}
    (s' : τ) {calls : List (T × α)} (h : AllSteps f P s calls) :
    AllSteps (fun t a p => (f t a p.1, g t a p.2)) (fun t a p => P t a p.1) (s, s') calls := by
  induction calls generalizing s s' with
  | nil => trivial
  | cons c calls ih => exact ⟨h.1, ih _ h.2⟩

/-- **Induction along a run.**  What every step preserves, a run preserves. -/
theorem timedRun_preserves {f : T → α → σ → σ} {I : σ → Prop}
    (hstep : ∀ t a s, I s → I (f t a s)) {s : σ} (hinit : I s)
    (calls : List (T × α)) : I (timedRun f s calls) := by
  induction calls generalizing s with
  | nil => exact hinit
  | cons c calls ih => exact ih (hstep _ _ _ hinit)

/-- **Induction along a clocked run.**  An invariant of state and clock that every step
satisfying `P` preserves at a later reading holds at the end of every run of such steps. -/
theorem timedRun_invariant [LE T] {f : T → α → σ → σ} {P : T → α → σ → Prop}
    {I : T → σ → Prop}
    (hstep : ∀ now t a s, I now s → now ≤ t → P t a s → I t (f t a s))
    {now : T} {s : σ} {calls : List (T × α)} (hinit : I now s)
    (hclock : NondecreasingFrom now calls) (hsteps : AllSteps f P s calls) :
    I (lastTime now calls) (timedRun f s calls) := by
  induction calls generalizing now s with
  | nil => exact hinit
  | cons c calls ih => exact ih (hstep _ _ _ _ hinit hclock.1 hsteps.1) hclock.2 hsteps.2

/-- **Safety along a run.**  If an invariant is kept by the actions satisfying `P` and gives `Q`
at each of them, then in a run whose actions all satisfy `P` all satisfy `Q`. -/
theorem AllSteps.of_invariant {f : T → α → σ → σ} {P Q : T → α → σ → Prop} {I : σ → Prop}
    (hstep : ∀ t a s, I s → P t a s → Q t a s ∧ I (f t a s)) {s : σ} (hinit : I s)
    {calls : List (T × α)} (h : AllSteps f P s calls) : AllSteps f Q s calls := by
  induction calls generalizing s with
  | nil => trivial
  | cons c calls ih =>
      obtain ⟨hq, hnext⟩ := hstep _ _ _ hinit h.1
      exact ⟨hq, ih hnext h.2⟩

/-- **Safety along a clocked run.**  If an invariant of state and clock gives `Q` at every
action and is kept by it, every action of the run satisfies `Q`. -/
theorem allSteps_of_invariant [LE T] {f : T → α → σ → σ} {Q : T → α → σ → Prop}
    {I : T → σ → Prop}
    (hstep : ∀ now t a s, I now s → now ≤ t → Q t a s ∧ I t (f t a s))
    {now : T} {s : σ} {calls : List (T × α)} (hinit : I now s)
    (hclock : NondecreasingFrom now calls) : AllSteps f Q s calls := by
  induction calls generalizing now s with
  | nil => trivial
  | cons c calls ih =>
      obtain ⟨hq, hnext⟩ := hstep _ _ _ _ hinit hclock.1
      exact ⟨hq, ih hnext hclock.2⟩

/-- **Induction along a run with its outputs.**  An assertion about a state and what has been
returned so far, kept by the actions satisfying `P`. -/
theorem timedOutputs_invariant {f : T → α → σ → σ} {out : T → α → σ → Option β}
    {P : T → α → σ → Prop} {I : List β → σ → Prop}
    (hstep : ∀ t a s outs, I outs s → P t a s → I (outs ++ (out t a s).toList) (f t a s))
    {outs : List β} {s : σ} {calls : List (T × α)} (hinit : I outs s)
    (hsteps : AllSteps f P s calls) :
    I (outs ++ timedOutputs f out s calls) (timedRun f s calls) := by
  induction calls generalizing outs s with
  | nil => simpa [timedOutputs] using hinit
  | cons c calls ih =>
      have hnext := ih (hstep _ _ _ _ hinit hsteps.1) hsteps.2
      rwa [List.append_assoc] at hnext

/-- **Simulation.**  If every action keeps a relation between two states and returns, seen through
`view`, the same from both, then so do whole runs. -/
theorem timedOutputs_map_eq_of_simulation {γ : Type*} {step : T → α → σ → σ}
    {out : T → α → σ → Option β} {view : β → γ} {R : σ → σ → Prop}
    (hstep : ∀ t a s s', R s s' → R (step t a s) (step t a s'))
    (hout : ∀ t a s s', R s s' → (out t a s).map view = (out t a s').map view)
    {s s' : σ} (hinit : R s s') (calls : List (T × α)) :
    (timedOutputs step out s calls).map view = (timedOutputs step out s' calls).map view := by
  induction calls generalizing s s' with
  | nil => rfl
  | cons c calls ih =>
      have hhead := congrArg Option.toList (hout c.1 c.2 _ _ hinit)
      rw [Option.toList_map, Option.toList_map] at hhead
      rw [timedOutputs, timedOutputs, List.map_append, List.map_append, hhead,
        ih (hstep _ _ _ _ hinit)]

/-! ## Inserted actions -/

/-- The actions of a schedule that are not marked as inserted. -/
def originals (sched : List (T × α × Bool)) : List (T × α) :=
  (sched.filter (fun c => !c.2.2)).map (fun c => (c.1, c.2.1))

/-- All actions of a schedule. -/
def allCalls (sched : List (T × α × Bool)) : List (T × α) := sched.map (fun c => (c.1, c.2.1))

/-- What the original actions return when the whole schedule is run. -/
def originalOutputs (step : T → α → σ → σ) (out : T → α → σ → Option β) :
    σ → List (T × α × Bool) → List β
  | _, [] => []
  | s, c :: sched =>
      (if c.2.2 then [] else (out c.1 c.2.1 s).toList)
        ++ originalOutputs step out (step c.1 c.2.1 s) sched

/-- **Stuttering.**  If a relation between the state of the full run and the state of the
original run survives inserted actions on the full side, and original actions keep it and
return the same, then inserting actions changes no output of an original one. -/
theorem originalOutputs_eq_of_stutter [LE T] {step : T → α → σ → σ} {out : T → α → σ → Option β}
    {P : T → α → σ → Prop} {J : α → Prop} {R : T → σ → σ → Prop}
    (hboth : ∀ now t a s s', R now s s' → now ≤ t → P t a s → P t a s' →
      out t a s = out t a s' ∧ R t (step t a s) (step t a s'))
    (hskip : ∀ now t a s s', R now s s' → now ≤ t → P t a s → J a → R t (step t a s) s')
    {now : T} {s s' : σ} {sched : List (T × α × Bool)} (hinit : R now s s')
    (hclock : NondecreasingFrom now sched) (hins : ∀ c ∈ sched, c.2.2 = true → J c.2.1)
    (hfull : AllSteps step P s (allCalls sched))
    (horig : AllSteps step P s' (originals sched)) :
    originalOutputs step out s sched = timedOutputs step out s' (originals sched) := by
  induction sched generalizing now s s' with
  | nil => rfl
  | cons c sched ih =>
      obtain ⟨t, a, inserted⟩ := c
      have hins' : ∀ c ∈ sched, c.2.2 = true → J c.2.1 :=
        fun c hc => hins c (List.mem_cons_of_mem _ hc)
      cases inserted with
      | true =>
          have hR := hskip _ _ _ _ _ hinit hclock.1 hfull.1 (hins _ List.mem_cons_self rfl)
          exact ih hR hclock.2 hins' hfull.2 horig
      | false =>
          obtain ⟨hout, hR⟩ := hboth _ _ _ _ _ hinit hclock.1 hfull.1 horig.1
          have hrest := ih hR hclock.2 hins' hfull.2 horig.2
          change (out t a s).toList ++ _ = (out t a s').toList ++ _
          rw [hout]
          exact congrArg _ hrest

end Akil
