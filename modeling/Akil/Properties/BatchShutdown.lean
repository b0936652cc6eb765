import Akil.Properties.BatchLedger

/-!
# Shutting the batch assembler down

`Stop` closes `done`; `Start` sees that, flushes once more and closes the output channel.  It does
not wait for goroutines inside `Add`.  One of them may hold a buffer it has taken and not yet sent:
the final flush finds nothing of it, the channel is closed, and the send that follows panics.  The
events of that buffer, whose own `Add`s may have returned long before `Stop`, are offered to nobody
(`assembler_shutdown_fails`).

Two things can go wrong, then, and both can be seen in the state before the step: `Start` closes
the channel while some goroutine holds a buffer, or a flush takes the lock after the close and
finds events.  In every run in which neither happens, nothing is sent on the closed channel, and
whatever was added before `Stop` is offered before the close (`assembler_shutdown_safe`).  The
reason is the ledger: after the final flush all events added before `Stop` are in buffers that were
taken, and a buffer that was taken and is not held has been offered.
-/

namespace Akil

open Happening

/-! ## Before a happening -/

/-- The part of a trace before the first occurrence of `h`. -/
def before (h : Happening) (trace : List Happening) : List Happening :=
  trace.takeWhile (fun x => x ≠ h)

lemma before_of_notMem {h : Happening} {trace : List Happening} (hmem : h ∉ trace) :
    before h trace = trace := by
  rw [before, List.takeWhile_eq_self_iff]
  intro x hx
  rw [decide_eq_true_eq]
  rintro rfl
  exact hmem hx

/-- Once `h` has occurred, what happens later is not before it. -/
lemma before_append_of_mem {h : Happening} {trace : List Happening} (hmem : h ∈ trace)
    (more : List Happening) : before h (trace ++ more) = before h trace := by
  unfold before
  rw [List.takeWhile_append, if_neg]
  intro hlength
  have hself : trace.takeWhile (fun x => x ≠ h) = trace :=
    (List.takeWhile_prefix _).eq_of_length hlength
  have hne := List.takeWhile_eq_self_iff.mp hself h hmem
  simp at hne

lemma before_isPrefix (h : Happening) (trace : List Happening) : before h trace <+: trace :=
  List.takeWhile_prefix _

lemma mem_concat_iff {h : Happening} {trace : List Happening} {hap : Option Happening} :
    h ∈ trace ++ hap.toList ↔ h ∈ trace ∨ hap = some h := by
  rw [List.mem_append, Option.mem_toList]

/-- A step that is not the first `h` is before it. -/
lemma before_concat_of_ne {h : Happening} {trace : List Happening} (hmem : h ∉ trace)
    {hap : Option Happening} (hne : hap ≠ some h) :
    before h (trace ++ hap.toList) = trace ++ hap.toList := by
  refine before_of_notMem ?_
  rw [mem_concat_iff]
  rintro (hx | hx)
  · exact hmem hx
  · exact hne hx

lemma before_concat_self {h : Happening} {trace : List Happening} (hmem : h ∉ trace) :
    before h (trace ++ [h]) = trace := by
  unfold before
  rw [List.takeWhile_append_of_pos]
  · simp
  · intro x hx
    rw [decide_eq_true_eq]
    rintro rfl
    exact hmem hx

/-- The event whose `Add` returns. -/
def Happening.returned? : Happening → Option TelemetryEvent
  | .returned evt => some evt
  | _ => none

/-- The event a goroutine has added without having returned from `Add`. -/
def Goroutine.inAdd (g : Goroutine) : List TelemetryEvent :=
  match g.role with
  | .add (evt :: _) true => [taggedEventToProto evt]
  | _ => []

/-- What was added has returned or is being added. -/
lemma count_returned_exec {trace : List Happening} {sys : System BatchAssembler Goroutine} {i : ℕ}
    {g : Goroutine} (hi : sys.procs[i]? = some g) {m : Moment} {b : BatchAssembler}
    {g' : Goroutine} {hap : Option Happening} (hmove : Goroutine.Moves m sys.shared g b g' hap)
    {evt : TelemetryEvent}
    (h : (trace.filterMap returned?).count evt + (sys.procs.flatMap Goroutine.inAdd).count evt
      = (trace.filterMap added?).count evt) :
    ((trace ++ hap.toList).filterMap returned?).count evt
        + ((sys.procs.set i g').flatMap Goroutine.inAdd).count evt
      = ((trace ++ hap.toList).filterMap added?).count evt := by
  have hset := System.count_flatMap_set Goroutine.inAdd hi g' evt
  have hmoved : (hap.bind returned?).toList.count evt + g'.inAdd.count evt
      = (hap.bind added?).toList.count evt + g.inAdd.count evt := by
    cases hmove with
    | @ret evt' evts _ hrole =>
        cases evts <;> simp [Goroutine.inAdd, hrole, added?, returned?]
    | ticker _ hrole | tick _ hrole | final _ hrole => simp [Goroutine.inAdd, hrole]
    | append _ hrole | close _ hrole | stop _ hrole | receive _ hrole =>
        simp [Goroutine.inAdd, hrole, added?, returned?]
    | _ => rfl
  rw [filterMap_concat, filterMap_concat, List.count_append, List.count_append]
  omega

/-! ## What a step does to the shutdown -/

namespace Goroutine.Moves

variable {m : Moment} {b b' : BatchAssembler} {g g' : Goroutine} {hap : Option Happening}

/-- A channel is closed by the step that is seen to close it. -/
lemma closed_iff (h : Moves m b g b' g' hap) :
    (b'.done.closed = true ↔ b.done.closed = true ∨ hap = some .stopped) ∧
      (b'.output.closed = true ↔ b.output.closed = true ∨ hap = some .closed) := by
  cases h <;> simp [BatchAssembler.panic]

/-- Only a flush that finds events makes a goroutine hold a buffer. -/
lemma held_eq (h : Moves m b g b' g' hap) :
    g'.held = [] ∨ g'.held = g.held ∨ (g.flush = some .lock ∧ b.current ≠ []) := by
  cases h with
  | rest | panic => exact Or.inr (Or.inl rfl)
  | append => exact Or.inl (held_ite_lock _ _)
  | take hflush hcurrent => exact Or.inr (Or.inr ⟨hflush, hcurrent⟩)
  | _ => exact Or.inl rfl

/-- `Start` goes past its final flush only with an empty buffer. -/
lemma final_flush (h : Moves m b g b' g' hap) (hrole : g'.role = .start .close)
    (hflush : g'.flush ≠ some .lock) :
    (g.role = .start .close ∧ g.flush ≠ some .lock) ∨ b'.current = [] := by
  cases h with
  | rest | panic => exact Or.inl ⟨hrole, hflush⟩
  | append | ret | ticker | tick | close | stop | receive => cases hrole
  | final => exact absurd rfl hflush
  | flushEmpty _ hempty => exact Or.inr hempty
  | take => exact Or.inr rfl
  | accept hsend | drop hsend | lose hsend =>
      refine Or.inl ⟨hrole, ?_⟩
      rw [hsend]
      simp

/-- The output channel is closed by a goroutine past its final flush. -/
lemma of_closed (h : Moves m b g b' g' (some .closed)) :
    g.flush = none ∧ g.role = .start .close ∧ g'.held = [] := by
  cases h with
  | close hflush hrole => exact ⟨hflush, hrole, rfl⟩

/-- A batch is lost by a goroutine that holds it when the channel is closed. -/
lemma of_lost (h : Moves m b g b' g' hap) (hlost : hap.bind lost? ≠ none) :
    b.output.closed = true ∧ g.held ≠ [] := by
  cases h with
  | lose hflush hclosed =>
      refine ⟨hclosed, ?_⟩
      rw [held_of_send hflush]
      exact List.cons_ne_nil _ _
  | _ => exact absurd rfl hlost

end Goroutine.Moves

/-! ## Quiet closes -/

/-- `Start` closes the output channel while no goroutine holds a buffer, and a flush that takes
the lock after that finds no events.  This is a condition on the state the step finds. -/
def ClosesQuietly (_m : Moment) (i : ℕ) (sys : System BatchAssembler Goroutine) : Prop :=
  ∀ g ∈ sys.procs[i]?,
    (g.flush = none → g.role = .start .close → ∀ q ∈ sys.procs, q.held = []) ∧
      (g.flush = some .lock → sys.shared.output.closed = true → sys.shared.current = [])

instance (m : Moment) (i : ℕ) (sys : System BatchAssembler Goroutine) :
    Decidable (ClosesQuietly m i sys) :=
  inferInstanceAs (Decidable (∀ g ∈ sys.procs[i]?, _))

/-- **The invariant of a quiet shutdown.** -/
structure Shutdown (trace : List Happening) (sys : System BatchAssembler Goroutine)
    (taken : List (List TelemetryEvent)) : Prop where
  ledger : Ledger trace sys taken
  openUntilStop : OpenUntilStop trace sys
  stopped_iff : .stopped ∈ trace ↔ sys.shared.done.closed = true
  closed_iff : .closed ∈ trace ↔ sys.shared.output.closed = true
  returned : ∀ evt, (trace.filterMap returned?).count evt
    + (sys.procs.flatMap Goroutine.inAdd).count evt = (trace.filterMap added?).count evt
  /-- What returned before `Stop` was added before `Stop`. -/
  returned_le : ∀ evt, ((before .stopped trace).filterMap returned?).count evt
    ≤ ((before .stopped trace).filterMap added?).count evt
  lost : trace.filterMap lost? = []
  /-- After its final flush `Start` has seen everything that was added before `Stop` taken. -/
  drained : ∀ g ∈ sys.procs, g.role = .start .close → g.flush ≠ some .lock →
    (before .stopped trace).filterMap added? <+: taken.flatten
  released : sys.shared.output.closed = true → ∀ g ∈ sys.procs, g.held = []
  /-- What was added before `Stop` was offered before the close. -/
  settled : sys.shared.output.closed = true → ∀ evt,
    ((before .stopped trace).filterMap added?).count evt
      ≤ (((before .closed trace).filterMap offered?).flatMap TelemetryBatch.events).count evt

namespace Shutdown

variable {trace : List Happening} {sys : System BatchAssembler Goroutine}
  {taken : List (List TelemetryEvent)} {i : ℕ} {g g' : Goroutine} {m : Moment}
  {b : BatchAssembler} {hap : Option Happening}

/-- Nothing returns before `Stop` that was not added before `Stop`. -/
lemma returned_le_exec (h : Shutdown trace sys taken) (hi : sys.procs[i]? = some g)
    (hmove : Goroutine.Moves m sys.shared g b g' hap) (evt : TelemetryEvent) :
    ((before .stopped (trace ++ hap.toList)).filterMap returned?).count evt
      ≤ ((before .stopped (trace ++ hap.toList)).filterMap added?).count evt := by
  have hreturned := h.returned evt
  by_cases hstopped : .stopped ∈ trace
  · rw [before_append_of_mem hstopped]
    exact h.returned_le evt
  · by_cases hstop : hap = some .stopped
    · rw [hstop, Option.toList_some, before_concat_self hstopped]
      omega
    · rw [before_concat_of_ne hstopped hstop]
      have hafter := count_returned_exec hi hmove hreturned
      omega

/-- Nothing is lost, since nothing is held once the channel is closed. -/
lemma lost_exec (h : Shutdown trace sys taken) (hi : sys.procs[i]? = some g)
    (hmove : Goroutine.Moves m sys.shared g b g' hap) :
    (trace ++ hap.toList).filterMap lost? = [] := by
  rw [filterMap_concat, h.lost, List.nil_append, Option.toList_eq_nil_iff]
  by_contra hlost
  obtain ⟨hclosed, hheld⟩ := hmove.of_lost hlost
  exact hheld (h.released hclosed g (List.mem_of_getElem? hi))

/-- A closing `Start` past its final flush has seen the events from before `Stop` taken. -/
lemma drained_exec (h : Shutdown trace sys taken) (hi : sys.procs[i]? = some g)
    (hmove : Goroutine.Moves m sys.shared g b g' hap) {more : List (List TelemetryEvent)}
    (hledger : Ledger (trace ++ hap.toList) ⟨b, sys.procs.set i g'⟩ (taken ++ more))
    {q : Goroutine} (hq : q ∈ sys.procs.set i g') (hrole : q.role = .start .close)
    (hflush : q.flush ≠ some .lock) :
    (before .stopped (trace ++ hap.toList)).filterMap added? <+: (taken ++ more).flatten := by
  have hold : ∀ q ∈ sys.procs, q.role = .start .close → q.flush ≠ some .lock →
      (before .stopped (trace ++ hap.toList)).filterMap added? <+: (taken ++ more).flatten := by
    intro q hq hrole hflush
    have hstopped := h.stopped_iff.mpr (h.openUntilStop.closing q hq (Or.inl hrole))
    rw [before_append_of_mem hstopped, List.flatten_append]
    exact (h.drained q hq hrole hflush).trans (List.prefix_append _ _)
  rcases List.mem_or_eq_of_mem_set hq with hq | rfl
  · exact hold q hq hrole hflush
  · rcases hmove.final_flush hrole hflush with ⟨hrole', hflush'⟩ | hempty
    · exact hold g (List.mem_of_getElem? hi) hrole' hflush'
    · -- the buffer is empty, so everything added is in the ledger
      have hadded := hledger.added_eq
      dsimp only at hadded
      rw [hempty, List.append_nil] at hadded
      rw [hadded]
      exact (before_isPrefix _ _).filterMap _

/-- Once the channel is closed nobody holds a buffer. -/
lemma released_exec (h : Shutdown trace sys taken) (hi : sys.procs[i]? = some g)
    (hquiet : ClosesQuietly m i sys) (hmove : Goroutine.Moves m sys.shared g b g' hap)
    (hclosed : b.output.closed = true) {q : Goroutine} (hq : q ∈ sys.procs.set i g') :
    q.held = [] := by
  obtain ⟨hclose, hlock⟩ := hquiet g hi
  rcases hmove.closed_iff.2.mp hclosed with hbefore | rfl
  · rcases List.mem_or_eq_of_mem_set hq with hq | rfl
    · exact h.released hbefore q hq
    · rcases hmove.held_eq with hempty | hsame | ⟨hflush, hcurrent⟩
      · exact hempty
      · rw [hsame]
        exact h.released hbefore g (List.mem_of_getElem? hi)
      · exact absurd (hlock hflush hbefore) hcurrent
  · obtain ⟨hflush, hrole, hheld⟩ := hmove.of_closed
    rcases List.mem_or_eq_of_mem_set hq with hq | rfl
    · exact hclose hflush hrole q hq
    · exact hheld

/-- When nothing is held and nothing lost, the buffers taken are those offered. -/
lemma count_flatten_taken (h : Shutdown trace sys taken) (hheld : ∀ q ∈ sys.procs, q.held = [])
    (evt : TelemetryEvent) :
    taken.flatten.count evt
      = ((trace.filterMap offered?).flatMap TelemetryBatch.events).count evt := by
  have hnone : sys.procs.flatMap Goroutine.held = [] := List.flatMap_eq_nil_iff.mpr hheld
  have hperm := h.ledger.perm_taken h.lost
  rw [hnone, List.nil_append] at hperm
  rw [List.flatMap_def]
  exact (hperm.flatten.count_eq evt).symm

/-- What was added before `Stop` is offered before the channel is closed. -/
lemma settled_exec (h : Shutdown trace sys taken) (hi : sys.procs[i]? = some g)
    (hquiet : ClosesQuietly m i sys) (hmove : Goroutine.Moves m sys.shared g b g' hap)
    (hclosed : b.output.closed = true) (evt : TelemetryEvent) :
    ((before .stopped (trace ++ hap.toList)).filterMap added?).count evt
      ≤ (((before .closed (trace ++ hap.toList)).filterMap offered?).flatMap
          TelemetryBatch.events).count evt := by
  by_cases hbefore : sys.shared.output.closed = true
  · have hstopped := h.stopped_iff.mpr (h.openUntilStop.output hbefore)
    rw [before_append_of_mem hstopped, before_append_of_mem (h.closed_iff.mpr hbefore)]
    exact h.settled hbefore evt
  · obtain rfl : hap = some .closed := (hmove.closed_iff.2.mp hclosed).resolve_left hbefore
    obtain ⟨hflush, hrole, -⟩ := hmove.of_closed
    have hg := List.mem_of_getElem? hi
    have hstopped := h.stopped_iff.mpr (h.openUntilStop.closing g hg (Or.inl hrole))
    have hopen : .closed ∉ trace := fun hmem => hbefore (h.closed_iff.mp hmem)
    rw [before_append_of_mem hstopped, Option.toList_some, before_concat_self hopen,
      ← h.count_flatten_taken ((hquiet g hi).1 hflush hrole)]
    refine (h.drained g hg hrole ?_).sublist.count_le evt
    rw [hflush]
    exact Option.some_ne_none _ ∘ Eq.symm

/-- **One step.** -/
lemma exec (h : Shutdown trace sys taken) (hi : sys.procs[i]? = some g)
    (hquiet : ClosesQuietly m i sys) (hmove : Goroutine.Moves m sys.shared g b g' hap) :
    ∃ more, Shutdown (trace ++ hap.toList) ⟨b, sys.procs.set i g'⟩ (taken ++ more) := by
  obtain ⟨more, hledger⟩ := h.ledger.exec hi hmove
  refine ⟨more, ?_⟩
  constructor
  case ledger => exact hledger
  case openUntilStop => exact h.openUntilStop.exec hi hmove
  case stopped_iff => rw [mem_concat_iff, h.stopped_iff, hmove.closed_iff.1]
  case closed_iff => rw [mem_concat_iff, h.closed_iff, hmove.closed_iff.2]
  case returned => exact fun evt => count_returned_exec hi hmove (h.returned evt)
  case returned_le => exact h.returned_le_exec hi hmove
  case lost => exact h.lost_exec hi hmove
  case drained => exact fun q hq hrole hflush => h.drained_exec hi hmove hledger hq hrole hflush
  case released => exact fun hclosed q hq => h.released_exec hi hquiet hmove hclosed hq
  case settled => exact fun hclosed evt => h.settled_exec hi hquiet hmove hclosed evt

lemma new {cfg : BatchAssemblerConfig} {b : BatchAssembler} (hb : newBatchAssembler cfg = some b)
    (receivers : ℕ) (adds : List (List TaggedEvent)) :
    Shutdown [] (assemblerSystem b receivers adds) [] := by
  obtain ⟨-, -, houtput, hdone⟩ := newBatchAssembler_empty hb
  have houtput' : (assemblerSystem b receivers adds).shared.output.closed = false := houtput
  have hdone' : (assemblerSystem b receivers adds).shared.done.closed = false := hdone
  have hinAdd : (assemblerSystem b receivers adds).procs.flatMap Goroutine.inAdd = [] := by
    simp [assemblerSystem, List.flatMap_map, List.flatMap_replicate, Goroutine.inAdd]
  constructor
  case ledger => exact Ledger.new hb receivers adds
  case openUntilStop => exact OpenUntilStop.new hb receivers adds
  case stopped_iff => simp [hdone']
  case closed_iff => simp [houtput']
  case returned => simp [hinAdd]
  case returned_le => exact fun evt => le_refl _
  case lost => rfl
  case drained => exact fun g hg hrole => absurd hrole (role_assemblerSystem hg).1
  case released => simp [houtput']
  case settled => simp [houtput']

/-- **Whole runs**, of all interleavings whose closes are quiet. -/
lemma run {cfg : BatchAssemblerConfig} {b : BatchAssembler} (hb : newBatchAssembler cfg = some b)
    (receivers : ℕ) (adds : List (List TaggedEvent)) {sched : List (Moment × ℕ)}
    (hsteps : AllSteps (System.exec Goroutine.step) ClosesQuietly
      (assemblerSystem b receivers adds) sched) :
    ∃ taken, Shutdown
      (System.trace Goroutine.step Goroutine.happening (assemblerSystem b receivers adds) sched)
      (timedRun (System.exec Goroutine.step) (assemblerSystem b receivers adds) sched) taken := by
  refine System.trace_invariant (I := fun trace sys => ∃ taken, Shutdown trace sys taken) ?_
    ⟨[], new hb receivers adds⟩ hsteps
  rintro m i sys g trace hi hquiet ⟨taken, h⟩
  obtain ⟨more, h'⟩ := h.exec hi hquiet (Goroutine.step_moves m sys.shared g)
  exact ⟨taken ++ more, h'⟩

end Shutdown

/-- **Quiet shutdowns are safe.**  Any number of goroutines add any events, and `Stop` is called at
any time, in any order of the steps.  If `Start` closes the output channel only while no goroutine
holds a buffer it has taken and not offered, and no flush finds events after that, then nothing is
ever sent on the closed channel, and every event whose `Add` returned before `Stop` was called is in
some batch that was offered to the channel before it was closed. -/
theorem assembler_shutdown_safe (cfg : BatchAssemblerConfig) (b : BatchAssembler)
    (hb : newBatchAssembler cfg = some b) (receivers : ℕ) (adds : List (List TaggedEvent))
    (sched : List (Moment × ℕ))
    (hsteps : AllSteps (System.exec Goroutine.step) ClosesQuietly
      (assemblerSystem b receivers adds) sched) :
    let trace := System.trace Goroutine.step Goroutine.happening (assemblerSystem b receivers adds)
      sched
    (∀ batch, .sentOnClosed batch ∉ trace) ∧
      (.closed ∈ trace → ((before .stopped trace).filterMap returned?).Subperm
        (((before .closed trace).filterMap offered?).flatMap TelemetryBatch.events)) := by
  intro trace
  obtain ⟨taken, h⟩ := Shutdown.run hb receivers adds hsteps
  constructor
  · intro batch hmem
    have hlost : batch ∈ trace.filterMap lost? := List.mem_filterMap.mpr ⟨_, hmem, rfl⟩
    rw [show trace.filterMap lost? = [] from h.lost] at hlost
    cases hlost
  · intro hclosed
    rw [List.subperm_ext_iff]
    intro evt _
    exact (h.returned_le evt).trans (h.settled (h.closed_iff.mp hclosed) evt)

/-- Two goroutines add one event each, to batches of three.  The first returns, `Stop` is called,
`Start` flushes and closes, and only then does the second one add its event, which stays in the
buffer. -/
theorem assembler_shutdown_safe_late_add :
    let b : BatchAssembler := ⟨3, 10 ^ 9, "node-1", [], Chan.new 1, Chan.new 0, false⟩
    let evt := fun t : UInt64 => (⟨⟨eventPageFault, 42, t, some (.pageFault false 4096)⟩,
      ⟨"default", "web-1", "web", "default/Deployment/web", "node-1"⟩⟩ : TaggedEvent)
    let adds := [[evt 1], [evt 2]]
    let sched : List (Moment × ℕ) := [2, 2, 1, 0, 0, 0, 0, 0, 3, 3].map (fun i => (⟨7, false⟩, i))
    let trace := System.trace Goroutine.step Goroutine.happening (assemblerSystem b 0 adds) sched
    (∀ batch, .sentOnClosed batch ∉ trace) ∧
      (before .stopped trace).filterMap returned? = [taggedEventToProto (evt 1)] ∧
      ((before .stopped trace).filterMap returned?).Subperm
        (((before .closed trace).filterMap offered?).flatMap TelemetryBatch.events) := by
  intro b evt adds sched trace
  obtain ⟨hlost, hoffered⟩ := assembler_shutdown_safe ⟨3, 10 ^ 9, "node-1", 1⟩ b (by decide) 0 adds
    sched (by decide)
  exact ⟨hlost, by decide, hoffered (by decide)⟩

/-- **A shutdown that is not quiet.**  Two goroutines add one event each, to batches of two.  The
first returns; the second finds the buffer full and takes both events.  Before it sends them `Stop`
is called, and `Start` flushes, finds nothing, and closes the channel.  The send is on a closed
channel, and the first event, whose `Add` returned before `Stop`, was never offered. -/
theorem assembler_shutdown_fails :
    let b : BatchAssembler := ⟨2, 10 ^ 9, "node-1", [], Chan.new 1, Chan.new 0, false⟩
    let evt := fun t : UInt64 => (⟨⟨eventPageFault, 42, t, some (.pageFault false 4096)⟩,
      ⟨"default", "web-1", "web", "default/Deployment/web", "node-1"⟩⟩ : TaggedEvent)
    let adds := [[evt 1], [evt 2]]
    let sched : List (Moment × ℕ) := [2, 2, 3, 3, 1, 0, 0, 0, 0, 3].map (fun i => (⟨7, false⟩, i))
    let trace := System.trace Goroutine.step Goroutine.happening (assemblerSystem b 0 adds) sched
    newBatchAssembler ⟨2, 10 ^ 9, "node-1", 1⟩ = some b ∧
      .sentOnClosed ⟨"node-1", 7, [taggedEventToProto (evt 1), taggedEventToProto (evt 2)]⟩
        ∈ trace ∧
      .closed ∈ trace ∧
      ¬ ((before .stopped trace).filterMap returned?).Subperm
        (((before .closed trace).filterMap offered?).flatMap TelemetryBatch.events) := by
  decide

end Akil
