import Akil.Properties.BatchLedger

/-!
# How large a batch can become

`MaxEvents` is documented as the maximum number of events per batch.  `Add` compares the buffer
with it inside the mutex, but takes the buffer only in `flush`, which locks the mutex again.  In
between other goroutines may append, and nothing in `Add` looks at the length before appending: the
batch that is taken then is larger than `maxEvents` (`offered_exceeds_maxEvents`).

What decides is whether an `Add` that takes the mutex finds room in the buffer (`AddsWithRoom`).  In
every run in which each of them does, no batch exceeds `maxEvents`; and a goroutine that does not
find room sends, in its next two steps, a batch that does (`sent_le_maxEvents`).
-/

namespace Akil

open Happening

/-- The batch of a send, on the open channel or on the closed one. -/
def Happening.sent? : Happening → Option TelemetryBatch
  | .offered batch _ => some batch
  | .sentOnClosed batch => some batch
  | _ => none

/-- The goroutine is before the section of an `Add`. -/
def Goroutine.appends (g : Goroutine) : Bool :=
  match g.flush, g.role with
  | none, .add (_ :: _) false => true
  | _, _ => false

/-- An `Add` that takes the mutex finds room for its event.  This is a condition on the state the
step finds. -/
def AddsWithRoom (_m : Moment) (i : ℕ) (sys : System BatchAssembler Goroutine) : Prop :=
  ∀ g ∈ sys.procs[i]?, g.appends = true → sys.shared.panicked = false →
    (sys.shared.current.length : ℤ) < sys.shared.maxEvents

instance (m : Moment) (i : ℕ) (sys : System BatchAssembler Goroutine) :
    Decidable (AddsWithRoom m i sys) :=
  inferInstanceAs (Decidable (∀ g ∈ sys.procs[i]?, _))

/-! ## Runs in which every `Add` finds room -/

/-- **The bound.**  The buffer, the buffers taken from it and the batches sent are of at most
`maxEvents` events. -/
structure Bounded (maxEvents : ℤ) (trace : List Happening)
    (sys : System BatchAssembler Goroutine) : Prop where
  maxEvents_eq : sys.shared.maxEvents = maxEvents
  current : (sys.shared.current.length : ℤ) ≤ maxEvents
  held : ∀ g ∈ sys.procs, ∀ events ∈ g.held, (events.length : ℤ) ≤ maxEvents
  sent : ∀ batch ∈ trace.filterMap sent?, (batch.events.length : ℤ) ≤ maxEvents

namespace Bounded

variable {maxEvents : ℤ} {trace : List Happening} {sys : System BatchAssembler Goroutine} {i : ℕ}
  {g g' : Goroutine} {b : BatchAssembler} {hap : Option Happening} {m : Moment}

/-- A move keeps the bound if what it leaves in the buffer, what it holds and what it sends is
within it. -/
lemma of_move (h : Bounded maxEvents trace sys) (hmax : b.maxEvents = sys.shared.maxEvents)
    (hcurrent : (b.current.length : ℤ) ≤ maxEvents)
    (hheld : ∀ events ∈ g'.held, (events.length : ℤ) ≤ maxEvents)
    (hsent : ∀ batch ∈ hap.bind sent?, (batch.events.length : ℤ) ≤ maxEvents) :
    Bounded maxEvents (trace ++ hap.toList) ⟨b, sys.procs.set i g'⟩ where
  maxEvents_eq := hmax.trans h.maxEvents_eq
  current := hcurrent
  held q hq := by
    rcases List.mem_or_eq_of_mem_set hq with hq | rfl
    · exact h.held q hq
    · exact hheld
  sent batch hbatch := by
    rw [filterMap_concat, List.mem_append, Option.mem_toList] at hbatch
    rcases hbatch with hbatch | hbatch
    · exact h.sent batch hbatch
    · exact hsent batch hbatch

/-- **One move.** -/
lemma exec_moves (h : Bounded maxEvents trace sys) (hi : sys.procs[i]? = some g)
    (hroom : g.appends = true → (sys.shared.current.length : ℤ) < sys.shared.maxEvents)
    (hmove : Goroutine.Moves m sys.shared g b g' hap) :
    Bounded maxEvents (trace ++ hap.toList) ⟨b, sys.procs.set i g'⟩ := by
  have hg : ∀ events ∈ g.held, (events.length : ℤ) ≤ maxEvents :=
    h.held g (List.mem_of_getElem? hi)
  have hnone : ∀ events ∈ ([] : List (List TelemetryEvent)), (events.length : ℤ) ≤ maxEvents :=
    fun _ hmem => absurd hmem List.not_mem_nil
  have hquiet : ∀ batch ∈ (none : Option TelemetryBatch), (batch.events.length : ℤ) ≤ maxEvents :=
    fun _ hmem => absurd hmem (Option.not_mem_none _)
  cases hmove with
  | rest | panic => exact h.of_move rfl h.current hg hquiet
  | ret | ticker | tick | final | close | stop | receive | flushEmpty =>
      exact h.of_move rfl h.current hnone hquiet
  | append hflush hrole =>
      have hlt := hroom (by rw [Goroutine.appends, hflush, hrole])
      rw [h.maxEvents_eq] at hlt
      refine h.of_move rfl ?_ ?_ hquiet
      · rw [List.length_append, List.length_singleton]
        omega
      · rw [Goroutine.held_ite_lock]
        exact hnone
  | take =>
      have hzero : (([] : List TelemetryEvent).length : ℤ) ≤ maxEvents :=
        le_trans (by simp) h.current
      refine h.of_move rfl hzero ?_ hquiet
      rintro events hevents
      rw [List.mem_singleton.mp hevents]
      exact h.current
  | accept hflush | drop hflush | lose hflush =>
      rw [Goroutine.held_of_send hflush] at hg
      refine h.of_move rfl h.current hnone ?_
      rintro batch hbatch
      rw [← Option.mem_some_iff.mp hbatch]
      exact hg _ List.mem_cons_self

/-- **One step.** -/
lemma exec (h : Bounded maxEvents trace sys) (hi : sys.procs[i]? = some g)
    (hroom : AddsWithRoom m i sys) :
    Bounded maxEvents (trace ++ (g.happening m sys.shared).toList)
      ⟨(g.step m sys.shared).1, sys.procs.set i (g.step m sys.shared).2⟩ := by
  by_cases hpanicked : sys.shared.panicked = true
  · have hstep : g.step m sys.shared = (sys.shared, g) := by rw [Goroutine.step, if_pos hpanicked]
    rw [Goroutine.happening, if_pos hpanicked, hstep]
    exact h.of_move rfl h.current (h.held g (List.mem_of_getElem? hi)) (by simp)
  · exact h.exec_moves hi (fun happends => hroom g hi happends (by simpa using hpanicked))
      (Goroutine.step_moves m sys.shared g)

lemma new {cfg : BatchAssemblerConfig} (hb : newBatchAssembler cfg = some b) (receivers : ℕ)
    (adds : List (List TaggedEvent)) :
    Bounded b.maxEvents [] (assemblerSystem b receivers adds) := by
  obtain ⟨hcurrent, -⟩ := newBatchAssembler_empty hb
  obtain ⟨hheld, -⟩ := flatMap_assemblerSystem b receivers adds
  refine ⟨rfl, ?_, fun q hq events hevents => ?_, by simp⟩
  · have hnonneg := newBatchAssembler_nonneg hb
    simpa [assemblerSystem, hcurrent] using hnonneg
  · have hmem := List.mem_flatMap.mpr ⟨q, hq, hevents⟩
    rw [hheld] at hmem
    cases hmem

/-- **Whole runs**, of all interleavings in which every `Add` finds room. -/
lemma run {cfg : BatchAssemblerConfig} (hb : newBatchAssembler cfg = some b) (receivers : ℕ)
    (adds : List (List TaggedEvent)) {sched : List (Moment × ℕ)}
    (hsteps : AllSteps (System.exec Goroutine.step) AddsWithRoom
      (assemblerSystem b receivers adds) sched) :
    Bounded b.maxEvents
      (System.trace Goroutine.step Goroutine.happening (assemblerSystem b receivers adds) sched)
      (timedRun (System.exec Goroutine.step) (assemblerSystem b receivers adds) sched) :=
  System.trace_invariant (fun _ _ _ _ _ hi hroom h => h.exec hi hroom) (new hb receivers adds)
    hsteps

end Bounded

/-! ## An `Add` that finds no room -/

namespace Goroutine

/-- A running `flush` that has the lock before it takes the buffer, and then sends it. -/
lemma step_lock (m : Moment) {b : BatchAssembler} (hb : b.panicked = false)
    (hcurrent : b.current ≠ []) (role : Role) :
    step m b ⟨some .lock, role⟩ = ({ b with current := [] }, ⟨some (.send b.current), role⟩) := by
  rw [step_flush m hb, BatchAssembler.flush,
    if_neg (fun hlen => hcurrent (List.length_eq_zero_iff.mp hlen))]

lemma sent_send (m : Moment) {b : BatchAssembler} (hb : b.panicked = false)
    (events : List TelemetryEvent) (role : Role) :
    (happening m b ⟨some (.send events), role⟩).bind sent? = some (b.batchOf m.now events) := by
  rw [happening, hb]
  dsimp only
  cases b.output.trySend (b.batchOf m.now events) <;> rfl

/-- An `Add` that leaves the buffer full goes on to `flush`. -/
lemma step_append (m : Moment) {b : BatchAssembler} (hb : b.panicked = false) {evt : TaggedEvent}
    (evts : List TaggedEvent) (hfull : b.maxEvents ≤ b.current.length) :
    step m b ⟨none, .add (evt :: evts) false⟩
      = ({ b with current := b.current ++ [taggedEventToProto evt] },
          ⟨some .lock, .add (evt :: evts) true⟩) := by
  have hflush : ((b.current ++ [taggedEventToProto evt]).length : ℤ) ≥ b.maxEvents := by
    rw [List.length_append, Nat.cast_add]
    omega
  rw [step_role m hb, stepRole]
  dsimp only
  rw [if_pos hflush]

/-- No step changes the bound. -/
lemma Moves.maxEvents_eq {m : Moment} {b b' : BatchAssembler} {g g' : Goroutine}
    {hap : Option Happening} (h : Moves m b g b' g' hap) : b'.maxEvents = b.maxEvents := by
  cases h <;> rfl

end Goroutine

lemma maxEvents_exec (m : Moment) (i : ℕ) (sys : System BatchAssembler Goroutine) :
    (System.exec Goroutine.step m i sys).shared.maxEvents = sys.shared.maxEvents := by
  cases hi : sys.procs[i]? with
  | none => rw [System.exec, hi]
  | some g =>
      rw [System.exec_of_getElem? hi]
      exact (Goroutine.step_moves m sys.shared g).maxEvents_eq

/-- The state a step finds when it does not meet the condition. -/
lemma not_addsWithRoom_iff {m : Moment} {i : ℕ} {sys : System BatchAssembler Goroutine} :
    ¬ AddsWithRoom m i sys ↔ ∃ evt evts,
      sys.procs[i]? = some ⟨none, .add (evt :: evts) false⟩ ∧ sys.shared.panicked = false ∧
        sys.shared.maxEvents ≤ sys.shared.current.length := by
  constructor
  · intro h
    simp only [AddsWithRoom, not_forall, not_lt] at h
    obtain ⟨⟨flush, role⟩, hi, happends, hpanicked, hfull⟩ := h
    unfold Goroutine.appends at happends
    split at happends
    · next evt evts hflush hrole =>
        obtain rfl : flush = none := hflush
        obtain rfl : role = .add (evt :: evts) false := hrole
        exact ⟨evt, evts, hi, hpanicked, hfull⟩
    · cases happends
  · rintro ⟨evt, evts, hi, hpanicked, hfull⟩ h
    exact absurd (h _ hi rfl hpanicked) (not_lt.mpr hfull)

/-- **An `Add` without room.**  It appends its event all the same; in its next two steps the
goroutine takes the buffer and sends it. -/
lemma sent_of_not_addsWithRoom {m : Moment} {i : ℕ} {sys : System BatchAssembler Goroutine}
    (h : ¬ AddsWithRoom m i sys) :
    ∃ batch ∈ (System.trace Goroutine.step Goroutine.happening sys
        (List.replicate 3 (m, i))).filterMap sent?,
      sys.shared.maxEvents < batch.events.length := by
  obtain ⟨evt, evts, hi, hpanicked, hfull⟩ := not_addsWithRoom_iff.mp h
  obtain ⟨b, procs⟩ := sys
  dsimp only at hi hpanicked hfull ⊢
  have hlt : i < procs.length := (List.getElem?_eq_some_iff.mp hi).1
  let events := b.current ++ [taggedEventToProto evt]
  let role : Role := .add (evt :: evts) true
  let full : BatchAssembler := { b with current := events }
  let emptied : BatchAssembler := { b with current := [] }
  have hevents : full.current ≠ [] := List.append_ne_nil_of_right_ne_nil _ (List.cons_ne_nil _ _)
  have hfirst : System.exec Goroutine.step m i ⟨b, procs⟩
      = ⟨full, procs.set i ⟨some .lock, role⟩⟩ := by
    rw [System.exec_of_getElem? hi]
    dsimp only
    rw [Goroutine.step_append m hpanicked evts hfull]
  have hsecond : System.exec Goroutine.step m i ⟨full, procs.set i ⟨some .lock, role⟩⟩
      = ⟨emptied, procs.set i ⟨some (.send events), role⟩⟩ := by
    rw [System.exec_of_getElem? (List.getElem?_set_self hlt)]
    dsimp only
    rw [Goroutine.step_lock m (b := full) hpanicked hevents, List.set_set]
  have hthird : (System.output Goroutine.happening m i
      ⟨emptied, procs.set i ⟨some (.send events), role⟩⟩).bind sent?
        = some ⟨b.nodeName, m.now, events⟩ := by
    rw [System.output, List.getElem?_set_self hlt]
    exact Goroutine.sent_send m (b := emptied) hpanicked events role
  refine ⟨⟨b.nodeName, m.now, events⟩, ?_, ?_⟩
  · rw [List.replicate_succ', System.trace, timedOutputs_append, List.filterMap_append,
      List.mem_append]
    refine Or.inr ?_
    have hrun : timedRun (System.exec Goroutine.step) ⟨b, procs⟩ (List.replicate 2 (m, i))
        = ⟨emptied, procs.set i ⟨some (.send events), role⟩⟩ := by
      rw [List.replicate_succ, List.replicate_one, timedRun_cons, timedRun_cons, timedRun_nil,
        hfirst, hsecond]
    rw [hrun, timedOutputs, timedOutputs, List.append_nil]
    have hmem := filterMap_concat sent? []
      (System.output Goroutine.happening m i
        ⟨emptied, procs.set i ⟨some (.send events), role⟩⟩)
    rw [List.nil_append, hthird] at hmem
    rw [hmem]
    exact List.mem_singleton_self _
  · simp only [events, List.length_append, List.length_singleton, Nat.cast_add, Nat.cast_one]
    omega

/-- **Batches respect `MaxEvents` as long as every `Add` finds room.**  Any number of goroutines
add any events, the timer ticks and `Stop` is called at any time, in any order of the steps.  In
every run in which each `Add` that takes the mutex finds fewer than `maxEvents` events in the
buffer, every batch sent to the output channel holds at most `maxEvents` events.  And after any
run, a goroutine whose `Add` does not find room sends a batch with more of them if it moves next. -/
theorem sent_le_maxEvents (cfg : BatchAssemblerConfig) (b : BatchAssembler)
    (hb : newBatchAssembler cfg = some b) (receivers : ℕ) (adds : List (List TaggedEvent))
    (sched : List (Moment × ℕ)) :
    let trace := System.trace Goroutine.step Goroutine.happening (assemblerSystem b receivers adds)
    (AllSteps (System.exec Goroutine.step) AddsWithRoom (assemblerSystem b receivers adds) sched →
        ∀ batch ∈ (trace sched).filterMap sent?, (batch.events.length : ℤ) ≤ b.maxEvents) ∧
      ∀ m i, ¬ AddsWithRoom m i
          (timedRun (System.exec Goroutine.step) (assemblerSystem b receivers adds) sched) →
        ∃ batch ∈ (trace (sched ++ List.replicate 3 (m, i))).filterMap sent?,
          b.maxEvents < batch.events.length := by
  intro trace
  refine ⟨fun hsteps => (Bounded.run hb receivers adds hsteps).sent, fun m i hroom => ?_⟩
  obtain ⟨batch, hbatch, hlarge⟩ := sent_of_not_addsWithRoom hroom
  have hmax := timedRun_preserves (f := System.exec Goroutine.step)
    (I := fun sys => sys.shared.maxEvents = b.maxEvents)
    (fun m i sys h => (maxEvents_exec m i sys).trans h)
    (s := assemblerSystem b receivers adds) rfl sched
  refine ⟨batch, ?_, hmax ▸ hlarge⟩
  rw [show trace (sched ++ List.replicate 3 (m, i)) = _ from timedOutputs_append _ _ _ _ _,
    List.filterMap_append]
  exact List.mem_append_right _ hbatch

/-- Two goroutines add one event each, to batches of one.  The first one sends its batch before the
second one appends. -/
theorem sent_le_maxEvents_in_turn :
    let b : BatchAssembler := ⟨1, 10 ^ 9, "node-1", [], Chan.new 1, Chan.new 0, false⟩
    let evt := fun t : UInt64 => (⟨⟨eventPageFault, 42, t, some (.pageFault false 4096)⟩,
      ⟨"default", "web-1", "web", "default/Deployment/web", "node-1"⟩⟩ : TaggedEvent)
    let adds := [[evt 1], [evt 2]]
    let sched : List (Moment × ℕ) := [2, 2, 2, 3, 3, 3].map (fun i => (⟨7, false⟩, i))
    let trace := System.trace Goroutine.step Goroutine.happening (assemblerSystem b 0 adds) sched
    (trace.filterMap sent?).map TelemetryBatch.events
        = [[taggedEventToProto (evt 1)], [taggedEventToProto (evt 2)]] ∧
      ∀ batch ∈ trace.filterMap sent?, (batch.events.length : ℤ) ≤ 1 := by
  intro b evt adds sched trace
  refine ⟨by decide, ?_⟩
  exact (sent_le_maxEvents ⟨1, 10 ^ 9, "node-1", 1⟩ b (by decide) 0 adds sched).1 (by decide)

/-- **An `Add` between the test and the flush.**  Two goroutines add one event each, to batches of
one.  The first appends and is to flush; before it does the second appends too, and the batch the
first one offers holds both events. -/
theorem offered_exceeds_maxEvents :
    let b : BatchAssembler := ⟨1, 10 ^ 9, "node-1", [], Chan.new 1, Chan.new 0, false⟩
    let evt := fun t : UInt64 => (⟨⟨eventPageFault, 42, t, some (.pageFault false 4096)⟩,
      ⟨"default", "web-1", "web", "default/Deployment/web", "node-1"⟩⟩ : TaggedEvent)
    let adds := [[evt 1], [evt 2]]
    let sched : List (Moment × ℕ) := [2, 3, 2, 2].map (fun i => (⟨7, false⟩, i))
    let trace := System.trace Goroutine.step Goroutine.happening (assemblerSystem b 0 adds) sched
    let batch : TelemetryBatch :=
      ⟨"node-1", 7, [taggedEventToProto (evt 1), taggedEventToProto (evt 2)]⟩
    newBatchAssembler ⟨1, 10 ^ 9, "node-1", 1⟩ = some b ∧
      .offered batch true ∈ trace ∧ ¬ (batch.events.length : ℤ) ≤ b.maxEvents := by
  decide

end Akil
