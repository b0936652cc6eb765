import Akil.Properties.BatchBound

/-!
# By how much a batch can exceed `MaxEvents`

`sent_le_maxEvents` says in which runs no batch exceeds `maxEvents`.  This file bounds the batches of
all other runs.  Whoever appends to a buffer that is full goes on to `flush`, so the events beyond
`maxEvents - 1` belong to goroutines that stand before the section of `flush` under the mutex; and a
goroutine stands there with one event at a time.  With `p` goroutines calling `Add` no batch holds
more than `maxEvents + p - 1` events (`sent_le_maxEvents_add`), which two goroutines reach in
`offered_exceeds_maxEvents`.
-/

namespace Akil

open Happening

namespace Goroutine

/-- The goroutine calls `Add`. -/
def adds (g : Goroutine) : Bool :=
  match g.role with
  | .add _ _ => true
  | _ => false

/-- The goroutine is in an `Add` that has found the buffer full, before the section of `flush`. -/
def flushesNext (g : Goroutine) : Bool := g.adds && decide (g.flush = some .lock)

lemma adds_of_flushesNext {g : Goroutine} (h : g.flushesNext = true) : g.adds = true :=
  (Bool.and_eq_true_iff.mp h).1

lemma flushesNext_eq_false {g : Goroutine} (h : g.flush ≠ some .lock) : g.flushesNext = false := by
  simp [flushesNext, h]

/-- A goroutine keeps to its role. -/
lemma Moves.adds_eq {m : Moment} {b b' : BatchAssembler} {g g' : Goroutine} {hap : Option Happening}
    (h : Moves m b g b' g' hap) : g'.adds = g.adds := by
  cases h with
  | rest | panic | flushEmpty | take | accept | drop | lose => rfl
  | append _ hrole | ret _ hrole | ticker _ hrole | tick _ hrole | final _ hrole | close _ hrole
    | stop _ hrole | receive _ hrole => simp only [adds, hrole]

end Goroutine

/-- What a goroutine is counted for, before and after it moves. -/
lemma countP_set_add {procs : List Goroutine} {i : ℕ} {g : Goroutine} (hi : procs[i]? = some g)
    (g' : Goroutine) (f : Goroutine → Bool) :
    (procs.set i g').countP f + (f g).toNat = procs.countP f + (f g').toNat := by
  obtain ⟨hlt, rfl⟩ := List.getElem?_eq_some_iff.mp hi
  have hpos : f procs[i] = true → 0 < procs.countP f :=
    fun h => List.countP_pos_iff.mpr ⟨procs[i], List.getElem_mem hlt, h⟩
  rw [List.countP_set hlt]
  cases hold : f procs[i] <;> cases f g' <;> simp <;> have := hpos hold <;> omega

/-- **The bound.**  The buffer holds fewer than `maxEvents` events, but for one event of each `Add`
that is about to flush. -/
structure Overrun (maxEvents : ℤ) (p : ℕ) (trace : List Happening)
    (sys : System BatchAssembler Goroutine) : Prop where
  maxEvents_eq : sys.shared.maxEvents = maxEvents
  adders : sys.procs.countP Goroutine.adds = p
  current : (sys.shared.current.length : ℤ)
    ≤ maxEvents - 1 + sys.procs.countP Goroutine.flushesNext
  held : ∀ g ∈ sys.procs, ∀ events ∈ g.held, (events.length : ℤ) ≤ maxEvents - 1 + p
  sent : ∀ batch ∈ trace.filterMap sent?, (batch.events.length : ℤ) ≤ maxEvents - 1 + p

namespace Overrun

variable {maxEvents : ℤ} {p : ℕ} {trace : List Happening} {sys : System BatchAssembler Goroutine}
  {i : ℕ} {g g' : Goroutine} {b : BatchAssembler} {hap : Option Happening} {m : Moment}

/-- Nobody is about to flush who does not call `Add`. -/
lemma current_le (h : Overrun maxEvents p trace sys) :
    (sys.shared.current.length : ℤ) ≤ maxEvents - 1 + p := by
  have hle : sys.procs.countP Goroutine.flushesNext ≤ sys.procs.countP Goroutine.adds :=
    List.countP_mono_left (fun g _ hg => Goroutine.adds_of_flushesNext hg)
  have hcurrent := h.current
  rw [h.adders] at hle
  omega

/-- A move keeps the bound if what it leaves in the buffer, what it holds and what it sends is
within it. -/
lemma of_move (h : Overrun maxEvents p trace sys) (hi : sys.procs[i]? = some g)
    (hmax : b.maxEvents = sys.shared.maxEvents) (hadds : g'.adds = g.adds)
    (hcurrent : (b.current.length : ℤ) + (g.flushesNext.toNat : ℤ)
      ≤ maxEvents - 1 + sys.procs.countP Goroutine.flushesNext + (g'.flushesNext.toNat : ℤ))
    (hheld : ∀ events ∈ g'.held, (events.length : ℤ) ≤ maxEvents - 1 + p)
    (hsent : ∀ batch ∈ hap.bind sent?, (batch.events.length : ℤ) ≤ maxEvents - 1 + p) :
    Overrun maxEvents p (trace ++ hap.toList) ⟨b, sys.procs.set i g'⟩ where
  maxEvents_eq := hmax.trans h.maxEvents_eq
  adders := by
    have hcount := countP_set_add hi g' Goroutine.adds
    rw [hadds, h.adders] at hcount
    exact Nat.add_right_cancel hcount
  current := by
    have hcount := countP_set_add hi g' Goroutine.flushesNext
    dsimp only
    omega
  held q hq := by
    rcases List.mem_or_eq_of_mem_set hq with hq | rfl
    · exact h.held q hq
    · exact hheld
  sent batch hbatch := by
    rw [filterMap_concat, List.mem_append, Option.mem_toList] at hbatch
    rcases hbatch with hbatch | hbatch
    · exact h.sent batch hbatch
    · exact hsent batch hbatch

/-- **One move.** -/
lemma exec_moves (h : Overrun maxEvents p trace sys) (hpos : 1 ≤ maxEvents)
    (hi : sys.procs[i]? = some g) (hmove : Goroutine.Moves m sys.shared g b g' hap) :
    Overrun maxEvents p (trace ++ hap.toList) ⟨b, sys.procs.set i g'⟩ := by
  have hg : ∀ events ∈ g.held, (events.length : ℤ) ≤ maxEvents - 1 + p :=
    h.held g (List.mem_of_getElem? hi)
  have hnone : ∀ events ∈ ([] : List (List TelemetryEvent)),
      (events.length : ℤ) ≤ maxEvents - 1 + p := fun _ hmem => absurd hmem List.not_mem_nil
  have hquiet : ∀ batch ∈ (none : Option TelemetryBatch),
      (batch.events.length : ℤ) ≤ maxEvents - 1 + p :=
    fun _ hmem => absurd hmem (Option.not_mem_none _)
  have hcurrent := h.current
  -- An empty buffer is within the bound, whoever stops being about to flush.
  have hempty : (0 : ℤ) + (g.flushesNext.toNat : ℤ)
      ≤ maxEvents - 1 + sys.procs.countP Goroutine.flushesNext := by
    have hcounted : g.flushesNext.toNat ≤ sys.procs.countP Goroutine.flushesNext := by
      cases hf : g.flushesNext with
      | false => exact Nat.zero_le _
      | true => exact List.countP_pos_iff.mpr ⟨g, List.mem_of_getElem? hi, hf⟩
    omega
  have hadds := hmove.adds_eq
  cases hmove with
  | rest | panic => exact h.of_move hi rfl hadds (Int.add_le_add_right hcurrent _) hg hquiet
  | ret hflush | ticker hflush | tick hflush | final hflush | close hflush | stop hflush
    | receive hflush =>
      have hidle : g.flushesNext = false := Goroutine.flushesNext_eq_false (by simp [hflush])
      refine h.of_move hi rfl hadds ?_ hnone hquiet
      rw [hidle]
      exact hcurrent.trans (Int.le_add_of_nonneg_right (Int.natCast_nonneg _))
  | append hflush hrole =>
      have hidle : g.flushesNext = false := Goroutine.flushesNext_eq_false (by simp [hflush])
      refine h.of_move hi rfl hadds ?_ ?_ hquiet
      · rw [hidle]
        split_ifs with hfull
        · -- the event is that of an `Add` that flushes next
          rw [List.length_append, List.length_singleton]
          change ((sys.shared.current.length + 1 : ℕ) : ℤ) + (0 : ℕ)
            ≤ maxEvents - 1 + sys.procs.countP Goroutine.flushesNext + (1 : ℕ)
          omega
        · rw [h.maxEvents_eq] at hfull
          change ((sys.shared.current ++ [_]).length : ℤ) + (0 : ℕ)
            ≤ maxEvents - 1 + sys.procs.countP Goroutine.flushesNext + (0 : ℕ)
          omega
      · rw [Goroutine.held_ite_lock]
        exact hnone
  | flushEmpty hflush hnil =>
      refine h.of_move hi rfl hadds ?_ hnone hquiet
      rw [hnil]
      exact hempty.trans (Int.le_add_of_nonneg_right (Int.natCast_nonneg _))
  | take =>
      refine h.of_move hi rfl hadds
        (hempty.trans (Int.le_add_of_nonneg_right (Int.natCast_nonneg _))) ?_ hquiet
      rintro events hevents
      rw [List.mem_singleton.mp hevents]
      exact h.current_le
  | accept hflush | drop hflush | lose hflush =>
      have hidle : g.flushesNext = false := Goroutine.flushesNext_eq_false (by simp [hflush])
      rw [Goroutine.held_of_send hflush] at hg
      refine h.of_move hi rfl hadds ?_ hnone ?_
      · rw [hidle]
        exact hcurrent.trans (Int.le_add_of_nonneg_right (Int.natCast_nonneg _))
      · rintro batch hbatch
        rw [← Option.mem_some_iff.mp hbatch]
        exact hg _ List.mem_cons_self

/-- **One step.** -/
lemma exec (h : Overrun maxEvents p trace sys) (hpos : 1 ≤ maxEvents)
    (hi : sys.procs[i]? = some g) :
    Overrun maxEvents p (trace ++ (g.happening m sys.shared).toList)
      ⟨(g.step m sys.shared).1, sys.procs.set i (g.step m sys.shared).2⟩ :=
  h.exec_moves hpos hi (Goroutine.step_moves m sys.shared g)

end Overrun

/-- `MaxEvents` is positive, or `make` panics. -/
lemma newBatchAssembler_pos {cfg : BatchAssemblerConfig} {b : BatchAssembler}
    (hb : newBatchAssembler cfg = some b) : 1 ≤ b.maxEvents := by
  unfold newBatchAssembler at hb
  dsimp only at hb
  split_ifs at hb
  all_goals
    obtain rfl := Option.some.inj hb
    dsimp only
    omega

/-- One goroutine calls `Add` for each list of events, and none has begun. -/
lemma Overrun.new {cfg : BatchAssemblerConfig} {b : BatchAssembler}
    (hb : newBatchAssembler cfg = some b) (receivers : ℕ) (adds : List (List TaggedEvent)) :
    Overrun b.maxEvents adds.length [] (assemblerSystem b receivers adds) := by
  obtain ⟨hcurrent, -⟩ := newBatchAssembler_empty hb
  obtain ⟨hheld, -⟩ := flatMap_assemblerSystem b receivers adds
  have hpos := newBatchAssembler_pos hb
  refine ⟨rfl, ?_, ?_, fun q hq events hevents => ?_, by simp⟩
  · have hadd : adds.countP (Goroutine.adds ∘ fun evts => ⟨none, .add evts false⟩) = adds.length :=
      List.countP_eq_length.mpr (fun _ _ => rfl)
    simp only [assemblerSystem, List.countP_cons, List.countP_append, List.countP_map, hadd,
      List.countP_replicate, Goroutine.adds, Bool.false_eq_true, if_false]
    omega
  · simp only [assemblerSystem, hcurrent, List.length_nil]
    omega
  · have hmem := List.mem_flatMap.mpr ⟨q, hq, hevents⟩
    rw [hheld] at hmem
    cases hmem

/-- **Whole runs**, of all interleavings. -/
lemma Overrun.run {cfg : BatchAssemblerConfig} {b : BatchAssembler}
    (hb : newBatchAssembler cfg = some b) (receivers : ℕ) (adds : List (List TaggedEvent))
    (sched : List (Moment × ℕ)) :
    Overrun b.maxEvents adds.length
      (System.trace Goroutine.step Goroutine.happening (assemblerSystem b receivers adds) sched)
      (timedRun (System.exec Goroutine.step) (assemblerSystem b receivers adds) sched) :=
  System.trace_invariant (Q := fun _ _ _ => True)
    (fun _ _ _ _ _ hi _ h => h.exec (newBatchAssembler_pos hb) hi) (new hb receivers adds)
    (allSteps_of_forall (fun _ _ => trivial) _)

/-- **No batch holds more than `maxEvents + p - 1` events** if `p` goroutines call `Add`, in every
run of any number of goroutines, with or without room in the buffer. -/
theorem sent_le_maxEvents_add (cfg : BatchAssemblerConfig) (b : BatchAssembler)
    (hb : newBatchAssembler cfg = some b) (receivers : ℕ) (adds : List (List TaggedEvent))
    (sched : List (Moment × ℕ)) :
    let trace := System.trace Goroutine.step Goroutine.happening (assemblerSystem b receivers adds)
      sched
    ∀ batch ∈ trace.filterMap sent?,
      (batch.events.length : ℤ) ≤ b.maxEvents + adds.length - 1 := by
  intro trace batch hbatch
  have hle := (Overrun.run hb receivers adds sched).sent batch hbatch
  omega

/-- Two goroutines add one event each, to batches of one, and the first takes both events. -/
theorem sent_le_maxEvents_add_both :
    let b : BatchAssembler := ⟨1, 10 ^ 9, "node-1", [], Chan.new 1, Chan.new 0, false⟩
    let evt := fun t : UInt64 => (⟨⟨eventPageFault, 42, t, some (.pageFault false 4096)⟩,
      ⟨"default", "web-1", "web", "default/Deployment/web", "node-1"⟩⟩ : TaggedEvent)
    let sched : List (Moment × ℕ) := [2, 3, 2, 2].map (fun i => (⟨7, false⟩, i))
    let trace := System.trace Goroutine.step Goroutine.happening
      (assemblerSystem b 0 [[evt 1], [evt 2]]) sched
    (trace.filterMap sent?).map (fun batch => batch.events.length) = [2] ∧
      ∀ batch ∈ trace.filterMap sent?, (batch.events.length : ℤ) ≤ 1 + 2 - 1 := by
  intro b evt sched trace
  exact ⟨by decide, sent_le_maxEvents_add ⟨1, 10 ^ 9, "node-1", 1⟩ b (by decide) 0
    [[evt 1], [evt 2]] sched⟩

end Akil
