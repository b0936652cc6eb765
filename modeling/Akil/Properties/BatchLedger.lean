import Akil.Construction.Telemetry.Batch

/-!
# The batch assembler loses no event

`Moves` lists everything a step of a goroutine can be, with what happens in it.  The argument
about all interleavings is bookkeeping over these moves.  `Ledger` follows the buffers that `flush`
takes: `taken` lists them in the order they were taken, so that the buffers taken and the current
one are, one after the other, the events in the order their `Add`s took the lock; and every buffer
taken is held by the goroutine that took it, or has been offered to the channel, or was sent on
the closed channel and lost.  `Delivered` follows the batches the channel accepted, which it holds
until they are received.

As long as `Stop` has not been called the output channel is open (`OpenUntilStop`), so nothing is
lost, and `assembler_conserves_events` adds the accounts up.
-/

namespace Akil

/-! ## What a step can be -/

namespace Goroutine

/-- Everything a step can be, with what it finds, what it leaves and what happens in it. -/
inductive Moves (m : Moment) (b : BatchAssembler) (g : Goroutine) :
    BatchAssembler → Goroutine → Option Happening → Prop
  | rest : Moves m b g b g none
  | panic (hflush : g.flush = none) : Moves m b g b.panic g none
  | append {evt : TaggedEvent} {evts : List TaggedEvent} (hflush : g.flush = none)
      (hrole : g.role = .add (evt :: evts) false) :
      Moves m b g { b with current := b.current ++ [taggedEventToProto evt] }
        ⟨if ((b.current ++ [taggedEventToProto evt]).length : ℤ) ≥ b.maxEvents
            then some .lock else none, .add (evt :: evts) true⟩
        (some (.added (taggedEventToProto evt)))
  | ret {evt : TaggedEvent} {evts : List TaggedEvent} (hflush : g.flush = none)
      (hrole : g.role = .add (evt :: evts) true) :
      Moves m b g b ⟨none, .add evts false⟩ (some (.returned (taggedEventToProto evt)))
  | ticker (hflush : g.flush = none) (hrole : g.role = .start .newTicker) :
      Moves m b g b ⟨none, .start .select⟩ none
  | tick (hflush : g.flush = none) (hrole : g.role = .start .select) :
      Moves m b g b ⟨some .lock, .start .select⟩ none
  | final (hflush : g.flush = none) (hrole : g.role = .start .select)
      (hdone : b.done.closed = true) : Moves m b g b ⟨some .lock, .start .close⟩ none
  | close (hflush : g.flush = none) (hrole : g.role = .start .close)
      (hopen : b.output.closed = false) :
      Moves m b g { b with output := { b.output with closed := true } }
        ⟨none, .start .returned⟩ (some .closed)
  | stop (hflush : g.flush = none) (hrole : g.role = .stop false)
      (hopen : b.done.closed = false) :
      Moves m b g { b with done := { b.done with closed := true } } ⟨none, .stop true⟩
        (some .stopped)
  | receive {batch : TelemetryBatch} {queue received : List TelemetryBatch}
      (hflush : g.flush = none) (hrole : g.role = .receive received)
      (hqueue : b.output.queue = batch :: queue) :
      Moves m b g { b with output := { b.output with queue := queue } }
        ⟨none, .receive (received ++ [batch])⟩ (some (.received batch))
  | flushEmpty (hflush : g.flush = some .lock) (hempty : b.current = []) :
      Moves m b g b { g with flush := none } none
  | take (hflush : g.flush = some .lock) (hcurrent : b.current ≠ []) :
      Moves m b g { b with current := [] } { g with flush := some (.send b.current) } none
  | accept {events : List TelemetryEvent} (hflush : g.flush = some (.send events))
      (hopen : b.output.closed = false) (hroom : b.output.queue.length < b.output.cap) :
      Moves m b g
        { b with output := { b.output with queue := b.output.queue ++ [b.batchOf m.now events] } }
        { g with flush := none } (some (.offered (b.batchOf m.now events) true))
  | drop {events : List TelemetryEvent} (hflush : g.flush = some (.send events))
      (hopen : b.output.closed = false) (hfull : b.output.cap ≤ b.output.queue.length) :
      Moves m b g b { g with flush := none } (some (.offered (b.batchOf m.now events) false))
  | lose {events : List TelemetryEvent} (hflush : g.flush = some (.send events))
      (hclosed : b.output.closed = true) :
      Moves m b g b.panic { g with flush := none } (some (.sentOnClosed (b.batchOf m.now events)))

lemma step_flush (m : Moment) {b : BatchAssembler} (hb : b.panicked = false) (stage : FlushStage)
    (role : Role) :
    step m b ⟨some stage, role⟩ = ((b.flush m.now stage).1, ⟨(b.flush m.now stage).2, role⟩) := by
  rw [step, hb]
  rfl

lemma step_role (m : Moment) {b : BatchAssembler} (hb : b.panicked = false) (role : Role) :
    step m b ⟨none, role⟩ = stepRole m b role := by
  rw [step, hb]
  rfl

lemma happening_role (m : Moment) {b : BatchAssembler} (hb : b.panicked = false) (role : Role) :
    happening m b ⟨none, role⟩ = roleHappening b role := by
  rw [happening, hb]
  rfl

/-- A step of `flush` is one of the moves. -/
lemma flush_moves (m : Moment) {b : BatchAssembler} (hb : b.panicked = false) (stage : FlushStage)
    (role : Role) :
    Moves m b ⟨some stage, role⟩ (step m b ⟨some stage, role⟩).1 (step m b ⟨some stage, role⟩).2
      (happening m b ⟨some stage, role⟩) := by
  rw [step_flush m hb]
  cases stage with
  | lock =>
      have hquiet : happening m b ⟨some .lock, role⟩ = none := by
        rw [happening, hb]
        rfl
      rw [hquiet, BatchAssembler.flush]
      split_ifs with hempty
      · exact .flushEmpty rfl (List.length_eq_zero_iff.mp hempty)
      · exact .take rfl (fun h => hempty (List.length_eq_zero_iff.mpr h))
  | send events =>
      rw [happening, hb, BatchAssembler.flush]
      dsimp only
      cases hsend : b.output.trySend (b.batchOf m.now events) with
      | none =>
          have hclosed : b.output.closed = true := by
            by_contra hopen
            rw [Chan.trySend, if_neg hopen] at hsend
            split_ifs at hsend
          exact .lose rfl hclosed
      | some sent =>
          unfold Chan.trySend at hsend
          split_ifs at hsend with hclosed hroom
          · obtain rfl := Option.some.inj hsend
            exact .accept rfl (by simpa using hclosed) hroom
          · obtain rfl := Option.some.inj hsend
            exact .drop rfl (by simpa using hclosed) (not_lt.mp hroom)

/-- A step outside `flush` is one of the moves. -/
lemma role_moves (m : Moment) {b : BatchAssembler} (hb : b.panicked = false) (role : Role) :
    Moves m b ⟨none, role⟩ (step m b ⟨none, role⟩).1 (step m b ⟨none, role⟩).2
      (happening m b ⟨none, role⟩) := by
  rw [step_role m hb, happening_role m hb]
  cases role with
  | add evts appended =>
      cases evts with
      | nil => exact .rest
      | cons evt evts =>
          cases appended with
          | false => exact .append rfl rfl
          | true => exact .ret rfl rfl
  | start stage =>
      cases stage with
      | newTicker =>
          rw [stepRole]
          split_ifs
          · exact .panic rfl
          · exact .ticker rfl rfl
      | select =>
          rw [stepRole]
          split_ifs with htick hdone
          · exact .tick rfl rfl
          · exact .final rfl rfl hdone
          · exact .rest
      | close =>
          rw [stepRole, roleHappening, Chan.close]
          by_cases hclosed : b.output.closed = true
          · rw [if_pos hclosed, if_pos hclosed]
            exact .panic rfl
          · rw [if_neg hclosed, if_neg hclosed]
            exact .close rfl rfl (by simpa using hclosed)
      | returned => exact .rest
  | stop called =>
      cases called with
      | false =>
          rw [stepRole, roleHappening, Chan.close]
          by_cases hclosed : b.done.closed = true
          · rw [if_pos hclosed, if_pos hclosed]
            exact .panic rfl
          · rw [if_neg hclosed, if_neg hclosed]
            exact .stop rfl rfl (by simpa using hclosed)
      | true => exact .rest
  | receive received =>
      rw [stepRole, roleHappening, Chan.recv]
      cases hqueue : b.output.queue with
      | nil => exact .rest
      | cons batch queue => exact .receive rfl rfl hqueue

/-- A step is one of the moves. -/
lemma step_moves (m : Moment) (b : BatchAssembler) (g : Goroutine) :
    Moves m b g (step m b g).1 (step m b g).2 (happening m b g) := by
  obtain ⟨flush, role⟩ := g
  by_cases hb : b.panicked = true
  · rw [step, happening, if_pos hb, if_pos hb]
    exact .rest
  · have hb' : b.panicked = false := by simpa using hb
    cases flush with
    | none => exact role_moves m hb' role
    | some stage => exact flush_moves m hb' stage role

/-- The buffer a goroutine has taken and not yet offered. -/
def held (g : Goroutine) : List (List TelemetryEvent) :=
  match g.flush with
  | some (.send events) => [events]
  | _ => []

/-- The batches a goroutine has received. -/
def received (g : Goroutine) : List TelemetryBatch :=
  match g.role with
  | .receive received => received
  | _ => []

lemma held_of_none {g : Goroutine} (h : g.flush = none) : g.held = [] := by rw [held, h]

lemma held_of_lock {g : Goroutine} (h : g.flush = some .lock) : g.held = [] := by rw [held, h]

lemma held_of_send {g : Goroutine} {events : List TelemetryEvent}
    (h : g.flush = some (.send events)) : g.held = [events] := by rw [held, h]

/-- What `Add` goes on to after its section holds nothing yet. -/
lemma held_ite_lock (p : Prop) [Decidable p] (role : Role) :
    held ⟨if p then some .lock else none, role⟩ = [] := by
  unfold held
  split_ifs <;> rfl

end Goroutine

/-! ## The accounts -/

namespace Happening

/-- The event an `Add` appends. -/
def added? : Happening → Option TelemetryEvent
  | .added evt => some evt
  | _ => none

/-- The batch offered to the open channel. -/
def offered? : Happening → Option TelemetryBatch
  | .offered batch _ => some batch
  | _ => none

/-- The batch the channel accepts. -/
def accepted? : Happening → Option TelemetryBatch
  | .offered batch true => some batch
  | _ => none

/-- The batch the channel is too full for. -/
def dropped? : Happening → Option TelemetryBatch
  | .offered batch false => some batch
  | _ => none

/-- The batch sent on the closed channel. -/
def lost? : Happening → Option TelemetryBatch
  | .sentOnClosed batch => some batch
  | _ => none

end Happening

open Happening

/-- What a step contributes to an account of the trace. -/
lemma filterMap_concat {β : Type*} (f : Happening → Option β) (trace : List Happening)
    (h : Option Happening) :
    (trace ++ h.toList).filterMap f = trace.filterMap f ++ (h.bind f).toList := by
  rw [List.filterMap_append]
  cases h with
  | none => rfl
  | some h => cases hf : f h <;> simp [hf]

/-- **The ledger of the buffers taken.**  Together with the current buffer they are the events in
the order they were added; none is empty; and each is held, was offered, or is lost. -/
structure Ledger (trace : List Happening) (sys : System BatchAssembler Goroutine)
    (taken : List (List TelemetryEvent)) : Prop where
  added_eq : taken.flatten ++ sys.shared.current = trace.filterMap added?
  nonempty : [] ∉ taken
  placed : ∀ events, (sys.procs.flatMap Goroutine.held).count events
    + ((trace.filterMap offered?).map TelemetryBatch.events).count events
    + ((trace.filterMap lost?).map TelemetryBatch.events).count events = taken.count events

namespace Ledger

variable {trace : List Happening} {sys : System BatchAssembler Goroutine}
  {taken : List (List TelemetryEvent)} {i : ℕ} {g : Goroutine}

/-- A move that leaves the buffer alone and holds on to what it holds is not in the ledger. -/
lemma quiet (h : Ledger trace sys taken) (hi : sys.procs[i]? = some g) {b : BatchAssembler}
    (hcurrent : b.current = sys.shared.current) {g' : Goroutine} (hheld : g'.held = g.held)
    {hap : Option Happening} (hadded : hap.bind added? = none) (hoffered : hap.bind offered? = none)
    (hlost : hap.bind lost? = none) :
    Ledger (trace ++ hap.toList) ⟨b, sys.procs.set i g'⟩ taken where
  added_eq := by
    rw [filterMap_concat, hadded, hcurrent, Option.toList_none, List.append_nil]
    exact h.added_eq
  nonempty := h.nonempty
  placed events := by
    have hset := System.count_flatMap_set Goroutine.held hi g' events
    have hplaced := h.placed events
    rw [filterMap_concat, filterMap_concat, hoffered, hlost, Option.toList_none, List.append_nil,
      List.append_nil]
    rw [hheld] at hset
    dsimp only
    omega

/-- An event is appended to the buffer. -/
lemma append (h : Ledger trace sys taken) (hi : sys.procs[i]? = some g) (hflush : g.held = [])
    {evt : TelemetryEvent} {b : BatchAssembler} (hcurrent : b.current = sys.shared.current ++ [evt])
    {g' : Goroutine} (hheld : g'.held = []) :
    Ledger (trace ++ [.added evt]) ⟨b, sys.procs.set i g'⟩ taken where
  added_eq := by
    have hadded := filterMap_concat added? trace (some (.added evt))
    rw [Option.toList_some] at hadded
    rw [hadded, hcurrent, ← List.append_assoc, h.added_eq]
    rfl
  nonempty := h.nonempty
  placed events := by
    have hset := System.count_flatMap_set Goroutine.held hi g' events
    have hplaced := h.placed events
    rw [hflush, hheld] at hset
    simp only [List.filterMap_append]
    simp only [List.filterMap_cons, offered?, lost?, List.filterMap_nil, List.append_nil]
    omega

/-- The buffer is taken. -/
lemma take (h : Ledger trace sys taken) (hi : sys.procs[i]? = some g) (hflush : g.held = [])
    (hcurrent : sys.shared.current ≠ []) {g' : Goroutine}
    (hheld : g'.held = [sys.shared.current]) {b : BatchAssembler} (hempty : b.current = []) :
    Ledger trace ⟨b, sys.procs.set i g'⟩ (taken ++ [sys.shared.current]) where
  added_eq := by
    rw [hempty, List.append_nil, List.flatten_append, ← h.added_eq]
    simp
  nonempty := by
    rw [List.mem_append, List.mem_singleton]
    rintro (hmem | heq)
    · exact h.nonempty hmem
    · exact hcurrent heq.symm
  placed events := by
    have hset := System.count_flatMap_set Goroutine.held hi g' events
    have hplaced := h.placed events
    rw [hflush, hheld, List.count_nil] at hset
    rw [List.count_append]
    dsimp only
    omega

/-- A held buffer is offered, or lost. -/
lemma give (h : Ledger trace sys taken) (hi : sys.procs[i]? = some g)
    (batch : TelemetryBatch) (hflush : g.held = [batch.events]) {g' : Goroutine}
    (hheld : g'.held = []) {b : BatchAssembler} (hcurrent : b.current = sys.shared.current)
    {hap : Happening}
    (hhap : hap = .sentOnClosed batch ∨ ∃ accepted, hap = .offered batch accepted) :
    Ledger (trace ++ [hap]) ⟨b, sys.procs.set i g'⟩ taken where
  added_eq := by
    rw [List.filterMap_append, hcurrent, h.added_eq]
    rcases hhap with rfl | ⟨accepted, rfl⟩ <;> simp [added?]
  nonempty := h.nonempty
  placed events := by
    have hset := System.count_flatMap_set Goroutine.held hi g' events
    have hplaced := h.placed events
    rw [hflush, hheld, List.count_nil] at hset
    rw [List.filterMap_append, List.filterMap_append]
    rcases hhap with rfl | ⟨accepted, rfl⟩
    · simp only [List.filterMap_cons, offered?, lost?, List.filterMap_nil, List.append_nil,
        List.map_append, List.map_cons, List.map_nil, List.count_append]
      omega
    · simp only [List.filterMap_cons, offered?, lost?, List.filterMap_nil, List.append_nil,
        List.map_append, List.map_cons, List.map_nil, List.count_append]
      omega

/-- **One step.**  The ledger goes on, with one more entry if the step took a buffer. -/
lemma exec (h : Ledger trace sys taken) (hi : sys.procs[i]? = some g) {m : Moment}
    {b : BatchAssembler} {g' : Goroutine} {hap : Option Happening}
    (hmove : Goroutine.Moves m sys.shared g b g' hap) :
    ∃ more, Ledger (trace ++ hap.toList) ⟨b, sys.procs.set i g'⟩ (taken ++ more) := by
  have hquiet : b.current = sys.shared.current → g'.held = g.held → hap.bind added? = none →
      hap.bind offered? = none → hap.bind lost? = none →
      ∃ more, Ledger (trace ++ hap.toList) ⟨b, sys.procs.set i g'⟩ (taken ++ more) :=
    fun hcurrent hheld hadded hoffered hlost =>
      ⟨[], by rw [List.append_nil]; exact h.quiet hi hcurrent hheld hadded hoffered hlost⟩
  cases hmove with
  | rest | panic => exact hquiet rfl rfl rfl rfl rfl
  | append hflush =>
      refine ⟨[], ?_⟩
      rw [List.append_nil]
      exact h.append hi (Goroutine.held_of_none hflush) rfl (Goroutine.held_ite_lock _ _)
  | ret hflush | ticker hflush | tick hflush | final hflush | close hflush | stop hflush
  | receive hflush => exact hquiet rfl (Goroutine.held_of_none hflush).symm rfl rfl rfl
  | flushEmpty hflush => exact hquiet rfl (Goroutine.held_of_lock hflush).symm rfl rfl rfl
  | take hflush hcurrent =>
      refine ⟨[sys.shared.current], ?_⟩
      rw [Option.toList_none, List.append_nil]
      exact h.take hi (Goroutine.held_of_lock hflush) hcurrent rfl rfl
  | accept hflush | drop hflush =>
      refine ⟨[], ?_⟩
      rw [List.append_nil]
      refine h.give hi (sys.shared.batchOf m.now _) (Goroutine.held_of_send hflush) ?_ ?_
        (Or.inr ⟨_, rfl⟩)
      · exact Goroutine.held_of_none rfl
      · rfl
  | lose hflush =>
      refine ⟨[], ?_⟩
      rw [List.append_nil]
      refine h.give hi (sys.shared.batchOf m.now _) (Goroutine.held_of_send hflush) ?_ ?_
        (Or.inl rfl)
      · exact Goroutine.held_of_none rfl
      · rfl

/-- As long as nothing is lost, the buffers taken are those held and those offered. -/
lemma perm_taken (h : Ledger trace sys taken) (hlost : trace.filterMap lost? = []) :
    (sys.procs.flatMap Goroutine.held
      ++ (trace.filterMap offered?).map TelemetryBatch.events).Perm taken := by
  rw [List.perm_iff_count]
  intro events
  have hcount := h.placed events
  rw [hlost, List.map_nil, List.count_nil] at hcount
  rw [List.count_append]
  exact hcount

end Ledger

/-- **The account of the channel.**  What it accepted is in it or was received, and it holds no more
than it can. -/
structure Delivered (trace : List Happening) (sys : System BatchAssembler Goroutine) : Prop where
  accepted : ∀ batch, sys.shared.output.queue.count batch
    + (sys.procs.flatMap Goroutine.received).count batch = (trace.filterMap accepted?).count batch
  bounded : sys.shared.output.queue.length ≤ sys.shared.output.cap

namespace Delivered

variable {trace : List Happening} {sys : System BatchAssembler Goroutine} {i : ℕ} {g : Goroutine}

/-- A move that neither sends nor receives. -/
lemma quiet (h : Delivered trace sys) (hi : sys.procs[i]? = some g) {b : BatchAssembler}
    (hqueue : b.output.queue = sys.shared.output.queue)
    (hcap : b.output.cap = sys.shared.output.cap)
    {g' : Goroutine} (hreceived : g'.received = g.received) {hap : Option Happening}
    (haccepted : hap.bind accepted? = none) :
    Delivered (trace ++ hap.toList) ⟨b, sys.procs.set i g'⟩ where
  accepted batch := by
    have hset := System.count_flatMap_set Goroutine.received hi g' batch
    have hbefore := h.accepted batch
    rw [hreceived] at hset
    rw [filterMap_concat, haccepted, Option.toList_none, List.append_nil]
    dsimp only
    rw [hqueue]
    omega
  bounded := by
    dsimp only
    rw [hqueue, hcap]
    exact h.bounded

/-- **One step.** -/
lemma exec (h : Delivered trace sys) (hi : sys.procs[i]? = some g) {m : Moment}
    {b : BatchAssembler} {g' : Goroutine} {hap : Option Happening}
    (hmove : Goroutine.Moves m sys.shared g b g' hap) :
    Delivered (trace ++ hap.toList) ⟨b, sys.procs.set i g'⟩ := by
  have hquiet : b.output.queue = sys.shared.output.queue → b.output.cap = sys.shared.output.cap →
      g'.received = g.received → hap.bind accepted? = none →
      Delivered (trace ++ hap.toList) ⟨b, sys.procs.set i g'⟩ :=
    fun hqueue hcap hreceived haccepted => h.quiet hi hqueue hcap hreceived haccepted
  cases hmove with
  | rest | panic | flushEmpty | take | drop | lose => exact hquiet rfl rfl rfl rfl
  | append _ hrole | ret _ hrole | ticker _ hrole | tick _ hrole | final _ hrole | close _ hrole
  | stop _ hrole =>
      refine hquiet rfl rfl ?_ rfl
      simp [Goroutine.received, hrole]
  | @receive batch queue received hflush hrole hqueue =>
      refine ⟨fun batch' => ?_, ?_⟩
      · have hset := System.count_flatMap_set Goroutine.received hi
          ⟨none, .receive (received ++ [batch])⟩ batch'
        have hbefore := h.accepted batch'
        rw [hqueue] at hbefore
        simp only [Goroutine.received, hrole, List.count_append] at hset
        rw [filterMap_concat]
        simp only [Option.bind_some, accepted?, Option.toList_none, List.append_nil]
        rw [← List.singleton_append, List.count_append] at hbefore
        omega
      · have hbound := h.bounded
        rw [hqueue, List.length_cons] at hbound
        dsimp only
        omega
  | @accept events hflush hopen hroom =>
      refine ⟨fun batch' => ?_, ?_⟩
      · have hset := System.count_flatMap_set Goroutine.received hi { g with flush := none } batch'
        have hbefore := h.accepted batch'
        have hsame : Goroutine.received { g with flush := none } = g.received := rfl
        rw [hsame] at hset
        rw [filterMap_concat]
        simp only [Option.bind_some, accepted?, Option.toList_some, List.count_append]
        omega
      · simp only [List.length_append, List.length_singleton]
        omega

end Delivered

/-- The output channel is closed only after `done`, and only then can a batch be lost. -/
structure OpenUntilStop (trace : List Happening) (sys : System BatchAssembler Goroutine) :
    Prop where
  closing : ∀ g ∈ sys.procs, g.role = .start .close ∨ g.role = .start .returned →
    sys.shared.done.closed = true
  output : sys.shared.output.closed = true → sys.shared.done.closed = true
  lost : trace.filterMap lost? ≠ [] → sys.shared.output.closed = true

namespace OpenUntilStop

variable {trace : List Happening} {sys : System BatchAssembler Goroutine} {i : ℕ} {g : Goroutine}

/-- **One step.** -/
lemma exec (h : OpenUntilStop trace sys) (hi : sys.procs[i]? = some g) {m : Moment}
    {b : BatchAssembler} {g' : Goroutine} {hap : Option Happening}
    (hmove : Goroutine.Moves m sys.shared g b g' hap) :
    OpenUntilStop (trace ++ hap.toList) ⟨b, sys.procs.set i g'⟩ := by
  have hg := List.mem_of_getElem? hi
  -- most moves leave both channels open or closed as they are and lose nothing
  have hquiet : b.done.closed = sys.shared.done.closed →
      b.output.closed = sys.shared.output.closed → hap.bind lost? = none →
      (g'.role = .start .close ∨ g'.role = .start .returned → sys.shared.done.closed = true) →
      OpenUntilStop (trace ++ hap.toList) ⟨b, sys.procs.set i g'⟩ := by
    intro hdone houtput hlost hrole
    refine ⟨fun q hq hclosing => ?_, ?_, ?_⟩
    · dsimp only
      rw [hdone]
      rcases List.mem_or_eq_of_mem_set hq with hq | rfl
      · exact h.closing q hq hclosing
      · exact hrole hclosing
    · dsimp only
      rw [hdone, houtput]
      exact h.output
    · dsimp only
      rw [filterMap_concat, hlost, Option.toList_none, List.append_nil, houtput]
      exact h.lost
  cases hmove with
  | rest | panic | flushEmpty | take | accept | drop =>
      exact hquiet rfl rfl rfl (h.closing g hg)
  | append | ret | ticker | tick | receive => exact hquiet rfl rfl rfl (by simp)
  | final _ _ hdone => exact hquiet rfl rfl rfl (fun _ => hdone)
  | close hflush hrole =>
      have hdone := h.closing g hg (Or.inl hrole)
      exact ⟨fun _ _ _ => hdone, fun _ => hdone, fun _ => rfl⟩
  | stop hflush hrole =>
      refine ⟨fun _ _ _ => rfl, fun _ => rfl, ?_⟩
      rw [filterMap_concat]
      exact fun hlost => h.lost (by simpa [lost?] using hlost)
  | lose hflush hclosed =>
      refine ⟨fun q hq hclosing => ?_, h.output, fun _ => hclosed⟩
      rcases List.mem_or_eq_of_mem_set hq with hq | rfl
      · exact h.closing q hq hclosing
      · exact h.closing g hg hclosing

end OpenUntilStop

/-- The events a goroutine has still to add. -/
def Goroutine.toAdd (g : Goroutine) : List TelemetryEvent :=
  match g.role with
  | .add evts false => evts.map taggedEventToProto
  | .add evts true => evts.tail.map taggedEventToProto
  | _ => []

/-- Every `Add` appends its event once. -/
lemma count_added_exec {trace : List Happening} {sys : System BatchAssembler Goroutine} {i : ℕ}
    {g : Goroutine} (hi : sys.procs[i]? = some g) {m : Moment} {b : BatchAssembler}
    {g' : Goroutine} {hap : Option Happening} (hmove : Goroutine.Moves m sys.shared g b g' hap)
    (evt : TelemetryEvent) :
    ((trace ++ hap.toList).filterMap added?).count evt
        + ((sys.procs.set i g').flatMap Goroutine.toAdd).count evt
      = (trace.filterMap added?).count evt + (sys.procs.flatMap Goroutine.toAdd).count evt := by
  have hset := System.count_flatMap_set Goroutine.toAdd hi g' evt
  have hmoved : g.toAdd = (hap.bind added?).toList ++ g'.toAdd := by
    cases hmove with
    | rest | panic | flushEmpty | take | accept | drop | lose => rfl
    | ticker _ hrole | tick _ hrole | final _ hrole => simp [Goroutine.toAdd, hrole]
    | append _ hrole | ret _ hrole | close _ hrole | stop _ hrole | receive _ hrole =>
        simp [Goroutine.toAdd, hrole, added?]
  rw [hmoved, List.count_append] at hset
  rw [filterMap_concat, List.count_append]
  omega

/-! ## Whole runs -/

/-- Every batch offered was accepted or dropped. -/
lemma offered_perm (trace : List Happening) :
    (trace.filterMap offered?).Perm (trace.filterMap accepted? ++ trace.filterMap dropped?) := by
  induction trace with
  | nil => exact List.Perm.refl _
  | cons h trace ih =>
      cases h with
      | offered batch accepted =>
          cases accepted with
          | true => exact ih.cons batch
          | false => exact (ih.cons batch).trans List.perm_middle.symm
      | _ => exact ih

/-- A new assembler is empty, with both channels open. -/
lemma newBatchAssembler_empty {cfg : BatchAssemblerConfig} {b : BatchAssembler}
    (hb : newBatchAssembler cfg = some b) :
    b.current = [] ∧ b.output.queue = [] ∧ b.output.closed = false ∧ b.done.closed = false := by
  unfold newBatchAssembler at hb
  dsimp only at hb
  split_ifs at hb
  all_goals
    obtain rfl := Option.some.inj hb
    exact ⟨rfl, rfl, rfl, rfl⟩

lemma newBatchAssembler_nonneg {cfg : BatchAssemblerConfig} {b : BatchAssembler}
    (hb : newBatchAssembler cfg = some b) : 0 ≤ b.maxEvents := by
  unfold newBatchAssembler at hb
  dsimp only at hb
  split_ifs at hb
  all_goals
    obtain rfl := Option.some.inj hb
    dsimp only
    omega

/-- Nothing is held or received at the start, and everything is still to be added. -/
lemma flatMap_assemblerSystem (b : BatchAssembler) (receivers : ℕ)
    (adds : List (List TaggedEvent)) :
    (assemblerSystem b receivers adds).procs.flatMap Goroutine.held = [] ∧
      (assemblerSystem b receivers adds).procs.flatMap Goroutine.received = [] ∧
      (assemblerSystem b receivers adds).procs.flatMap Goroutine.toAdd
        = adds.flatten.map taggedEventToProto := by
  refine ⟨?_, ?_, ?_⟩
  · simp [assemblerSystem, List.flatMap_map, List.flatMap_replicate, Goroutine.held]
  · simp [assemblerSystem, List.flatMap_map, List.flatMap_replicate, Goroutine.received]
  · simp [assemblerSystem, Goroutine.toAdd, List.map_flatten, List.flatMap, Function.comp_def]

/-- No goroutine starts inside the shutdown. -/
lemma role_assemblerSystem {b : BatchAssembler} {receivers : ℕ} {adds : List (List TaggedEvent)}
    {g : Goroutine} (hg : g ∈ (assemblerSystem b receivers adds).procs) :
    g.role ≠ .start .close ∧ g.role ≠ .start .returned := by
  simp only [assemblerSystem, List.mem_cons, List.mem_append, List.mem_replicate,
    List.mem_map] at hg
  rcases hg with rfl | rfl | ⟨-, rfl⟩ | ⟨evts, -, rfl⟩ <;> simp

lemma Ledger.new {cfg : BatchAssemblerConfig} {b : BatchAssembler}
    (hb : newBatchAssembler cfg = some b) (receivers : ℕ) (adds : List (List TaggedEvent)) :
    Ledger [] (assemblerSystem b receivers adds) [] := by
  obtain ⟨hcurrent, -⟩ := newBatchAssembler_empty hb
  obtain ⟨hheld, -⟩ := flatMap_assemblerSystem b receivers adds
  refine ⟨hcurrent, List.not_mem_nil, fun events => ?_⟩
  rw [hheld]
  rfl

lemma OpenUntilStop.new {cfg : BatchAssemblerConfig} {b : BatchAssembler}
    (hb : newBatchAssembler cfg = some b) (receivers : ℕ) (adds : List (List TaggedEvent)) :
    OpenUntilStop [] (assemblerSystem b receivers adds) := by
  obtain ⟨-, -, houtput, -⟩ := newBatchAssembler_empty hb
  refine ⟨?_, ?_, ?_⟩
  · intro g hg hclosing
    obtain ⟨hclose, hreturned⟩ := role_assemblerSystem hg
    exact (hclosing.elim hclose hreturned).elim
  · intro hclosed
    exact absurd (hclosed.symm.trans houtput) (by decide)
  · exact fun hlost => absurd rfl hlost

/-- All the books at once. -/
structure Books (adds : List (List TaggedEvent)) (trace : List Happening)
    (sys : System BatchAssembler Goroutine) : Prop where
  ledger : ∃ taken, Ledger trace sys taken
  delivered : Delivered trace sys
  openUntilStop : OpenUntilStop trace sys
  added : ∀ evt, (trace.filterMap added?).count evt
    + (sys.procs.flatMap Goroutine.toAdd).count evt
      = (adds.flatten.map taggedEventToProto).count evt

namespace Books

variable {adds : List (List TaggedEvent)}

lemma new {cfg : BatchAssemblerConfig} {b : BatchAssembler} (hb : newBatchAssembler cfg = some b)
    (receivers : ℕ) (adds : List (List TaggedEvent)) :
    Books adds [] (assemblerSystem b receivers adds) := by
  obtain ⟨-, hqueue, -⟩ := newBatchAssembler_empty hb
  obtain ⟨-, hreceived, htoAdd⟩ := flatMap_assemblerSystem b receivers adds
  have hqueue' : (assemblerSystem b receivers adds).shared.output.queue = [] := hqueue
  refine ⟨⟨[], Ledger.new hb receivers adds⟩, ⟨fun batch => ?_, ?_⟩,
    OpenUntilStop.new hb receivers adds, fun evt => ?_⟩
  · rw [hreceived, hqueue']
    rfl
  · rw [hqueue']
    exact Nat.zero_le _
  · rw [htoAdd]
    simp

/-- **One step.** -/
lemma exec {trace : List Happening} {sys : System BatchAssembler Goroutine} {i : ℕ}
    {g : Goroutine} (h : Books adds trace sys) (hi : sys.procs[i]? = some g) (m : Moment) :
    Books adds (trace ++ (g.happening m sys.shared).toList)
      ⟨(g.step m sys.shared).1, sys.procs.set i (g.step m sys.shared).2⟩ := by
  have hmove := Goroutine.step_moves m sys.shared g
  obtain ⟨taken, hledger⟩ := h.ledger
  obtain ⟨more, hledger'⟩ := hledger.exec hi hmove
  exact ⟨⟨_, hledger'⟩, h.delivered.exec hi hmove, h.openUntilStop.exec hi hmove,
    fun evt => (count_added_exec hi hmove evt).trans (h.added evt)⟩

/-- **Whole runs**, of all interleavings. -/
lemma run {cfg : BatchAssemblerConfig} {b : BatchAssembler} (hb : newBatchAssembler cfg = some b)
    (receivers : ℕ) (adds : List (List TaggedEvent)) (sched : List (Moment × ℕ)) :
    Books adds
      (System.trace Goroutine.step Goroutine.happening (assemblerSystem b receivers adds) sched)
      (timedRun (System.exec Goroutine.step) (assemblerSystem b receivers adds) sched) :=
  System.trace_invariant (Q := fun _ _ _ => True) (fun m _ _ _ _ hi _ h => h.exec hi m)
    (Books.new hb receivers adds) (allSteps_of_forall (fun _ _ => trivial) _)

end Books

/-- If the channel refuses a batch in this step, it is full. -/
def Goroutine.RefusedIfFull (m : Moment) (b : BatchAssembler) (g : Goroutine) : Prop :=
  ∀ batch, g.happening m b = some (.offered batch false) → b.output.queue.length = b.output.cap

lemma Goroutine.Moves.cap_le {m : Moment} {b b' : BatchAssembler} {g g' : Goroutine}
    {batch : TelemetryBatch} (h : Goroutine.Moves m b g b' g' (some (.offered batch false))) :
    b.output.cap ≤ b.output.queue.length := by
  cases h with
  | drop hflush hopen hfull => exact hfull

/-- No batch is refused while there is room. -/
lemma allSteps_refusedIfFull {cfg : BatchAssemblerConfig} {b : BatchAssembler}
    (hb : newBatchAssembler cfg = some b) (receivers : ℕ) (adds : List (List TaggedEvent))
    (sched : List (Moment × ℕ)) :
    AllSteps (System.exec Goroutine.step) (System.Takes Goroutine.RefusedIfFull)
      (assemblerSystem b receivers adds) sched := by
  refine AllSteps.of_invariant (P := fun _ _ _ => True)
    (I := fun sys => ∃ trace, Books adds trace sys) (fun m i sys hbooks _ => ?_)
    ⟨[], Books.new hb receivers adds⟩
    (allSteps_of_forall (fun _ _ => trivial) _)
  obtain ⟨trace, hbooks⟩ := hbooks
  refine ⟨fun g hi batch hrefused => ?_, ?_⟩
  · have hmove := Goroutine.step_moves m sys.shared g
    rw [hrefused] at hmove
    exact le_antisymm hbooks.delivered.bounded hmove.cap_le
  · cases hi : sys.procs[i]? with
    | none => exact ⟨trace, by rwa [System.exec, hi]⟩
    | some g =>
        rw [System.exec_of_getElem? hi]
        exact ⟨_, hbooks.exec hi m⟩

/-- **The batch assembler conserves events.**  Any number of goroutines add any events, any number
receive, and the timer ticks at any time, in any order of their steps.  As long as `Stop` has not
been called: the buffers taken so far and the current one are, one after the other, the events
added, in the order their `Add`s took the lock; no buffer taken was empty; and the buffers taken
are exactly those held by a goroutine that has not offered them yet, those in the channel, those
received from it and those dropped; and every offer that was refused found the channel full. -/
theorem assembler_conserves_events (cfg : BatchAssemblerConfig) (b : BatchAssembler)
    (hb : newBatchAssembler cfg = some b) (receivers : ℕ) (adds : List (List TaggedEvent))
    (sched : List (Moment × ℕ)) :
    let sys := timedRun (System.exec Goroutine.step) (assemblerSystem b receivers adds) sched
    let trace := System.trace Goroutine.step Goroutine.happening (assemblerSystem b receivers adds)
      sched
    sys.shared.done.closed = false →
    ∃ taken : List (List TelemetryEvent),
      taken.flatten ++ sys.shared.current = trace.filterMap added? ∧
      (trace.filterMap added? ++ sys.procs.flatMap Goroutine.toAdd).Perm
        (adds.flatten.map taggedEventToProto) ∧
      [] ∉ taken ∧
      (sys.procs.flatMap Goroutine.held
          ++ sys.shared.output.queue.map TelemetryBatch.events
          ++ (sys.procs.flatMap Goroutine.received).map TelemetryBatch.events
          ++ (trace.filterMap dropped?).map TelemetryBatch.events).Perm taken ∧
      sys.shared.output.queue.length ≤ sys.shared.output.cap ∧
      AllSteps (System.exec Goroutine.step) (System.Takes Goroutine.RefusedIfFull)
        (assemblerSystem b receivers adds) sched := by
  intro sys trace hstop
  obtain ⟨⟨taken, hledger⟩, hdelivered, hopen, hadded⟩ := Books.run hb receivers adds sched
  have hlost : trace.filterMap lost? = [] := by
    by_contra hlost
    have hclosed := hopen.output (hopen.lost hlost)
    rw [show sys.shared.done.closed = false from hstop] at hclosed
    cases hclosed
  have hplaced : (sys.procs.flatMap Goroutine.held
      ++ (trace.filterMap offered?).map TelemetryBatch.events).Perm taken :=
    hledger.perm_taken hlost
  have haccepted : (sys.shared.output.queue ++ sys.procs.flatMap Goroutine.received).Perm
      (trace.filterMap accepted?) := by
    rw [List.perm_iff_count]
    intro batch
    rw [List.count_append]
    exact hdelivered.accepted batch
  have hadds : (trace.filterMap added? ++ sys.procs.flatMap Goroutine.toAdd).Perm
      (adds.flatten.map taggedEventToProto) := by
    rw [List.perm_iff_count]
    intro evt
    rw [List.count_append]
    exact hadded evt
  refine ⟨taken, hledger.added_eq, hadds, hledger.nonempty, ?_, hdelivered.bounded,
    allSteps_refusedIfFull hb receivers adds sched⟩
  have hoffered : (sys.shared.output.queue ++ sys.procs.flatMap Goroutine.received
      ++ trace.filterMap dropped?).Perm (trace.filterMap offered?) :=
    (haccepted.append_right _).trans (offered_perm trace).symm
  have hevents := (hoffered.map TelemetryBatch.events).append_left
    (sys.procs.flatMap Goroutine.held)
  rw [List.map_append, List.map_append, ← List.append_assoc, ← List.append_assoc] at hevents
  exact hevents.trans hplaced

/-- Two goroutines add one event each to batches of two.  The second one finds the buffer full,
takes both events and sends them, and they are received. -/
theorem assembler_conserves_events_one_batch :
    let b : BatchAssembler := ⟨2, 10 ^ 9, "node-1", [], Chan.new 1, Chan.new 0, false⟩
    let evt := fun t : UInt64 => (⟨⟨eventPageFault, 42, t, some (.pageFault true 4096)⟩,
      ⟨"default", "web-1", "web", "default/Deployment/web", "node-1"⟩⟩ : TaggedEvent)
    let fault := fun t : ℤ =>
      (⟨.pageFault, "default/Deployment/web", t, some (.pageFault true 4096)⟩ : TelemetryEvent)
    let adds := [[evt 1], [evt 2]]
    let sched : List (Moment × ℕ) := [3, 4, 4, 4, 4, 2].map (fun i => (⟨7, false⟩, i))
    let sys := timedRun (System.exec Goroutine.step) (assemblerSystem b 1 adds) sched
    (∃ taken : List (List TelemetryEvent), taken.flatten ++ sys.shared.current
        = [fault 1, fault 2] ∧ [] ∉ taken) ∧
      sys.procs.flatMap Goroutine.received = [⟨"node-1", 7, [fault 1, fault 2]⟩] := by
  intro b evt fault adds sched sys
  obtain ⟨taken, hadded, -, hnonempty, -⟩ := assembler_conserves_events
    ⟨2, 10 ^ 9, "node-1", 1⟩ b (by decide) 1 adds sched (by decide)
  refine ⟨⟨taken, ?_, hnonempty⟩, by decide +kernel⟩
  rw [hadded]
  decide +kernel

end Akil
