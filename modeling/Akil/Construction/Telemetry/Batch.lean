import Akil.Construction.Proto
import Akil.Construction.Telemetry.Types
import Akil.Framework.Interleaving

/-!
# The batch assembler (`pkg/telemetry/batch.go`)

`BatchAssembler` collects events into batches.  Any number of goroutines call `Add`, one runs
`Start`, which flushes at every tick of a timer, one calls `Stop`, and some receive the batches
from the output channel.  `Add` and `flush` hold the mutex only while they touch the buffer: `Add`
decides to flush inside the lock and flushes after releasing it, and `flush` takes the buffer inside
the lock and sends it after releasing it.

A goroutine is cut where another may come in between: one step is one section under the mutex, one
non-blocking send, one receive, one close, or the return of `Add`.  A call of `flush` is the same
wherever it is made, so a goroutine has the state of a running `flush` beside the place it goes on
from.  Which case a `select` takes when several are ready is not determined; it is part of the
`Moment` of the step, together with the clock reading.

A Go panic ends the process: once `panicked` is set nothing moves.
-/

namespace Akil

/-! ## Events -/

def taggedEventToProto (evt : TaggedEvent) : TelemetryEvent :=
  let protoEvt : TelemetryEvent :=
    { eventType := .unspecified
      workloadKey := evt.identity.workloadKey
      timestampNs := evt.timestampNs.toInt64.toInt
      payload := none }
  match evt.payload with
  | some (.pageFault isMajor address) =>
      { protoEvt with eventType := .pageFault, payload := some (.pageFault isMajor address) }
  | some (.cacheMiss delta) =>
      { protoEvt with eventType := .cacheMiss, payload := some (.cacheMiss delta) }
  | some (.lockContention lockAddress durationNs) =>
      { protoEvt with
        eventType := .lockContention
        payload := some (.lockContention lockAddress durationNs) }
  | some (.ctxSwitch _ _ prevState) =>
      { protoEvt with eventType := .contextSwitch, payload := some (.ctxSwitch "" prevState) }
  | none => protoEvt

/-! ## The assembler -/

structure BatchAssemblerConfig where
  maxEvents : ℤ
  flushInterval : ℤ
  nodeName : String
  outputBufferSize : ℤ
  deriving DecidableEq

/-- `BatchAssembler`, and whether the process has panicked. -/
structure BatchAssembler where
  maxEvents : ℤ
  flushInterval : ℤ
  nodeName : String
  current : List TelemetryEvent
  output : Chan TelemetryBatch
  done : Chan Unit
  panicked : Bool
  deriving DecidableEq

/-- `NewBatchAssembler`.  A zero is replaced by its default; `make` panics for a negative size. -/
def newBatchAssembler (cfg : BatchAssemblerConfig) : Option BatchAssembler :=
  let maxEvents := if cfg.maxEvents = 0 then 1000 else cfg.maxEvents
  let flushInterval := if cfg.flushInterval = 0 then 10 ^ 9 else cfg.flushInterval
  let outputBufferSize := if cfg.outputBufferSize = 0 then 16 else cfg.outputBufferSize
  if maxEvents < 0 ∨ outputBufferSize < 0 then none
  else some
    { maxEvents := maxEvents
      flushInterval := flushInterval
      nodeName := cfg.nodeName
      current := []
      output := Chan.new outputBufferSize.toNat
      done := Chan.new 0
      panicked := false }

/-- Where a running `flush` stands: before its section under the mutex, or with the events it took
there and has still to send. -/
inductive FlushStage
  | lock
  | send (events : List TelemetryEvent)
  deriving DecidableEq

namespace BatchAssembler

def panic (b : BatchAssembler) : BatchAssembler := { b with panicked := true }

def batchOf (now : ℤ) (events : List TelemetryEvent) (b : BatchAssembler) : TelemetryBatch :=
  ⟨b.nodeName, now, events⟩

/-- One step of `flush`, and where it stands then; `none` when it returns. -/
def flush (now : ℤ) (stage : FlushStage) (b : BatchAssembler) :
    BatchAssembler × Option FlushStage :=
  match stage with
  | .lock =>
      if b.current.length = 0 then (b, none)
      else ({ b with current := [] }, some (.send b.current))
  | .send events =>
      match b.output.trySend (b.batchOf now events) with
      | none => (b.panic, none)
      -- a batch that was not sent is dropped
      | some (output, _) => ({ b with output := output }, none)

end BatchAssembler

/-! ## Goroutines -/

/-- The instructions of `Start` outside `flush`. -/
inductive StartStage
  | newTicker
  | select
  | close
  | returned
  deriving DecidableEq

/-- What a goroutine does: calls `Add` for some events in turn, the first of which is already
appended if `appended`; runs `Start`; calls `Stop`; or receives batches. -/
inductive Role
  | add (evts : List TaggedEvent) (appended : Bool)
  | start (stage : StartStage)
  | stop (called : Bool)
  | receive (received : List TelemetryBatch)
  deriving DecidableEq

/-- A goroutine: the `flush` it is running, if it is running one, and where it goes on after it. -/
structure Goroutine where
  flush : Option FlushStage
  role : Role
  deriving DecidableEq

/-- The reading of a step, and whether the `select` of `Start` takes the ticker's case. -/
structure Moment where
  now : ℤ
  tick : Bool
  deriving DecidableEq

namespace Goroutine

def stepRole (m : Moment) (b : BatchAssembler) (role : Role) : BatchAssembler × Goroutine :=
  match role with
  | .add [] appended => (b, ⟨none, .add [] appended⟩)
  | .add (evt :: evts) false =>
      let b := { b with current := b.current ++ [taggedEventToProto evt] }
      let shouldFlush := (b.current.length : ℤ) ≥ b.maxEvents
      (b, ⟨if shouldFlush then some .lock else none, .add (evt :: evts) true⟩)
  | .add (_ :: evts) true => (b, ⟨none, .add evts false⟩)
  | .start .newTicker =>
      -- `time.NewTicker` panics for an interval that is not positive
      if b.flushInterval ≤ 0 then (b.panic, ⟨none, .start .newTicker⟩)
      else (b, ⟨none, .start .select⟩)
  | .start .select =>
      if m.tick then (b, ⟨some .lock, .start .select⟩)
      else if b.done.closed then (b, ⟨some .lock, .start .close⟩)
      else (b, ⟨none, .start .select⟩)
  | .start .close =>
      match b.output.close with
      | none => (b.panic, ⟨none, .start .close⟩)
      | some output => ({ b with output := output }, ⟨none, .start .returned⟩)
  | .start .returned => (b, ⟨none, .start .returned⟩)
  | .stop false =>
      match b.done.close with
      | none => (b.panic, ⟨none, .stop false⟩)
      | some done => ({ b with done := done }, ⟨none, .stop true⟩)
  | .stop true => (b, ⟨none, .stop true⟩)
  | .receive received =>
      match b.output.recv with
      | none => (b, ⟨none, .receive received⟩)
      | some (batch, output) =>
          ({ b with output := output }, ⟨none, .receive (received ++ [batch])⟩)

def step (m : Moment) (b : BatchAssembler) (g : Goroutine) : BatchAssembler × Goroutine :=
  if b.panicked then (b, g)
  else
    match g.flush with
    | some stage =>
        let (b, stage) := b.flush m.now stage
        (b, { g with flush := stage })
    | none => stepRole m b g.role

end Goroutine

/-! ## What happens in a run -/

/-- What an observer sees of a step: the section of `Add` under the mutex, the return of `Add`, a
batch offered to the open channel and whether it was accepted, a batch sent on the closed channel,
a batch received, the close of `done` and the close of the output channel. -/
inductive Happening
  | added (evt : TelemetryEvent)
  | returned (evt : TelemetryEvent)
  | offered (batch : TelemetryBatch) (accepted : Bool)
  | sentOnClosed (batch : TelemetryBatch)
  | received (batch : TelemetryBatch)
  | stopped
  | closed
  deriving DecidableEq

namespace Goroutine

def roleHappening (b : BatchAssembler) : Role → Option Happening
  | .add (evt :: _) false => some (.added (taggedEventToProto evt))
  | .add (evt :: _) true => some (.returned (taggedEventToProto evt))
  | .start .close => if b.output.closed then none else some .closed
  | .stop false => if b.done.closed then none else some .stopped
  | .receive _ => b.output.recv.map (fun r => .received r.1)
  | _ => none

def happening (m : Moment) (b : BatchAssembler) (g : Goroutine) : Option Happening :=
  if b.panicked then none
  else
    match g.flush with
    | some .lock => none
    | some (.send events) =>
        match b.output.trySend (b.batchOf m.now events) with
        | none => some (.sentOnClosed (b.batchOf m.now events))
        | some (_, accepted) => some (.offered (b.batchOf m.now events) accepted)
    | none => roleHappening b g.role

end Goroutine

/-- An assembler with the goroutine of `Start`, one that calls `Stop`, some that receive, and one
for each list of events that calls `Add` for them. -/
def assemblerSystem (b : BatchAssembler) (receivers : ℕ) (adds : List (List TaggedEvent)) :
    System BatchAssembler Goroutine where
  shared := b
  procs := ⟨none, .start .newTicker⟩ :: ⟨none, .stop false⟩ ::
    (List.replicate receivers ⟨none, .receive []⟩ ++ adds.map (fun evts => ⟨none, .add evts false⟩))

end Akil
