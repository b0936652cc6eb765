import Akil.Construction.Profile.Store
import Akil.Construction.Proto
import Akil.Framework.Interleaving

/-!
# Telemetry ingest (`cmd/aggregator/main.go`, `StreamTelemetry`)

Every connected collector has its own `StreamTelemetry` handler.  The handlers share the store,
and `GetOrCreate` is a check followed by an act: a `Load`, and if it finds nothing a new profile
and a `LoadOrStore`.  Here the store is what they share in Go, a map from keys to pointers and the
profiles the pointers name, and the program of one handler is cut where another may come in
between: after the `Load`, after `NewWorkloadProfile`, after the `LoadOrStore`, and after the
`Record*` call.  A profile a handler has built is known to nobody else until `LoadOrStore` puts
it into the map, so until then it is a value the handler holds, and its address is chosen when it
is stored.

`recordCall` is the `switch` on the event type: which `Record*` method an event causes, if any.
`TelemetryBatch.calls` is what a batch does to the store when one handler has it to itself.
-/

namespace Akil

/-! ## Dispatch -/

/-- The `switch` of `StreamTelemetry`: the `Record*` call an event causes. -/
def TelemetryEvent.recordCall (evt : TelemetryEvent) : Option RecordCall :=
  match evt.eventType with
  | .pageFault => some .pageFault
  | .cacheMiss => evt.getCacheMiss.map fun delta => .cacheMiss delta.toInt64
  | .lockContention => evt.getLockContention.map .lockContention
  | .contextSwitch => some .ctxSwitch
  | .unspecified | .unrecognized _ => none

/-- What one event of a batch from `nodeName` does to the store. -/
def TelemetryEvent.calls (nodeName : String) (evt : TelemetryEvent) : List StoreCall :=
  if evt.workloadKey = "" then []
  else .getOrCreate evt.workloadKey ::
    (evt.recordCall.map fun r => .onProfile evt.workloadKey (.record r nodeName)).toList

def TelemetryBatch.calls (batch : TelemetryBatch) : List StoreCall :=
  batch.events.flatMap (TelemetryEvent.calls batch.nodeName)

/-! ## The shared store -/

/-- The store as the handlers share it: keys to addresses, and the profiles there. -/
structure SharedStore where
  profiles : Finmap (fun _ : String => ℕ)
  heap : List WorkloadProfile
  bucketCount : ℤ
  bucketDuration : ℤ

namespace SharedStore

def new (bucketCount bucketDuration : ℤ) : SharedStore where
  profiles := ∅
  heap := []
  bucketCount := (newStore bucketCount bucketDuration).bucketCount
  bucketDuration := (newStore bucketCount bucketDuration).bucketDuration

def load (s : SharedStore) (key : String) : Option ℕ := s.profiles.lookup key

/-- A profile put into the map, at a new address. -/
def publish (s : SharedStore) (key : String) (wp : WorkloadProfile) : SharedStore :=
  { s with
    profiles := s.profiles.insert key s.heap.length
    heap := s.heap ++ [wp] }

def loadOrStore (s : SharedStore) (key : String) (wp : WorkloadProfile) : SharedStore × ℕ :=
  match s.load key with
  | some addr => (s, addr)
  | none => (s.publish key wp, s.heap.length)

def update (s : SharedStore) (addr : ℕ) (f : WorkloadProfile → WorkloadProfile) : SharedStore :=
  { s with heap := s.heap.modify addr f }

def get (s : SharedStore) (key : String) : Option WorkloadProfile :=
  (s.load key).bind fun addr => s.heap[addr]?

lemma load_publish_self (s : SharedStore) (key : String) (wp : WorkloadProfile) :
    (s.publish key wp).load key = some s.heap.length := Finmap.lookup_insert _

lemma load_publish_of_ne (s : SharedStore) {key key' : String} (h : key' ≠ key)
    (wp : WorkloadProfile) : (s.publish key wp).load key' = s.load key' :=
  Finmap.lookup_insert_of_ne _ h

lemma loadOrStore_of_some {s : SharedStore} {key : String} {addr : ℕ}
    (h : s.load key = some addr) (wp : WorkloadProfile) : s.loadOrStore key wp = (s, addr) := by
  rw [loadOrStore, h]

lemma loadOrStore_of_none {s : SharedStore} {key : String} (h : s.load key = none)
    (wp : WorkloadProfile) : s.loadOrStore key wp = (s.publish key wp, s.heap.length) := by
  rw [loadOrStore, h]

end SharedStore

/-! ## One handler -/

/-- Where a handler stands with the first of its remaining events. -/
inductive Stage
  | next
  | missed
  | created (wp : WorkloadProfile)
  | located (addr : ℕ)

/-- A `StreamTelemetry` handler: the node name and remaining events of the batch in hand, and
the batches still to be received. -/
structure Handler where
  nodeName : String
  events : List TelemetryEvent
  batches : List TelemetryBatch
  stage : Stage

namespace Handler

def new (batches : List TelemetryBatch) : Handler := ⟨"", [], batches, .next⟩

def advance (h : Handler) : Handler := { h with events := h.events.tail, stage := .next }

def step (now : ℤ) (s : SharedStore) (h : Handler) : SharedStore × Handler :=
  match h.events with
  | [] =>
      match h.batches with
      -- end of the stream: the handler has returned
      | [] => (s, h)
      | batch :: batches => (s, ⟨batch.nodeName, batch.events, batches, .next⟩)
  | evt :: _ =>
      match h.stage with
      | .next =>
          if evt.workloadKey = "" then (s, h.advance)
          else
            match s.load evt.workloadKey with
            | some addr => (s, { h with stage := .located addr })
            | none => (s, { h with stage := .missed })
      | .missed =>
          let wp := newWorkloadProfile evt.workloadKey s.bucketCount s.bucketDuration now
          (s, { h with stage := .created wp })
      | .created wp =>
          let (s, addr) := s.loadOrStore evt.workloadKey wp
          (s, { h with stage := .located addr })
      | .located addr =>
          match evt.recordCall with
          | some r => (s.update addr (fun wp => wp.execRecord r h.nodeName now), h.advance)
          | none => (s, h.advance)

def Finished (h : Handler) : Prop := h.events = [] ∧ h.batches = []

instance (h : Handler) : Decidable h.Finished := inferInstanceAs (Decidable (_ ∧ _))

/-- The events a handler has not finished with, each with the node that reports it. -/
def pending (h : Handler) : List (String × TelemetryEvent) :=
  h.events.map (h.nodeName, ·) ++ h.batches.flatMap fun b => b.events.map (b.nodeName, ·)

/-- The reading at which a step runs `NewWorkloadProfile`, if it does. -/
def creates (now : ℤ) (h : Handler) : Option ℤ :=
  match h.events, h.stage with
  | _ :: _, .missed => some now
  | _, _ => none

/-- Everything a step can be, with what it finds and what it leaves. -/
inductive Moves (now : ℤ) (s : SharedStore) (h : Handler) : SharedStore → Handler → Prop
  | returned (hfinished : h.Finished) : Moves now s h s h
  | receive {batch : TelemetryBatch} {batches : List TelemetryBatch} (hevents : h.events = [])
      (hbatches : h.batches = batch :: batches) :
      Moves now s h s ⟨batch.nodeName, batch.events, batches, .next⟩
  | skip {evt : TelemetryEvent} {rest : List TelemetryEvent} (hevents : h.events = evt :: rest)
      (hstage : h.stage = .next) (hkey : evt.workloadKey = "") : Moves now s h s h.advance
  | hit {evt : TelemetryEvent} {rest : List TelemetryEvent} {addr : ℕ}
      (hevents : h.events = evt :: rest) (hstage : h.stage = .next) (hkey : evt.workloadKey ≠ "")
      (hload : s.load evt.workloadKey = some addr) :
      Moves now s h s { h with stage := .located addr }
  | miss {evt : TelemetryEvent} {rest : List TelemetryEvent} (hevents : h.events = evt :: rest)
      (hstage : h.stage = .next) (hkey : evt.workloadKey ≠ "")
      (hload : s.load evt.workloadKey = none) : Moves now s h s { h with stage := .missed }
  | create {evt : TelemetryEvent} {rest : List TelemetryEvent} (hevents : h.events = evt :: rest)
      (hstage : h.stage = .missed) :
      Moves now s h s { h with
        stage := .created (newWorkloadProfile evt.workloadKey s.bucketCount s.bucketDuration now) }
  | store {evt : TelemetryEvent} {rest : List TelemetryEvent} {wp : WorkloadProfile}
      {s' : SharedStore} {addr : ℕ} (hevents : h.events = evt :: rest)
      (hstage : h.stage = .created wp) (hstore : s.loadOrStore evt.workloadKey wp = (s', addr)) :
      Moves now s h s' { h with stage := .located addr }
  | record {evt : TelemetryEvent} {rest : List TelemetryEvent} {addr : ℕ} {r : RecordCall}
      (hevents : h.events = evt :: rest) (hstage : h.stage = .located addr)
      (hr : evt.recordCall = some r) :
      Moves now s h (s.update addr (fun wp => wp.execRecord r h.nodeName now)) h.advance
  | ignore {evt : TelemetryEvent} {rest : List TelemetryEvent} {addr : ℕ}
      (hevents : h.events = evt :: rest) (hstage : h.stage = .located addr)
      (hr : evt.recordCall = none) : Moves now s h s h.advance

lemma step_moves (now : ℤ) (s : SharedStore) (h : Handler) :
    Moves now s h (h.step now s).1 (h.step now s).2 := by
  obtain ⟨nodeName, events, batches, stage⟩ := h
  cases events with
  | nil =>
      cases batches with
      | nil => exact .returned ⟨rfl, rfl⟩
      | cons batch batches => exact .receive rfl rfl
  | cons evt rest =>
      cases stage with
      | next =>
          by_cases hkey : evt.workloadKey = ""
          · simp only [step, hkey, if_true]
            exact .skip rfl rfl hkey
          · cases hload : s.load evt.workloadKey with
            | some addr =>
                simp only [step, hkey, if_false, hload]
                exact .hit rfl rfl hkey hload
            | none =>
                simp only [step, hkey, if_false, hload]
                exact .miss rfl rfl hkey hload
      | missed => exact .create rfl rfl
      | created wp => exact .store rfl rfl rfl
      | located addr =>
          cases hr : evt.recordCall with
          | some r =>
              simp only [step, hr]
              exact .record rfl rfl hr
          | none =>
              simp only [step, hr]
              exact .ignore rfl rfl hr

end Handler

/-! ## Many handlers -/

/-- The aggregator with one handler for each stream. -/
def ingestSystem (bucketCount bucketDuration : ℤ) (streams : List (List TelemetryBatch)) :
    System SharedStore Handler :=
  ⟨SharedStore.new bucketCount bucketDuration, streams.map Handler.new⟩

/-- The readings at which profiles are created in a run. -/
def creationTimes (sys : System SharedStore Handler) (sched : List (ℤ × ℕ)) : List ℤ :=
  timedOutputs (System.exec Handler.step)
    (fun now i sys => (sys.procs[i]?).bind (Handler.creates now)) sys sched

/-- All events of all streams, each with the node that reports it. -/
def streamedEvents (streams : List (List TelemetryBatch)) : List (String × TelemetryEvent) :=
  streams.flatMap fun batches => batches.flatMap fun b => b.events.map (b.nodeName, ·)

end Akil
