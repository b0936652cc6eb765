import Akil.Construction.Proto
import Akil.Framework.LittleEndian

/-!
# The collector's loop (`cmd/collector/main.go`)

The collector reads one ring-buffer sample at a time, turns it into a `TelemetryEvent` if its
cgroup belongs to a workload, and sends the events off in batches: when a hundred are buffered,
or when the last flush is more than a second ago.  A batch whose `Send` fails is dropped and the
stream is reopened if that is possible; either way the buffer starts anew.

One iteration reads the clock up to four times and depends on the resolver's map, which a
goroutine of its own keeps replacing, and on whether `Send` and the reopening succeed.  All of
that is the `LoopEnv` of the iteration.  A read that fails is an iteration without a sample; a
cancelled context ends the list of iterations.
-/

namespace Akil

/-- `Resolver`: the workload keys of the node's cgroups. -/
structure Resolver where
  cgroupMap : Finmap (fun _ : UInt64 => String)

def Resolver.resolve (r : Resolver) (cgroupID : UInt64) : String :=
  (r.cgroupMap.lookup cgroupID).getD ""

/-- What an iteration of the loop finds: the resolver, if there is one, the readings for the
event's time stamp, for `time.Since(lastFlush)`, for the batch's time stamp and for `lastFlush`,
and whether `Send` and `openStream` succeed. -/
structure LoopEnv where
  resolver : Option Resolver
  eventTime : ℤ
  sinceTime : ℤ
  batchTime : ℤ
  flushTime : ℤ
  sendOk : Bool
  reopenOk : Bool

def LoopEnv.workloadKey (env : LoopEnv) (cgroupID : UInt64) : String :=
  match env.resolver with
  | none => ""
  | some r => r.resolve cgroupID

def payloadOf (eventType : EventType) (payload : UInt64) : Option Payload :=
  match eventType with
  | .cacheMiss => some (.cacheMiss payload)
  | .lockContention => some (.lockContention 0 payload.toInt64)
  | _ => none

/-- From the sample to the event, or nothing if the sample is to be ignored. -/
def parseSample (env : LoopEnv) (rawSample : List UInt8) : Option TelemetryEvent :=
  if rawSample.length < 24 then none
  else
    let eventType := EventType.ofByte (rawSample.getD 0 0)
    let cgroupID := uint64OfBytes (slice rawSample 8 16)
    let wk := env.workloadKey cgroupID
    if wk = "" then none
    else some
      { eventType := eventType
        workloadKey := wk
        timestampNs := env.eventTime
        payload :=
          if rawSample.length ≥ 32 then payloadOf eventType (uint64OfBytes (slice rawSample 24 32))
          else none }

/-- The variables of the loop: the buffered events, the time of the last flush, and which of the
streams opened so far is in use. -/
structure LoopState where
  events : List TelemetryEvent
  lastFlush : ℤ
  stream : ℕ

def LoopState.new (now : ℤ) : LoopState := ⟨[], now, 0⟩

/-- A batch handed to `Send` on a stream. -/
structure SendCall where
  stream : ℕ
  batch : TelemetryBatch
  ok : Bool

def LoopState.iterate (nodeName : String) (read : Option (List UInt8)) (env : LoopEnv)
    (s : LoopState) : LoopState × Option SendCall :=
  match read.bind (parseSample env) with
  | none => (s, none)
  | some evt =>
      let events := s.events ++ [evt]
      if events.length ≥ 100 ∨ env.sinceTime - s.lastFlush > 10 ^ 9 then
        let stream :=
          if env.sendOk then s.stream else if env.reopenOk then s.stream + 1 else s.stream
        (⟨[], env.flushTime, stream⟩,
          some ⟨s.stream, ⟨nodeName, env.batchTime, events⟩, env.sendOk⟩)
      else ({ s with events := events }, none)

/-- The loop: the state it leaves and the batches it handed to `Send`, in order. -/
def LoopState.loop (nodeName : String) :
    List (Option (List UInt8) × LoopEnv) → LoopState → LoopState × List SendCall
  | [], s => (s, [])
  | (read, env) :: rest, s =>
      let (s, sent) := s.iterate nodeName read env
      let (s, sends) := loop nodeName rest s
      (s, sent.toList ++ sends)

end Akil
