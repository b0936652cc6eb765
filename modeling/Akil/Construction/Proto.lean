import Akil.Construction.Profile.Window

/-!
# Messages (`pkg/proto/akil.proto`)

The messages a collector sends and those the scheduler plugin is answered with.  A protobuf enum is
open: a value without a name is kept as its number.  The payload is a `oneof`, absent or exactly one
of its members, and a field nobody sets is zero.
-/

namespace Akil

inductive EventType
  | unspecified
  | pageFault
  | cacheMiss
  | lockContention
  | contextSwitch
  | unrecognized (value : ℤ)
  deriving DecidableEq, Repr

/-- The enum value of a number: the conversion `pb.EventType(b)`. -/
def EventType.ofByte (b : UInt8) : EventType :=
  match b.toNat with
  | 0 => .unspecified
  | 1 => .pageFault
  | 2 => .cacheMiss
  | 3 => .lockContention
  | 4 => .contextSwitch
  | value => .unrecognized value

/-- The `oneof payload` of a `TelemetryEvent`. -/
inductive Payload
  | pageFault (isMajor : Bool) (address : UInt64)
  | cacheMiss (missCountDelta : UInt64)
  | lockContention (lockAddress : UInt64) (durationNs : Int64)
  | ctxSwitch (prevWorkloadKey : String) (prevState : Int32)
  deriving DecidableEq, Repr

structure TelemetryEvent where
  eventType : EventType
  workloadKey : String
  timestampNs : ℤ
  payload : Option Payload
  deriving DecidableEq, Repr

namespace TelemetryEvent

/-- `GetCacheMiss`, and of the message its count. -/
def getCacheMiss (evt : TelemetryEvent) : Option UInt64 :=
  match evt.payload with
  | some (.cacheMiss missCountDelta) => some missCountDelta
  | _ => none

/-- `GetLockContention`, and of the message its duration. -/
def getLockContention (evt : TelemetryEvent) : Option Int64 :=
  match evt.payload with
  | some (.lockContention _ durationNs) => some durationNs
  | _ => none

end TelemetryEvent

structure TelemetryBatch where
  nodeName : String
  batchTimestampNs : ℤ
  events : List TelemetryEvent
  deriving DecidableEq, Repr

/-! ## Query messages -/

/-- `ProfileConfidence`, of which the aggregator sends only the named values. -/
inductive ProfileConfidence
  | unknown
  | low
  | medium
  | high
  deriving DecidableEq, Repr

/-- The conversion `pb.ProfileConfidence(c)`: both enums number their values alike. -/
def ProfileConfidence.ofConfidence : Confidence → ProfileConfidence
  | .unknown => .unknown
  | .low => .low
  | .medium => .medium
  | .high => .high

def ProfileConfidence.toConfidence : ProfileConfidence → Confidence
  | .unknown => .unknown
  | .low => .low
  | .medium => .medium
  | .high => .high

structure Pb.RuntimeProfile where
  workloadKey : String
  pageFaultRate : ℚ
  cacheMissRate : ℚ
  lockContentionRatio : ℚ
  contextSwitchRate : ℚ
  sampleCount : Int64
  windowStartNs : Int64
  windowEndNs : Int64
  confidence : ProfileConfidence
  deriving DecidableEq, Repr

end Akil
