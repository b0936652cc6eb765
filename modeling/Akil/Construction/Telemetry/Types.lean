import Akil.Construction.Identity.WorkloadKey

/-!
# The events of the telemetry pipeline (`pkg/telemetry/types.go`)

The Go side numbers the event types from zero.  A payload is an interface value of one of four
types, and it may be absent.
-/

namespace Akil

def eventPageFault : UInt8 := 0
def eventCacheMiss : UInt8 := 1
def eventLockContention : UInt8 := 2
def eventCtxSwitch : UInt8 := 3

inductive EventPayload
  | pageFault (isMajor : Bool) (address : UInt64)
  | cacheMiss (missCountDelta : UInt64)
  | lockContention (lockAddress : UInt64) (durationNs : Int64)
  | ctxSwitch (prevCgroupID nextCgroupID : UInt64) (prevState : Int32)
  deriving DecidableEq, Repr

structure RawEvent where
  type : UInt8
  cgroupID : UInt64
  timestampNs : UInt64
  payload : Option EventPayload
  deriving DecidableEq, Repr

/-- `TaggedEvent`: a raw event with the pod it was resolved to. -/
structure TaggedEvent extends RawEvent where
  identity : PodIdentity
  deriving DecidableEq, Repr

end Akil
