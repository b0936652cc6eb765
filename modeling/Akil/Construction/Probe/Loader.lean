import Akil.Construction.Telemetry.Types
import Akil.Framework.LittleEndian

/-!
# The decoder of the eBPF package (`pkg/ebpf/loader.go`)

`ParseRawEvent` makes a `RawEvent` of the bytes of one ring-buffer record.  It reads the layout of
`RawBPFEvent`, the type at 0, the cgroup at 8, the time stamp at 16 and forty bytes of payload at
24.  Go returns an event beside every error, empty or as far as it was read; an error of `none` is
`nil`.
-/

namespace Akil.Ebpf

/-- `unsafe.Sizeof(RawBPFEvent{})`: a type byte, seven of padding, two words and the payload. -/
def sizeofRawBPFEvent : ℕ := 1 + 7 + 8 + 8 + 40

/-- `binary.LittleEndian.Uint32`, converted to `int32`. -/
def int32OfBytes (bs : List UInt8) : Int32 := (UInt32.ofNat (leValue bs)).toInt32

/-- The `switch` of `ParseRawEvent`: the payload for the type of the event, or the error. -/
def parsePayload (type : UInt8) (payloadData : List UInt8) : Except String EventPayload :=
  if type = eventPageFault then
    if payloadData.length < 9 then .error "page fault payload too small"
    else .ok (.pageFault (payloadData.getD 0 0 != 0) (uint64OfBytes (slice payloadData 1 9)))
  else if type = eventCacheMiss then
    if payloadData.length < 8 then .error "cache miss payload too small"
    else .ok (.cacheMiss (uint64OfBytes (slice payloadData 0 8)))
  else if type = eventLockContention then
    if payloadData.length < 16 then .error "lock contention payload too small"
    else .ok (.lockContention (uint64OfBytes (slice payloadData 0 8))
      (uint64OfBytes (slice payloadData 8 16)).toInt64)
  else if type = eventCtxSwitch then
    if payloadData.length < 20 then .error "ctx switch payload too small"
    else .ok (.ctxSwitch (uint64OfBytes (slice payloadData 0 8))
      (uint64OfBytes (slice payloadData 8 16)) (int32OfBytes (slice payloadData 16 20)))
  else .error ("unknown event type: " ++ toString type.toNat)

def parseRawEvent (data : List UInt8) : RawEvent × Option String :=
  if data.length < sizeofRawBPFEvent then
    (⟨0, 0, 0, none⟩, some ("event too small: " ++ toString data.length ++ " bytes"))
  else
    let evt : RawEvent :=
      { type := data.getD 0 0
        cgroupID := uint64OfBytes (slice data 8 16)
        timestampNs := uint64OfBytes (slice data 16 24)
        payload := none }
    match parsePayload evt.type (data.drop 24) with
    | .error err => (evt, some err)
    | .ok payload => ({ evt with payload := some payload }, none)

/-- A record of full size keeps its type byte, its cgroup and its time stamp, whether or not its
payload is understood. -/
lemma parseRawEvent_header {data : List UInt8} (h : sizeofRawBPFEvent ≤ data.length) :
    (parseRawEvent data).1.type = data.getD 0 0 ∧
      (parseRawEvent data).1.cgroupID = uint64OfBytes (slice data 8 16) ∧
      (parseRawEvent data).1.timestampNs = uint64OfBytes (slice data 16 24) := by
  rw [parseRawEvent, if_neg (not_lt.mpr h)]
  dsimp only
  cases parsePayload (data.getD 0 0) (data.drop 24) with
  | error err => exact ⟨rfl, rfl, rfl⟩
  | ok payload => exact ⟨rfl, rfl, rfl⟩

end Akil.Ebpf
