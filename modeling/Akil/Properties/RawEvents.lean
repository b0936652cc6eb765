import Akil.Construction.Probe.Loader
import Akil.Properties.Fidelity

/-!
# The probes' records and `ParseRawEvent`

`loader.go` says that its layout must match the C struct, and it does not.  The struct has a union
of two words and takes forty bytes; `RawBPFEvent` reserves forty for the payload alone, and
`ParseRawEvent` refuses everything below sixty-four.  No record of a probe gets past that check
(`parseRawEvent_never_decodes`).

More bytes would not help: the probes number the event types from one and the decoder from zero,
so whatever follows a record, it is taken for one of the next kind.
-/

namespace Akil

namespace Signal

/-- The decoder's number for the kind of a signal. -/
def rawType : Signal → UInt8
  | .pageFault => eventPageFault
  | .cacheMiss _ => eventCacheMiss
  | .lockContention _ => eventLockContention
  | .ctxSwitch => eventCtxSwitch

/-- A decoded payload carries what the probe measured. -/
def CarriedByPayload : Signal → Option EventPayload → Prop
  | .cacheMiss missCountDelta, p => p = some (.cacheMiss missCountDelta)
  | .lockContention durationNs, p =>
      ∃ lockAddress, p = some (.lockContention lockAddress durationNs.toInt64)
  | .pageFault, _ => True
  | .ctxSwitch, _ => True

/-- The probes number every kind differently from the decoder. -/
lemma typeByte_ne_rawType (signal : Signal) : signal.typeByte ≠ signal.rawType := by
  cases signal with
  | pageFault => decide
  | cacheMiss _ => exact (by decide : eventTypeCacheMiss ≠ eventCacheMiss)
  | lockContention _ => exact (by decide : eventTypeLockContention ≠ eventLockContention)
  | ctxSwitch => decide

end Signal

/-- What `ParseRawEvent` has to return for the record of a signal: no error, the same kind, cgroup
and time stamp, and the payload of the signals that have one. -/
structure Decodes (signal : Signal) (cgroupId : UInt64) (record : EventT)
    (result : RawEvent × Option String) : Prop where
  noError : result.2 = none
  type : result.1.type = signal.rawType
  cgroupID : result.1.cgroupID = cgroupId
  timestampNs : result.1.timestampNs = record.timestampNs
  payload : signal.CarriedByPayload result.1.payload

/-- A record followed by other bytes, if it is read at all, is taken for one of its type byte. -/
lemma parseRawEvent_type (record : EventT) (rest : List UInt8)
    (h : Ebpf.sizeofRawBPFEvent ≤ (record.bytes ++ rest).length) :
    (Ebpf.parseRawEvent (record.bytes ++ rest)).1.type = record.eventType := by
  have hpos : 0 < record.bytes.length := by
    rw [record.size_eq]
    decide
  rw [(Ebpf.parseRawEvent_header h).1, EventT.eventType, List.getD_eq_getElem?_getD,
    List.getD_eq_getElem?_getD, List.getElem?_append_left hpos]

/-- **No record of a probe is decoded.**  Whatever a handler submits, `ParseRawEvent` answers that
forty bytes are too few; and with any bytes after the record it still does not return the event
the probe measured. -/
theorem parseRawEvent_never_decodes (signal : Signal) (cgroupId : UInt64) (record : EventT)
    (h : Emitted signal cgroupId record) :
    Ebpf.parseRawEvent record.bytes = (⟨0, 0, 0, none⟩, some "event too small: 40 bytes") ∧
      ¬ Decodes signal cgroupId record (Ebpf.parseRawEvent record.bytes) ∧
      ∀ rest, ¬ Decodes signal cgroupId record (Ebpf.parseRawEvent (record.bytes ++ rest)) := by
  have hshort : ∀ data : List UInt8, data.length < Ebpf.sizeofRawBPFEvent →
      Ebpf.parseRawEvent data = (⟨0, 0, 0, none⟩,
        some ("event too small: " ++ toString data.length ++ " bytes")) :=
    fun data hlt => if_pos hlt
  have hrest : ∀ rest,
      ¬ Decodes signal cgroupId record (Ebpf.parseRawEvent (record.bytes ++ rest)) := by
    intro rest hdecodes
    rcases Nat.lt_or_ge (record.bytes ++ rest).length Ebpf.sizeofRawBPFEvent with hlt | hge
    · have herr := hdecodes.noError
      rw [hshort _ hlt] at herr
      cases herr
    · -- Long enough, but of the wrong kind.
      have htype := hdecodes.type
      rw [parseRawEvent_type record rest hge, h.fields.1] at htype
      exact signal.typeByte_ne_rawType htype
  refine ⟨?_, ?_, hrest⟩
  · rw [hshort _ (by rw [record.size_eq]; decide), record.size_eq]
    rfl
  · have hnil := hrest []
    rwa [List.append_nil] at hnil

/-- A cache-miss sample of cgroup 42, in memory that held zeros. -/
def cacheMissRecord : EventT :=
  (((EventT.mk (List.replicate 40 0) rfl).setEventType eventTypeCacheMiss).setCgroupId
    42).setTimestampNs 1000 |>.setMissCountDelta 10000

lemma emitted_cacheMissRecord : Emitted (.cacheMiss 10000) 42 cacheMissRecord := by
  have hemit : handleCacheMiss 10000
      ⟨7, 42, some (EventT.mk (List.replicate 40 0) rfl), false⟩ 1000 = some cacheMissRecord := rfl
  exact Emitted.cacheMiss hemit

/-- The sample is refused, and so it is with twenty-four more bytes: those are then read as a lock
wait on the lock at address 10000. -/
theorem parseRawEvent_never_decodes_cacheMiss :
    ¬ Decodes (.cacheMiss 10000) 42 cacheMissRecord (Ebpf.parseRawEvent cacheMissRecord.bytes) ∧
      Ebpf.parseRawEvent (cacheMissRecord.bytes ++ List.replicate 24 0)
        = (⟨eventLockContention, 42, 1000, some (.lockContention 10000 0)⟩, none) :=
  ⟨(parseRawEvent_never_decodes (.cacheMiss 10000) 42 cacheMissRecord
    emitted_cacheMissRecord).2.1, by decide +kernel⟩

/-- There is a record of a probe that `ParseRawEvent` does not decode: the cache-miss sample above
is answered with an error. -/
theorem parseRawEvent_too_small :
    (Ebpf.parseRawEvent cacheMissRecord.bytes).2 = some "event too small: 40 bytes" ∧
      ¬ ∀ (signal : Signal) (cgroupId : UInt64) (record : EventT), Emitted signal cgroupId record →
        Decodes signal cgroupId record (Ebpf.parseRawEvent record.bytes) := by
  have herror : (Ebpf.parseRawEvent cacheMissRecord.bytes).2 = some "event too small: 40 bytes" :=
    by decide +kernel
  refine ⟨herror, fun h => ?_⟩
  have hnone := (h _ _ _ emitted_cacheMissRecord).noError
  rw [herror] at hnone
  contradiction

end Akil
