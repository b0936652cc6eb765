import Akil.Framework.BoundedMap
import Akil.Framework.LittleEndian
import Akil.Framework.TimedRun

/-!
# The probes (`pkg/ebpf/akil.c`)

Five handlers run in the kernel.  Four of them emit a `struct event_t` into the ring buffer:
page faults, context switches, sampled cache misses and the end of a lock wait.  The fifth, the
start of a lock wait, only stores the start time under the thread's id in the hash map
`lock_starts`, from which the end of the wait takes it.

An event is modelled as the forty bytes user space reads: the handler stores its fields, little
endian, into a record reserved in ring-buffer memory, and every byte it does not store (the
padding after `event_type` and the rest of the payload union) keeps whatever the memory held.
Reservations may fail, updates of `lock_starts` fail when the map is full and may fail for want
of memory, and each handler execution is atomic and reads the clock once.
-/

namespace Akil

/-! ## `struct event_t` -/

/-- `sizeof(struct event_t)`: the type at 0, the cgroup at 8, the time stamp at 16 and the
payload union, as wide as its two-word member `ctx_switch`, at 24. -/
def sizeofEventT : ℕ := 40

/-- A `struct event_t` in ring-buffer memory. -/
structure EventT where
  bytes : List UInt8
  size_eq : bytes.length = sizeofEventT
deriving DecidableEq

namespace EventT

/-- Store the bytes `ys` at offset `off`. -/
def store (e : EventT) (off : ℕ) (ys : List UInt8) (h : off + ys.length ≤ sizeofEventT) :
    EventT :=
  ⟨overwrite e.bytes off ys, by rw [length_overwrite (by rw [e.size_eq]; exact h), e.size_eq]⟩

def setEventType (e : EventT) (v : UInt8) : EventT := e.store 0 [v] (by simp [sizeofEventT])

/-- Store a `__u64` member at offset `off`. -/
def storeU64 (e : EventT) (off : ℕ) (v : UInt64) (h : off + 8 ≤ sizeofEventT) : EventT :=
  e.store off (uint64Bytes v) (by rwa [length_uint64Bytes])

def setCgroupId (e : EventT) (v : UInt64) : EventT := e.storeU64 8 v (by simp [sizeofEventT])

def setTimestampNs (e : EventT) (v : UInt64) : EventT := e.storeU64 16 v (by simp [sizeofEventT])

def setMissCountDelta (e : EventT) (v : UInt64) : EventT :=
  e.storeU64 24 v (by simp [sizeofEventT])

def setDurationNs (e : EventT) (v : UInt64) : EventT := e.storeU64 24 v (by simp [sizeofEventT])

end EventT

def eventTypePageFault : UInt8 := 1
def eventTypeCacheMiss : UInt8 := 2
def eventTypeLockContention : UInt8 := 3
def eventTypeCtxSwitch : UInt8 := 4

/-! ## The handlers -/

/-- `lock_starts`: contention start time per `pid_tgid`, at most 65536 threads. -/
abbrev LockStarts := BoundedMap UInt64 UInt64 65536

/-- What the helpers return to one handler execution.  `reserved` is the record
`bpf_ringbuf_reserve` gives, if it gives one, and `updateFails` says that
`bpf_map_update_elem` finds no memory although the map is not full. -/
structure HandlerContext where
  pidTgid : UInt64
  cgroupId : UInt64
  reserved : Option EventT
  updateFails : Bool

def handlePageFault (ctx : HandlerContext) (now : UInt64) : Option EventT :=
  ctx.reserved.map fun e =>
    ((e.setEventType eventTypePageFault).setCgroupId ctx.cgroupId).setTimestampNs now

def handleSchedSwitch (ctx : HandlerContext) (now : UInt64) : Option EventT :=
  ctx.reserved.map fun e =>
    ((e.setEventType eventTypeCtxSwitch).setCgroupId ctx.cgroupId).setTimestampNs now

/-- `handle_cache_miss`, with the sample period the loader has set. -/
def handleCacheMiss (cacheMissSamplePeriod : UInt64) (ctx : HandlerContext) (now : UInt64) :
    Option EventT :=
  ctx.reserved.map fun e =>
    (((e.setEventType eventTypeCacheMiss).setCgroupId ctx.cgroupId).setTimestampNs
      now).setMissCountDelta cacheMissSamplePeriod

def handleContentionBegin (ctx : HandlerContext) (ts : UInt64) (lockStarts : LockStarts) :
    LockStarts :=
  lockStarts.update ctx.pidTgid ts ctx.updateFails

def handleContentionEnd (ctx : HandlerContext) (now : UInt64) (lockStarts : LockStarts) :
    LockStarts × Option EventT :=
  match lockStarts.lookup ctx.pidTgid with
  | none => (lockStarts, none)
  | some start =>
      let duration := now - start
      (lockStarts.delete ctx.pidTgid,
        ctx.reserved.map fun e =>
          (((e.setEventType eventTypeLockContention).setCgroupId ctx.cgroupId).setTimestampNs
            now).setDurationNs duration)

/-! ## Runs of the probes -/

inductive Probe
  | pageFault
  | schedSwitch
  | cacheMiss
  | contentionBegin
  | contentionEnd
deriving DecidableEq

structure ProbeCall where
  probe : Probe
  ctx : HandlerContext

namespace ProbeCall

/-- What an execution leaves in `lock_starts`. -/
def exec (now : UInt64) (c : ProbeCall) (lockStarts : LockStarts) : LockStarts :=
  match c.probe with
  | .contentionBegin => handleContentionBegin c.ctx now lockStarts
  | .contentionEnd => (handleContentionEnd c.ctx now lockStarts).1
  | .pageFault | .schedSwitch | .cacheMiss => lockStarts

/-- What an execution submits to the ring buffer. -/
def emit (cacheMissSamplePeriod : UInt64) (now : UInt64) (c : ProbeCall)
    (lockStarts : LockStarts) : Option EventT :=
  match c.probe with
  | .pageFault => handlePageFault c.ctx now
  | .schedSwitch => handleSchedSwitch c.ctx now
  | .cacheMiss => handleCacheMiss cacheMissSamplePeriod c.ctx now
  | .contentionBegin => none
  | .contentionEnd => (handleContentionEnd c.ctx now lockStarts).2

end ProbeCall

/-! ## Reading the fields back -/

namespace EventT

/-- The bytes `lo` to `hi` of the record. -/
def range (e : EventT) (lo hi : ℕ) : List UInt8 := slice e.bytes lo hi

/-- A `__u64` member at offset `off`. -/
def loadU64 (e : EventT) (off : ℕ) : UInt64 := uint64OfBytes (e.range off (off + 8))

def eventType (e : EventT) : UInt8 := e.bytes.getD 0 0

def timestampNs (e : EventT) : UInt64 := e.loadU64 16

def durationNs (e : EventT) : UInt64 := e.loadU64 24

lemma loadU64_storeU64_self (e : EventT) {off : ℕ} (v : UInt64) (h : off + 8 ≤ sizeofEventT) :
    (e.storeU64 off v h).loadU64 off = v := by
  have hoff : off ≤ e.bytes.length := by rw [e.size_eq]; omega
  rw [loadU64, range, storeU64, store, slice_overwrite_self hoff (by rw [length_uint64Bytes]),
    uint64OfBytes_uint64Bytes]

/-- Storing one member leaves a member after or before it as it was. -/
lemma loadU64_storeU64_of_disjoint (e : EventT) {off off' : ℕ} (v : UInt64)
    (h : off + 8 ≤ sizeofEventT) (hdisj : off' + 8 ≤ off ∨ off + 8 ≤ off') :
    (e.storeU64 off v h).loadU64 off' = e.loadU64 off' := by
  have hoff : off ≤ e.bytes.length := by rw [e.size_eq]; omega
  rw [loadU64, loadU64, range, range, storeU64, store]
  rcases hdisj with hbefore | hafter
  · rw [slice_overwrite_of_le hoff hbefore]
  · rw [slice_overwrite_of_ge hoff (by rwa [length_uint64Bytes])]

lemma eventType_setEventType (e : EventT) (v : UInt8) : (e.setEventType v).eventType = v := by
  simp [eventType, setEventType, store, overwrite]

/-- Storing a word leaves the type byte as it was. -/
lemma eventType_storeU64 (e : EventT) {off : ℕ} (v : UInt64) (h : off + 8 ≤ sizeofEventT)
    (hoff : 0 < off) : (e.storeU64 off v h).eventType = e.eventType := by
  have hlen : 0 < (e.bytes.take off).length := by
    simp only [List.length_take, e.size_eq, sizeofEventT]
    omega
  simp only [eventType, storeU64, store, overwrite, List.getD_eq_getElem?_getD,
    List.append_assoc]
  rw [List.getElem?_append_left hlen, List.getElem?_take_of_lt hoff]

@[simp] lemma timestampNs_setTimestampNs (e : EventT) (v : UInt64) :
    (e.setTimestampNs v).timestampNs = v := e.loadU64_storeU64_self v _

@[simp] lemma timestampNs_setDurationNs (e : EventT) (v : UInt64) :
    (e.setDurationNs v).timestampNs = e.timestampNs :=
  e.loadU64_storeU64_of_disjoint v _ (Or.inl (by decide))

@[simp] lemma durationNs_setDurationNs (e : EventT) (v : UInt64) :
    (e.setDurationNs v).durationNs = v := e.loadU64_storeU64_self v _

end EventT

end Akil
