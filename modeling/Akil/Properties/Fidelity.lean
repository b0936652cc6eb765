import Akil.Construction.Aggregator.Ingest
import Akil.Construction.Collector.Loop
import Akil.Construction.Probe.Handlers

/-!
# End-to-end telemetry fidelity

A record submitted by a probe goes through four representations: the bytes of `struct event_t`,
the offsets at which the collector reads them, the `TelemetryEvent` message with its `oneof`
payload, and the `Record*` call of `StreamTelemetry`.  `Emitted` says, through the handlers
themselves, which bytes a signal of a cgroup may leave in the ring buffer; `parseSample_bytes`
that the collector reads the same signal off those bytes; and `calls_event` that the aggregator
makes of the event exactly one record of that signal.

In between stands the loop that batches.  `loop_groups` cuts the resolved samples into the
batches: the groups in order, followed by what is still buffered, are all resolved samples, so
none is lost between batches and none is sent twice, whatever the clock and `Send` do.
-/

namespace Akil

/-! ## What a probe leaves in the ring buffer -/

/-- What a probe measures. -/
inductive Signal
  | pageFault
  | cacheMiss (missCountDelta : UInt64)
  | lockContention (durationNs : UInt64)
  | ctxSwitch
  deriving DecidableEq

/-- The record `e` is what some execution of a handler submits for a signal of a cgroup. -/
inductive Emitted : Signal → UInt64 → EventT → Prop
  | pageFault {ctx : HandlerContext} {now : UInt64} {e : EventT}
      (h : handlePageFault ctx now = some e) : Emitted .pageFault ctx.cgroupId e
  | ctxSwitch {ctx : HandlerContext} {now : UInt64} {e : EventT}
      (h : handleSchedSwitch ctx now = some e) : Emitted .ctxSwitch ctx.cgroupId e
  | cacheMiss {period : UInt64} {ctx : HandlerContext} {now : UInt64} {e : EventT}
      (h : handleCacheMiss period ctx now = some e) : Emitted (.cacheMiss period) ctx.cgroupId e
  | lockContention {ctx : HandlerContext} {now start : UInt64} {m : LockStarts} {e : EventT}
      (hstart : m.lookup ctx.pidTgid = some start)
      (h : (handleContentionEnd ctx now m).2 = some e) :
      Emitted (.lockContention (now - start)) ctx.cgroupId e

/-- Whatever an execution of the probes emits is a record of one of the four signals. -/
lemma emitted_of_emit {period now : UInt64} {c : ProbeCall} {m : LockStarts} {e : EventT}
    (h : c.emit period now m = some e) : ∃ signal, Emitted signal c.ctx.cgroupId e := by
  obtain ⟨probe, ctx⟩ := c
  cases probe with
  | pageFault => exact ⟨_, .pageFault h⟩
  | schedSwitch => exact ⟨_, .ctxSwitch h⟩
  | cacheMiss => exact ⟨_, .cacheMiss h⟩
  | contentionBegin => cases h
  | contentionEnd =>
      cases hstart : m.lookup ctx.pidTgid with
      | none => simp [ProbeCall.emit, handleContentionEnd, hstart] at h
      | some start => exact ⟨_, .lockContention hstart h⟩

/-- A ring-buffer sample written by a probe. -/
structure Sample where
  signal : Signal
  cgroupId : UInt64
  record : EventT
  emitted : Emitted signal cgroupId record

/-! ### The fields as the collector will read them -/

namespace Signal

/-- The type byte of a signal. -/
def typeByte : Signal → UInt8
  | .pageFault => eventTypePageFault
  | .cacheMiss _ => eventTypeCacheMiss
  | .lockContention _ => eventTypeLockContention
  | .ctxSwitch => eventTypeCtxSwitch

/-- The payload word of a signal, for the signals that have one. -/
def word : Signal → Option UInt64
  | .pageFault | .ctxSwitch => none
  | .cacheMiss missCountDelta => some missCountDelta
  | .lockContention durationNs => some durationNs

end Signal

/-- The three stores every emitting handler makes leave the type byte and the cgroup. -/
lemma EventT.header_fields (e : EventT) (ty : UInt8) (cgroupId now : UInt64) :
    (((e.setEventType ty).setCgroupId cgroupId).setTimestampNs now).eventType = ty ∧
      (((e.setEventType ty).setCgroupId cgroupId).setTimestampNs now).loadU64 8 = cgroupId := by
  have hty : (((e.setEventType ty).setCgroupId cgroupId).setTimestampNs now).eventType
      = ((e.setEventType ty).setCgroupId cgroupId).eventType :=
    eventType_storeU64 _ _ _ (by decide)
  have hty' : ((e.setEventType ty).setCgroupId cgroupId).eventType
      = (e.setEventType ty).eventType := eventType_storeU64 _ _ _ (by decide)
  have hcg : (((e.setEventType ty).setCgroupId cgroupId).setTimestampNs now).loadU64 8
      = ((e.setEventType ty).setCgroupId cgroupId).loadU64 8 :=
    loadU64_storeU64_of_disjoint _ _ _ (Or.inl (by decide))
  exact ⟨hty.trans (hty'.trans (e.eventType_setEventType ty)),
    hcg.trans (loadU64_storeU64_self _ _ _)⟩

/-- A payload stored after the header leaves the header and reads back. -/
lemma EventT.payload_fields (e : EventT) (v : UInt64) (h : 24 + 8 ≤ sizeofEventT) :
    (e.storeU64 24 v h).eventType = e.eventType ∧ (e.storeU64 24 v h).loadU64 8 = e.loadU64 8 ∧
      (e.storeU64 24 v h).loadU64 24 = v :=
  ⟨e.eventType_storeU64 v h (by decide),
    e.loadU64_storeU64_of_disjoint v h (Or.inl (by decide)), e.loadU64_storeU64_self v h⟩

/-- The bytes of an emitted record: type at 0, cgroup at 8, payload at 24. -/
lemma Emitted.fields {signal : Signal} {cgroupId : UInt64} {e : EventT}
    (h : Emitted signal cgroupId e) :
    e.eventType = signal.typeByte ∧ e.loadU64 8 = cgroupId ∧
      ∀ v, signal.word = some v → e.loadU64 24 = v := by
  cases h with
  | @pageFault ctx now e h =>
      obtain ⟨mem, -, rfl⟩ := Option.map_eq_some_iff.mp h
      obtain ⟨hty, hcg⟩ := mem.header_fields eventTypePageFault ctx.cgroupId now
      exact ⟨hty, hcg, fun v hv => by cases hv⟩
  | @ctxSwitch ctx now e h =>
      obtain ⟨mem, -, rfl⟩ := Option.map_eq_some_iff.mp h
      obtain ⟨hty, hcg⟩ := mem.header_fields eventTypeCtxSwitch ctx.cgroupId now
      exact ⟨hty, hcg, fun v hv => by cases hv⟩
  | @cacheMiss period ctx now e h =>
      obtain ⟨mem, -, rfl⟩ := Option.map_eq_some_iff.mp h
      obtain ⟨hty, hcg⟩ := mem.header_fields eventTypeCacheMiss ctx.cgroupId now
      obtain ⟨hty', hcg', hword⟩ := EventT.payload_fields (((mem.setEventType
        eventTypeCacheMiss).setCgroupId ctx.cgroupId).setTimestampNs now) period (by decide)
      exact ⟨hty'.trans hty, hcg'.trans hcg, fun v hv => hword.trans (Option.some_inj.mp hv)⟩
  | @lockContention ctx now start m e hstart h =>
      simp only [handleContentionEnd, hstart] at h
      obtain ⟨mem, -, rfl⟩ := Option.map_eq_some_iff.mp h
      obtain ⟨hty, hcg⟩ := mem.header_fields eventTypeLockContention ctx.cgroupId now
      obtain ⟨hty', hcg', hword⟩ := EventT.payload_fields (((mem.setEventType
        eventTypeLockContention).setCgroupId ctx.cgroupId).setTimestampNs now) (now - start)
        (by decide)
      exact ⟨hty'.trans hty, hcg'.trans hcg, fun v hv => hword.trans (Option.some_inj.mp hv)⟩

/-! ## From the sample to the event -/

namespace Signal

/-- The event type of a signal. -/
def eventType : Signal → EventType
  | .pageFault => .pageFault
  | .cacheMiss _ => .cacheMiss
  | .lockContention _ => .lockContention
  | .ctxSwitch => .contextSwitch

/-- The payload of a signal. -/
def payload : Signal → Option Payload
  | .pageFault | .ctxSwitch => none
  | .cacheMiss missCountDelta => some (.cacheMiss missCountDelta)
  | .lockContention durationNs => some (.lockContention 0 durationNs.toInt64)

/-- The record of a signal. -/
def recordCall : Signal → RecordCall
  | .pageFault => .pageFault
  | .cacheMiss missCountDelta => .cacheMiss missCountDelta.toInt64
  | .lockContention durationNs => .lockContention durationNs.toInt64
  | .ctxSwitch => .ctxSwitch

/-- The constants of `akil.c` are the numbers of the protobuf enum. -/
lemma ofByte_typeByte (signal : Signal) : EventType.ofByte signal.typeByte = signal.eventType := by
  cases signal <;> rfl

end Signal

/-- A sample whose cgroup resolved to a workload key, with the reading for its time stamp. -/
structure ResolvedSample where
  signal : Signal
  key : String
  key_ne : key ≠ ""
  time : ℤ
  deriving DecidableEq

namespace ResolvedSample

/-- The event of a resolved sample. -/
def event (r : ResolvedSample) : TelemetryEvent :=
  ⟨r.signal.eventType, r.key, r.time, r.signal.payload⟩

/-- What the store is asked to do for a resolved sample: find or create the profile of its key
and make one record, of its signal and from the collector's node. -/
def calls (nodeName : String) (r : ResolvedSample) : List StoreCall :=
  [.getOrCreate r.key, .onProfile r.key (.record r.signal.recordCall nodeName)]

end ResolvedSample

/-- The resolved sample of an iteration that read a sample, if there is a resolver and its map
has the cgroup of the sample under a key that is not empty. -/
def resolveRead (read : Option Sample) (env : LoopEnv) : Option ResolvedSample :=
  read.bind fun sample =>
    env.resolver.bind fun r =>
      (r.cgroupMap.lookup sample.cgroupId).bind fun key =>
        if h : key = "" then none else some ⟨sample.signal, key, h, env.eventTime⟩

lemma resolveRead_some (sample : Sample) (env : LoopEnv) :
    resolveRead (some sample) env
      = if h : env.workloadKey sample.cgroupId = "" then none
        else some ⟨sample.signal, env.workloadKey sample.cgroupId, h, env.eventTime⟩ := by
  cases hresolver : env.resolver with
  | none => simp [resolveRead, LoopEnv.workloadKey, hresolver]
  | some r =>
      cases hlookup : r.cgroupMap.lookup sample.cgroupId <;>
        simp [resolveRead, LoopEnv.workloadKey, Resolver.resolve, hresolver, hlookup]

/-- **Parsing.**  The collector makes of the bytes a probe wrote the event of its signal. -/
lemma parseSample_bytes (read : Option Sample) (env : LoopEnv) :
    (read.map (fun sample => sample.record.bytes)).bind (parseSample env)
      = (resolveRead read env).map ResolvedSample.event := by
  cases read with
  | none => rfl
  | some sample =>
      obtain ⟨signal, cgroupId, e, hemitted⟩ := sample
      obtain ⟨hty, hcg, hword⟩ := hemitted.fields
      have hcg' : uint64OfBytes (slice e.bytes 8 16) = cgroupId := hcg
      have hty' : e.bytes.getD 0 0 = signal.typeByte := hty
      have hlen : e.bytes.length = 40 := e.size_eq
      have hpayload : payloadOf signal.eventType (uint64OfBytes (slice e.bytes 24 32))
          = signal.payload := by
        cases signal with
        | pageFault => rfl
        | ctxSwitch => rfl
        | cacheMiss v =>
            have hv : uint64OfBytes (slice e.bytes 24 32) = v := hword v rfl
            rw [hv]
            rfl
        | lockContention v =>
            have hv : uint64OfBytes (slice e.bytes 24 32) = v := hword v rfl
            rw [hv]
            rfl
      have hparse : parseSample env e.bytes
          = if env.workloadKey cgroupId = "" then none
            else some
              ⟨signal.eventType, env.workloadKey cgroupId, env.eventTime, signal.payload⟩ := by
        have hshort : ¬ e.bytes.length < 24 := by omega
        have hlong : e.bytes.length ≥ 32 := by omega
        simp only [parseSample, if_neg hshort, if_pos hlong, hcg', hty', signal.ofByte_typeByte,
          hpayload]
      change parseSample env e.bytes = _
      rw [hparse]
      rw [resolveRead_some]
      by_cases hkey : env.workloadKey cgroupId = ""
      · simp [hkey]
      · simp [ResolvedSample.event, hkey]

/-- **Dispatch.**  `StreamTelemetry` makes of the event of a signal one record of that signal. -/
lemma calls_event (nodeName : String) (r : ResolvedSample) :
    r.event.calls nodeName = r.calls nodeName := by
  obtain ⟨signal, key, hkey, time⟩ := r
  have hne : (ResolvedSample.event ⟨signal, key, hkey, time⟩).workloadKey ≠ "" := hkey
  rw [TelemetryEvent.calls, if_neg hne]
  cases signal <;> rfl

/-! ## The loop -/

/-- One iteration, in terms of resolved samples. -/
lemma iterate_eq (nodeName : String) (read : Option Sample) (env : LoopEnv) (s : LoopState) :
    s.iterate nodeName (read.map (fun sample => sample.record.bytes)) env
      = match resolveRead read env with
        | none => (s, none)
        | some r =>
            if (s.events ++ [r.event]).length ≥ 100 ∨ env.sinceTime - s.lastFlush > 10 ^ 9 then
              (⟨[], env.flushTime, if env.sendOk then s.stream
                  else if env.reopenOk then s.stream + 1 else s.stream⟩,
                some ⟨s.stream, ⟨nodeName, env.batchTime, s.events ++ [r.event]⟩, env.sendOk⟩)
            else ({ s with events := s.events ++ [r.event] }, none) := by
  rw [LoopState.iterate, parseSample_bytes]
  cases resolveRead read env <;> rfl

/-- The batch `b` is made of exactly the resolved samples `group`, and has the store make exactly
their records. -/
structure BatchOf (nodeName : String) (group : List ResolvedSample) (b : TelemetryBatch) :
    Prop where
  nonempty : b.events ≠ []
  length_le : b.events.length ≤ 100
  node : b.nodeName = nodeName
  events : b.events = group.map ResolvedSample.event
  calls : b.calls = group.flatMap (ResolvedSample.calls nodeName)

lemma batchOf_mk {nodeName : String} {group : List ResolvedSample} (hne : group ≠ [])
    (hle : group.length ≤ 100) (t : ℤ) :
    BatchOf nodeName group ⟨nodeName, t, group.map ResolvedSample.event⟩ where
  nonempty := by simpa using hne
  length_le := by simpa using hle
  node := rfl
  events := rfl
  calls := by simp [TelemetryBatch.calls, List.flatMap_map, calls_event]

/-- **One iteration groups.**  With the samples `tail` in the buffer, the batch it sends, if it
sends one, is made of a group; the group and the samples then left in the buffer are `tail` and the
sample that was resolved. -/
lemma iterate_groups (nodeName : String) (read : Option Sample) (env : LoopEnv)
    {tail : List ResolvedSample} (htail : tail.length < 100) {s : LoopState}
    (hs : s.events = tail.map ResolvedSample.event) :
    let next := s.iterate nodeName (read.map (fun sample => sample.record.bytes)) env
    ∃ groups tail', groups.flatten ++ tail' = tail ++ (resolveRead read env).toList ∧
      tail'.length < 100 ∧ next.1.events = tail'.map ResolvedSample.event ∧
      List.Forall₂ (BatchOf nodeName) groups (next.2.toList.map SendCall.batch) := by
  intro next
  have hiter : next = _ := iterate_eq nodeName read env s
  cases hres : resolveRead read env with
  | none =>
      rw [hres] at hiter
      rw [hiter]
      exact ⟨[], tail, by simp, htail, hs, List.Forall₂.nil⟩
  | some r =>
      have hevents : s.events ++ [r.event] = (tail ++ [r]).map ResolvedSample.event := by
        simp [hs]
      rw [hres] at hiter
      by_cases hflush : (s.events ++ [r.event]).length ≥ 100
          ∨ env.sinceTime - s.lastFlush > 10 ^ 9
      · -- flush: the buffer with the new sample is the group
        simp only [if_pos hflush] at hiter
        have hlen : (tail ++ [r]).length ≤ 100 := by
          simp only [List.length_append, List.length_singleton]
          omega
        have hbatch : BatchOf nodeName (tail ++ [r])
            ⟨nodeName, env.batchTime, s.events ++ [r.event]⟩ :=
          hevents ▸ batchOf_mk (by simp) hlen env.batchTime
        rw [hiter]
        exact ⟨[tail ++ [r]], [], by simp, by decide, rfl, List.Forall₂.cons hbatch .nil⟩
      · -- no flush: the buffer has not reached a hundred
        simp only [if_neg hflush] at hiter
        have hshort : (tail ++ [r]).length < 100 := by
          have := (not_or.mp hflush).1
          rw [hevents, List.length_map] at this
          omega
        rw [hiter]
        exact ⟨[], tail ++ [r], by simp, hshort, hevents, List.Forall₂.nil⟩

/-- **The loop groups the resolved samples.**  Starting with the samples `tail` in the buffer,
the batches are made of groups which, with the samples left in the buffer at the end, are `tail`
and all samples resolved since, in order. -/
lemma loop_groups (nodeName : String) (reads : List (Option Sample × LoopEnv))
    (tail : List ResolvedSample) (htail : tail.length < 100) (s : LoopState)
    (hs : s.events = tail.map ResolvedSample.event) :
    let run := s.loop nodeName (reads.map fun r => (r.1.map (fun x => x.record.bytes), r.2))
    ∃ groups tail', groups.flatten ++ tail'
        = tail ++ reads.filterMap (fun r => resolveRead r.1 r.2) ∧
      tail'.length < 100 ∧ run.1.events = tail'.map ResolvedSample.event ∧
      List.Forall₂ (BatchOf nodeName) groups (run.2.map SendCall.batch) := by
  induction reads generalizing tail s with
  | nil => exact ⟨[], tail, by simp, htail, hs, List.Forall₂.nil⟩
  | cons r reads ih =>
      obtain ⟨read, env⟩ := r
      obtain ⟨groups, tail', hflat, hlt, hbuf, hall⟩ := iterate_groups nodeName read env htail hs
      obtain ⟨groups', tail'', hflat', hlt', hbuf', hall'⟩ := ih tail' hlt _ hbuf
      have hhead : ((read, env) :: reads).filterMap (fun r => resolveRead r.1 r.2)
          = (resolveRead read env).toList ++ reads.filterMap (fun r => resolveRead r.1 r.2) := by
        rw [List.filterMap_cons]
        cases resolveRead read env <;> rfl
      refine ⟨groups ++ groups', tail'', ?_, hlt', hbuf', ?_⟩
      · rw [List.flatten_append, List.append_assoc, hflat', ← List.append_assoc, hflat,
          List.append_assoc, hhead]
      · simp only [List.map_cons, LoopState.loop, List.map_append]
        exact List.rel_append hall hall'

/-! ## Values -/

/-- The record is of the signal's kind and, below `2 ^ 63`, carries its value unchanged. -/
def Signal.CarriedBy : Signal → RecordCall → Prop
  | .pageFault, .pageFault => True
  | .ctxSwitch, .ctxSwitch => True
  | .cacheMiss v, .cacheMiss delta => v.toNat < 2 ^ 63 → delta.toInt = v.toNat
  | .lockContention v, .lockContention durationNs => v.toNat < 2 ^ 63 → durationNs.toInt = v.toNat
  | _, _ => False

lemma toInt_toInt64_of_lt {v : UInt64} (h : v.toNat < 2 ^ 63) : v.toInt64.toInt = v.toNat := by
  have hbits : v.toInt64.toInt = v.toBitVec.toInt := rfl
  rw [hbits, BitVec.toInt_eq_toNat_of_lt (by simpa using by omega)]
  rfl

lemma Signal.carriedBy_recordCall (signal : Signal) : signal.CarriedBy signal.recordCall := by
  cases signal with
  | pageFault => trivial
  | ctxSwitch => trivial
  | cacheMiss v => exact toInt_toInt64_of_lt
  | lockContention v => exact toInt_toInt64_of_lt

/-- **End-to-end telemetry fidelity.**  Whatever samples the probes write, whatever the resolver
knows, the clock reads and `Send` does: the batches handed to `Send` are made of groups of
resolved samples that, with the fewer than a hundred still buffered, are all resolved samples in
order and each once; every batch is non-empty, holds at most a hundred events and names the
collector's node; and wherever a batch is ingested, each of its samples has the store make
exactly one record, of the signal the probe emitted, on the resolved key and the collector's
node, with the value the probe wrote if it is below `2 ^ 63`.  Every record that an execution of a
probe submits is such a sample. -/
theorem telemetry_fidelity (nodeName : String) (started : ℤ)
    (reads : List (Option Sample × LoopEnv)) :
    let run := (LoopState.new started).loop nodeName
      (reads.map fun r => (r.1.map (fun x => x.record.bytes), r.2))
    let resolved := reads.filterMap (fun r => resolveRead r.1 r.2)
    (∃ groups tail, groups.flatten ++ tail = resolved ∧ tail.length < 100 ∧
        run.1.events = tail.map ResolvedSample.event ∧
        List.Forall₂ (BatchOf nodeName) groups (run.2.map SendCall.batch)) ∧
      (∀ r ∈ resolved, r.signal.CarriedBy r.signal.recordCall) ∧
      ∀ (period now : UInt64) (c : ProbeCall) (lockStarts : LockStarts) (e : EventT),
        c.emit period now lockStarts = some e →
        ∃ sample : Sample, sample.cgroupId = c.ctx.cgroupId ∧ sample.record = e := by
  refine ⟨loop_groups nodeName reads [] (by decide) _ rfl, fun r _ => r.signal.carriedBy_recordCall,
    fun period now c lockStarts e hemit => ?_⟩
  obtain ⟨signal, hemitted⟩ := emitted_of_emit hemit
  exact ⟨⟨signal, c.ctx.cgroupId, e, hemitted⟩, rfl, rfl⟩

/-! ## A collector at work -/

/-- An execution on thread 7, in ring-buffer memory that held other data. -/
def contextOn (cgroupId : UInt64) : HandlerContext :=
  ⟨7, cgroupId, some ⟨List.replicate 40 170, by decide⟩, false⟩

def faultSample (cgroupId : UInt64) : Sample :=
  ⟨.pageFault, cgroupId, _, @Emitted.pageFault (contextOn cgroupId) 100 _ rfl⟩

def missSample (cgroupId : UInt64) : Sample :=
  ⟨.cacheMiss 10000, cgroupId, _, @Emitted.cacheMiss 10000 (contextOn cgroupId) 200 _ rfl⟩

/-- A wait of 700 ns that ends at 1000. -/
def waitSample : Sample :=
  ⟨.lockContention 700, 5, _,
    @Emitted.lockContention (contextOn 5) 1000 300 (BoundedMap.empty.update 7 300 false) _
      (by decide +kernel) rfl⟩

def switchSample : Sample :=
  ⟨.ctxSwitch, 5, _, @Emitted.ctxSwitch (contextOn 5) 1100 _ rfl⟩

/-- The resolver knows the cgroups 5 and 6, does not know 9 and has 8 under the empty key.  One
read fails, and the flush after the lock wait has its `Send` fail. -/
def mixedReads : List (Option Sample × LoopEnv) :=
  let resolver : Resolver :=
    ⟨((Finmap.singleton 5 "default/Deployment/web").insert 6 "default/Deployment/api").insert 8 ""⟩
  let env : ℤ → ℤ → LoopEnv := fun eventTime sinceTime =>
    ⟨some resolver, eventTime, sinceTime, sinceTime, sinceTime, false, true⟩
  [(some (faultSample 5), env 1 0), (some (missSample 9), env 2 0), (none, env 3 0),
    (some (missSample 6), env 4 0), (some (missSample 8), env 5 0),
    (some waitSample, env 6 (2 * 10 ^ 9)), (some switchSample, env 7 (2 * 10 ^ 9))]

/-- One sample of each signal resolves, and two do not: three are in the batch that was handed to
`Send` and the fourth is still buffered. -/
theorem telemetry_fidelity_mixed :
    let run := (LoopState.new 0).loop "node-1"
      (mixedReads.map fun r => (r.1.map (fun x => x.record.bytes), r.2))
    (∃ groups tail, groups.flatten ++ tail =
          [⟨.pageFault, "default/Deployment/web", by decide, 1⟩,
            ⟨.cacheMiss 10000, "default/Deployment/api", by decide, 4⟩,
            ⟨.lockContention 700, "default/Deployment/web", by decide, 6⟩,
            ⟨.ctxSwitch, "default/Deployment/web", by decide, 7⟩] ∧
        run.1.events = tail.map ResolvedSample.event ∧
        List.Forall₂ (BatchOf "node-1") groups (run.2.map SendCall.batch)) ∧
      run.2.map SendCall.batch = [⟨"node-1", 2 * 10 ^ 9,
        [⟨.pageFault, "default/Deployment/web", 1, none⟩,
          ⟨.cacheMiss, "default/Deployment/api", 4, some (.cacheMiss 10000)⟩,
          ⟨.lockContention, "default/Deployment/web", 6, some (.lockContention 0 700)⟩]⟩] ∧
      run.1.events = [⟨.contextSwitch, "default/Deployment/web", 7, none⟩] := by
  intro run
  obtain ⟨⟨groups, tail, hresolved, -, hbuffered, hsent⟩, -⟩ :=
    telemetry_fidelity "node-1" 0 mixedReads
  refine ⟨⟨groups, tail, hresolved.trans ?_, hbuffered, hsent⟩, ?_, ?_⟩ <;> decide +kernel

end Akil
