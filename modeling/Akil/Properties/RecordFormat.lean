import Akil.Construction.Probe.Loader

/-!
# The format `ParseRawEvent` reads

`RawBPFEvent` gives a record the layout of a type byte, seven bytes of padding, the cgroup, the time
stamp and forty bytes of payload, of which every kind of event uses the first few.  `Record` is this
format, apart from the decoder: which byte strings are a record of which event.  `ParseRawEvent`
decodes exactly the records, each to its event, and refuses all else for one of two reasons: its
checks of the payload's size come after that of the record's and are never the ones to fail.
-/

namespace Akil

namespace EventPayload

/-- The type byte for the kind of a payload. -/
def type : EventPayload → UInt8
  | .pageFault _ _ => eventPageFault
  | .cacheMiss _ => eventCacheMiss
  | .lockContention _ _ => eventLockContention
  | .ctxSwitch _ _ _ => eventCtxSwitch

/-- The bytes of a payload.  Any flag but zero says that the fault was a major one. -/
inductive Bytes : EventPayload → List UInt8 → Prop
  | pageFault (flag : UInt8) (address : UInt64) :
      Bytes (.pageFault (flag != 0) address) ([flag] ++ uint64Bytes address)
  | cacheMiss (missCountDelta : UInt64) :
      Bytes (.cacheMiss missCountDelta) (uint64Bytes missCountDelta)
  | lockContention (lockAddress : UInt64) (durationNs : Int64) :
      Bytes (.lockContention lockAddress durationNs)
        (uint64Bytes lockAddress ++ uint64Bytes durationNs.toUInt64)
  | ctxSwitch (prevCgroupID nextCgroupID : UInt64) (prevState : Int32) :
      Bytes (.ctxSwitch prevCgroupID nextCgroupID prevState)
        (uint64Bytes prevCgroupID ++
          (uint64Bytes nextCgroupID ++ leBytes 4 prevState.toUInt32.toNat))

/-- Every payload can be written, in at most forty bytes. -/
lemma exists_bytes (p : EventPayload) : ∃ bs, p.Bytes bs ∧ bs.length ≤ 40 := by
  cases p with
  | pageFault isMajor address =>
      cases isMajor with
      | false => exact ⟨_, .pageFault 0 address, by simp⟩
      | true => exact ⟨_, .pageFault 1 address, by simp⟩
  | cacheMiss missCountDelta => exact ⟨_, .cacheMiss missCountDelta, by simp⟩
  | lockContention lockAddress durationNs =>
      exact ⟨_, .lockContention lockAddress durationNs, by simp⟩
  | ctxSwitch prevCgroupID nextCgroupID prevState =>
      exact ⟨_, .ctxSwitch prevCgroupID nextCgroupID prevState, by simp⟩

end EventPayload

namespace Ebpf

/-- The records of an event: its fields at their offsets, whatever the padding holds and whatever
follows the bytes of its payload. -/
inductive Record : RawEvent → List UInt8 → Prop
  | mk (cgroupID timestampNs : UInt64) {p : EventPayload} {padding bs rest : List UInt8}
      (hpadding : padding.length = 7) (hbs : p.Bytes bs) (hlength : 40 ≤ (bs ++ rest).length) :
      Record ⟨p.type, cgroupID, timestampNs, some p⟩
        ((p.type :: padding) ++ (uint64Bytes cgroupID ++ (uint64Bytes timestampNs ++ (bs ++ rest))))

/-! ## The payload -/

lemma int32OfBytes_leBytes (x : Int32) : int32OfBytes (leBytes 4 x.toUInt32.toNat) = x := by
  have hlt : x.toUInt32.toNat < 256 ^ 4 := x.toUInt32.toNat_lt
  rw [int32OfBytes, leValue_leBytes, Nat.mod_eq_of_lt hlt, UInt32.ofNat_toNat,
    Int32.toInt32_toUInt32]

lemma leBytes_int32OfBytes {bs : List UInt8} (h : bs.length = 4) :
    leBytes 4 (int32OfBytes bs).toUInt32.toNat = bs := by
  have hlt : leValue bs < 2 ^ 32 := (leValue_lt bs).trans_eq (by rw [h]; rfl)
  have hbytes := leBytes_leValue bs
  rwa [h, ← UInt32.toNat_ofNat_of_lt' hlt, ← UInt32.toUInt32_toInt32 (UInt32.ofNat _)] at hbytes

/-- What was written for a payload is read back. -/
lemma parsePayload_bytes {p : EventPayload} {bs : List UInt8} (h : p.Bytes bs) (rest : List UInt8) :
    parsePayload p.type (bs ++ rest) = .ok p := by
  cases h with
  | pageFault flag address =>
      have haddress : slice ([flag] ++ (uint64Bytes address ++ rest)) 1 9 = uint64Bytes address :=
        slice_append_middle rest rfl (by simp)
      rw [List.append_assoc, EventPayload.type, parsePayload, if_pos rfl, if_neg (by simp),
        haddress, uint64OfBytes_uint64Bytes]
      rfl
  | cacheMiss missCountDelta =>
      rw [EventPayload.type, parsePayload, if_neg (by decide), if_pos rfl, if_neg (by simp),
        slice_append_left rest (length_uint64Bytes _), uint64OfBytes_uint64Bytes]
  | lockContention lockAddress durationNs =>
      have hduration : slice (uint64Bytes lockAddress ++ (uint64Bytes durationNs.toUInt64 ++ rest))
          8 16 = uint64Bytes durationNs.toUInt64 :=
        slice_append_middle rest (length_uint64Bytes _) (by simp)
      rw [List.append_assoc, EventPayload.type, parsePayload, if_neg (by decide),
        if_neg (by decide), if_pos rfl, if_neg (by simp; omega),
        slice_append_left _ (length_uint64Bytes _), hduration, uint64OfBytes_uint64Bytes,
        uint64OfBytes_uint64Bytes, Int64.toInt64_toUInt64]
  | ctxSwitch prevCgroupID nextCgroupID prevState =>
      have hnext : slice (uint64Bytes prevCgroupID ++ (uint64Bytes nextCgroupID ++
          (leBytes 4 prevState.toUInt32.toNat ++ rest))) 8 16 = uint64Bytes nextCgroupID :=
        slice_append_middle _ (length_uint64Bytes _) (by simp)
      have hstate : slice (uint64Bytes prevCgroupID ++ (uint64Bytes nextCgroupID ++
          (leBytes 4 prevState.toUInt32.toNat ++ rest))) 16 20
            = leBytes 4 prevState.toUInt32.toNat := by
        rw [← List.append_assoc]
        exact slice_append_middle rest (by simp) (by simp)
      rw [List.append_assoc, List.append_assoc, EventPayload.type, parsePayload,
        if_neg (by decide), if_neg (by decide), if_neg (by decide), if_pos rfl,
        if_neg (by simp; omega), slice_append_left _ (length_uint64Bytes _), hnext, hstate,
        uint64OfBytes_uint64Bytes, uint64OfBytes_uint64Bytes, int32OfBytes_leBytes]

/-- What is read is what the bytes say, and there are as many as that takes. -/
lemma bytes_of_parsePayload {type : UInt8} {payloadData : List UInt8} {p : EventPayload}
    (h : parsePayload type payloadData = .ok p) :
    p.type = type ∧ ∃ bs rest, p.Bytes bs ∧ payloadData = bs ++ rest := by
  have hword : ∀ lo, lo + 8 ≤ payloadData.length →
      uint64Bytes (uint64OfBytes (slice payloadData lo (lo + 8))) = slice payloadData lo (lo + 8) :=
    fun _ hlen => uint64Bytes_uint64OfBytes ((length_slice hlen).trans (Nat.add_sub_cancel_left ..))
  rw [parsePayload] at h
  split_ifs at h with hpf hlen hcm hlen hlc hlen hcs hlen
  · obtain rfl := Except.ok.inj h
    refine ⟨hpf.symm, _, payloadData.drop 9, .pageFault _ _, ?_⟩
    rw [hword 1 (by omega), List.append_assoc, slice_append_drop _ (by omega)]
    cases payloadData with
    | nil => simp at hlen
    | cons b bs => rfl
  · obtain rfl := Except.ok.inj h
    refine ⟨hcm.symm, _, payloadData.drop 8, .cacheMiss _, ?_⟩
    rw [hword 0 (by omega), slice_append_drop _ (by omega), List.drop_zero]
  · obtain rfl := Except.ok.inj h
    refine ⟨hlc.symm, _, payloadData.drop 16, .lockContention _ _, ?_⟩
    rw [UInt64.toUInt64_toInt64, hword 0 (by omega), hword 8 (by omega),
      List.append_assoc, slice_append_drop _ (by omega), slice_append_drop _ (by omega),
      List.drop_zero]
  · obtain rfl := Except.ok.inj h
    refine ⟨hcs.symm, _, payloadData.drop 20, .ctxSwitch _ _ _, ?_⟩
    rw [hword 0 (by omega), hword 8 (by omega),
      leBytes_int32OfBytes (length_slice (by omega)), List.append_assoc, List.append_assoc,
      slice_append_drop _ (by omega), slice_append_drop _ (by omega),
      slice_append_drop _ (by omega), List.drop_zero]

/-- Forty bytes are enough for every kind. -/
lemma parsePayload_error_iff {type : UInt8} {payloadData : List UInt8}
    (h : 40 ≤ payloadData.length) (err : String) : parsePayload type payloadData = .error err ↔
      3 < type ∧ err = "unknown event type: " ++ toString type.toNat := by
  have hknown : ∀ {kind : UInt8}, type = kind → ¬ 3 < kind →
      (False ↔ 3 < type ∧ err = "unknown event type: " ++ toString type.toNat) := by
    rintro kind rfl hkind
    exact iff_of_false id (fun herr => hkind herr.1)
  rw [parsePayload]
  split_ifs with hpf hlen hcm hlen hlc hlen hcs hlen
  · omega
  · exact hknown hpf (by decide)
  · omega
  · exact hknown hcm (by decide)
  · omega
  · exact hknown hlc (by decide)
  · omega
  · exact hknown hcs (by decide)
  · have hkind : 3 < type := by
      rw [← UInt8.toNat_inj] at hpf hcm hlc hcs
      rw [UInt8.lt_iff_toNat_lt]
      simp only [eventPageFault, eventCacheMiss, eventLockContention, eventCtxSwitch,
        UInt8.toNat_ofNat] at hpf hcm hlc hcs ⊢
      omega
    rw [Except.error.injEq, and_iff_right hkind, eq_comm]

/-! ## The record -/

/-- A record is decoded to its event. -/
lemma parseRawEvent_record {evt : RawEvent} {data : List UInt8} (h : Record evt data) :
    parseRawEvent data = (evt, none) := by
  obtain @⟨cgroupID, timestampNs, p, padding, bs, rest, hpadding, hbs, hlength⟩ := h
  generalize hdata : (p.type :: padding) ++ (uint64Bytes cgroupID ++
    (uint64Bytes timestampNs ++ (bs ++ rest))) = data
  have htype : data.getD 0 0 = p.type := by
    rw [← hdata]
    rfl
  have hcgroup : slice data 8 16 = uint64Bytes cgroupID := by
    rw [← hdata]
    exact slice_append_middle _ (by rw [List.length_cons, hpadding]) (by simp)
  have htimestamp : slice data 16 24 = uint64Bytes timestampNs := by
    rw [← hdata, ← List.append_assoc]
    exact slice_append_middle _ (by simp [hpadding]) (by simp)
  have hpayload : data.drop 24 = bs ++ rest := by
    rw [← hdata, ← List.append_assoc, ← List.append_assoc]
    exact List.drop_left' (by simp [hpadding])
  have hsize : ¬ data.length < sizeofRawBPFEvent := by
    rw [← hpayload, List.length_drop] at hlength
    rw [sizeofRawBPFEvent]
    omega
  rw [parseRawEvent, if_neg hsize, hcgroup, htimestamp, hpayload, htype]
  dsimp only
  rw [parsePayload_bytes hbs, uint64OfBytes_uint64Bytes, uint64OfBytes_uint64Bytes]

/-- What is decoded is a record. -/
lemma record_of_parseRawEvent {evt : RawEvent} {data : List UInt8}
    (h : parseRawEvent data = (evt, none)) : Record evt data := by
  rw [parseRawEvent] at h
  split_ifs at h with hsize
  · cases h
  rw [sizeofRawBPFEvent, not_lt] at hsize
  dsimp only at h
  cases hparse : parsePayload (data.getD 0 0) (data.drop 24) with
  | error err =>
      rw [hparse] at h
      cases h
  | ok p =>
      rw [hparse] at h
      obtain ⟨rfl, -⟩ := Prod.mk.inj h
      obtain ⟨htype, bs, rest, hbs, hpayload⟩ := bytes_of_parsePayload hparse
      have hdata : data = (data.getD 0 0 :: slice data 1 8) ++ (slice data 8 16 ++
          (slice data 16 24 ++ (bs ++ rest))) := by
        rw [← hpayload, slice_append_drop _ (by omega), slice_append_drop _ (by omega),
          List.cons_append, slice_append_drop _ (by omega)]
        cases data with
        | nil => simp at hsize
        | cons b bs => rfl
      have hlength : 40 ≤ (bs ++ rest).length := by
        rw [← hpayload, List.length_drop]
        omega
      have hrecord : Record ⟨p.type, uint64OfBytes (slice data 8 16),
          uint64OfBytes (slice data 16 24), some p⟩ ((p.type :: slice data 1 8) ++
            (uint64Bytes (uint64OfBytes (slice data 8 16)) ++
              (uint64Bytes (uint64OfBytes (slice data 16 24)) ++ (bs ++ rest)))) :=
        .mk _ _ (length_slice (by omega)) hbs hlength
      rw [uint64Bytes_uint64OfBytes (length_slice (by omega)),
        uint64Bytes_uint64OfBytes (length_slice (by omega)), htype, ← hdata] at hrecord
      exact hrecord

/-- **The format is exact.**  `ParseRawEvent` decodes the records and nothing else, each to the
event it is a record of; every event whose type is that of its payload has a record; and what is no
record is refused for its size if it is too short, and else for its type. -/
theorem parseRawEvent_exact :
    (∀ data evt, parseRawEvent data = (evt, none) ↔ Record evt data) ∧
      (∀ (cgroupID timestampNs : UInt64) (p : EventPayload), ∃ data,
        Record ⟨p.type, cgroupID, timestampNs, some p⟩ data) ∧
      ∀ data err, (parseRawEvent data).2 = some err ↔
        (data.length < 64 ∧ err = "event too small: " ++ toString data.length ++ " bytes") ∨
          (64 ≤ data.length ∧ 3 < data.getD 0 0 ∧
            err = "unknown event type: " ++ toString (data.getD 0 0).toNat) := by
  refine ⟨fun data evt => ⟨record_of_parseRawEvent, parseRawEvent_record⟩,
    fun cgroupID timestampNs p => ?_, fun data err => ?_⟩
  · obtain ⟨bs, hbs, hlength⟩ := p.exists_bytes
    refine ⟨(p.type :: List.replicate 7 0) ++ (uint64Bytes cgroupID ++ (uint64Bytes timestampNs ++
      (bs ++ List.replicate (40 - bs.length) 0))),
      .mk cgroupID timestampNs List.length_replicate hbs ?_⟩
    rw [List.length_append, List.length_replicate]
    omega
  · rw [parseRawEvent, show sizeofRawBPFEvent = 64 from rfl]
    split_ifs with hsize
    · simp only [Option.some.injEq, hsize, true_and, not_le.mpr hsize, false_and, or_false]
      exact eq_comm
    · have hpayload : 40 ≤ (data.drop 24).length := by
        rw [List.length_drop]
        omega
      rw [not_lt] at hsize
      simp only [not_lt.mpr hsize, hsize, true_and, false_and, false_or,
        ← parsePayload_error_iff hpayload]
      cases parsePayload (data.getD 0 0) (data.drop 24) with
      | error err' => simp only [Option.some.injEq, Except.error.injEq]
      | ok p => simp

end Ebpf

end Akil
