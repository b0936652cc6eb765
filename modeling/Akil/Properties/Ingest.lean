import Akil.Construction.Aggregator.Ingest
import Akil.Properties.StoreProduct

/-!
# No telemetry is lost or counted twice under concurrent ingest

Any number of `StreamTelemetry` handlers work on one store, interleaved in any order.  Each has
its own list of events; an event is *done* when the handler has gone on to the next one.  The
invariant of the shared store (`Accounts`) says that a key is stored if some done event has it,
and that its profile is a lone window that was fed the records of exactly the done events with
that key, each once, in the order they were done.  The assertion about a handler
(`Handler.Valid`) says what its stage promises: an address it holds is the one stored under the
key of its current event, and the profile it has built is a fresh window for that key.

`GetOrCreate` is a check followed by an act, so two handlers may both miss and both build a
profile.  What saves the events is that the address a handler goes on with is the one
`LoadOrStore` returns and that a stored address is never replaced (`SharedStore.Extends`), so
that no record goes to the loser's profile.

`System.run_conserves` carries the invariant along every interleaving.  As long as no rotation
happens, what a window counts is everything it was fed (`Fed.totals_eq`).
-/

namespace Akil

/-! ## Windows that have not rotated -/

/-- The sum of what a list of records adds to the counters. -/
def sumRecords (rs : List (String × RecordCall)) : Counts ℤ := (rs.map (fun r => r.2.counts)).sum

/-- The profile is a window of `key`, created at a reading of `C` and since then fed the records
`rs`, all within one bucket duration of its creation. -/
def Fed (key : String) (n : ℕ) (d : ℤ) (C : List ℤ) (rs : List (String × RecordCall))
    (wp : WorkloadProfile) : Prop :=
  ∃ created ∈ C, ∃ calls : List (ℤ × ProfileCall),
    wp = (newWorkloadProfile key n d created).run calls ∧
      calls.map Prod.snd = rs.map (fun r => .record r.2 r.1) ∧
      ∀ c ∈ calls, c.1 - created < d

namespace EventLog

/-- A call less than one bucket duration after the last rotation rotates nothing. -/
lemma rotate_eq_self {n : ℕ} {d : ℤ} (hd : 0 < d) {t : ℤ} {E : EventLog}
    (h : t - E.lastRotation < d) : E.rotate n d t = E := by
  have hq : ((t - E.lastRotation) / d).toNat = 0 := by
    rw [Int.toNat_eq_zero]
    have := Int.ediv_lt_of_lt_mul hd (show t - E.lastRotation < 1 * d by omega)
    omega
  rw [rotate, rotationsAt, hq, Nat.min_zero, if_pos rfl]

/-- While nothing rotates, a log counts every record it is given. -/
lemma sumCounts_run_of_recent {n : ℕ} (hn : 1 ≤ n) {d : ℤ} (hd : 0 < d) {E : EventLog}
    {calls : List (ℤ × ProfileCall)} {rs : List (String × RecordCall)}
    (hcalls : calls.map Prod.snd = rs.map (fun r => .record r.2 r.1))
    (hrecent : ∀ c ∈ calls, c.1 - E.lastRotation < d) :
    sumCounts ((E.run n d calls).counted n) = sumCounts (E.counted n) + sumRecords rs := by
  induction calls generalizing E rs with
  | nil =>
      obtain rfl : rs = [] := by simpa using hcalls.symm
      simp [run, sumRecords]
  | cons c calls ih =>
      obtain ⟨t, call⟩ := c
      cases rs with
      | nil => cases hcalls
      | cons r rs =>
          obtain ⟨rfl, htail⟩ := List.cons_eq_cons.mp hcalls
          have hrot := rotate_eq_self (n := n) hd (hrecent _ List.mem_cons_self)
          have hexec : E.exec n d t (.record r.2 r.1)
              = ⟨E.lastRotation, E.log.append ⟨t, r.1, r.2.counts⟩⟩ := by
            rw [exec, hrot]
          have hlast : (E.exec n d t (.record r.2 r.1)).lastRotation = E.lastRotation := by
            rw [hexec]
          have hsum : sumCounts ((E.exec n d t (.record r.2 r.1)).counted n)
              = sumCounts (E.counted n) + r.2.counts := by
            rw [hexec, counted, RotationLog.live_append hn]
            simp [sumCounts, counted]
          have hrest := ih htail (fun c hc => by
            rw [hlast]
            exact hrecent c (List.mem_cons_of_mem _ hc))
          rw [hsum] at hrest
          refine hrest.trans ?_
          simp [sumRecords, add_assoc]

end EventLog

namespace Fed

variable {key : String} {n : ℕ} {d : ℤ} {C : List ℤ} {rs : List (String × RecordCall)}
  {wp : WorkloadProfile}

lemma new {created : ℤ} (h : created ∈ C) : Fed key n d C [] (newWorkloadProfile key n d created) :=
  ⟨created, h, [], rfl, rfl, by simp⟩

/-- One more record. -/
lemma record (h : Fed key n d C rs wp) {t : ℤ} (ht : ∀ c ∈ C, t - c < d) (r : RecordCall)
    (nodeName : String) : Fed key n d C (rs ++ [(nodeName, r)]) (wp.execRecord r nodeName t) := by
  obtain ⟨created, hcreated, calls, rfl, hcalls, hrecent⟩ := h
  refine ⟨created, hcreated, calls ++ [(t, .record r nodeName)], ?_, ?_, ?_⟩
  · exact (timedRun_append WorkloadProfile.exec _ calls [(t, .record r nodeName)]).symm
  · simp [hcalls]
  · intro c hc
    rcases List.mem_append.mp hc with hc | hc
    · exact hrecent c hc
    · obtain rfl := List.mem_singleton.mp hc
      exact ht created hcreated

/-- What the window counts is the sum of what it was fed. -/
lemma totals_eq (h : Fed key n d C rs wp) (hn : 1 ≤ n) (hd : 0 < d) :
    wp.totals = Counts.wrap (sumRecords rs) := by
  obtain ⟨created, -, calls, rfl, hcalls, hrecent⟩ := h
  obtain ⟨hrefines, hparams⟩ := refines_new_run key hn hd created calls
  have hcount : ((newWorkloadProfile key n d created).run calls).bucketCount = n :=
    congrArg (fun p => p.2.1) hparams
  have hsum := EventLog.sumCounts_run_of_recent hn hd (E := EventLog.new created) hcalls hrecent
  have hzero : sumCounts ((EventLog.new created).counted n) = 0 := rfl
  rw [hrefines.totals_eq, hcount, hsum, hzero, zero_add]

/-- Its nodes are the nodes that reported. -/
lemma nodeLocations_eq (h : Fed key n d C rs wp) :
    wp.nodeLocations = (rs.map Prod.fst).toFinset := by
  obtain ⟨created, -, calls, rfl, hcalls, -⟩ := h
  have hnodes : recordedNodes calls = rs.map Prod.fst := by
    have hsnd : recordedNodes calls = (calls.map Prod.snd).filterMap ProfileCall.node? := by
      rw [recordedNodes, List.filterMap_map]
      rfl
    rw [hsnd, hcalls, List.filterMap_map]
    simp [Function.comp_def, ProfileCall.node?]
  rw [WorkloadProfile.nodeLocations_run, hnodes]
  exact Finset.empty_union _

lemma workloadKey_eq (h : Fed key n d C rs wp) : wp.workloadKey = key := by
  obtain ⟨created, -, calls, rfl, -, -⟩ := h
  exact congrArg Prod.fst ((newWorkloadProfile key n d created).params_run calls)

end Fed

/-! ## The invariant -/

/-- The records the events with workload key `key` cause, each with its node. -/
def recordsFor (key : String) (events : List (String × TelemetryEvent)) :
    List (String × RecordCall) :=
  (events.filter (fun w => w.2.workloadKey = key)).filterMap
    (fun w => w.2.recordCall.map (w.1, ·))

/-- The store accounts for the events `done`, all of them among `all`. -/
structure Accounts (n : ℕ) (d : ℤ) (C : List ℤ) (all done : List (String × TelemetryEvent))
    (s : SharedStore) : Prop where
  bucketCount : s.bucketCount = n
  bucketDuration : s.bucketDuration = d
  seen : ∀ key addr, s.load key = some addr → key ≠ "" ∧ key ∈ all.map (fun w => w.2.workloadKey)
  window : ∀ key addr, s.load key = some addr →
    ∃ wp, s.heap[addr]? = some wp ∧ Fed key n d C (recordsFor key done) wp
  absent : ∀ key, s.load key = none → ∀ w ∈ done, w.2.workloadKey = key → key = ""
  inj : ∀ key key' addr, s.load key = some addr → s.load key' = some addr → key = key'

/-- What the stage of a handler promises about its current event. -/
def Stage.Promises (n : ℕ) (d : ℤ) (C : List ℤ) (s : SharedStore) (evt : TelemetryEvent) :
    Stage → Prop
  | .next => True
  | .missed => evt.workloadKey ≠ ""
  | .created wp => evt.workloadKey ≠ "" ∧ ∃ c ∈ C, wp = newWorkloadProfile evt.workloadKey n d c
  | .located addr => s.load evt.workloadKey = some addr

/-- The assertion about a handler. -/
structure Handler.Valid (n : ℕ) (d : ℤ) (C : List ℤ) (all : List (String × TelemetryEvent))
    (s : SharedStore) (h : Handler) : Prop where
  pending_mem : ∀ w ∈ h.pending, w ∈ all
  promises : ∀ evt rest, h.events = evt :: rest → h.stage.Promises n d C s evt

/-- Stored addresses stay. -/
def SharedStore.Extends (s s' : SharedStore) : Prop :=
  ∀ key addr, s.load key = some addr → s'.load key = some addr

/-- A larger store keeps the promises of every handler. -/
lemma Handler.Valid.mono {n : ℕ} {d : ℤ} {C : List ℤ} {all : List (String × TelemetryEvent)}
    {s s' : SharedStore} (hext : s.Extends s') {h : Handler} (hv : h.Valid n d C all s) :
    h.Valid n d C all s' := by
  refine ⟨hv.pending_mem, fun evt rest hevents => ?_⟩
  have hpromise := hv.promises evt rest hevents
  cases hstage : h.stage with
  | next => trivial
  | missed => rwa [hstage] at hpromise
  | created wp => rwa [hstage] at hpromise
  | located addr =>
      rw [hstage] at hpromise
      exact hext _ _ hpromise

/-! ## What the store operations do to it -/

lemma recordsFor_concat (key : String) (done : List (String × TelemetryEvent))
    (w : String × TelemetryEvent) :
    recordsFor key (done ++ [w]) = recordsFor key done ++
      if w.2.workloadKey = key then (w.2.recordCall.map (w.1, ·)).toList else [] := by
  rw [recordsFor, List.filter_append, List.filterMap_append, ← recordsFor]
  congr 1
  by_cases hkey : w.2.workloadKey = key
  · cases hr : w.2.recordCall <;> simp [hkey, hr]
  · simp [hkey]

namespace Accounts

variable {n : ℕ} {d : ℤ} {C : List ℤ} {all done : List (String × TelemetryEvent)}
  {s : SharedStore}

/-- An event without a key is done without a trace. -/
lemma skip (h : Accounts n d C all done s) {w : String × TelemetryEvent}
    (hw : w.2.workloadKey = "") : Accounts n d C all (done ++ [w]) s := by
  refine ⟨h.bucketCount, h.bucketDuration, h.seen, fun key addr hload => ?_,
    fun key hnone w' hw' hkey => ?_, h.inj⟩
  · have hne : w.2.workloadKey ≠ key := by
      rw [hw]
      exact (h.seen key addr hload).1.symm
    rw [recordsFor_concat, if_neg hne, List.append_nil]
    exact h.window key addr hload
  · rcases List.mem_append.mp hw' with hw' | hw'
    · exact h.absent key hnone w' hw' hkey
    · rw [List.mem_singleton.mp hw', hw] at hkey
      exact hkey.symm

/-- Addresses in use lie below the next new one. -/
lemma addr_lt (h : Accounts n d C all done s) {key : String} {addr : ℕ}
    (hload : s.load key = some addr) : addr < s.heap.length := by
  obtain ⟨wp, hwp, -⟩ := h.window key addr hload
  exact (List.getElem?_eq_some_iff.mp hwp).1

/-- No done event has a key that is not stored. -/
lemma recordsFor_absent (h : Accounts n d C all done s) {key : String} (hkey : key ≠ "")
    (hload : s.load key = none) : recordsFor key done = [] := by
  have hfilter : done.filter (fun w => w.2.workloadKey = key) = [] := by
    refine List.filter_eq_nil_iff.mpr (fun w hw hwkey => ?_)
    exact hkey (h.absent key hload w hw (of_decide_eq_true hwkey))
  rw [recordsFor, hfilter]
  rfl

/-- A fresh window is stored under a key that has none. -/
lemma publish (h : Accounts n d C all done s) {key : String} (hkey : key ≠ "")
    (hmem : key ∈ all.map (fun w => w.2.workloadKey)) (hload : s.load key = none) {c : ℤ}
    (hc : c ∈ C) : Accounts n d C all done (s.publish key (newWorkloadProfile key n d c)) := by
  have hother : ∀ {key'}, key' ≠ key →
      (s.publish key (newWorkloadProfile key n d c)).load key' = s.load key' :=
    fun hne => s.load_publish_of_ne hne _
  have hself := s.load_publish_self key (newWorkloadProfile key n d c)
  refine ⟨h.bucketCount, h.bucketDuration, fun key' addr hl => ?_, fun key' addr hl => ?_,
    fun key' hnone => ?_, fun key₁ key₂ addr h₁ h₂ => ?_⟩
  · by_cases hne : key' = key
    · exact hne ▸ ⟨hkey, hmem⟩
    · rw [hother hne] at hl
      exact h.seen key' addr hl
  · by_cases hne : key' = key
    · subst hne
      obtain rfl : s.heap.length = addr := Option.some_inj.mp (hself.symm.trans hl)
      refine ⟨newWorkloadProfile key' n d c, by simp [SharedStore.publish], ?_⟩
      rw [h.recordsFor_absent hkey hload]
      exact Fed.new hc
    · rw [hother hne] at hl
      obtain ⟨wp, hwp, hfed⟩ := h.window key' addr hl
      exact ⟨wp, (List.getElem?_append_left (h.addr_lt hl)).trans hwp, hfed⟩
  · have hne : key' ≠ key := by
      rintro rfl
      rw [hself] at hnone
      cases hnone
    rw [hother hne] at hnone
    exact h.absent key' hnone
  · by_cases hne₁ : key₁ = key
    · by_cases hne₂ : key₂ = key
      · rw [hne₁, hne₂]
      · rw [hne₁, hself, Option.some_inj] at h₁
        rw [hother hne₂] at h₂
        exact absurd (h.addr_lt h₂) (by omega)
    · rw [hother hne₁] at h₁
      by_cases hne₂ : key₂ = key
      · rw [hne₂, hself, Option.some_inj] at h₂
        exact absurd (h.addr_lt h₁) (by omega)
      · rw [hother hne₂] at h₂
        exact h.inj key₁ key₂ addr h₁ h₂

/-- `LoadOrStore` of a fresh window keeps what is stored, and the address it returns is the one
then stored, whoever stored it. -/
lemma loadOrStore (h : Accounts n d C all done s) {key : String} (hkey : key ≠ "")
    (hmem : key ∈ all.map (fun w => w.2.workloadKey)) {c : ℤ} (hc : c ∈ C) {s' : SharedStore}
    {addr : ℕ} (hs' : s.loadOrStore key (newWorkloadProfile key n d c) = (s', addr)) :
    Accounts n d C all done s' ∧ s.Extends s' ∧ s'.load key = some addr := by
  cases hload : s.load key with
  | some old =>
      rw [SharedStore.loadOrStore_of_some hload] at hs'
      obtain ⟨rfl, rfl⟩ := Prod.mk.inj hs'
      exact ⟨h, fun _ _ hl => hl, hload⟩
  | none =>
      rw [SharedStore.loadOrStore_of_none hload] at hs'
      obtain ⟨rfl, rfl⟩ := Prod.mk.inj hs'
      refine ⟨h.publish hkey hmem hload hc, fun key' addr hl => ?_, s.load_publish_self key _⟩
      have hne : key' ≠ key := by
        rintro rfl
        rw [hload] at hl
        cases hl
      rw [s.load_publish_of_ne hne]
      exact hl

/-- An event whose key is stored is done without a record. -/
lemma ignore (h : Accounts n d C all done s) {w : String × TelemetryEvent} {addr : ℕ}
    (hload : s.load w.2.workloadKey = some addr) (hr : w.2.recordCall = none) :
    Accounts n d C all (done ++ [w]) s := by
  refine ⟨h.bucketCount, h.bucketDuration, h.seen, fun key addr' hl => ?_,
    fun key hnone w' hw' hkey => ?_, h.inj⟩
  · have hsame : recordsFor key (done ++ [w]) = recordsFor key done := by
      rw [recordsFor_concat, hr]
      simp
    rw [hsame]
    exact h.window key addr' hl
  · rcases List.mem_append.mp hw' with hw' | hw'
    · exact h.absent key hnone w' hw' hkey
    · rw [List.mem_singleton.mp hw'] at hkey
      rw [← hkey, hload] at hnone
      cases hnone

/-- A `Record*` call on the profile under the event's key. -/
lemma record (h : Accounts n d C all done s) {w : String × TelemetryEvent} {addr : ℕ}
    (hload : s.load w.2.workloadKey = some addr) {r : RecordCall} (hr : w.2.recordCall = some r)
    {t : ℤ} (ht : ∀ c ∈ C, t - c < d) :
    Accounts n d C all (done ++ [w]) (s.update addr (fun wp => wp.execRecord r w.1 t)) := by
  refine ⟨h.bucketCount, h.bucketDuration, h.seen, fun key addr' hl => ?_,
    fun key hnone w' hw' hkey => ?_, h.inj⟩
  · obtain ⟨wp, hwp, hfed⟩ := h.window key addr' hl
    by_cases hkey : w.2.workloadKey = key
    · subst hkey
      obtain rfl : addr = addr' := Option.some_inj.mp (hload.symm.trans hl)
      refine ⟨wp.execRecord r w.1 t, by simp [SharedStore.update, hwp], ?_⟩
      rw [recordsFor_concat, if_pos rfl, hr]
      exact hfed.record ht r w.1
    · -- another key has another address
      have hne : addr ≠ addr' := fun heq => hkey (h.inj _ _ _ hload (heq ▸ hl))
      refine ⟨wp, by simp [SharedStore.update, hne, hwp], ?_⟩
      rwa [recordsFor_concat, if_neg hkey, List.append_nil]
  · rcases List.mem_append.mp hw' with hw' | hw'
    · exact h.absent key hnone w' hw' hkey
    · rw [List.mem_singleton.mp hw'] at hkey
      have hnone' : s.load key = none := hnone
      rw [← hkey, hload] at hnone'
      cases hnone'

end Accounts

/-! ## One step of a handler -/

namespace Handler

/-- The reading of a step lies less than one bucket duration after every creation of `C`, and a
creation of the step is one of `C`. -/
def InWindow (d : ℤ) (C : List ℤ) (t : ℤ) (_s : SharedStore) (h : Handler) : Prop :=
  (∀ c ∈ C, t - c < d) ∧ ∀ c, h.creates t = some c → c ∈ C

lemma pending_advance {h : Handler} {evt : TelemetryEvent} {rest : List TelemetryEvent}
    (hevents : h.events = evt :: rest) : h.pending = [(h.nodeName, evt)] ++ h.advance.pending := by
  simp [pending, advance, hevents]

variable {n : ℕ} {d : ℤ} {C : List ℤ} {all : List (String × TelemetryEvent)} {s : SharedStore}
  {h : Handler}

lemma Valid.advance {evt : TelemetryEvent} {rest : List TelemetryEvent}
    (hv : h.Valid n d C all s) (hevents : h.events = evt :: rest) :
    h.advance.Valid n d C all s where
  pending_mem w hw := hv.pending_mem w (by
    rw [pending_advance hevents]
    exact List.mem_append_right _ hw)
  promises _ _ _ := trivial

lemma Valid.withStage {evt : TelemetryEvent} {rest : List TelemetryEvent}
    (hv : h.Valid n d C all s) (hevents : h.events = evt :: rest) {stage : Stage}
    (hpromise : stage.Promises n d C s evt) :
    ({ h with stage := stage } : Handler).Valid n d C all s where
  pending_mem := hv.pending_mem
  promises evt' rest' hevents' := by
    obtain ⟨rfl, -⟩ := List.cons_eq_cons.mp (hevents.symm.trans hevents')
    exact hpromise

/-- The key of the current event is among the keys streamed. -/
lemma Valid.key_mem {evt : TelemetryEvent} {rest : List TelemetryEvent}
    (hv : h.Valid n d C all s) (hevents : h.events = evt :: rest) :
    evt.workloadKey ∈ all.map (fun w => w.2.workloadKey) := by
  have hmem : (h.nodeName, evt) ∈ all := hv.pending_mem _ (by
    rw [pending_advance hevents]
    exact List.mem_cons_self)
  exact List.mem_map_of_mem hmem

/-- **One step.**  A handler's step accounts for exactly the events it takes off its list, keeps
its own promises, and only adds to the store. -/
lemma step_accounts {t : ℤ} {done : List (String × TelemetryEvent)} (hok : h.InWindow d C t s)
    (hacc : Accounts n d C all done s) (hv : h.Valid n d C all s) :
    (∃ taken, h.pending = taken ++ (h.step t s).2.pending ∧
        Accounts n d C all (done ++ taken) (h.step t s).1) ∧
      (h.step t s).2.Valid n d C all (h.step t s).1 ∧ s.Extends (h.step t s).1 := by
  have hsame : s.Extends s := fun _ _ hl => hl
  have hnone : Accounts n d C all (done ++ []) s := by rwa [List.append_nil]
  have hmoves := h.step_moves t s
  generalize (h.step t s).1 = s' at hmoves ⊢
  generalize (h.step t s).2 = h' at hmoves ⊢
  cases hmoves with
  | returned hfinished => exact ⟨⟨[], rfl, hnone⟩, hv, hsame⟩
  | @receive batch batches hevents hbatches =>
      have hpending : h.pending
          = (⟨batch.nodeName, batch.events, batches, .next⟩ : Handler).pending := by
        simp [pending, hevents, hbatches]
      exact ⟨⟨[], hpending, hnone⟩,
        ⟨fun w hw => hv.pending_mem w (hpending ▸ hw), fun _ _ _ => trivial⟩, hsame⟩
  | skip hevents hstage hkey =>
      exact ⟨⟨_, pending_advance hevents, hacc.skip hkey⟩, hv.advance hevents, hsame⟩
  | hit hevents hstage hkey hload =>
      exact ⟨⟨[], rfl, hnone⟩, hv.withStage hevents hload, hsame⟩
  | miss hevents hstage hkey hload =>
      exact ⟨⟨[], rfl, hnone⟩, hv.withStage hevents hkey, hsame⟩
  | create hevents hstage =>
      have hpromise := hv.promises _ _ hevents
      rw [hstage] at hpromise
      have hcreates : h.creates t = some t := by simp [creates, hevents, hstage]
      rw [hacc.bucketCount, hacc.bucketDuration]
      exact ⟨⟨[], rfl, hnone⟩,
        hv.withStage hevents ⟨hpromise, t, hok.2 t hcreates, rfl⟩, hsame⟩
  | store hevents hstage hstore =>
      have hpromise := hv.promises _ _ hevents
      rw [hstage] at hpromise
      obtain ⟨hkey, c, hc, rfl⟩ := hpromise
      obtain ⟨hacc', hext, hload⟩ := hacc.loadOrStore hkey (hv.key_mem hevents) hc hstore
      exact ⟨⟨[], rfl, by rwa [List.append_nil]⟩, (hv.mono hext).withStage hevents hload, hext⟩
  | @record evt rest addr r hevents hstage hr =>
      have hload := hv.promises _ _ hevents
      rw [hstage] at hload
      have hext : s.Extends (s.update addr (fun wp => wp.execRecord r h.nodeName t)) :=
        fun _ _ hl => hl
      exact ⟨⟨_, pending_advance hevents,
        hacc.record (w := (h.nodeName, evt)) hload hr hok.1⟩, (hv.mono hext).advance hevents, hext⟩
  | ignore hevents hstage hr =>
      have hload := hv.promises _ _ hevents
      rw [hstage] at hload
      exact ⟨⟨_, pending_advance hevents, hacc.ignore hload hr⟩, hv.advance hevents, hsame⟩

end Handler

/-! ## Whole runs -/

/-- If no reading of a run is a bucket duration or more after a creation, every step of the run
is in the window of all of them. -/
lemma allSteps_inWindow {d : ℤ} {C : List ℤ} {sys : System SharedStore Handler}
    {sched : List (ℤ × ℕ)} (hC : creationTimes sys sched ⊆ C)
    (hclock : ∀ c ∈ C, ∀ a ∈ sched, a.1 - c < d) :
    AllSteps (System.exec Handler.step) (System.Takes (Handler.InWindow d C)) sys sched := by
  induction sched generalizing sys with
  | nil => trivial
  | cons a sched ih =>
      have hsplit : creationTimes sys (a :: sched)
          = ((sys.procs[a.2]?).bind (Handler.creates a.1)).toList
              ++ creationTimes (System.exec Handler.step a.1 a.2 sys) sched := rfl
      rw [hsplit] at hC
      refine ⟨fun h hh => ⟨fun c hc => hclock c hc a List.mem_cons_self, fun c hc => ?_⟩,
        ih (fun c hc => hC (List.mem_append_right _ hc))
          (fun c hc b hb => hclock c hc b (List.mem_cons_of_mem _ hb))⟩
      refine hC (List.mem_append_left _ ?_)
      rw [hh, Option.bind_some, hc]
      exact List.mem_singleton_self c

/-- At the start nothing is done, nothing is stored and no handler has promised anything. -/
lemma accounts_new {n : ℕ} (hn : 1 ≤ n) {d : ℤ} (hd : 0 < d) (C : List ℤ)
    (all : List (String × TelemetryEvent)) : Accounts n d C all [] (SharedStore.new n d) where
  bucketCount := by simp [SharedStore.new, newStore, show n ≠ 0 by omega]
  bucketDuration := by simp [SharedStore.new, newStore, show ¬ d ≤ 0 by omega]
  seen key addr h := by simp [SharedStore.new, SharedStore.load] at h
  window key addr h := by simp [SharedStore.new, SharedStore.load] at h
  absent key h w hw := by cases hw
  inj key key' addr h := by simp [SharedStore.new, SharedStore.load] at h

lemma pending_ingestSystem (bucketCount bucketDuration : ℤ)
    (streams : List (List TelemetryBatch)) :
    (ingestSystem bucketCount bucketDuration streams).pending Handler.pending
      = streamedEvents streams := by
  rw [System.pending, ingestSystem, List.flatMap_map]
  simp [Handler.pending, Handler.new, streamedEvents]

/-- **At every point of every interleaving** the store accounts for some of the events, and the
others are still pending. -/
lemma ingest_accounts {n : ℕ} (hn : 1 ≤ n) {d : ℤ} (hd : 0 < d)
    (streams : List (List TelemetryBatch)) (sched : List (ℤ × ℕ))
    (hclock : ∀ c ∈ creationTimes (ingestSystem n d streams) sched, ∀ a ∈ sched, a.1 - c < d) :
    let final := timedRun (System.exec Handler.step) (ingestSystem n d streams) sched
    ∃ done, (done ++ final.pending Handler.pending).Perm (streamedEvents streams) ∧
      Accounts n d (creationTimes (ingestSystem n d streams) sched) (streamedEvents streams) done
        final.shared := by
  intro final
  have hsteps := allSteps_inWindow (List.Subset.refl _) hclock
  have hinit : ∀ h ∈ (ingestSystem n d streams).procs,
      h.Valid n d (creationTimes (ingestSystem n d streams) sched) (streamedEvents streams)
        (ingestSystem n d streams).shared := by
    intro h hh
    refine ⟨fun w hw => ?_, fun evt rest hevents => ?_⟩
    · rw [← pending_ingestSystem n d streams]
      exact List.mem_flatMap.mpr ⟨h, hh, hw⟩
    · obtain ⟨batches, -, rfl⟩ := List.mem_map.mp hh
      cases hevents
  obtain ⟨done, hperm, hacc, -⟩ := System.run_conserves
    (fun t s h done hok hacc hv => by
      obtain ⟨htaken, hv', hext⟩ := Handler.step_accounts hok hacc hv
      exact ⟨htaken, hv', fun q hq => hq.mono hext⟩)
    (accounts_new hn hd _ _) hinit hsteps
  rw [pending_ingestSystem, List.nil_append] at hperm
  exact ⟨done, hperm, hacc⟩

/-- A finished system has nothing pending. -/
lemma pending_of_finished {sys : System SharedStore Handler}
    (h : ∀ p ∈ sys.procs, p.Finished) : sys.pending Handler.pending = [] := by
  refine List.flatMap_eq_nil_iff.mpr (fun p hp => ?_)
  obtain ⟨hevents, hbatches⟩ := h p hp
  simp [Handler.pending, hevents, hbatches]

lemma recordsFor_perm {key : String} {l l' : List (String × TelemetryEvent)} (h : l.Perm l') :
    (recordsFor key l).Perm (recordsFor key l') :=
  (h.filter _).filterMap _

/-! ## What the events add up to -/

/-- What an event adds to the counters of its workload.  A page fault and a context switch count
whatever their payload; a cache miss counts its delta and a lock contention its duration, and
without the payload of its kind it counts for nothing, as does an event of any other type. -/
def TelemetryEvent.counts (evt : TelemetryEvent) : Option (Counts ℤ) :=
  match evt.eventType, evt.payload with
  | .pageFault, _ => some ⟨1, 1, 0, 0, 0⟩
  | .contextSwitch, _ => some ⟨1, 0, 0, 0, 1⟩
  | .cacheMiss, some (.cacheMiss missCountDelta) => some ⟨1, 0, missCountDelta.toNat, 0, 0⟩
  | .lockContention, some (.lockContention _ durationNs) => some ⟨1, 0, 0, durationNs.toInt, 0⟩
  | _, _ => none

/-- The events with workload key `key` that count, each as the node that reports it and what it
adds. -/
def countsFor (key : String) (events : List (String × TelemetryEvent)) :
    List (String × Counts ℤ) :=
  (events.filter (fun w => w.2.workloadKey = key)).filterMap (fun w => w.2.counts.map (w.1, ·))

/-- The conversion of a delta to `int64` is the delta modulo `2 ^ 64`. -/
lemma wrap_cacheMiss (delta : UInt64) :
    Counts.wrap (RecordCall.cacheMiss delta.toInt64).counts
      = Counts.wrap ⟨1, 0, delta.toNat, 0, 0⟩ := by
  have hdelta : int64OfInt delta.toInt64.toInt = int64OfInt delta.toNat := by
    rw [← int64OfInt_emod, toInt_toInt64_emod]
  exact Counts.ext rfl rfl hdelta rfl rfl

/-- The `switch` of `StreamTelemetry` is the table, modulo `2 ^ 64`. -/
lemma wrap_recordCall (evt : TelemetryEvent) :
    evt.recordCall.map (fun r => Counts.wrap r.counts) = evt.counts.map Counts.wrap := by
  obtain ⟨eventType, workloadKey, timestampNs, payload⟩ := evt
  cases eventType with
  | pageFault | contextSwitch | unspecified | unrecognized _ => rfl
  | cacheMiss =>
      rcases payload with - | - | delta | - | -
      case some.cacheMiss => exact congrArg some (wrap_cacheMiss delta)
      all_goals rfl
  | lockContention => rcases payload with - | - | - | - | - <;> rfl

lemma map_recordsFor (key : String) (events : List (String × TelemetryEvent)) :
    (recordsFor key events).map (fun r => (r.1, Counts.wrap r.2.counts))
      = (countsFor key events).map (fun c => (c.1, Counts.wrap c.2)) := by
  rw [recordsFor, countsFor, List.map_filterMap, List.map_filterMap]
  refine List.filterMap_congr (fun w _ => ?_)
  have hw := congrArg (Option.map (w.1, ·)) (wrap_recordCall w.2)
  simpa [Option.map_map, Function.comp_def] using hw

lemma wrap_sumRecords (key : String) (events : List (String × TelemetryEvent)) :
    Counts.wrap (sumRecords (recordsFor key events))
      = Counts.wrap ((countsFor key events).map Prod.snd).sum := by
  have hsum := congrArg (fun l => (l.map Prod.snd).sum) (map_recordsFor key events)
  simp only [List.map_map, Function.comp_def] at hsum
  rw [sumRecords, map_list_sum, map_list_sum, List.map_map, List.map_map]
  exact hsum

lemma map_fst_recordsFor (key : String) (events : List (String × TelemetryEvent)) :
    (recordsFor key events).map Prod.fst = (countsFor key events).map Prod.fst := by
  have hfst := congrArg (List.map Prod.fst) (map_recordsFor key events)
  simpa [List.map_map, Function.comp_def] using hfst

/-- **No telemetry is lost or duplicated.**  Any number of handlers work off any streams in any
interleaving, with no reading a bucket duration or more after the creation of a profile.  When
all have finished, exactly the nonempty keys streamed are stored, each with a profile of its own,
and the counters and nodes of a key's profile are the sums and the union over exactly the events
with that key that count (`TelemetryEvent.counts`). -/
theorem ingest_exact (n : ℕ) (hn : 1 ≤ n) (d : ℤ) (hd : 0 < d)
    (streams : List (List TelemetryBatch)) (sched : List (ℤ × ℕ))
    (hclock : ∀ c ∈ creationTimes (ingestSystem n d streams) sched, ∀ a ∈ sched, a.1 - c < d)
    (hfinished : ∀ h ∈ (timedRun (System.exec Handler.step)
      (ingestSystem n d streams) sched).procs, h.Finished) :
    let store := (timedRun (System.exec Handler.step) (ingestSystem n d streams) sched).shared
    let events := streamedEvents streams
    (∀ key, (store.get key).isSome ↔ key ≠ "" ∧ key ∈ events.map (fun w => w.2.workloadKey)) ∧
      (∀ key key' addr, store.load key = some addr → store.load key' = some addr → key = key') ∧
      ∀ key wp, store.get key = some wp →
        wp.workloadKey = key ∧
          wp.totals = Counts.wrap ((countsFor key events).map Prod.snd).sum ∧
          (((countsFor key events).map Prod.snd).sum.Fits →
            wp.totals.toInts = ((countsFor key events).map Prod.snd).sum) ∧
          wp.nodeLocations = ((countsFor key events).map Prod.fst).toFinset := by
  intro store events
  obtain ⟨done, hperm, hacc⟩ := ingest_accounts hn hd streams sched hclock
  rw [pending_of_finished hfinished, List.append_nil] at hperm
  -- what a stored key's address holds
  have hget : ∀ key addr, store.load key = some addr → ∃ wp, store.get key = some wp ∧
      Fed key n d (creationTimes (ingestSystem n d streams) sched) (recordsFor key done) wp := by
    intro key addr hload
    obtain ⟨wp, hwp, hfed⟩ := hacc.window key addr hload
    exact ⟨wp, by rw [SharedStore.get, hload]; exact hwp, hfed⟩
  refine ⟨fun key => ⟨fun hsome => ?_, fun ⟨hne, hmem⟩ => ?_⟩, hacc.inj, fun key wp hwp => ?_⟩
  · cases hload : store.load key with
    | none => simp [SharedStore.get, hload] at hsome
    | some addr => exact hacc.seen key addr hload
  · cases hload : store.load key with
    | none =>
        obtain ⟨w, hw, hkey⟩ := List.mem_map.mp hmem
        exact absurd (hacc.absent key hload w (hperm.mem_iff.mpr hw) hkey) hne
    | some addr =>
        obtain ⟨wp, hwp, -⟩ := hget key addr hload
        rw [hwp]
        rfl
  · cases hload : store.load key with
    | none => simp [SharedStore.get, hload] at hwp
    | some addr =>
        obtain ⟨wp', hwp', hfed⟩ := hget key addr hload
        obtain rfl : wp' = wp := Option.some_inj.mp (hwp'.symm.trans hwp)
        have hrecords : (recordsFor key done).Perm (recordsFor key events) := recordsFor_perm hperm
        have hsum : sumRecords (recordsFor key done) = sumRecords (recordsFor key events) :=
          (hrecords.map _).sum_eq
        have htotals : wp'.totals = Counts.wrap ((countsFor key events).map Prod.snd).sum := by
          rw [hfed.totals_eq hn hd, hsum, wrap_sumRecords]
        refine ⟨hfed.workloadKey_eq, htotals, fun hfits => ?_, ?_⟩
        · rw [htotals, Counts.toInts_wrap hfits]
        · rw [hfed.nodeLocations_eq, ← map_fst_recordsFor]
          exact List.toFinset_eq_of_perm _ _ (hrecords.map _)

/-- Two streams race for one key: both handlers miss and both build a profile before either
stores one.  The four kinds are counted, from both nodes; an event of type 9, one of no type, a
cache miss without its payload and a lock contention with another kind's are not, nor is an event
without a key. -/
theorem ingest_exact_race :
    let web := fun (eventType : EventType) (payload : Option Payload) =>
      (⟨eventType, "default/Deployment/web", 0, payload⟩ : TelemetryEvent)
    let streams : List (List TelemetryBatch) :=
      [[⟨"node-1", 0, [web .pageFault (some (.pageFault true 4096)),
          web (.unrecognized 9) (some (.cacheMiss 50)), web .cacheMiss none,
          web .cacheMiss (some (.cacheMiss 7))]⟩],
        [⟨"node-2", 0, [web .contextSwitch none, web .lockContention (some (.cacheMiss 60)),
          web .lockContention (some (.lockContention 4096 300)), web .unspecified none,
          ⟨.pageFault, "", 0, none⟩, web .pageFault none]⟩]]
    let sched : List (ℤ × ℕ) :=
      [(0, 0), (0, 1), (1, 0), (1, 1), (2, 0), (2, 1), (3, 1), (3, 0), (4, 0), (4, 1)]
        ++ (List.replicate 6 (5, 0) ++ List.replicate 9 (6, 1))
    ∃ wp, (timedRun (System.exec Handler.step) (ingestSystem (2 : ℕ) 10 streams)
        sched).shared.get "default/Deployment/web" = some wp ∧
      wp.totals.toInts = ⟨5, 2, 7, 300, 1⟩ ∧ wp.nodeLocations = {"node-1", "node-2"} := by
  intro web streams sched
  obtain ⟨hkeys, -, hprofile⟩ :=
    ingest_exact 2 (by decide) 10 (by decide) streams sched (by decide) (by decide)
  obtain ⟨wp, hwp⟩ := Option.isSome_iff_exists.mp
    ((hkeys "default/Deployment/web").mpr ⟨by decide, by decide⟩)
  obtain ⟨-, -, htotals, hnodes⟩ := hprofile "default/Deployment/web" wp hwp
  exact ⟨wp, hwp, htotals (by decide), hnodes⟩

end Akil
