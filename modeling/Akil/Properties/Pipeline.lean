import Akil.Properties.Fidelity
import Akil.Properties.Requests

/-!
# From the ring buffers to the windows

A fleet of collectors, each with its node, its ring buffer and its streams to the aggregator, and
the aggregator with one goroutine for each stream and others for queries.  `telemetry_fidelity`
follows the samples of one collector into the batches handed to `Send`; from there a network carries
them, of which only this much is assumed: on one stream batches arrive in order and at most once
(`Link`).  A stream may break at any point, and a batch whose `Send` fails is gone.

`fleet_records` closes the gap to the store.  The records in the linearization of the aggregator are
those of the requests the goroutines are done with (`service_records`), each once: so every record
is that of one resolved sample of one collector, of its signal, under its key and from its node, no
sample is recorded twice, and if the network loses nothing and the goroutines have finished, none is
missing but the fewer than a hundred a collector still has in its buffer.
-/

namespace Akil

/-! ## Records of the service -/

/-- A record: the key, the method with its arguments, and the node. -/
abbrev StoreRecord := String × RecordCall × String

/-- The record a call makes, if it makes one. -/
def StoreCall.record? : StoreCall → Option StoreRecord
  | .onProfile key (.record r nodeName) => some (key, r, nodeName)
  | _ => none

/-- The records among some calls. -/
def recordsIn (calls : List StoreCall) : List StoreRecord := calls.filterMap StoreCall.record?

@[simp] lemma recordsIn_nil : recordsIn [] = [] := rfl

@[simp] lemma recordsIn_append (calls calls' : List StoreCall) :
    recordsIn (calls ++ calls') = recordsIn calls ++ recordsIn calls' := List.filterMap_append

lemma recordsIn_flatten (callss : List (List StoreCall)) :
    recordsIn callss.flatten = callss.flatMap recordsIn := by
  rw [recordsIn, List.filterMap_flatten]
  rfl

lemma recordsIn_map_query (keys : List String) : recordsIn (keys.map .query) = [] := by
  rw [recordsIn, List.filterMap_eq_nil_iff]
  intro c hc
  obtain ⟨key, -, rfl⟩ := List.mem_map.mp hc
  rfl

lemma recordsIn_map_visitNode (nodeName : String) (keys : List String) :
    recordsIn (keys.map (.visitNode nodeName)) = [] := by
  rw [recordsIn, List.filterMap_eq_nil_iff]
  intro c hc
  obtain ⟨key, -, rfl⟩ := List.mem_map.mp hc
  rfl

/-- The record of a request. -/
def Request.records (req : Request) : List StoreRecord :=
  match req.opening with
  | .getOrCreate key (some (.record r nodeName)) => [(key, r, nodeName)]
  | _ => []

lemma Request.Makes.recordsIn_eq {req : Request} {calls : List StoreCall} (h : req.Makes calls) :
    recordsIn calls = req.records := by
  cases h with
  | nothing hopening => simp [Request.records, hopening]
  | @getOrCreate key c hopening =>
      rw [Request.records, hopening]
      cases c with
      | none => rfl
      | some c => cases c <;> rfl
  | queries hasks =>
      rw [recordsIn_map_query]
      rcases hasks with ⟨key, hopening, -⟩ | ⟨hopening, -⟩ <;> simp [Request.records, hopening]
  | visits hopening _ =>
      rw [recordsIn_map_visitNode]
      simp [Request.records, hopening]

/-- A request in hand has made no record yet. -/
lemma Midway.recordsIn_eq {req : Request} {calls : List StoreCall} {stage : ServeStage}
    (h : Midway req calls stage) : recordsIn calls = [] := by
  cases stage with
  | next =>
      obtain rfl : calls = [] := h
      rfl
  | missed key c =>
      obtain ⟨-, rfl⟩ := h
      rfl
  | created key c wp =>
      obtain ⟨-, rfl⟩ := h
      rfl
  | located key c addr =>
      obtain ⟨-, rfl⟩ := h
      rfl
  | ranging nodeName present visited =>
      obtain ⟨-, -, rfl⟩ := h
      cases nodeName with
      | none => rfl
      | some nodeName => exact recordsIn_map_visitNode nodeName visited
  | visiting nodeName present visited key addr =>
      obtain ⟨-, -, rfl⟩ := h
      exact recordsIn_map_visitNode nodeName visited
  | onNode nodeName present visited key addr =>
      obtain ⟨-, -, rfl⟩ := h
      exact recordsIn_map_visitNode nodeName visited
  | querying keys =>
      obtain ⟨asked, -, rfl⟩ := h
      exact recordsIn_map_query asked
  | found keys key addr =>
      obtain ⟨asked, -, rfl⟩ := h
      exact recordsIn_map_query asked

/-- A goroutine has made the records of the requests it is done with. -/
lemma Worker.InOrder.recordsIn_eq {requests : List Request} {events : List ServeEvent} {w : Worker}
    {done : List Request} {past part : List ServeEvent}
    (h : w.InOrder requests events done past part) :
    recordsIn (callsOf events) = done.flatMap Request.records := by
  obtain ⟨callss, hmakes, hpast⟩ := h.makes
  have hpart : recordsIn (callsOf part) = [] := by
    cases hreq : w.requests with
    | nil => rw [(h.idle hreq).2]; rfl
    | cons req rest => exact (h.midway req (by rw [hreq]; rfl)).recordsIn_eq
  rw [h.events_eq, callsOf_append, recordsIn_append, hpart, List.append_nil, hpast,
    recordsIn_flatten]
  clear hpast h hpart
  induction hmakes with
  | nil => rfl
  | cons hhead _ ih => rw [List.flatMap_cons, List.flatMap_cons, hhead.recordsIn_eq, ih]

/-- The requests goroutine `i` is done with. -/
def servedBy (requests : List (List Request)) (sys : System SharedStore Worker) (i : ℕ) :
    List Request :=
  let reqs := requests.getD i []
  reqs.take (reqs.length - ((sys.procs[i]?.map Worker.requests).getD []).length)

/-- **The records of the service.**  What the linearization records are the records of the requests
the goroutines are done with, each once. -/
lemma service_records (bucketCount bucketDuration : ℤ) (requests : List (List Request))
    (sched : List (Turn × ℕ)) :
    let sys := serviceSystem bucketCount bucketDuration requests
    (recordsIn ((linearization sys sched).map Prod.snd)).Perm
      ((List.range requests.length).flatMap fun i =>
        (servedBy requests (serve sys sched) i).flatMap Request.records) := by
  intro sys
  have hlength : sys.procs.length = requests.length := List.length_map ..
  have hperm := System.trace_perm Worker.step Worker.call sys sched
  rw [hlength] at hperm
  refine ((hperm.map Prod.snd).filterMap StoreCall.record?).trans (List.Perm.of_eq ?_)
  rw [List.map_flatMap, List.filterMap_flatMap]
  refine List.flatMap_congr fun i hi => ?_
  have hlt : i < requests.length := List.mem_range.mp hi
  have hreqs : requests[i]? = some requests[i] := List.getElem?_eq_getElem hlt
  obtain ⟨w, hw⟩ := System.exists_getElem?_run Worker.step
    (serviceSystem_procs bucketCount bucketDuration hreqs) sched
  obtain ⟨done, past, part, horder⟩ := serve_inOrder hreqs sched hw
  have hcalls : (System.traceOf Worker.step Worker.call i sys sched).map Prod.snd
      = callsOf (System.traceOf Worker.step Worker.event i sys sched) := by
    have hevent : Worker.call = fun m s w => (Worker.event m s w).map Prod.fst := by
      funext m s w
      rw [Worker.event, Option.map_map]
      cases w.call m s <;> rfl
    rw [hevent, System.traceOf_map, List.map_map]
    rfl
  have hserved : servedBy requests (serve sys sched) i = done := by
    have hw' : (serve sys sched).procs[i]? = some w := hw
    rw [servedBy, List.getD_eq_getElem?_getD, hreqs, Option.getD_some, hw', Option.map_some,
      Option.getD_some, horder.requests_eq, List.length_append, Nat.add_sub_cancel,
      List.take_left]
  rw [hcalls, hserved]
  exact horder.recordsIn_eq

/-! ## Collectors and their streams -/

/-- A collector: its node, when its loop starts, and what the iterations read and find. -/
structure Collector where
  nodeName : String
  started : ℤ
  reads : List (Option Sample × LoopEnv)

namespace Collector

/-- The loop of the collector: the state it leaves and the batches handed to `Send`. -/
def run (c : Collector) : LoopState × List SendCall :=
  (LoopState.new c.started).loop c.nodeName
    (c.reads.map fun r => (r.1.map (fun x => x.record.bytes), r.2))

/-- The records of the collector's resolved samples. -/
def samples (c : Collector) : List StoreRecord :=
  (c.reads.filterMap fun r => resolveRead r.1 r.2).map
    fun r => (r.key, r.signal.recordCall, c.nodeName)

/-- The batches handed to `Send` on one of the streams. -/
def sentOn (c : Collector) (stream : ℕ) : List TelemetryBatch :=
  (c.run.2.filter (·.stream = stream)).map SendCall.batch

/-- The number of streams the collector has opened. -/
def streams (c : Collector) : ℕ := c.run.1.stream + 1

end Collector

/-- A collector with what the aggregator receives on its streams.  A stream keeps the order and
makes no copies. -/
structure Link extends Collector where
  received : ℕ → List TelemetryBatch
  inOrder : ∀ stream, (received stream).Sublist (toCollector.sentOn stream)

/-- The handlers of the streams of a collector. -/
def Link.requests (l : Link) : List (List Request) :=
  (List.range l.streams).map fun stream => telemetryRequests (l.received stream)

/-- The records of a batch. -/
def TelemetryBatch.records (b : TelemetryBatch) : List StoreRecord := recordsIn b.calls

lemma records_telemetry (nodeName : String) (evt : TelemetryEvent) :
    (Request.telemetry nodeName evt).records = recordsIn (evt.calls nodeName) := by
  by_cases hkey : evt.workloadKey = ""
  · simp [Request.records, Request.opening, TelemetryEvent.calls, hkey]
  · have hopening : (Request.telemetry nodeName evt).opening
        = .getOrCreate evt.workloadKey (evt.recordCall.map (.record · nodeName)) := if_neg hkey
    rw [Request.records, hopening, TelemetryEvent.calls, if_neg hkey]
    cases evt.recordCall <;> rfl

/-- The handler of a stream makes the records of the batches it receives. -/
lemma records_telemetryRequests (batches : List TelemetryBatch) :
    (telemetryRequests batches).flatMap Request.records
      = batches.flatMap TelemetryBatch.records := by
  induction batches with
  | nil => rfl
  | cons b batches ih =>
      have hbatch : (b.events.map (Request.telemetry b.nodeName)).flatMap Request.records
          = b.records := by
        rw [TelemetryBatch.records, TelemetryBatch.calls, List.flatMap_map, recordsIn,
          List.filterMap_flatMap]
        exact List.flatMap_congr fun evt _ => records_telemetry b.nodeName evt
      have hcons : telemetryRequests (b :: batches)
          = b.events.map (.telemetry b.nodeName) ++ telemetryRequests batches := rfl
      rw [hcons, List.flatMap_append, hbatch, ih, List.flatMap_cons]

/-- A batch of resolved samples makes their records. -/
lemma BatchOf.records_eq {nodeName : String} {group : List ResolvedSample} {b : TelemetryBatch}
    (h : BatchOf nodeName group b) :
    b.records = group.map fun r => (r.key, r.signal.recordCall, nodeName) := by
  rw [TelemetryBatch.records, h.calls]
  clear h
  induction group with
  | nil => rfl
  | cons r group ih =>
      rw [List.flatMap_cons, recordsIn_append, ih]
      rfl

namespace Collector

/-- The batches of a collector have the records of its samples, up to those still buffered. -/
lemma samples_eq (c : Collector) :
    ∃ buffered, c.samples = (c.run.2.map SendCall.batch).flatMap TelemetryBatch.records ++ buffered ∧
      buffered.length < 100 := by
  obtain ⟨groups, tail, hflat, htail, -, hall⟩ :=
    loop_groups c.nodeName c.reads [] (by decide) (LoopState.new c.started) rfl
  refine ⟨tail.map fun r => (r.key, r.signal.recordCall, c.nodeName), ?_, by simpa using htail⟩
  have hrecords : (c.run.2.map SendCall.batch).flatMap TelemetryBatch.records
      = groups.flatten.map fun r => (r.key, r.signal.recordCall, c.nodeName) := by
    have hrun : List.Forall₂ (BatchOf c.nodeName) groups (c.run.2.map SendCall.batch) := hall
    clear hflat hall
    generalize c.run.2.map SendCall.batch = batches at hrun
    induction hrun with
    | nil => rfl
    | cons hhead _ ih =>
        rw [List.flatMap_cons, List.flatten_cons, List.map_append, hhead.records_eq, ih]
  rw [hrecords, ← List.map_append, hflat, List.nil_append, samples]

/-- The stream in use is the last one opened. -/
lemma stream_le_loop (nodeName : String) (reads : List (Option (List UInt8) × LoopEnv))
    (s : LoopState) : s.stream ≤ (s.loop nodeName reads).1.stream ∧
      ∀ send ∈ (s.loop nodeName reads).2, send.stream ≤ (s.loop nodeName reads).1.stream := by
  induction reads generalizing s with
  | nil => exact ⟨le_rfl, by simp [LoopState.loop]⟩
  | cons r reads ih =>
      obtain ⟨read, env⟩ := r
      have hstep : s.stream ≤ (s.iterate nodeName read env).1.stream ∧
          ∀ send ∈ (s.iterate nodeName read env).2, send.stream = s.stream := by
        unfold LoopState.iterate
        cases read.bind (parseSample env) with
        | none => exact ⟨le_rfl, by simp⟩
        | some evt =>
            dsimp only
            split_ifs <;> simp
      obtain ⟨hrest, hsends⟩ := ih (s.iterate nodeName read env).1
      refine ⟨hstep.1.trans hrest, fun send hsend => ?_⟩
      rcases List.mem_append.mp hsend with hnow | hlater
      · rw [hstep.2 send (Option.mem_toList.mp hnow)]
        exact hstep.1.trans hrest
      · exact hsends send hlater

/-- Every batch is handed to one of the streams. -/
lemma sentOn_perm (c : Collector) :
    ((List.range c.streams).flatMap c.sentOn).Perm (c.run.2.map SendCall.batch) := by
  have hperm : ∀ k, ((List.range k).flatMap fun stream => c.run.2.filter (·.stream = stream)).Perm
      (c.run.2.filter (·.stream < k)) := by
    intro k
    induction k with
    | zero => simp
    | succ k ih =>
        rw [List.range_succ, List.flatMap_append, List.flatMap_singleton]
        refine (ih.append_right _).trans ?_
        have hsplit := List.filter_append_perm (fun x : SendCall => decide (x.stream < k))
          (c.run.2.filter (·.stream < k + 1))
        rw [List.filter_filter, List.filter_filter] at hsplit
        refine List.Perm.trans (List.Perm.of_eq ?_) hsplit
        congr 1
        · refine List.filter_congr fun x _ => Bool.eq_iff_iff.mpr ?_
          simp only [Bool.and_eq_true, decide_eq_true_eq]
          omega
        · refine List.filter_congr fun x _ => Bool.eq_iff_iff.mpr ?_
          simp only [Bool.and_eq_true, Bool.not_eq_true', decide_eq_true_eq, decide_eq_false_iff_not]
          omega
  have hall : c.run.2.filter (·.stream < c.streams) = c.run.2 := by
    refine List.filter_eq_self.mpr fun send hsend => decide_eq_true ?_
    exact Nat.lt_succ_of_le ((stream_le_loop c.nodeName _ _).2 send hsend)
  have hmap := (hperm c.streams).map SendCall.batch
  rw [hall, List.map_flatMap] at hmap
  exact hmap

end Collector

/-! ## The fleet -/

/-- The records of the batches a link has delivered. -/
def Link.records (l : Link) : List StoreRecord :=
  (List.range l.streams).flatMap fun stream => (l.received stream).flatMap TelemetryBatch.records

lemma Link.records_requests (l : Link) :
    l.requests.flatMap (·.flatMap Request.records) = l.records := by
  rw [Link.requests, List.flatMap_map]
  exact List.flatMap_congr fun stream _ => records_telemetryRequests (l.received stream)

/-- What the streams of a link carry are records of the collector's samples, each once. -/
lemma Link.records_subperm (l : Link) : l.records.Subperm l.samples := by
  obtain ⟨buffered, hsamples, -⟩ := l.samples_eq
  have hsublist : l.records.Sublist
      (((List.range l.streams).flatMap l.sentOn).flatMap TelemetryBatch.records) := by
    rw [List.flatMap_assoc]
    exact List.Sublist.flatMap_right _ fun stream _ => (l.inOrder stream).flatMap _
  rw [hsamples]
  exact hsublist.subperm.trans ((l.sentOn_perm.flatMap_right _).subperm.trans
    (List.sublist_append_left _ _).subperm)

lemma Link.records_of_lossless {l : Link} (h : ∀ stream, l.received stream = l.sentOn stream) :
    ∃ buffered : List StoreRecord, (l.records ++ buffered).Perm l.samples ∧
      buffered.length < 100 := by
  obtain ⟨buffered, hsamples, hlength⟩ := l.samples_eq
  refine ⟨buffered, ?_, hlength⟩
  have hrecords : l.records
      = ((List.range l.streams).flatMap l.sentOn).flatMap TelemetryBatch.records := by
    rw [List.flatMap_assoc, Link.records]
    exact List.flatMap_congr fun stream _ => by rw [h stream]
  rw [hrecords, hsamples]
  exact (l.sentOn_perm.flatMap_right _).append_right _

/-- What the links of a fleet carry. -/
lemma fleet_subperm (fleet : List Link) :
    (fleet.flatMap Link.records).Subperm (fleet.flatMap fun l => l.samples) := by
  induction fleet with
  | nil => exact List.Subperm.refl _
  | cons l fleet ih => exact l.records_subperm.append ih

lemma fleet_of_lossless {fleet : List Link}
    (h : ∀ l ∈ fleet, ∀ stream, l.received stream = l.sentOn stream) :
    ∃ buffered : List StoreRecord,
      (fleet.flatMap Link.records ++ buffered).Perm (fleet.flatMap fun l => l.samples) ∧
        buffered.length ≤ 99 * fleet.length := by
  induction fleet with
  | nil => exact ⟨[], .refl _, le_rfl⟩
  | cons l fleet ih =>
      obtain ⟨buffered, hperm, hlength⟩ :=
        Link.records_of_lossless (h l List.mem_cons_self)
      obtain ⟨rest, hrest, hlengths⟩ := ih fun l' hl' => h l' (List.mem_cons_of_mem _ hl')
      refine ⟨buffered ++ rest, ?_, ?_⟩
      · rw [List.flatMap_cons, List.flatMap_cons]
        refine List.Perm.trans ?_ (hperm.append hrest)
        rw [List.append_assoc, List.append_assoc]
        refine List.Perm.append_left _ ?_
        rw [← List.append_assoc, ← List.append_assoc]
        exact List.perm_append_comm.append_right _
      · rw [List.length_append, List.length_cons]
        omega

/-- The requests by their number. -/
lemma flatMap_range_getD (requests : List (List Request)) (f : List Request → List StoreRecord) :
    ((List.range requests.length).flatMap fun i => f (requests.getD i [])) = requests.flatMap f := by
  have hmap : (List.range requests.length).map (fun i => requests.getD i []) = requests := by
    apply List.ext_getElem (by simp)
    intro i hi hi'
    simp [List.getElem_map, hi']
  conv_rhs => rw [← hmap, List.flatMap_map]

/-- **Every sample is recorded at most once, and exactly once if nothing is lost.**  In every run of
the aggregator with one goroutine for each stream of a fleet of collectors and others for requests
of any kind, the records made are, each once, records of resolved samples of the collectors, of the
sample's signal, under its key and from the collector's node, or records the other requests ask
for.  When all goroutines have finished and all streams have delivered what they were handed, none
is missing but at most ninety-nine a collector that are still in its buffer. -/
theorem fleet_records (bucketCount bucketDuration : ℤ) (fleet : List Link)
    (others : List (List Request)) (sched : List (Turn × ℕ)) :
    let sys := serviceSystem bucketCount bucketDuration (fleet.flatMap Link.requests ++ others)
    let made := recordsIn ((linearization sys sched).map Prod.snd)
    let asked := fleet.flatMap (fun l => l.samples) ++ others.flatMap (·.flatMap Request.records)
    made.Subperm asked ∧
      ((∀ w ∈ (serve sys sched).procs, w.requests = []) →
        (∀ l ∈ fleet, ∀ stream, l.received stream = l.sentOn stream) →
        ∃ buffered : List StoreRecord, (made ++ buffered).Perm asked ∧
          buffered.length ≤ 99 * fleet.length) := by
  intro sys made asked
  have hmade := service_records bucketCount bucketDuration (fleet.flatMap Link.requests ++ others)
    sched
  have hrequests : (fleet.flatMap Link.requests ++ others).flatMap (·.flatMap Request.records)
      = fleet.flatMap Link.records ++ others.flatMap (·.flatMap Request.records) := by
    rw [List.flatMap_append, List.flatMap_assoc]
    congr 1
    exact List.flatMap_congr fun l _ => l.records_requests
  have hall := flatMap_range_getD (fleet.flatMap Link.requests ++ others)
    (·.flatMap Request.records)
  rw [hrequests] at hall
  refine ⟨?_, fun hfinished hlossless => ?_⟩
  · -- what has been served is a part of what has been asked for
    have hserved : ((List.range (fleet.flatMap Link.requests ++ others).length).flatMap fun i =>
        (servedBy (fleet.flatMap Link.requests ++ others) (serve sys sched) i).flatMap
          Request.records).Sublist
        (fleet.flatMap Link.records ++ others.flatMap (·.flatMap Request.records)) := by
      rw [← hall]
      exact List.Sublist.flatMap_right _ fun i _ => (List.take_sublist _ _).flatMap _
    exact (hmade.subperm.trans hserved.subperm).trans
      ((fleet_subperm fleet).append (List.Subperm.refl _))
  · have hserved : ∀ i, servedBy (fleet.flatMap Link.requests ++ others) (serve sys sched) i
        = (fleet.flatMap Link.requests ++ others).getD i [] := by
      intro i
      have hnone : ((serve sys sched).procs[i]?.map Worker.requests).getD [] = [] := by
        cases hi : (serve sys sched).procs[i]? with
        | none => rfl
        | some w => exact hfinished w (List.mem_of_getElem? hi)
      rw [servedBy, hnone, List.length_nil, Nat.sub_zero, List.take_length]
    have hdone : ((List.range (fleet.flatMap Link.requests ++ others).length).flatMap fun i =>
        (servedBy (fleet.flatMap Link.requests ++ others) (serve sys sched) i).flatMap
          Request.records)
        = fleet.flatMap Link.records ++ others.flatMap (·.flatMap Request.records) := by
      rw [← hall]
      exact List.flatMap_congr fun i _ => by rw [hserved i]
    obtain ⟨buffered, hperm, hlength⟩ := fleet_of_lossless hlossless
    refine ⟨buffered, ?_, hlength⟩
    have hmade' : made.Perm _ := hmade.trans (List.Perm.of_eq hdone)
    refine (hmade'.append_right buffered).trans (List.Perm.trans ?_ (hperm.append_right _))
    rw [List.append_assoc, List.append_assoc]
    exact List.perm_append_comm.append_left _

/-- A collector that reads the fault two seconds after its start and flushes at once, over a stream
that delivers the batch. -/
def faultLink : Link where
  nodeName := "node-1"
  started := 0
  reads := [(some (faultSample 5),
    ⟨some ⟨Finmap.singleton 5 "default/Deployment/web"⟩, 0, 2 * 10 ^ 9, 0, 0, true, true⟩)]
  received := Collector.sentOn _
  inOrder _ := List.Sublist.refl _

/-- The fault, and events simulated for another workload: both records are made, and no more. -/
theorem fleet_records_fault :
    let simulated : List Request :=
      [.simulateEvents ⟨"default/Deployment/api", "node-2", 1, 2, 3, 4⟩]
    let sys := serviceSystem 12 5 ([faultLink].flatMap Link.requests ++ [simulated])
    let sched : List (Turn × ℕ) := [(⟨0, none⟩, 0), (⟨0, none⟩, 1), (⟨0, none⟩, 0), (⟨0, none⟩, 1),
      (⟨1, none⟩, 1), (⟨1, none⟩, 0), (⟨2, none⟩, 0), (⟨2, none⟩, 1)]
    ∃ buffered, (recordsIn ((linearization sys sched).map Prod.snd) ++ buffered).Perm
      [("default/Deployment/web", .pageFault, "node-1"),
        ("default/Deployment/api", .bulk 1 2 4 3, "node-2")] ∧ buffered.length ≤ 99 := by
  intro simulated sys sched
  obtain ⟨-, hexact⟩ := fleet_records 12 5 [faultLink] [simulated] sched
  obtain ⟨buffered, hperm, hlength⟩ := hexact (by decide +kernel)
    (fun l hl stream => by rw [List.mem_singleton.mp hl]; rfl)
  refine ⟨buffered, hperm.trans (List.Perm.of_eq (by decide +kernel)), hlength⟩

end Akil
