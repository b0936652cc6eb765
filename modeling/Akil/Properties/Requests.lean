import Akil.Properties.Linearization

/-!
# What a request is answered with

`aggregator_linearizable` makes one run of the sequential store out of a run of the goroutines.  This
file is about the part one goroutine has in it.  `requests_served_in_order` follows a goroutine
through its requests: it makes the calls of each, the whole of one before any of the next, and
answers a query with what its own calls return.  The invariant `Worker.InOrder` splits its calls into
those of the requests it has finished with and those of the one in hand, and `Midway` says for every
stage what the latter are; no step of another goroutine touches it.

`node_query_complete` is about a `QueryNodeProfiles` while others write.  Its `Range` is no snapshot,
but it misses nothing: a workload recorded from the node before the query began is in the answer, no
workload is there twice, and none that has never been recorded from the node.  Its invariant,
`NodeQuery`, does look at the shared store, and is kept by the others because it only grows.
-/

namespace Akil

/-! ## The calls of a request -/

/-- A call a goroutine makes, and the profile it computes there. -/
abbrev ServeEvent := (ℤ × StoreCall) × Option RuntimeProfile

/-- The call a step is, with what it computes. -/
def Worker.event (m : Turn) (s : SharedStore) (w : Worker) : Option ServeEvent :=
  (w.call m s).map (·, w.answer m s)

/-- The calls of a list of events, without their readings. -/
def callsOf (events : List ServeEvent) : List StoreCall := events.map fun e => e.1.2

/-- The profiles of a list of events. -/
def profilesOf (events : List ServeEvent) : List RuntimeProfile := events.filterMap Prod.snd

@[simp] lemma callsOf_nil : callsOf [] = [] := rfl

@[simp] lemma callsOf_append (events events' : List ServeEvent) :
    callsOf (events ++ events') = callsOf events ++ callsOf events' := List.map_append

@[simp] lemma callsOf_singleton (t : ℤ) (c : StoreCall) (p : Option RuntimeProfile) :
    callsOf [((t, c), p)] = [c] := rfl

@[simp] lemma profilesOf_append (events events' : List ServeEvent) :
    profilesOf (events ++ events') = profilesOf events ++ profilesOf events' :=
  List.filterMap_append

lemma profilesOf_singleton (c : ℤ × StoreCall) (p : Option RuntimeProfile) :
    profilesOf [(c, p)] = p.toList := by cases p <;> rfl

/-- The call of `QueryProfile` on a key. -/
def StoreCall.query (key : String) : StoreCall := .onProfile key .computeProfile

/-- The visits of a `Range` are calls if it is that of `QueryNodeProfiles`. -/
def visitCalls (nodeName : Option String) (keys : List String) : List StoreCall :=
  match nodeName with
  | none => []
  | some nodeName => keys.map (.visitNode nodeName)

/-- The keys a request asks for with `QueryProfile`: the one it names, or each key of the store
once. -/
def Request.Asks (req : Request) (keys : List String) : Prop :=
  (∃ key, req.opening = .query key ∧ keys = [key]) ∨ (req.opening = .range none ∧ keys.Nodup)

/-- The calls a request that is served to its end has made. -/
inductive Request.Makes (req : Request) : List StoreCall → Prop
  | nothing (h : req.opening = .nothing) : req.Makes []
  | getOrCreate {key : String} {c : Option ProfileCall} (h : req.opening = .getOrCreate key c) :
      req.Makes (.getOrCreate key :: (c.map (.onProfile key)).toList)
  | queries {keys : List String} (h : req.Asks keys) : req.Makes (keys.map .query)
  | visits {nodeName : String} {keys : List String} (h : req.opening = .range (some nodeName))
      (hnodup : keys.Nodup) : req.Makes (keys.map (.visitNode nodeName))

/-- An event of a telemetry stream makes the calls of the event. -/
lemma Request.Makes.telemetry {nodeName : String} {evt : TelemetryEvent} {calls : List StoreCall}
    (h : (Request.telemetry nodeName evt).Makes calls) : calls = evt.calls nodeName := by
  by_cases hkey : evt.workloadKey = ""
  · have hopening : (Request.telemetry nodeName evt).opening = .nothing := if_pos hkey
    rw [TelemetryEvent.calls, if_pos hkey]
    cases h with
    | nothing _ => rfl
    | getOrCreate h => exact absurd (hopening.symm.trans h) (by simp)
    | queries h => simp [Request.Asks, hopening] at h
    | visits h _ => exact absurd (hopening.symm.trans h) (by simp)
  · have hopening : (Request.telemetry nodeName evt).opening
        = .getOrCreate evt.workloadKey (evt.recordCall.map (.record · nodeName)) := if_neg hkey
    rw [TelemetryEvent.calls, if_neg hkey]
    cases h with
    | nothing h => exact absurd (hopening.symm.trans h) (by simp)
    | getOrCreate h =>
        obtain ⟨rfl, rfl⟩ := Opening.getOrCreate.inj (hopening.symm.trans h)
        simp [Option.map_map, Function.comp_def]
    | queries h => simp [Request.Asks, hopening] at h
    | visits h _ => exact absurd (hopening.symm.trans h) (by simp)

/-! ## One goroutine -/

/-- What a goroutine has called for the request in hand, stage by stage. -/
def Midway (req : Request) (calls : List StoreCall) : ServeStage → Prop
  | .next => calls = []
  | .missed key c | .created key c _ => req.opening = .getOrCreate key c ∧ calls = []
  | .located key c _ => req.opening = .getOrCreate key c ∧ calls = [.getOrCreate key]
  | .ranging nodeName _ visited =>
      req.opening = .range nodeName ∧ visited.Nodup ∧ calls = visitCalls nodeName visited
  | .visiting nodeName _ visited key _ | .onNode nodeName _ visited key _ =>
      req.opening = .range (some nodeName) ∧ (visited ++ [key]).Nodup ∧
        calls = visited.map (.visitNode nodeName)
  | .querying keys => ∃ asked, req.Asks (asked ++ keys) ∧ calls = asked.map .query
  | .found keys key _ => ∃ asked, req.Asks (asked ++ key :: keys) ∧ calls = asked.map .query

/-- How far a goroutine is with its requests: it has made the calls of those it is done with, and
then some of the one in hand, if there is one, of which it holds the results. -/
structure Worker.InOrder (requests : List Request) (events : List ServeEvent) (w : Worker)
    (done : List Request) (past part : List ServeEvent) : Prop where
  requests_eq : requests = done ++ w.requests
  events_eq : events = past ++ part
  makes : ∃ callss, List.Forall₂ Request.Makes done callss ∧ callsOf past = callss.flatten
  idle : w.requests = [] → w.stage = .next ∧ part = []
  midway : ∀ req ∈ w.requests.head?, Midway req (callsOf part) w.stage
  reply_eq : w.reply = profilesOf part

namespace Worker.InOrder

variable {requests done rest : List Request} {req : Request} {events past part : List ServeEvent}
  {w w' : Worker}

lemma new (requests : List Request) : (Worker.new requests).InOrder requests [] [] [] [] where
  requests_eq := rfl
  events_eq := rfl
  makes := ⟨[], .nil, rfl⟩
  idle _ := ⟨rfl, rfl⟩
  midway _ _ := rfl
  reply_eq := rfl

/-- A goroutine that has begun with a request has it in hand. -/
lemma inHand (h : w.InOrder requests events done past part) (hstage : w.stage ≠ .next) :
    ∃ req rest, w.requests = req :: rest ∧ Midway req (callsOf part) w.stage := by
  cases hreq : w.requests with
  | nil => exact absurd (h.idle hreq).1 hstage
  | cons req rest => exact ⟨req, rest, rfl, h.midway req (by rw [hreq]; rfl)⟩

/-- Go on with the request in hand. -/
lemma goTo (h : w.InOrder requests events done past part) (hreq : w.requests = req :: rest)
    {stage : ServeStage} (hmidway : Midway req (callsOf part) stage) :
    (w.goTo stage).InOrder requests events done past part where
  requests_eq := h.requests_eq
  events_eq := h.events_eq
  makes := h.makes
  idle hnil := by
    rw [requests_goTo, hreq] at hnil
    cases hnil
  midway req' hreq' := by
    rw [requests_goTo, hreq, List.head?_cons, Option.mem_some_iff] at hreq'
    rwa [← hreq']
  reply_eq := h.reply_eq

/-- Go on with the request in hand after a call. -/
lemma call (h : w.InOrder requests events done past part) (hreq : w.requests = req :: rest)
    {stage : ServeStage} (t : ℤ) {c : StoreCall} (p : Option RuntimeProfile)
    (hmidway : Midway req (callsOf part ++ [c]) stage) :
    (w.append p stage).InOrder requests (events ++ [((t, c), p)]) done past
      (part ++ [((t, c), p)]) where
  requests_eq := h.requests_eq
  events_eq := by rw [h.events_eq, List.append_assoc]
  makes := h.makes
  idle hnil := by
    rw [requests_append, hreq] at hnil
    cases hnil
  midway req' hreq' := by
    rw [requests_append, hreq, List.head?_cons, Option.mem_some_iff] at hreq'
    rwa [← hreq', callsOf_append, callsOf_singleton]
  reply_eq := by
    rw [reply_append, h.reply_eq, profilesOf_append, profilesOf_singleton]

/-- Be done with the request in hand, perhaps with a last call. -/
lemma finish (h : w.InOrder requests events done past part) (hreq : w.requests = req :: rest)
    (last : List ServeEvent) (hmakes : req.Makes (callsOf part ++ callsOf last)) :
    w.finish.InOrder requests (events ++ last) (done ++ [req]) (past ++ (part ++ last)) [] where
  requests_eq := by simp [h.requests_eq, Worker.finish, hreq]
  events_eq := by rw [h.events_eq, List.append_assoc, List.append_nil]
  makes := by
    obtain ⟨callss, hall, hpast⟩ := h.makes
    refine ⟨callss ++ [callsOf part ++ callsOf last], List.rel_append hall (.cons hmakes .nil), ?_⟩
    rw [List.flatten_concat, ← hpast, callsOf_append, callsOf_append]
  idle _ := ⟨rfl, rfl⟩
  midway _ _ := rfl
  reply_eq := rfl

end Worker.InOrder

/-- **One step.**  A step keeps the order of a goroutine's calls. -/
lemma Worker.step_inOrder {requests : List Request} {events : List ServeEvent} {w : Worker}
    (h : ∃ done past part, w.InOrder requests events done past part) (m : Turn) (s : SharedStore) :
    ∃ done past part, (w.step m s).2.InOrder requests (events ++ (w.event m s).toList)
      done past part := by
  obtain ⟨done, past, part, h⟩ := h
  have hmoves := w.step_moves m s
  have hevent : w.event m s = (w.call m s).map (·, w.answer m s) := rfl
  generalize (w.step m s).1 = s' at hmoves
  generalize (w.step m s).2 = w' at hmoves ⊢
  generalize w.event m s = e at hevent ⊢
  generalize w.call m s = call at hmoves hevent
  generalize w.answer m s = answer at hmoves hevent
  subst hevent
  -- a request that has just been opened has made no call yet
  have hopened : ∀ {req rest}, w.requests = req :: rest → w.stage = .next → callsOf part = [] := by
    intro req rest hreq hstage
    have hpart := h.midway req (by rw [hreq]; rfl)
    rwa [hstage] at hpart
  -- and of one that is further on the stage says which calls it has made
  have hinHand : ∀ {stage}, w.stage = stage → stage ≠ .next →
      ∃ req rest, w.requests = req :: rest ∧ Midway req (callsOf part) stage := by
    rintro stage rfl hstage
    exact h.inHand hstage
  have hsilent : events ++ (none : Option ServeEvent).toList = events := List.append_nil _
  cases hmoves with
  | wait => exact ⟨done, past, part, by simpa using h⟩
  | skip hreq hstage hopening =>
      refine ⟨_, _, _, h.finish hreq [] ?_⟩
      rw [hopened hreq hstage]
      exact .nothing hopening
  | hit hreq hstage hopening _ =>
      rw [← Worker.append_none]
      refine ⟨_, _, _, h.call hreq _ none ⟨hopening, ?_⟩⟩
      rw [hopened hreq hstage, List.nil_append]
  | miss hreq hstage hopening _ =>
      rw [Option.map_none, hsilent]
      exact ⟨_, _, _, h.goTo hreq ⟨hopening, hopened hreq hstage⟩⟩
  | create hstage =>
      obtain ⟨req, rest, hreq, hmid⟩ := hinHand hstage (by simp)
      rw [Option.map_none, hsilent]
      exact ⟨_, _, _, h.goTo hreq hmid⟩
  | store hstage _ =>
      obtain ⟨req, rest, hreq, hopening, hmid⟩ := hinHand hstage (by simp)
      rw [← Worker.append_none]
      refine ⟨_, _, _, h.call hreq _ none ⟨hopening, ?_⟩⟩
      rw [hmid]
      rfl
  | ignore hstage =>
      obtain ⟨req, rest, hreq, hopening, hmid⟩ := hinHand hstage (by simp)
      refine ⟨_, _, _, h.finish hreq [] ?_⟩
      rw [hmid]
      exact .getOrCreate hopening
  | invoke hstage =>
      obtain ⟨req, rest, hreq, hopening, hmid⟩ := hinHand hstage (by simp)
      refine ⟨_, _, _, h.finish hreq [_] ?_⟩
      rw [hmid]
      exact .getOrCreate hopening
  | query hreq hstage hopening =>
      rw [Option.map_none, hsilent]
      refine ⟨_, _, _, h.goTo hreq ⟨[], .inl ⟨_, hopening, rfl⟩, hopened hreq hstage⟩⟩
  | @range req rest nodeName hreq hstage hopening =>
      rw [Option.map_none, hsilent]
      refine ⟨_, _, _, h.goTo hreq ⟨hopening, List.nodup_nil, ?_⟩⟩
      rw [hopened hreq hstage]
      cases nodeName <;> rfl
  | @visit nodeName present visited key addr hstage hnew _ =>
      obtain ⟨req, rest, hreq, hopening, hnodup, hmid⟩ := hinHand hstage (by simp)
      have hnodup' : (visited ++ [key]).Nodup := by
        rw [List.nodup_append_comm]
        exact List.nodup_cons.mpr ⟨hnew, hnodup⟩
      rw [Option.map_none, hsilent]
      cases nodeName with
      | none => exact ⟨_, _, _, h.goTo hreq ⟨hopening, hnodup', hmid⟩⟩
      | some nodeName => exact ⟨_, _, _, h.goTo hreq ⟨hopening, hnodup', hmid⟩⟩
  | @endRange nodeName present visited hstage _ =>
      obtain ⟨req, rest, hreq, hopening, hnodup, hmid⟩ := hinHand hstage (by simp)
      cases nodeName with
      | none =>
          rw [Option.map_none, hsilent]
          exact ⟨_, _, _, h.goTo hreq ⟨[], .inr ⟨hopening, hnodup⟩, hmid⟩⟩
      | some nodeName =>
          refine ⟨_, _, _, h.finish hreq [] ?_⟩
          rw [hmid, callsOf_nil, List.append_nil]
          exact .visits hopening hnodup
  | elsewhere hstage _ =>
      obtain ⟨req, rest, hreq, hopening, hnodup, hmid⟩ := hinHand hstage (by simp)
      rw [← Worker.append_none]
      refine ⟨_, _, _, h.call hreq _ none ⟨hopening, hnodup, ?_⟩⟩
      rw [hmid, visitCalls, List.map_append, List.map_singleton]
  | onNode hstage _ =>
      obtain ⟨req, rest, hreq, hmid⟩ := hinHand hstage (by simp)
      rw [Option.map_none, hsilent]
      exact ⟨_, _, _, h.goTo hreq hmid⟩
  | compute hstage =>
      obtain ⟨req, rest, hreq, hopening, hnodup, hmid⟩ := hinHand hstage (by simp)
      refine ⟨_, _, _, h.call hreq _ _ ⟨hopening, hnodup, ?_⟩⟩
      rw [hmid, visitCalls, List.map_append, List.map_singleton]
  | done hstage =>
      obtain ⟨req, rest, hreq, asked, hasks, hmid⟩ := hinHand hstage (by simp)
      refine ⟨_, _, _, h.finish hreq [] ?_⟩
      rw [hmid, callsOf_nil, List.append_nil]
      rw [List.append_nil] at hasks
      exact .queries hasks
  | find hstage _ =>
      obtain ⟨req, rest, hreq, hmid⟩ := hinHand hstage (by simp)
      rw [Option.map_none, hsilent]
      exact ⟨_, _, _, h.goTo hreq hmid⟩
  | @unknown key keys hstage _ =>
      obtain ⟨req, rest, hreq, asked, hasks, hmid⟩ := hinHand hstage (by simp)
      refine ⟨_, _, _, h.call hreq _ _ ⟨asked ++ [key], by simpa using hasks, ?_⟩⟩
      rw [hmid, List.map_append]
      rfl
  | @queried keys key addr hstage =>
      obtain ⟨req, rest, hreq, asked, hasks, hmid⟩ := hinHand hstage (by simp)
      refine ⟨_, _, _, h.call hreq _ _ ⟨asked ++ [key], by simpa using hasks, ?_⟩⟩
      rw [hmid, List.map_append]
      rfl

/-! ## Runs -/

lemma serviceSystem_procs (bucketCount bucketDuration : ℤ) {requests : List (List Request)} {i : ℕ}
    {reqs : List Request} (hi : requests[i]? = some reqs) :
    (serviceSystem bucketCount bucketDuration requests).procs[i]? = some (Worker.new reqs) := by
  rw [serviceSystem, List.getElem?_map, hi, Option.map_some]

/-- What a goroutine is about to answer are the results of the calls of its request. -/
lemma Worker.InOrder.response {requests : List Request} {events : List ServeEvent} {w : Worker}
    {done : List Request} {past part : List ServeEvent}
    (h : w.InOrder requests events done past part) {m : Turn} {s : SharedStore}
    {reply : List RuntimeProfile} (hresponse : w.response m s = some reply) :
    (∃ req ∈ w.requests.head?, req.Makes (callsOf part)) ∧ reply = profilesOf part := by
  cases hreq : w.requests with
  | nil => simp [Worker.response, hreq] at hresponse
  | cons req rest =>
      have hmid := h.midway req (by rw [hreq]; rfl)
      rw [List.head?_cons]
      cases hstage : w.stage with
      | ranging nodeName present visited =>
          rw [hstage] at hmid
          cases nodeName with
          | none => simp [Worker.response, hreq, hstage] at hresponse
          | some nodeName =>
              obtain ⟨hopening, hnodup, hcalls⟩ := hmid
              simp only [Worker.response, hreq, hstage, Option.ite_none_right_eq_some,
                Option.some.injEq] at hresponse
              refine ⟨⟨req, rfl, ?_⟩, hresponse.2.symm.trans h.reply_eq⟩
              rw [hcalls]
              exact .visits hopening hnodup
      | querying keys =>
          rw [hstage] at hmid
          cases keys with
          | nil =>
              obtain ⟨asked, hasks, hcalls⟩ := hmid
              simp only [Worker.response, hreq, hstage, Option.some.injEq] at hresponse
              refine ⟨⟨req, rfl, ?_⟩, hresponse.symm.trans h.reply_eq⟩
              rw [hcalls]
              rw [List.append_nil] at hasks
              exact .queries hasks
          | cons key keys => simp [Worker.response, hreq, hstage] at hresponse
      | _ => simp [Worker.response, hreq, hstage] at hresponse

/-- Every goroutine keeps the order of its calls. -/
lemma serve_inOrder {bucketCount bucketDuration : ℤ} {requests : List (List Request)} {i : ℕ}
    {reqs : List Request} (hi : requests[i]? = some reqs) (sched : List (Turn × ℕ)) {w : Worker}
    (hw : (serve (serviceSystem bucketCount bucketDuration requests) sched).procs[i]? = some w) :
    ∃ done past part, w.InOrder reqs (System.traceOf Worker.step Worker.event i
      (serviceSystem bucketCount bucketDuration requests) sched) done past part := by
  refine System.traceOf_invariant
    (I := fun events w => ∃ done past part, w.InOrder reqs events done past part)
    (fun m s _ _ h => Worker.step_inOrder h m s) [] (fun p hp => ?_) sched w hw
  obtain rfl : Worker.new reqs = p :=
    Option.some_inj.mp ((serviceSystem_procs _ _ hi).symm.trans hp)
  exact ⟨_, _, _, .new reqs⟩

/-- **Requests are served in order.**  A goroutine makes the calls of the requests it is done with,
all calls of one before those of the next and in the order the requests came in, and then some of
those of the request in hand; and when it answers, it answers with what its calls for that request
have returned.  No interleaving with other goroutines changes that. -/
theorem requests_served_in_order (bucketCount bucketDuration : ℤ) (requests : List (List Request))
    (sched : List (Turn × ℕ)) (i : ℕ) (reqs : List Request) (hi : requests[i]? = some reqs) :
    let sys := serviceSystem bucketCount bucketDuration requests
    ∃ w done past part, (serve sys sched).procs[i]? = some w ∧ reqs = done ++ w.requests ∧
      System.traceOf Worker.step Worker.event i sys sched = past ++ part ∧
      (∃ callss, List.Forall₂ Request.Makes done callss ∧ callsOf past = callss.flatten) ∧
      (w.requests = [] → part = []) ∧
      ∀ m reply, w.response m (serve sys sched).shared = some reply →
        (∃ req ∈ w.requests.head?, req.Makes (callsOf part)) ∧ reply = profilesOf part := by
  intro sys
  have hnew : sys.procs[i]? = some (Worker.new reqs) := serviceSystem_procs _ _ hi
  obtain ⟨w, hw⟩ := System.exists_getElem?_run Worker.step hnew sched
  obtain ⟨done, past, part, h⟩ := serve_inOrder hi sched hw
  exact ⟨w, done, past, part, hw, h.requests_eq, h.events_eq, h.makes,
    fun hnil => (h.idle hnil).2, fun _ _ hresponse => h.response hresponse⟩

/-- A goroutine that has recorded a fault and then answers a query of the same workload, with
another goroutine in between: it has made the calls of the event and is done with it, and the
answer is what its query has returned. -/
theorem requests_served_in_order_query :
    let fault : TelemetryEvent := ⟨.pageFault, "default/Deployment/web", 0, none⟩
    let query : Request := .queryProfile "default/Deployment/web"
    let sys := serviceSystem 2 10
      [[.telemetry "node-1" fault, query], [.resetProfile "default/Deployment/web"]]
    let sched : List (Turn × ℕ) := [(⟨0, none⟩, 0), (⟨0, none⟩, 0), (⟨1, none⟩, 0), (⟨1, none⟩, 1),
      (⟨2, none⟩, 0), (⟨2, none⟩, 0), (⟨3, none⟩, 1), (⟨3, none⟩, 0), (⟨4, none⟩, 0)]
    ∃ w past part, (serve sys sched).procs[0]? = some w ∧ w.requests = [query] ∧
      System.traceOf Worker.step Worker.event 0 sys sched = past ++ part ∧
      callsOf past = fault.calls "node-1" ∧
      ∀ m reply, w.response m (serve sys sched).shared = some reply → reply = profilesOf part := by
  intro fault query sys sched
  obtain ⟨w, done, past, part, hw, hdone, hevents, ⟨callss, hmakes, hpast⟩, -, hresponse⟩ :=
    requests_served_in_order 2 10
      [[.telemetry "node-1" fault, query], [.resetProfile "default/Deployment/web"]] sched 0 _ rfl
  have hreq : w.requests = [query] := by
    have hmap : (serve sys sched).procs[0]?.map Worker.requests = some [query] := by decide
    rw [hw] at hmap
    exact Option.some_inj.mp hmap
  rw [hreq] at hdone
  obtain rfl : [.telemetry "node-1" fault] = done := List.append_cancel_right hdone
  obtain ⟨calls, _, hcalls, hnil, rfl⟩ := List.forall₂_cons_left_iff.mp hmakes
  obtain rfl := List.forall₂_nil_left_iff.mp hnil
  refine ⟨w, past, part, hw, hreq, hevents, ?_, fun m reply hreply => (hresponse m reply hreply).2⟩
  rw [hpast, List.flatten_singleton, hcalls.telemetry]

/-! ## Node queries -/

/-- A stored key whose profile is located on a node. -/
def SharedStore.Located (s : SharedStore) (nodeName key : String) : Prop :=
  ∃ addr, s.load key = some addr ∧ s.OnNode addr nodeName

lemma SharedStore.Grows.trans {s s' s'' : SharedStore} (h : s.Grows s') (h' : s'.Grows s'') :
    s.Grows s'' where
  bucketCount := h'.bucketCount.trans h.bucketCount
  bucketDuration := h'.bucketDuration.trans h.bucketDuration
  load key addr hload := h'.load key addr (h.load key addr hload)
  onNode addr nodeName hnode := h'.onNode addr nodeName (h.onNode addr nodeName hnode)

lemma SharedStore.Grows.located {s s' : SharedStore} (h : s.Grows s') {nodeName key : String}
    (hkey : s.Located nodeName key) : s'.Located nodeName key := by
  obtain ⟨addr, hload, hnode⟩ := hkey
  exact ⟨addr, h.load _ _ hload, h.onNode _ _ hnode⟩

lemma SharedStore.Located.mem_keys {s : SharedStore} {nodeName key : String}
    (h : s.Located nodeName key) : key ∈ s.keys := by
  obtain ⟨addr, hload, -⟩ := h
  exact Finmap.mem_keys.mpr (Finmap.lookup_isSome.mp (by rw [← SharedStore.load, hload]; rfl))

/-- A key is located on a node once it has a record from it. -/
lemma Represents.located_iff {bucketCount bucketDuration : ℤ} {calls : List (ℤ × StoreCall)}
    {s : SharedStore} (h : Represents ((newStore bucketCount bucketDuration).run calls) s)
    (nodeName key : String) : s.Located nodeName key ↔ HasRecordFrom key nodeName calls := by
  have hget := store_get_run bucketCount bucketDuration calls key
  rw [(keyHistory_spec key nodeName calls).2, SharedStore.Located]
  constructor
  · rintro ⟨addr, hload, hnode⟩
    obtain ⟨wp, hwp, hmem⟩ := (h.mem_nodeLocations_iff hload).mp hnode
    rw [hget, Option.map_eq_some_iff] at hwp
    obtain ⟨own, hown, rfl⟩ := hwp
    refine ⟨own, hown, ?_⟩
    rw [WorkloadProfile.nodeLocations_run] at hmem
    simpa [newWorkloadProfile] using hmem
  · rintro ⟨own, hown, hmem⟩
    cases hload : s.load key with
    | none =>
        rw [h.get_none hload, hown] at hget
        cases hget
    | some addr =>
        rw [hown, Option.map_some] at hget
        refine ⟨addr, rfl, (h.mem_nodeLocations_iff hload).mpr ⟨_, hget, ?_⟩⟩
        rw [WorkloadProfile.nodeLocations_run]
        simp [hmem]

/-- The profile computed for a key names the key. -/
lemma Represents.compute_workloadKey {bucketCount bucketDuration : ℤ}
    {calls : List (ℤ × StoreCall)} {s : SharedStore}
    (h : Represents ((newStore bucketCount bucketDuration).run calls) s) {key : String} {addr : ℕ}
    (hload : s.load key = some addr) (t : ℤ) :
    ∃ p, s.compute addr t = some p ∧ p.workloadKey = key := by
  refine ⟨_, h.compute_eq hload t, ?_⟩
  rw [queryProfile_run, loneQuery_workloadKey]

/-- The invariant of the `Range` of a node query that began in `s₀`: the keys in the answer are
visited ones, all that had been recorded from the node when it began, and only recorded ones. -/
structure NodeQuery (s₀ s : SharedStore) (nodeName : String) (visited answered : List String) :
    Prop where
  nodup : visited.Nodup
  sublist : answered.Sublist visited
  complete : ∀ key ∈ visited, s₀.Located nodeName key → key ∈ answered
  located : ∀ key ∈ answered, s.Located nodeName key

namespace NodeQuery

variable {s₀ s s' : SharedStore} {nodeName key : String} {visited answered : List String}

lemma mono (h : NodeQuery s₀ s nodeName visited answered) (hgrows : s.Grows s') :
    NodeQuery s₀ s' nodeName visited answered :=
  ⟨h.nodup, h.sublist, h.complete, fun key hkey => hgrows.located (h.located key hkey)⟩

lemma nodup_concat (h : NodeQuery s₀ s nodeName visited answered) (hnew : key ∉ visited) :
    (visited ++ [key]).Nodup := by
  rw [List.nodup_append_comm]
  exact List.nodup_cons.mpr ⟨hnew, h.nodup⟩

/-- A key is passed over that is not recorded from the node, and so was not when the query
began. -/
lemma pass (h : NodeQuery s₀ s nodeName visited answered) (hgrows : s₀.Grows s)
    (hnew : key ∉ visited) (hnot : ¬ s.Located nodeName key) :
    NodeQuery s₀ s nodeName (visited ++ [key]) answered where
  nodup := h.nodup_concat hnew
  sublist := h.sublist.trans (List.sublist_append_left _ _)
  complete key' hkey' hlocated := by
    rcases List.mem_append.mp hkey' with hmem | hmem
    · exact h.complete key' hmem hlocated
    · rw [List.mem_singleton.mp hmem] at hlocated
      exact absurd (hgrows.located hlocated) hnot
  located := h.located

/-- A key is answered that is recorded from the node. -/
lemma answer (h : NodeQuery s₀ s nodeName visited answered) (hnew : key ∉ visited)
    (hlocated : s.Located nodeName key) :
    NodeQuery s₀ s nodeName (visited ++ [key]) (answered ++ [key]) where
  nodup := h.nodup_concat hnew
  sublist := h.sublist.append (List.Sublist.refl _)
  complete key' hkey' hlocated' := by
    rcases List.mem_append.mp hkey' with hmem | hmem
    · exact List.mem_append_left _ (h.complete key' hmem hlocated')
    · exact List.mem_append_right _ hmem
  located key' hkey' := by
    rcases List.mem_append.mp hkey' with hmem | hmem
    · exact h.located key' hmem
    · rwa [List.mem_singleton.mp hmem]

end NodeQuery

/-- The stages of a node query that began in `s₀`. -/
def QueryStage (s₀ s : SharedStore) (nodeName : String) (reply : List RuntimeProfile) :
    ServeStage → Prop
  | .next => reply = []
  | .ranging node present visited =>
      node = some nodeName ∧ (∀ key, s₀.Located nodeName key → key ∈ present) ∧
        NodeQuery s₀ s nodeName visited (reply.map RuntimeProfile.workloadKey)
  | .visiting node present visited key _ | .onNode node present visited key _ =>
      node = nodeName ∧ (∀ key, s₀.Located nodeName key → key ∈ present) ∧
        NodeQuery s₀ s nodeName visited (reply.map RuntimeProfile.workloadKey) ∧ key ∉ visited
  | _ => False

lemma QueryStage.mono {s₀ s s' : SharedStore} {nodeName : String} {reply : List RuntimeProfile}
    {stage : ServeStage} (h : QueryStage s₀ s nodeName reply stage) (hgrows : s.Grows s') :
    QueryStage s₀ s' nodeName reply stage := by
  cases stage with
  | next => exact h
  | ranging node present visited => exact ⟨h.1, h.2.1, h.2.2.mono hgrows⟩
  | visiting node present visited key addr => exact ⟨h.1, h.2.1, h.2.2.1.mono hgrows, h.2.2.2⟩
  | onNode node present visited key addr => exact ⟨h.1, h.2.1, h.2.2.1.mono hgrows, h.2.2.2⟩
  | _ => exact h.elim

/-- **One step of a node query**: it goes on, or is answered. -/
lemma Worker.step_nodeQuery {bucketCount bucketDuration : ℤ} {calls : List (ℤ × StoreCall)}
    {s₀ s : SharedStore} (hs : Represents ((newStore bucketCount bucketDuration).run calls) s)
    (hgrows : s₀.Grows s) {w : Worker} (hpromises : w.stage.Promises s) {nodeName : String}
    {rest : List Request} (hreq : w.requests = .queryNodeProfiles nodeName :: rest)
    (hstage : QueryStage s₀ s nodeName w.reply w.stage) (m : Turn) :
    (w.step m s).2.requests = rest ∨ ((w.step m s).2.requests = w.requests ∧
      QueryStage s₀ (w.step m s).1 nodeName (w.step m s).2.reply (w.step m s).2.stage) := by
  have hgrows' := (w.step_represents hs hpromises m).grows
  have hmoves := w.step_moves m s
  generalize (w.step m s).1 = s' at hmoves hgrows' ⊢
  generalize (w.step m s).2 = w' at hmoves ⊢
  generalize w.call m s = call at hmoves
  generalize w.answer m s = answer at hmoves
  have hfinish : w.finish.requests = rest := by rw [Worker.finish, hreq, List.tail_cons]
  have hopening : ∀ {req rest' opening}, w.requests = req :: rest' → req.opening = opening →
      opening = .nothing ∨ opening = .range (some nodeName) := by
    rintro req rest' opening hreq' rfl
    obtain ⟨rfl, rfl⟩ := List.cons.inj (hreq.symm.trans hreq')
    by_cases hnode : nodeName = ""
    · exact .inl (if_pos hnode)
    · exact .inr (if_neg hnode)
  cases hmoves with
  | wait => exact .inr ⟨rfl, hstage⟩
  | skip _ _ _ => exact .inl hfinish
  | hit hreq' _ hopens _ | miss hreq' _ hopens _ | query hreq' _ hopens =>
      rcases hopening hreq' hopens with h | h <;> cases h
  | create hst | store hst _ | ignore hst | invoke hst | done hst | find hst _ | unknown hst _
  | queried hst =>
      rw [hst] at hstage
      exact hstage.elim
  | @range req rest' node hreq' hst hopens =>
      rw [hst] at hstage
      obtain rfl : node = some nodeName := by
        rcases hopening hreq' hopens with h | h
        · cases h
        · exact Opening.range.inj h
      have hreply : w.reply = [] := hstage
      refine .inr ⟨rfl, rfl, fun key hkey => (hgrows.located hkey).mem_keys, ?_⟩
      rw [reply_goTo, hreply]
      exact ⟨List.nodup_nil, List.Sublist.refl _, by simp, by simp⟩
  | @visit node present visited key addr hst hnew hload =>
      rw [hst] at hstage
      obtain ⟨rfl, hpresent, hquery⟩ := hstage
      exact .inr ⟨rfl, rfl, hpresent, hquery, hnew⟩
  | @endRange node present visited hst hend =>
      rw [hst] at hstage
      obtain ⟨rfl, -, -⟩ := hstage
      exact .inl hfinish
  | @elsewhere node present visited key addr hst hnode =>
      rw [hst] at hstage hpromises
      obtain ⟨rfl, hpresent, hquery, hnew⟩ := hstage
      refine .inr ⟨rfl, rfl, hpresent, hquery.pass hgrows hnew ?_⟩
      rintro ⟨addr', hload', hnode'⟩
      obtain rfl : addr = addr' := Option.some_inj.mp (hpromises.symm.trans hload')
      exact hnode hnode'
  | onNode hst hnode =>
      rw [hst] at hstage
      exact .inr ⟨rfl, hstage⟩
  | @compute node present visited key addr hst =>
      rw [hst] at hstage hpromises
      obtain ⟨rfl, hpresent, hquery, hnew⟩ := hstage
      obtain ⟨p, hp, hkey⟩ := hs.compute_workloadKey hpromises.1 m.now
      refine .inr ⟨rfl, rfl, hpresent, ?_⟩
      rw [reply_append, hp, Option.toList_some, List.map_append, List.map_singleton, hkey]
      exact (hquery.answer hnew ⟨addr, hpromises⟩).mono hgrows'

/-- A step leaves the requests, or is done with the first of them. -/
lemma Worker.requests_step (m : Turn) (s : SharedStore) (w : Worker) :
    (w.step m s).2.requests = w.requests ∨ (w.step m s).2.requests = w.requests.tail := by
  have hmoves := w.step_moves m s
  generalize (w.step m s).1 = s' at hmoves
  generalize (w.step m s).2 = w' at hmoves ⊢
  generalize w.call m s = call at hmoves
  generalize w.answer m s = answer at hmoves
  cases hmoves with
  | skip _ _ _ | ignore _ | invoke _ | done _ => exact .inr rfl
  | @visit node present visited key addr _ _ _ => cases node <;> exact .inl rfl
  | @endRange node present visited _ _ =>
      cases node with
      | none => exact .inl rfl
      | some node => exact .inr rfl
  | _ => exact .inl rfl

/-- Goroutine `i` serves a node query that began in `s₀` with `requests` before it, or is done with
it. -/
structure QueryUnderWay (bucketCount bucketDuration : ℤ) (s₀ : SharedStore) (i : ℕ)
    (nodeName : String) (requests : List Request) (sys : System SharedStore Worker) : Prop where
  serves : ∃ calls, Serves ((newStore bucketCount bucketDuration).run calls) sys
  grows : s₀.Grows sys.shared
  query : ∀ w, sys.procs[i]? = some w → w.requests.length < requests.length ∨
    (w.requests = requests ∧ QueryStage s₀ sys.shared nodeName w.reply w.stage)

/-- A step of any goroutine. -/
lemma QueryUnderWay.exec {bucketCount bucketDuration : ℤ} {s₀ : SharedStore} {i : ℕ}
    {nodeName : String} {rest : List Request} {sys : System SharedStore Worker}
    (h : QueryUnderWay bucketCount bucketDuration s₀ i nodeName
      (.queryNodeProfiles nodeName :: rest) sys) (m : Turn) (j : ℕ) :
    QueryUnderWay bucketCount bucketDuration s₀ i nodeName (.queryNodeProfiles nodeName :: rest)
      (System.exec Worker.step m j sys) := by
  cases hj : sys.procs[j]? with
  | none => rwa [System.exec, hj]
  | some v =>
      obtain ⟨calls, hserves⟩ := h.serves
      have hpromises := hserves.promises v (List.mem_of_getElem? hj)
      have hgrows := (v.step_represents hserves.represents hpromises m).grows
      rw [System.exec_of_getElem? hj]
      refine ⟨⟨calls ++ (v.call m sys.shared).toList, ?_⟩, h.grows.trans hgrows, fun w hw => ?_⟩
      · rw [Store.run, timedRun_append]
        exact (hserves.step hj m).1
      · by_cases hij : j = i
        · subst hij
          have hlt := (List.getElem?_eq_some_iff.mp hj).1
          obtain rfl : (v.step m sys.shared).2 = w := by
            simpa [List.getElem?_set, hlt] using hw
          rcases h.query v hj with hless | ⟨hreq, hstage⟩
          · refine .inl (lt_of_le_of_lt ?_ hless)
            rcases v.requests_step m sys.shared with hsame | htail
            · rw [hsame]
            · rw [htail, List.length_tail]
              exact Nat.sub_le _ _
          · rcases Worker.step_nodeQuery hserves.represents h.grows hpromises hreq hstage m with
              hdone | ⟨hsame, hstage'⟩
            · exact .inl (by rw [hdone, List.length_cons]; exact Nat.lt_succ_self _)
            · exact .inr ⟨hsame.trans hreq, hstage'⟩
        · have hw' : sys.procs[i]? = some w := by simpa [List.getElem?_set, hij] using hw
          exact (h.query w hw').imp_right fun hsame => ⟨hsame.1, hsame.2.mono hgrows⟩

/-- A query that can be answered has visited all keys it must. -/
lemma QueryStage.response {s₀ s : SharedStore} {nodeName : String} {w : Worker} {m : Turn}
    (h : QueryStage s₀ s nodeName w.reply w.stage) {reply : List RuntimeProfile}
    (hresponse : w.response m s = some reply) :
    (reply.map RuntimeProfile.workloadKey).Nodup ∧
      (∀ key, s₀.Located nodeName key → key ∈ reply.map RuntimeProfile.workloadKey) ∧
      ∀ key ∈ reply.map RuntimeProfile.workloadKey, s.Located nodeName key := by
  cases hreq : w.requests with
  | nil => simp [Worker.response, hreq] at hresponse
  | cons req rest =>
      cases hstage : w.stage with
      | ranging node present visited =>
          rw [hstage] at h
          obtain ⟨rfl, hpresent, hquery⟩ := h
          simp only [Worker.response, hreq, hstage, Option.ite_none_right_eq_some,
            Option.some.injEq] at hresponse
          obtain ⟨⟨-, hend⟩, rfl⟩ := hresponse
          exact ⟨hquery.nodup.sublist hquery.sublist,
            fun key hkey => hquery.complete key (hend key (hpresent key hkey)) hkey,
            hquery.located⟩
      | querying keys =>
          rw [hstage] at h
          exact h.elim
      | _ => simp [Worker.response, hreq, hstage] at hresponse

/-- **A node query misses nothing.**  A `QueryNodeProfiles` runs while other goroutines record,
create, reset and query.  When it answers, every workload that had a record from the node before
the query began is in the answer, no workload is in it twice, and none that has no record from the
node by now. -/
theorem node_query_complete (bucketCount bucketDuration : ℤ) (requests : List (List Request))
    (before during : List (Turn × ℕ)) (i : ℕ) (nodeName : String) (w w' : Worker)
    (hw : (serve (serviceSystem bucketCount bucketDuration requests) before).procs[i]? = some w)
    (hreq : w.requests.head? = some (.queryNodeProfiles nodeName)) (hstage : w.stage = .next)
    (hw' : (serve (serviceSystem bucketCount bucketDuration requests)
      (before ++ during)).procs[i]? = some w') (hsame : w'.requests = w.requests)
    (m : Turn) (reply : List RuntimeProfile)
    (hresponse : w'.response m (serve (serviceSystem bucketCount bucketDuration requests)
      (before ++ during)).shared = some reply) :
    let sys := serviceSystem bucketCount bucketDuration requests
    let keys := reply.map RuntimeProfile.workloadKey
    keys.Nodup ∧
      (∀ key, HasRecordFrom key nodeName (linearization sys before) → key ∈ keys) ∧
      ∀ key ∈ keys, HasRecordFrom key nodeName (linearization sys (before ++ during)) := by
  intro sys keys
  obtain ⟨rest, hrest⟩ : ∃ rest, w.requests = .queryNodeProfiles nodeName :: rest := by
    cases hlist : w.requests with
    | nil => simp [hlist] at hreq
    | cons req rest =>
        rw [hlist, List.head?_cons, Option.some_inj] at hreq
        exact ⟨rest, by rw [hreq]⟩
  obtain ⟨hbefore, -⟩ := (serves_serviceSystem bucketCount bucketDuration requests).run before
  obtain ⟨hafter, -⟩ :=
    (serves_serviceSystem bucketCount bucketDuration requests).run (before ++ during)
  have hreply : w.reply = [] := by
    obtain ⟨reqs, hreqs⟩ : ∃ reqs, requests[i]? = some reqs := by
      have hlt := (List.getElem?_eq_some_iff.mp hw).1
      rw [serve, System.length_procs_run, serviceSystem, List.length_map] at hlt
      exact ⟨_, List.getElem?_eq_getElem hlt⟩
    obtain ⟨done, past, part, horder⟩ := serve_inOrder hreqs before hw
    have hpart := horder.midway _ (by rw [hreq]; rfl)
    rw [hstage] at hpart
    rw [horder.reply_eq, List.map_eq_nil_iff.mp hpart]
    rfl
  have hinit : QueryUnderWay bucketCount bucketDuration (serve sys before).shared i nodeName
      (.queryNodeProfiles nodeName :: rest) (serve sys before) := by
    refine ⟨⟨_, hbefore⟩, .refl _, fun v hv => ?_⟩
    obtain rfl : w = v := Option.some_inj.mp (hw.symm.trans hv)
    exact .inr ⟨hrest, by rw [hstage]; exact hreply⟩
  have hrun : QueryUnderWay bucketCount bucketDuration (serve sys before).shared i nodeName
      (.queryNodeProfiles nodeName :: rest) (serve sys (before ++ during)) := by
    rw [serve_append]
    exact timedRun_preserves (fun m j _ h => h.exec m j) hinit during
  rcases hrun.query w' hw' with hless | ⟨-, hquery⟩
  · rw [hsame, hrest] at hless
    exact absurd hless (lt_irrefl _)
  · obtain ⟨hnodup, hcomplete, hsound⟩ := hquery.response hresponse
    exact ⟨hnodup,
      fun key hkey => hcomplete key ((hbefore.represents.located_iff nodeName key).mpr hkey),
      fun key hkey => (hafter.represents.located_iff nodeName key).mp (hsound key hkey)⟩

/-- A query of `node-1` begins when `web` has a record from there, and `api` gets its first one while
the `Range` is on its way; the query ends without having come by `api`, and has `web`. -/
theorem node_query_complete_race :
    let fault (key : String) : Request := .telemetry "node-1" ⟨.pageFault, key, 0, none⟩
    let sys := serviceSystem 2 10 [[fault "default/Deployment/web"],
      [.queryNodeProfiles "node-1"], [fault "default/Deployment/api"]]
    let before : List (Turn × ℕ) := [(⟨0, none⟩, 0), (⟨0, none⟩, 0), (⟨0, none⟩, 0), (⟨1, none⟩, 0)]
    let during : List (Turn × ℕ) := [(⟨2, none⟩, 1), (⟨2, none⟩, 2), (⟨2, none⟩, 2), (⟨2, none⟩, 2),
      (⟨3, some "default/Deployment/web"⟩, 1), (⟨3, none⟩, 1), (⟨3, none⟩, 2), (⟨4, none⟩, 1)]
    ∃ w reply, (serve sys (before ++ during)).procs[1]? = some w ∧
      w.response ⟨5, none⟩ (serve sys (before ++ during)).shared = some reply ∧
      "default/Deployment/web" ∈ reply.map RuntimeProfile.workloadKey := by
  intro fault sys before during
  obtain ⟨w, hw⟩ : ∃ w, (serve sys (before ++ during)).procs[1]? = some w :=
    Option.isSome_iff_exists.mp (by decide)
  have hrequests : w.requests = [.queryNodeProfiles "node-1"] := by
    have hmap : (serve sys (before ++ during)).procs[1]?.map Worker.requests
        = some [.queryNodeProfiles "node-1"] := by decide
    rw [hw] at hmap
    exact Option.some_inj.mp hmap
  obtain ⟨reply, hreply⟩ : ∃ reply,
      w.response ⟨5, none⟩ (serve sys (before ++ during)).shared = some reply := by
    have hbind : ((serve sys (before ++ during)).procs[1]?.bind
        (Worker.response ⟨5, none⟩ (serve sys (before ++ during)).shared)).isSome := by decide
    rw [hw] at hbind
    exact Option.isSome_iff_exists.mp hbind
  obtain ⟨-, hcomplete, -⟩ := node_query_complete 2 10 _ before during 1 "node-1"
    (Worker.new [.queryNodeProfiles "node-1"]) w rfl rfl rfl hw hrequests ⟨5, none⟩ reply hreply
  refine ⟨w, reply, hw, hreply, hcomplete _ ?_⟩
  exact ⟨[(0, .getOrCreate "default/Deployment/web")], 1, .pageFault, [], rfl, 0, by simp⟩

end Akil
