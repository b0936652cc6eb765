import Akil.Construction.Aggregator.Ingest

/-!
# Concurrent requests (`cmd/aggregator/main.go`, `pkg/profile/store.go`)

Every stream, every gRPC call and every HTTP connection is served by a goroutine of its own, and all
of them work on one store.  `Request` collects what they ask of it: the events of a telemetry stream,
the two gRPC queries, and `/api/profiles`, `/api/simulate-events` and `/api/reset-profile`.  The loop
of the autoscaler asks for profiles as `/api/profiles` does.

As in `Ingest.lean` a goroutine is cut where another may come in between: at every operation of the
`sync.Map` and at every section under the mutex of a profile.  A `Range` is one step for every key
it comes by, followed by the sections its callback runs.  `sync.Map.Range` visits no key twice,
visits every key that is stored throughout, and for the others promises nothing; which key is next
is therefore part of the `Turn` of the step, and the `Range` can only end when it has visited the
keys that were stored when it began.  Nothing in the program deletes a key.

`Worker.call` names the call of the sequential store (`Construction/Profile/Store.lean`) a step
stands for, if it stands for one, and `Worker.answer` the profile it computes.
-/

namespace Akil

/-! ## Requests -/

/-- `SimulateReq`: the body of a `POST /api/simulate-events`. -/
structure SimulateReq where
  workloadKey : String
  nodeName : String
  pageFaults : Int64
  cacheMisses : Int64
  lockNs : Int64
  ctxSwitches : Int64
  deriving DecidableEq

def SimulateReq.recordCall (req : SimulateReq) : RecordCall :=
  .bulk req.pageFaults req.cacheMisses req.ctxSwitches req.lockNs

/-- What a goroutine asks of the store: one event of a batch from a node, `/api/simulate-events`,
`/api/reset-profile`, the two gRPC queries, and `/api/profiles`. -/
inductive Request
  | telemetry (nodeName : String) (evt : TelemetryEvent)
  | simulateEvents (req : SimulateReq)
  | resetProfile (workloadKey : String)
  | queryProfile (workloadKey : String)
  | queryNodeProfiles (nodeName : String)
  | profiles
  deriving DecidableEq

/-- How a request begins: with nothing, with a `GetOrCreate` and a method call if there is one, with
a `QueryProfile`, or with a `Range`, of which a node name says that it is that of
`QueryNodeProfiles` and none that it is that of `Keys`. -/
inductive Opening
  | nothing
  | getOrCreate (key : String) (c : Option ProfileCall)
  | query (key : String)
  | range (nodeName : Option String)
  deriving DecidableEq

/-- The first statements of the handlers: arguments that are empty are refused or skipped. -/
def Request.opening : Request → Opening
  | .telemetry nodeName evt =>
      if evt.workloadKey = "" then .nothing
      else .getOrCreate evt.workloadKey (evt.recordCall.map (.record · nodeName))
  | .simulateEvents req =>
      .getOrCreate req.workloadKey (some (.record req.recordCall req.nodeName))
  | .resetProfile workloadKey => .getOrCreate workloadKey (some .resetData)
  | .queryProfile workloadKey => if workloadKey = "" then .nothing else .query workloadKey
  | .queryNodeProfiles nodeName => if nodeName = "" then .nothing else .range (some nodeName)
  | .profiles => .range none

def telemetryRequests (batches : List TelemetryBatch) : List Request :=
  batches.flatMap fun batch => batch.events.map (.telemetry batch.nodeName)

/-! ## Goroutines -/

/-- Where a goroutine stands with the first of its requests: before it; in `GetOrCreate`, with the
method to call on the profile; in a `Range`, with the keys stored when it began and those visited,
and in its callback before `NodeLocations` and before `ComputeProfile`; in front of the
`QueryProfile` of some keys, and in that of one with its profile found. -/
inductive ServeStage
  | next
  | missed (key : String) (c : Option ProfileCall)
  | created (key : String) (c : Option ProfileCall) (wp : WorkloadProfile)
  | located (key : String) (c : Option ProfileCall) (addr : ℕ)
  | ranging (nodeName : Option String) (present : Finset String) (visited : List String)
  | visiting (nodeName : String) (present : Finset String) (visited : List String) (key : String)
      (addr : ℕ)
  | onNode (nodeName : String) (present : Finset String) (visited : List String) (key : String)
      (addr : ℕ)
  | querying (keys : List String)
  | found (keys : List String) (key : String) (addr : ℕ)

/-- A goroutine: the requests it has not finished with, where it stands with the first of them, and
the profiles it has for the answer to that. -/
structure Worker where
  requests : List Request
  stage : ServeStage
  reply : List RuntimeProfile

/-- The reading of a step, and the key a `Range` comes by next, if it does not end. -/
structure Turn where
  now : ℤ
  visit : Option String
  deriving DecidableEq

/-- Turns follow each other as their readings do. -/
instance : LE Turn := ⟨fun a b => a.now ≤ b.now⟩

instance : DecidableLE Turn := fun a b => inferInstanceAs (Decidable (a.now ≤ b.now))

namespace SharedStore

def keys (s : SharedStore) : Finset String := s.profiles.keys

def compute (s : SharedStore) (addr : ℕ) (now : ℤ) : Option RuntimeProfile :=
  s.heap[addr]?.map fun wp => (wp.computeProfile now).1

/-- What a method called on the profile at an address returns, if it returns a profile. -/
def answer (s : SharedStore) (addr : ℕ) (now : ℤ) (c : ProfileCall) : Option RuntimeProfile :=
  if c = .computeProfile then s.compute addr now else none

def OnNode (s : SharedStore) (addr : ℕ) (nodeName : String) : Prop :=
  ∃ wp, s.heap[addr]? = some wp ∧ nodeName ∈ wp.nodeLocations

instance (s : SharedStore) (addr : ℕ) (nodeName : String) : Decidable (s.OnNode addr nodeName) :=
  decidable_of_iff (∃ wp ∈ s.heap[addr]?, nodeName ∈ wp.nodeLocations) (by simp [OnNode])

end SharedStore

namespace Worker

def new (requests : List Request) : Worker := ⟨requests, .next, []⟩

/-- The request is answered; go on to the next. -/
def finish (w : Worker) : Worker := ⟨w.requests.tail, .next, []⟩

def goTo (w : Worker) (stage : ServeStage) : Worker := { w with stage := stage }

/-- Go on with the profiles of a `ComputeProfile` added to the answer. -/
def append (w : Worker) (p : Option RuntimeProfile) (stage : ServeStage) : Worker :=
  { w with stage := stage, reply := w.reply ++ p.toList }

@[simp] lemma requests_goTo (w : Worker) (stage : ServeStage) :
    (w.goTo stage).requests = w.requests := rfl

@[simp] lemma stage_goTo (w : Worker) (stage : ServeStage) : (w.goTo stage).stage = stage := rfl

@[simp] lemma reply_goTo (w : Worker) (stage : ServeStage) : (w.goTo stage).reply = w.reply := rfl

@[simp] lemma requests_append (w : Worker) (p : Option RuntimeProfile) (stage : ServeStage) :
    (w.append p stage).requests = w.requests := rfl

@[simp] lemma stage_append (w : Worker) (p : Option RuntimeProfile) (stage : ServeStage) :
    (w.append p stage).stage = stage := rfl

@[simp] lemma reply_append (w : Worker) (p : Option RuntimeProfile) (stage : ServeStage) :
    (w.append p stage).reply = w.reply ++ p.toList := rfl

lemma append_none (w : Worker) (stage : ServeStage) : w.append none stage = w.goTo stage := by
  rw [append, Option.toList_none, List.append_nil, goTo]

def openRequest (s : SharedStore) (w : Worker) : Opening → Worker
  | .nothing => w.finish
  | .getOrCreate key c =>
      match s.load key with
      | some addr => w.goTo (.located key c addr)
      | none => w.goTo (.missed key c)
  | .query key => w.goTo (.querying [key])
  | .range nodeName => w.goTo (.ranging nodeName s.keys [])

/-- The callback of a `Range` is called for a key and the profile at its address: that of `Keys`
appends the key, that of `QueryNodeProfiles` goes on to the profile. -/
def visit (present : Finset String) (visited : List String) (key : String) (addr : ℕ)
    (w : Worker) : Option String → Worker
  | none => w.goTo (.ranging none present (visited ++ [key]))
  | some nodeName => w.goTo (.visiting nodeName present visited key addr)

/-- What comes after a `Range`: the `QueryProfile`s of the keys, or the answer. -/
def endRange (visited : List String) (w : Worker) : Option String → Worker
  | none => w.goTo (.querying visited)
  | some _ => w.finish

/-- Whether a `Range` that has visited some keys can end. -/
def CanEnd (present : Finset String) (visited : List String) : Prop := ∀ key ∈ present, key ∈ visited

instance (present : Finset String) (visited : List String) : Decidable (CanEnd present visited) :=
  inferInstanceAs (Decidable (∀ _ ∈ _, _))

def range (m : Turn) (s : SharedStore) (nodeName : Option String) (present : Finset String)
    (visited : List String) (w : Worker) : Worker :=
  match m.visit with
  | none => if CanEnd present visited then w.endRange visited nodeName else w
  | some key =>
      if key ∈ visited then w
      else
        match s.load key with
        | some addr => w.visit present visited key addr nodeName
        | none => w

def step (m : Turn) (s : SharedStore) (w : Worker) : SharedStore × Worker :=
  match w.requests with
  | [] => (s, w)
  | req :: _ =>
      match w.stage with
      | .next => (s, w.openRequest s req.opening)
      | .missed key c =>
          (s, w.goTo (.created key c
            (newWorkloadProfile key s.bucketCount s.bucketDuration m.now)))
      | .created key c wp =>
          let (s, addr) := s.loadOrStore key wp
          (s, w.goTo (.located key c addr))
      | .located _ none _ => (s, w.finish)
      | .located _ (some c) addr => (s.update addr (fun wp => wp.exec m.now c), w.finish)
      | .ranging nodeName present visited => (s, w.range m s nodeName present visited)
      | .visiting nodeName present visited key addr =>
          if s.OnNode addr nodeName then (s, w.goTo (.onNode nodeName present visited key addr))
          else (s, w.goTo (.ranging nodeName present (visited ++ [key])))
      | .onNode nodeName present visited key addr =>
          (s.update addr (fun wp => wp.exec m.now .computeProfile),
            w.append (s.compute addr m.now) (.ranging nodeName present (visited ++ [key])))
      | .querying [] => (s, w.finish)
      | .querying (key :: keys) =>
          match s.load key with
          | some addr => (s, w.goTo (.found keys key addr))
          | none => (s, w.append (some (Store.unknownProfile key)) (.querying keys))
      | .found keys _ addr =>
          (s.update addr (fun wp => wp.exec m.now .computeProfile),
            w.append (s.compute addr m.now) (.querying keys))

/-! ## What a step stands for -/

/-- The call of the sequential store a step stands for, with its reading.  A profile that was built
and then stored, or not stored because another had been, was created when it was built. -/
def call (m : Turn) (s : SharedStore) (w : Worker) : Option (ℤ × StoreCall) :=
  match w.requests with
  | [] => none
  | req :: _ =>
      match w.stage with
      | .next =>
          match req.opening with
          | .getOrCreate key _ =>
              if (s.load key).isSome then some (m.now, .getOrCreate key) else none
          | .nothing | .query _ | .range _ => none
      | .created key _ wp => some (wp.lastRotation, .getOrCreate key)
      | .located key (some c) _ => some (m.now, .onProfile key c)
      | .visiting nodeName _ _ key addr =>
          if s.OnNode addr nodeName then none else some (m.now, .visitNode nodeName key)
      | .onNode nodeName _ _ key _ => some (m.now, .visitNode nodeName key)
      | .querying (key :: _) =>
          if (s.load key).isSome then none else some (m.now, .onProfile key .computeProfile)
      | .found _ key _ => some (m.now, .onProfile key .computeProfile)
      | .missed _ _ | .located _ none _ | .ranging _ _ _ | .querying [] => none

/-- The profile a step computes, if it computes one: `ComputeProfile`, or the zero profile of a key
that is not stored. -/
def answer (m : Turn) (s : SharedStore) (w : Worker) : Option RuntimeProfile :=
  match w.requests with
  | [] => none
  | _ :: _ =>
      match w.stage with
      | .located _ (some c) addr => s.answer addr m.now c
      | .onNode _ _ _ _ addr | .found _ _ addr => s.compute addr m.now
      | .querying (key :: _) =>
          if (s.load key).isSome then none else some (Store.unknownProfile key)
      | _ => none

/-- Everything a step can be: what it leaves, the call it stands for and the profile it computes. -/
inductive Moves (m : Turn) (s : SharedStore) (w : Worker) :
    SharedStore → Worker → Option (ℤ × StoreCall) → Option RuntimeProfile → Prop
  | wait : Moves m s w s w none none
  | skip {req : Request} {rest : List Request} (hreq : w.requests = req :: rest)
      (hstage : w.stage = .next) (hopening : req.opening = .nothing) :
      Moves m s w s w.finish none none
  | hit {req : Request} {rest : List Request} {key : String} {c : Option ProfileCall} {addr : ℕ}
      (hreq : w.requests = req :: rest) (hstage : w.stage = .next)
      (hopening : req.opening = .getOrCreate key c) (hload : s.load key = some addr) :
      Moves m s w s (w.goTo (.located key c addr)) (some (m.now, .getOrCreate key)) none
  | miss {req : Request} {rest : List Request} {key : String} {c : Option ProfileCall}
      (hreq : w.requests = req :: rest) (hstage : w.stage = .next)
      (hopening : req.opening = .getOrCreate key c) (hload : s.load key = none) :
      Moves m s w s (w.goTo (.missed key c)) none none
  | create {key : String} {c : Option ProfileCall} (hstage : w.stage = .missed key c) :
      Moves m s w s (w.goTo (.created key c
        (newWorkloadProfile key s.bucketCount s.bucketDuration m.now))) none none
  | store {key : String} {c : Option ProfileCall} {wp : WorkloadProfile} {s' : SharedStore}
      {addr : ℕ} (hstage : w.stage = .created key c wp)
      (hstore : s.loadOrStore key wp = (s', addr)) :
      Moves m s w s' (w.goTo (.located key c addr)) (some (wp.lastRotation, .getOrCreate key)) none
  | ignore {key : String} {addr : ℕ} (hstage : w.stage = .located key none addr) :
      Moves m s w s w.finish none none
  | invoke {key : String} {c : ProfileCall} {addr : ℕ}
      (hstage : w.stage = .located key (some c) addr) :
      Moves m s w (s.update addr (fun wp => wp.exec m.now c)) w.finish
        (some (m.now, .onProfile key c)) (s.answer addr m.now c)
  | query {req : Request} {rest : List Request} {key : String} (hreq : w.requests = req :: rest)
      (hstage : w.stage = .next) (hopening : req.opening = .query key) :
      Moves m s w s (w.goTo (.querying [key])) none none
  | range {req : Request} {rest : List Request} {nodeName : Option String}
      (hreq : w.requests = req :: rest) (hstage : w.stage = .next)
      (hopening : req.opening = .range nodeName) :
      Moves m s w s (w.goTo (.ranging nodeName s.keys [])) none none
  | visit {nodeName : Option String} {present : Finset String} {visited : List String}
      {key : String} {addr : ℕ} (hstage : w.stage = .ranging nodeName present visited)
      (hnew : key ∉ visited) (hload : s.load key = some addr) :
      Moves m s w s (w.visit present visited key addr nodeName) none none
  | endRange {nodeName : Option String} {present : Finset String} {visited : List String}
      (hstage : w.stage = .ranging nodeName present visited) (hend : CanEnd present visited) :
      Moves m s w s (w.endRange visited nodeName) none none
  | elsewhere {nodeName : String} {present : Finset String} {visited : List String}
      {key : String} {addr : ℕ} (hstage : w.stage = .visiting nodeName present visited key addr)
      (hnode : ¬ s.OnNode addr nodeName) :
      Moves m s w s (w.goTo (.ranging nodeName present (visited ++ [key])))
        (some (m.now, .visitNode nodeName key)) none
  | onNode {nodeName : String} {present : Finset String} {visited : List String}
      {key : String} {addr : ℕ} (hstage : w.stage = .visiting nodeName present visited key addr)
      (hnode : s.OnNode addr nodeName) :
      Moves m s w s (w.goTo (.onNode nodeName present visited key addr)) none none
  | compute {nodeName : String} {present : Finset String} {visited : List String}
      {key : String} {addr : ℕ} (hstage : w.stage = .onNode nodeName present visited key addr) :
      Moves m s w (s.update addr (fun wp => wp.exec m.now .computeProfile))
        (w.append (s.compute addr m.now) (.ranging nodeName present (visited ++ [key])))
        (some (m.now, .visitNode nodeName key)) (s.compute addr m.now)
  | done (hstage : w.stage = .querying []) : Moves m s w s w.finish none none
  | find {key : String} {keys : List String} {addr : ℕ} (hstage : w.stage = .querying (key :: keys))
      (hload : s.load key = some addr) :
      Moves m s w s (w.goTo (.found keys key addr)) none none
  | unknown {key : String} {keys : List String} (hstage : w.stage = .querying (key :: keys))
      (hload : s.load key = none) :
      Moves m s w s (w.append (some (Store.unknownProfile key)) (.querying keys))
        (some (m.now, .onProfile key .computeProfile)) (some (Store.unknownProfile key))
  | queried {keys : List String} {key : String} {addr : ℕ}
      (hstage : w.stage = .found keys key addr) :
      Moves m s w (s.update addr (fun wp => wp.exec m.now .computeProfile))
        (w.append (s.compute addr m.now) (.querying keys))
        (some (m.now, .onProfile key .computeProfile)) (s.compute addr m.now)

lemma step_moves (m : Turn) (s : SharedStore) (w : Worker) :
    Moves m s w (w.step m s).1 (w.step m s).2 (w.call m s) (w.answer m s) := by
  obtain ⟨requests, stage, reply⟩ := w
  cases requests with
  | nil => exact .wait
  | cons req rest =>
      cases stage with
      | next =>
          cases hopening : req.opening with
          | nothing =>
              simp only [step, call, answer, hopening, openRequest]
              exact .skip rfl rfl hopening
          | getOrCreate key c =>
              cases hload : s.load key with
              | some addr =>
                  simp only [step, call, answer, hopening, openRequest, hload, Option.isSome_some,
                    if_true]
                  exact .hit rfl rfl hopening hload
              | none =>
                  simp only [step, call, answer, hopening, openRequest, hload, Option.isSome_none,
                    Bool.false_eq_true, if_false]
                  exact .miss rfl rfl hopening hload
          | query key =>
              simp only [step, call, answer, hopening, openRequest]
              exact .query rfl rfl hopening
          | range nodeName =>
              simp only [step, call, answer, hopening, openRequest]
              exact .range rfl rfl hopening
      | missed key c => exact .create rfl
      | created key c wp => exact .store rfl rfl
      | located key c addr =>
          cases c with
          | none => exact .ignore rfl
          | some c => exact .invoke rfl
      | ranging nodeName present visited =>
          cases hvisit : m.visit with
          | none =>
              by_cases hend : CanEnd present visited
              · simp only [step, call, answer, range, hvisit, if_pos hend]
                exact .endRange rfl hend
              · simp only [step, call, answer, range, hvisit, if_neg hend]
                exact .wait
          | some key =>
              by_cases hnew : key ∈ visited
              · simp only [step, call, answer, range, hvisit, if_pos hnew]
                exact .wait
              · cases hload : s.load key with
                | some addr =>
                    simp only [step, call, answer, range, hvisit, if_neg hnew, hload]
                    exact .visit rfl hnew hload
                | none =>
                    simp only [step, call, answer, range, hvisit, if_neg hnew, hload]
                    exact .wait
      | visiting nodeName present visited key addr =>
          by_cases hnode : s.OnNode addr nodeName
          · simp only [step, call, answer, if_pos hnode]
            exact .onNode rfl hnode
          · simp only [step, call, answer, if_neg hnode]
            exact .elsewhere rfl hnode
      | onNode nodeName present visited key addr => exact .compute rfl
      | querying keys =>
          cases keys with
          | nil => exact .done rfl
          | cons key keys =>
              cases hload : s.load key with
              | some addr =>
                  simp only [step, call, answer, hload, Option.isSome_some, if_true]
                  exact .find rfl hload
              | none =>
                  simp only [step, call, answer, hload, Option.isSome_none, Bool.false_eq_true,
                    if_false]
                  exact .unknown rfl hload
      | found keys key addr => exact .queried rfl

/-- What a request is answered with by the step that finishes it. -/
def response (m : Turn) (_s : SharedStore) (w : Worker) : Option (List RuntimeProfile) :=
  match w.requests with
  | [] => none
  | _ :: _ =>
      match w.stage with
      | .ranging (some _) present visited =>
          if m.visit = none ∧ CanEnd present visited then some w.reply else none
      | .querying [] => some w.reply
      | _ => none

end Worker

/-- The aggregator with one goroutine for each list of requests. -/
def serviceSystem (bucketCount bucketDuration : ℤ) (requests : List (List Request)) :
    System SharedStore Worker :=
  ⟨SharedStore.new bucketCount bucketDuration, requests.map Worker.new⟩

end Akil
