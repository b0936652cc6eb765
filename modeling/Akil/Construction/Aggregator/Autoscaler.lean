import Akil.Construction.Profile.Store

/-!
# The demo autoscaler (`cmd/aggregator/autoscaler.go`)

The aggregator scales one demo deployment.  `decide` is its rule: one replica more while any
workload is hot, one fewer once all are nominal.  It asks the store for each profile in turn, so
its keys come with the clock readings of the queries, and the store it leaves behind is the one
those queries have rotated.

Without a cluster client the replica count is a variable, `simulatedReplicas`, guarded by a mutex
that each accessor takes for itself.  The loop of the autoscaler takes it several times in one
tick: to see whether autoscaling is on, to read the count, to write the new one and to log.
`autoscalerStep` cuts the tick there, and `POST /api/scale` may come in between.
-/

namespace Akil

/-! ## The rule -/

namespace Autoscaler

def maxReplicas : Int32 := 6

/-- The `switch` of `decide`: why a workload is hot, if it is. -/
def hotReason (k : String) (prof : RuntimeProfile) : Option String :=
  if prof.contextSwitchRate > 100 then
    some ("High Context Switch Rate detected (>100/s) for " ++ k
      ++ ". Scaling UP to relieve CPU contention.")
  else if prof.pageFaultRate > 5000 then
    some ("High Page Fault Rate detected (>5000/s) for " ++ k
      ++ ". Scaling UP to distribute memory pressure.")
  else if prof.cacheMissRate > 1000 then
    some ("High Cache Miss Rate detected (>1000/s) for " ++ k
      ++ ". Scaling UP to improve cache locality.")
  else none

/-- The condition a profile has to meet for `allNominal` to stay true. -/
def Nominal (prof : RuntimeProfile) : Prop :=
  prof.contextSwitchRate < 50 ∧ prof.pageFaultRate < 2000 ∧ prof.cacheMissRate < 500

instance (prof : RuntimeProfile) : Decidable (Nominal prof) :=
  inferInstanceAs (Decidable (_ ∧ _ ∧ _))

/-- The loop of `decide` over the remaining keys. -/
def decideLoop (current : Int32) :
    List (String × ℤ) → Bool → Store → (Int32 × String) × Store
  | [], allNominal, s =>
      if allNominal ∧ current > 1 then
        ((current - 1, "All workload metrics nominal. Scaling DOWN to conserve resources."), s)
      else ((current, ""), s)
  | (k, now) :: keys, allNominal, s =>
      let (prof, s) := s.queryProfile k now
      match hotReason k prof with
      | some reason => ((min (current + 1) maxReplicas, reason), s)
      | none => decideLoop current keys (if Nominal prof then allNominal else false) s

/-- `decide`: the new replica count and the reason, and the store the queries leave. -/
def decide (s : Store) (keys : List (String × ℤ)) (current : Int32) : (Int32 × String) × Store :=
  if keys = [] then ((current, ""), s) else decideLoop current keys true s

end Autoscaler

/-! ## The guarded variables -/

inductive ScalingAction
  | info
  | scaleUp
  | scaleDown
  deriving DecidableEq, Repr

structure ScalingLog where
  timestamp : ℤ
  action : ScalingAction
  reason : String
  replicas : Int32
  deriving DecidableEq, Repr

structure AutoscalerVars where
  autoscalingEnabled : Bool
  scalingLogs : List ScalingLog
  simulatedReplicas : Int32
  deriving DecidableEq, Repr

namespace AutoscalerVars

def setReplicas (n : Int32) (v : AutoscalerVars) : AutoscalerVars :=
  { v with simulatedReplicas := n }

def setAutoscaling (enabled : Bool) (now : ℤ) (v : AutoscalerVars) : AutoscalerVars :=
  { v with
    autoscalingEnabled := enabled
    scalingLogs := v.scalingLogs ++ [⟨now, .info,
      "Adaptive Autoscaling Toggled: " ++ (if enabled then "ON" else "OFF"), -1⟩] }

def logScaling (old n : Int32) (reason : String) (now : ℤ) (v : AutoscalerVars) :
    AutoscalerVars :=
  let logs := v.scalingLogs ++ [⟨now, if n > old then .scaleUp else .scaleDown, reason, n⟩]
  { v with scalingLogs := if logs.length > 50 then logs.tail else logs }

def getScalingLogs (v : AutoscalerVars) : List ScalingLog := v.scalingLogs

/-- The `POST` branch of `/api/scale` without a cluster client.  `replicas` is what
`strconv.Atoi` makes of the query parameter; the flag says whether the request is acknowledged. -/
def postScale (replicas : Option ℤ) (v : AutoscalerVars) : Bool × AutoscalerVars :=
  match replicas with
  | none => (false, v)
  | some r => if r < 1 ∨ r > 10 then (false, v) else (true, v.setReplicas (Int32.ofInt r))

end AutoscalerVars

/-! ## Ticks and requests -/

/-- What `decide` walks over: the store and the keys with the readings of their queries. -/
structure Walk where
  store : Store
  keys : List (String × ℤ)

/-- The new count and the reason `decide` gives for a replica count. -/
def Walk.decide (w : Walk) (current : Int32) : Int32 × String :=
  (Autoscaler.decide w.store w.keys current).1

/-- Where the loop of the autoscaler stands in its tick.  The walk behind a decision is kept with
it so that statements can speak of it. -/
inductive TickStage
  | waiting
  | enabled
  | read (cur : Int32)
  | decided (walk : Walk) (cur n : Int32) (reason : String)
  | written (cur n : Int32) (reason : String)

/-- The variables together with the autoscaler's loop. -/
structure ScaleState where
  vars : AutoscalerVars
  stage : TickStage

/-- What may happen next: a request, a toggle, or the next step of the autoscaler's loop, with
the store as it stands should that step be `decide`. -/
inductive ScaleAction
  | post (replicas : Option ℤ)
  | toggle (enabled : Bool)
  | autoscaler (walk : Walk)

namespace ScaleState

/-- The variables as the program starts with them, autoscaling on if `AKIL_AUTOSCALE` is `1`, and
the loop in front of its first tick. -/
def start (autoscale : Bool) : ScaleState := ⟨⟨autoscale, [], 2⟩, .waiting⟩

def autoscalerStep (now : ℤ) (walk : Walk) (s : ScaleState) : ScaleState :=
  match s.stage with
  | .waiting => { s with stage := if s.vars.autoscalingEnabled then .enabled else .waiting }
  | .enabled => { s with stage := .read s.vars.simulatedReplicas }
  | .read cur =>
      let (n, reason) := walk.decide cur
      { s with stage := .decided walk cur n reason }
  | .decided _ cur n reason =>
      if n ≠ cur then ⟨s.vars.setReplicas n, .written cur n reason⟩
      else { s with stage := .waiting }
  | .written cur n reason => ⟨s.vars.logScaling cur n reason now, .waiting⟩

def exec (now : ℤ) (a : ScaleAction) (s : ScaleState) : ScaleState :=
  match a with
  | .post replicas => { s with vars := (s.vars.postScale replicas).2 }
  | .toggle enabled => { s with vars := s.vars.setAutoscaling enabled now }
  | .autoscaler walk => s.autoscalerStep now walk

end ScaleState

end Akil
