import Akil.Construction.Aggregator.Autoscaler
import Akil.Framework.Interleaving

/-!
# Scaling in a cluster (`cmd/aggregator/autoscaler.go` and `/api/scale` in `main.go`)

With a cluster client the replica count is not the aggregator's own: it belongs to the demo
deployment, which anybody with access to the API server may scale, relabel or delete.  The autoscaler
and `POST /api/scale` both read a `Scale` with `GetScale`, put another count into it and hand it back
to `UpdateScale`, with the resource version it came with.

`DeploymentApi` is what the API server does with the three requests; it is a parameter, since the
server is not part of the program.  What is documented of it, and what the program relies on, is in
`Properties/ClusterScaling.lean`.  A request or its answer may also be lost on the way (`Fault`).

The parties (`ScaleParty`) are the loop of the autoscaler, the handlers of `POST /api/scale`, those
that switch autoscaling on and off and that mark workloads as simulated, and other clients of the
cluster.  A step is one access to what they share.
-/

namespace Akil

/-! ## The API server -/

/-- `autoscalingv1.Scale`, of which the program reads the replica count of the specification. -/
structure Scale (V : Type*) where
  replicas : Int32
  resourceVersion : V

/-- What the API server answers about the demo deployment and does to it: its labels, its `Scale`,
and the cluster after an update it accepts. -/
structure DeploymentApi (K V : Type*) where
  getLabels : K → Option (Finmap (fun _ : String => String))
  getScale : K → Option (Scale V)
  updateScale : Scale V → K → Option K

/-- What happens to a request on the way: nothing, or it does not get there, or its answer does not
come back. -/
inductive Fault
  | none
  | lost
  | unanswered
  deriving DecidableEq

namespace DeploymentApi

variable {K V : Type*}

/-- What a client sees of an answer. -/
def receive {α : Type*} (fault : Fault) (answer : Option α) : Option α :=
  if fault = .none then answer else Option.none

def update (api : DeploymentApi K V) (fault : Fault) (scale : Scale V) (k : K) : Bool × K :=
  if fault = .lost then (false, k)
  else
    match api.updateScale scale k with
    | Option.none => (false, k)
    | some k' => (fault = .none, k')

end DeploymentApi

/-! ## The rule on answers -/

namespace Autoscaler

/-- The loop of `decide` over what the queries of the remaining keys return. -/
def answersLoop (current : Int32) : List (String × RuntimeProfile) → Bool → Int32 × String
  | [], allNominal =>
      if allNominal ∧ current > 1 then
        (current - 1, "All workload metrics nominal. Scaling DOWN to conserve resources.")
      else (current, "")
  | (k, prof) :: answers, allNominal =>
      match hotReason k prof with
      | some reason => (min (current + 1) maxReplicas, reason)
      | none => answersLoop current answers (if Nominal prof then allNominal else false)

/-- `decide`, given what the queries return while others use the store. -/
def decideOn (answers : List (String × RuntimeProfile)) (current : Int32) : Int32 × String :=
  if answers = [] then (current, "") else answersLoop current answers true

end Autoscaler

/-! ## The parties -/

/-- Where the loop of the autoscaler stands in its tick.  The answers behind a decision are kept
with it so that statements can speak of them. -/
inductive ClusterTick (V : Type*)
  | waiting
  | enabled
  | keyed (keys : List String)
  | optedIn (keys : List String)
  | scaled (keys : List String) (scale : Scale V)
  | decided (answers : List (String × RuntimeProfile)) (scale : Scale V) (n : Int32)
      (reason : String)
  | updated (cur n : Int32) (reason : String)

/-- The handler of a `POST /api/scale`: in front of it, with the `Scale` it has read, and with
whether the request was acknowledged. -/
inductive PostScale (V : Type*)
  | new (replicas : Option ℤ)
  | read (replicas : Int32) (scale : Scale V)
  | answered (success : Bool)

/-- The autoscaler, a `POST /api/scale`, requests that switch autoscaling, requests with simulated
events of some workloads, and another client of the cluster with its writes. -/
inductive ScaleParty (K V : Type*)
  | autoscaler (tick : ClusterTick V)
  | post (handler : PostScale V)
  | toggle (switches : List Bool)
  | simulate (keys : List String)
  | other (writes : List (K → K))

/-- What the parties share: the guarded variables, the keys marked by `markSimulated`, and the
cluster. -/
structure ScaleShared (K : Type*) where
  vars : AutoscalerVars
  simulatedKeys : Finset String
  cluster : K

/-- What a step finds besides: the time, what becomes of its request, the order in which a `Range`
over the simulated keys comes by them, and what `QueryProfile` returns for a key. -/
structure ScaleTurn where
  now : ℤ
  fault : Fault
  visits : List String
  profile : String → RuntimeProfile

def optInLabel : String := "akil.io/autoscale"

/-- `d.Labels["akil.io/autoscale"] != "true"`, the other way round. -/
def OptedIn (labels : Finmap (fun _ : String => String)) : Prop :=
  (labels.lookup optInLabel).getD "" = "true"

instance (labels : Finmap (fun _ : String => String)) : Decidable (OptedIn labels) :=
  inferInstanceAs (Decidable (_ = _))

section Steps

variable {K V : Type*} (api : DeploymentApi K V)

def ClusterTick.step (m : ScaleTurn) (s : ScaleShared K) :
    ClusterTick V → ScaleShared K × ClusterTick V
  | .waiting => (s, if s.vars.autoscalingEnabled then .enabled else .waiting)
  | .enabled =>
      let keys := m.visits.filter (· ∈ s.simulatedKeys)
      (s, if keys = [] then .waiting else .keyed keys)
  | .keyed keys =>
      match DeploymentApi.receive m.fault (api.getLabels s.cluster) with
      | none => (s, .waiting)
      | some labels => (s, if OptedIn labels then .optedIn keys else .waiting)
  | .optedIn keys =>
      match DeploymentApi.receive m.fault (api.getScale s.cluster) with
      | none => (s, .waiting)
      | some scale => (s, .scaled keys scale)
  | .scaled keys scale =>
      let answers := keys.map fun k => (k, m.profile k)
      let (n, reason) := Autoscaler.decideOn answers scale.replicas
      (s, if n = scale.replicas then .waiting else .decided answers scale n reason)
  | .decided _ scale n reason =>
      let (ok, cluster) := api.update m.fault { scale with replicas := n } s.cluster
      ({ s with cluster := cluster },
        if ok then .updated scale.replicas n reason else .waiting)
  | .updated cur n reason => ({ s with vars := s.vars.logScaling cur n reason m.now }, .waiting)

def PostScale.step (m : ScaleTurn) (s : ScaleShared K) : PostScale V → ScaleShared K × PostScale V
  | .new none => (s, .answered false)
  | .new (some r) =>
      if r < 1 ∨ r > 10 then (s, .answered false)
      else
        match DeploymentApi.receive m.fault (api.getScale s.cluster) with
        | none => (s, .answered false)
        | some scale => (s, .read (Int32.ofInt r) scale)
  | .read r scale =>
      let (ok, cluster) := api.update m.fault { scale with replicas := r } s.cluster
      ({ s with cluster := cluster }, .answered ok)
  | .answered ok => (s, .answered ok)

def ScaleParty.step (m : ScaleTurn) (s : ScaleShared K) :
    ScaleParty K V → ScaleShared K × ScaleParty K V
  | .autoscaler tick => ((tick.step api m s).1, .autoscaler (tick.step api m s).2)
  | .post handler => ((handler.step api m s).1, .post (handler.step api m s).2)
  | .toggle [] => (s, .toggle [])
  | .toggle (enabled :: switches) =>
      ({ s with vars := s.vars.setAutoscaling enabled m.now }, .toggle switches)
  | .simulate [] => (s, .simulate [])
  | .simulate (key :: keys) =>
      ({ s with simulatedKeys := insert key s.simulatedKeys }, .simulate keys)
  | .other [] => (s, .other [])
  | .other (write :: writes) => ({ s with cluster := write s.cluster }, .other writes)

end Steps

end Akil
