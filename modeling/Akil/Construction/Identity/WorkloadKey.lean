import Akil.Framework.Text

/-!
# Workload keys

Three places derive the key `namespace/Kind/name` under which a workload's profile is kept: the
scheduler plugin (`getWorkloadKey` in `pkg/scoring/akil_score.go`), the collector's resolver
(`getWorkloadKey` in `pkg/cgroup/resolver.go`), and the kubelet-based resolver
(`findPodByContainerID` in `pkg/telemetry/cgroup.go`).  The first two read a Kubernetes pod
object, the third the pod list the kubelet serves as JSON; `Pod.toKubelet` is the entry of that
list for a given pod.

Only the fields the three derivations read are kept: names, owner references, and the container
statuses the third one searches.
-/

namespace Akil

/-! ## Pods -/

/-- `metav1.OwnerReference`, and `kubeletOwnerRef` on the JSON side. -/
structure OwnerReference where
  kind : String
  name : String
  deriving DecidableEq, Repr

/-- `corev1.ContainerStatus`, and `kubeletContainerStatus` on the JSON side. -/
structure ContainerStatus where
  name : String
  /-- `containerd://abc123...` or `cri-o://abc123...`. -/
  containerID : String
  deriving DecidableEq, Repr

structure Pod where
  «namespace» : String
  name : String
  ownerReferences : List OwnerReference
  containerStatuses : List ContainerStatus
  deriving DecidableEq, Repr

/-- `fmt.Sprintf("%s/%s/%s", …)`. -/
def workloadKeyOf («namespace» kind name : String) : String :=
  «namespace» ++ "/" ++ kind ++ "/" ++ name

/-! ## The plugin and the collector -/

def Scoring.getWorkloadKey (pod : Pod) : String :=
  match pod.ownerReferences with
  | ref :: _ => workloadKeyOf pod.namespace ref.kind ref.name
  | [] => workloadKeyOf pod.namespace "Pod" pod.name

def Cgroup.getWorkloadKey (pod : Pod) : String :=
  match pod.ownerReferences with
  | ref :: _ => workloadKeyOf pod.namespace ref.kind ref.name
  | [] => workloadKeyOf pod.namespace "Pod" pod.name

/-! ## The kubelet pod list -/

structure KubeletMeta where
  name : String
  «namespace» : String
  ownerReferences : List OwnerReference
  deriving DecidableEq, Repr

structure KubeletPod where
  metadata : KubeletMeta
  containerStatuses : List ContainerStatus
  deriving DecidableEq, Repr

def Pod.toKubelet (pod : Pod) : KubeletPod where
  metadata := ⟨pod.name, pod.namespace, pod.ownerReferences⟩
  containerStatuses := pod.containerStatuses

/-- `PodIdentity`.  `NodeName` is filled in by `Resolve`. -/
structure PodIdentity where
  «namespace» : String
  podName : String
  container : String
  workloadKey : String
  nodeName : String
  deriving DecidableEq, Repr

/-- The error of `findPodByContainerID`: `container %q not found in kubelet pod list`. -/
inductive PodLookupError
  | notFound (containerID : String)
  deriving DecidableEq, Repr

namespace Telemetry

/-- The container ID without its runtime scheme. -/
def bareContainerID (cs : ContainerStatus) : String :=
  match afterFirst "://".toList cs.containerID.toList with
  | some rest => String.ofList rest
  | none => cs.containerID

/-- The test of the inner loop: equal, or the searched ID is a prefix. -/
def matchesID (containerID : String) (cs : ContainerStatus) : Bool :=
  bareContainerID cs = containerID ||
    containerID.toList.isPrefixOf (bareContainerID cs).toList

/-- The owner kind and name after a ReplicaSet has been traced to its Deployment: the name is
cut at its last dash, unless that is the first character. -/
def effectiveOwner (owner : OwnerReference) : OwnerReference :=
  if owner.kind = "ReplicaSet" then
    match lastIndex '-' owner.name.toList with
    | some idx =>
        if idx > 0 then ⟨"Deployment", String.ofList (owner.name.toList.take idx)⟩
        else ⟨"Deployment", owner.name⟩
    | none => ⟨"Deployment", owner.name⟩
  else owner

def kubeletWorkloadKey (m : KubeletMeta) : String :=
  match m.ownerReferences with
  | owner :: _ => workloadKeyOf m.namespace (effectiveOwner owner).kind (effectiveOwner owner).name
  | [] => workloadKeyOf m.namespace "Pod" m.name

/-- `findPodByContainerID`: the first container in list order that matches. -/
def findPodByContainerID (podList : List KubeletPod) (containerID : String) :
    Except PodLookupError PodIdentity :=
  match podList with
  | [] => .error (.notFound containerID)
  | pod :: rest =>
      match pod.containerStatuses.find? (matchesID containerID) with
      | some cs => .ok
          { «namespace» := pod.metadata.namespace
            podName := pod.metadata.name
            container := cs.name
            workloadKey := kubeletWorkloadKey pod.metadata
            nodeName := "" }
      | none => findPodByContainerID rest containerID

end Telemetry

end Akil
