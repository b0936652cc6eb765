import Akil.Construction.Collector.Loop
import Akil.Construction.Identity.WorkloadKey
import Akil.Framework.FileWalk

/-!
# The collector's cgroup resolver (`pkg/cgroup/resolver.go`)

Every ten seconds `sync` builds the map from cgroup inodes to workload keys anew: it lists the
node's pods, takes the container IDs from their statuses, and looks for the cgroup directory of
each in `/sys/fs/cgroup`.  `findCgroupPath` takes any directory whose path contains the ID; it does
not look into a directory it has taken, but it goes on after it and keeps the last one.

`stat` is what the system call says about a path, or nothing if it fails.
-/

namespace Akil.Cgroup

/-- The visitor of `findCgroupPath`: the variable `targetPath`, and whether to skip the
directory. -/
def visitCgroup (containerID path : String) (isDir : Bool) (targetPath : String) : String × Bool :=
  if isDir && decide (stringsContains path containerID) then (path, true) else (targetPath, false)

def baseDir : String := "/sys/fs/cgroup"

def findCgroupPath (fs : FileTree) (containerID : String) : String :=
  (fs.walk (visitCgroup containerID) baseDir "").1

/-- The container ID of a status, if its two parts are one on each side of a `://`. -/
def containerIDOf (cs : ContainerStatus) : Option String :=
  match afterFirst "://".toList cs.containerID.toList with
  | none => none
  | some rest => if afterFirst "://".toList rest = none then some (String.ofList rest) else none

/-- The body of the inner loop of `sync`. -/
def syncContainer (fs : FileTree) (stat : String → Option UInt64) (workloadKey : String)
    (newMap : Finmap (fun _ : UInt64 => String)) (cs : ContainerStatus) :
    Finmap (fun _ : UInt64 => String) :=
  match containerIDOf cs with
  | none => newMap
  | some cID =>
      let cgroupPath := findCgroupPath fs cID
      if cgroupPath = "" then newMap
      else
        match stat cgroupPath with
        | none => newMap
        | some ino => newMap.insert ino workloadKey

/-- `sync`; `pods` is the list the API server answers with, if it does. -/
def sync (fs : FileTree) (stat : String → Option UInt64) (pods : Option (List Pod))
    (r : Resolver) : Resolver :=
  match pods with
  | none => r
  | some pods => ⟨pods.foldl (fun newMap pod =>
      pod.containerStatuses.foldl (syncContainer fs stat (getWorkloadKey pod)) newMap) ∅⟩

end Akil.Cgroup
