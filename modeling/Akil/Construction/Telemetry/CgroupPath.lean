import Akil.Construction.Telemetry.Resolver
import Akil.Framework.FileWalk

/-!
# From a cgroup ID to its path (`pkg/telemetry/cgroup.go`, `resolveCgroupPath`)

The kernel's events name a cgroup by its ID.  `resolveCgroupPath` walks the cgroup tree; at every
entry called `cgroup.stat` it reads the file `cgroup.id` next to it, and it ends the walk at the
first that holds the ID.  `readCgroupID` scans the file with `%d`: the digits it begins with, after
white space.

A `NodeView` is what the resolver can see of its node at one moment, the kubelet's answer included;
`NodeView.env` is the lookup of `Telemetry/Resolver.lean` it amounts to.  Errors of the walk are
skipped, so `fs` is the part of the tree that can be read.
-/

namespace Akil.Telemetry

/-! ## Reading an ID -/

def isSpace (c : Char) : Bool :=
  decide (c.toNat ∈ [9, 10, 11, 12, 13, 32, 0x85, 0xA0, 0x1680, 0x2028, 0x2029, 0x202F, 0x205F,
    0x3000]) || (decide (0x2000 ≤ c.toNat) && decide (c.toNat ≤ 0x200A))

def trimSpace (s : List Char) : List Char := (s.dropWhile isSpace).rdropWhile isSpace

/-- `fmt.Sscanf` of a text without leading space, with `%d` into a `uint64`: the digits it begins
with, whatever follows. -/
def scanUint64 (s : List Char) : Option UInt64 :=
  let tok := s.takeWhile Char.isDigit
  if tok = [] then none
  else if Nat.ofDigitChars 10 tok 0 < 2 ^ 64 then some (UInt64.ofNat (Nat.ofDigitChars 10 tok 0))
  else none

inductive CgroupIDError
  | cannotRead (cgroupDir : String)
  deriving DecidableEq, Repr

/-- `readCgroupID`; `readFile` is what `os.ReadFile` returns for a path, if it does. -/
def readCgroupID (readFile : String → Option String) (cgroupDir : String) :
    Except CgroupIDError UInt64 :=
  match readFile (cgroupDir ++ "/" ++ "cgroup.id") with
  | some data =>
      match scanUint64 (trimSpace data.toList) with
      | some id => .ok id
      | none => .error (.cannotRead cgroupDir)
  | none => .error (.cannotRead cgroupDir)

/-! ## The walk -/

/-- `filepath.Dir` of a clean path. -/
def filepathDir (path : String) : String :=
  match lastIndex '/' path.toList with
  | none => "."
  | some 0 => "/"
  | some idx => String.ofList (path.toList.take idx)

/-- What the resolver can see of its node at one moment. -/
structure NodeView where
  fs : FileTree
  readFile : String → Option String
  pods : Except KubeletError (List KubeletPod)

namespace NodeView

/-- The visitor of `resolveCgroupPath`: the variable `foundPath`, and whether to end the walk. -/
def visitStat (v : NodeView) (cgroupID : UInt64) (path name foundPath : String) : String × Bool :=
  if name ≠ "cgroup.stat" then (foundPath, false)
  else
    let dir := filepathDir path
    match readCgroupID v.readFile dir with
    | .error _ => (foundPath, false)
    | .ok id => if id = cgroupID then (dir, true) else (foundPath, false)

def resolveCgroupPath (v : NodeView) (cgroupBasePath : String) (cgroupID : UInt64) :
    Except CgroupWalkError String :=
  let foundPath := (v.fs.search (v.visitStat cgroupID) cgroupBasePath "").1
  if foundPath = "" then .error (.notFound cgroupID) else .ok foundPath

/-- The lookup at that moment. -/
def env (v : NodeView) (cgroupBasePath : String) : LookupEnv :=
  ⟨v.resolveCgroupPath cgroupBasePath, v.pods⟩

end NodeView

end Akil.Telemetry
