import Akil.Construction.Identity.WorkloadKey

/-!
# Container IDs in cgroup paths (`pkg/telemetry/cgroup.go`, `parseContainerID`)

The kubelet-based resolver takes the container ID off the last component of a cgroup path and
looks for it in the kubelet's pod list.  Three formats are tried in order: CRI-O's
`crio-<id>.scope`, containerd's bare `<id>`, and containerd's `<prefix>-<id>.scope`.  The two
containerd formats check that the ID is hexadecimal and long enough; CRI-O's takes whatever stands
between.

As in `Framework/Text.lean` text is cut by characters.  Where the code compares a length, the
length is that in bytes.
-/

namespace Akil

/-- The errors of `parseContainerID`: `empty cgroup path`, and `cannot parse container ID from
cgroup path component %q`. -/
inductive CgroupPathError
  | emptyPath
  | cannotParse (component : String)
  deriving DecidableEq, Repr

namespace Telemetry

def isHexDigit (c : Char) : Bool :=
  ('0' ≤ c && c ≤ '9') || ('a' ≤ c && c ≤ 'f') || ('A' ≤ c && c ≤ 'F')

def isHex (s : List Char) : Bool := s.all isHexDigit

/-- `strings.TrimPrefix` -/
def trimStart (start s : List Char) : List Char := (s.dropPrefix? start).getD s

/-- `strings.TrimSuffix` -/
def trimEnd (ending s : List Char) : List Char := (s.dropSuffix? ending).getD s

/-- containerd with scope suffix: what follows the last dash, if it looks like an ID. -/
def scopedID (last : List Char) : Option (List Char) :=
  if ".scope".toList.isSuffixOf last then
    let trimmed := trimEnd ".scope".toList last
    match lastIndex '-' trimmed with
    | some idx =>
        let candidate := trimmed.drop (idx + 1)
        if (String.ofList candidate).utf8ByteSize ≥ 12 ∧ isHex candidate = true then some candidate
        else none
    | none => none
  else none

def parseContainerID (cgroupPath : String) : Except CgroupPathError String :=
  let parts := cgroupPath.toList.splitOn '/'
  match parts.getLast? with
  | none => .error .emptyPath
  | some last =>
      if "crio-".toList.isPrefixOf last ∧ ".scope".toList.isSuffixOf last then
        .ok (String.ofList (trimEnd ".scope".toList (trimStart "crio-".toList last)))
      else if (String.ofList last).utf8ByteSize = 64 ∧ isHex last = true then
        .ok (String.ofList last)
      else
        match scopedID last with
        | some candidate => .ok (String.ofList candidate)
        | none => .error (.cannotParse (String.ofList last))

end Telemetry

end Akil
