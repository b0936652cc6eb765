import Mathlib.Data.List.Basic

/-!
# The collector's cache-miss counters (`cmd/collector/main.go`)

`attachCacheMissCounters` opens a sampling counter on every CPU, attaches the cache-miss program to
each and enables it.  Any of the three system calls may fail for any CPU.  What it leaves behind is
a matter of the kernel's table of open perf events: a counter that is open and enabled goes on
sampling until its descriptor is closed.

The kernel's answers are a parameter: the error of a call for a CPU, if it fails there, and the
descriptor a successful open gets.
-/

namespace Akil

/-- An open perf event, with the program attached to it. -/
structure PerfEvent where
  fd : ℕ
  cpu : ℕ
  sample : UInt64
  prog : Option ℕ
  enabled : Bool
  deriving DecidableEq

/-- What the kernel answers to `PerfEventOpen` and to the two `IoctlSetInt`s for a CPU, and the
descriptor it gives to a new event beside those that are open. -/
structure PerfKernel where
  openErr : ℕ → Option String
  setBpfErr : ℕ → Option String
  enableErr : ℕ → Option String
  fresh : List PerfEvent → ℕ

namespace PerfKernel

variable (k : PerfKernel)

def perfEventOpen (cpu : ℕ) (sample : UInt64) (t : List PerfEvent) :
    Except String (ℕ × List PerfEvent) :=
  match k.openErr cpu with
  | some err => .error err
  | none => .ok (k.fresh t, t ++ [⟨k.fresh t, cpu, sample, none, false⟩])

/-- `unix.IoctlSetInt` with `PERF_EVENT_IOC_SET_BPF` -/
def setBpf (cpu fd prog : ℕ) (t : List PerfEvent) : Except String (List PerfEvent) :=
  match k.setBpfErr cpu with
  | some err => .error err
  | none => .ok (t.map (fun e => if e.fd = fd then { e with prog := some prog } else e))

/-- `unix.IoctlSetInt` with `PERF_EVENT_IOC_ENABLE` -/
def enable (cpu fd : ℕ) (t : List PerfEvent) : Except String (List PerfEvent) :=
  match k.enableErr cpu with
  | some err => .error err
  | none => .ok (t.map (fun e => if e.fd = fd then { e with enabled := true } else e))

def close (fd : ℕ) (t : List PerfEvent) : List PerfEvent := t.filter (fun e => e.fd ≠ fd)

/-- The loop that closes descriptors, in `attachCacheMissCounters` and deferred in `main`. -/
def closeAll (fds : List ℕ) (t : List PerfEvent) : List PerfEvent :=
  fds.foldl (fun t fd => close fd t) t

/-- The loop of `attachCacheMissCounters` over the remaining CPUs: the descriptors and the error it
returns, and the events it leaves open. -/
def attachLoop (prog : ℕ) (period : UInt64) :
    List ℕ → List ℕ → List PerfEvent → List ℕ × Option String × List PerfEvent
  | [], fds, t => (fds, none, t)
  | cpu :: cpus, fds, t =>
      match k.perfEventOpen cpu period t with
      | .error err => ([], some err, closeAll fds t)
      | .ok (fd, t) =>
          match k.setBpf cpu fd prog t with
          | .error err => (fds, some err, close fd t)
          | .ok t =>
              match k.enable cpu fd t with
              | .error err => (fds, some err, close fd t)
              | .ok t => attachLoop prog period cpus (fds ++ [fd]) t

/-- `attachCacheMissCounters`, with `runtime.NumCPU()` CPUs. -/
def attachCacheMissCounters (prog : ℕ) (period : UInt64) (numCPU : ℕ) (t : List PerfEvent) :
    List ℕ × Option String × List PerfEvent :=
  k.attachLoop prog period (List.range numCPU) [] t

end PerfKernel

end Akil
