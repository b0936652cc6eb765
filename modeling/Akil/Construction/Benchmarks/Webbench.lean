import Akil.Framework.Quantile
import Mathlib.Data.List.Rotate
import Mathlib.Data.List.Sort

/-!
# The web benchmark (`benchmarks/webbench`)

The server's request handler follows pointers through a table as large as the working set; the
table is made from a random permutation.  The load generator sends requests on the ticks of a clock
and lets each finish in a goroutine of its own, which enters its result under a lock in whatever
order the requests finish.

Go indexes its tables within bounds and panics otherwise; here a read out of bounds is zero, and no
read of the handler is.
-/

namespace Akil.Webbench

/-! ## The server -/

/-- `n`: the entries of the working set, whose size is given in MiB. -/
def entries (workingSet : ℕ) : ℕ := workingSet * 2 ^ 20 / 8

/-- The loop that fills `next`. -/
def buildNext (perm : List ℕ) : List ℕ :=
  (List.range perm.length).foldl
    (fun next i => next.set (perm.getD i 0) (perm.getD ((i + 1) % perm.length) 0))
    (List.replicate perm.length 0)

/-- The loop of the handler: the index after so many reads. -/
def chase (next : List ℕ) : ℕ → ℕ → ℕ
  | 0, idx => idx
  | reads + 1, idx => chase next reads (next.getD idx 0)

/-! ## The load generator -/

/-- The requests sent: for each tick until the end whether it is measured. -/
def send (start warmup duration : ℤ) : List ℤ → List Bool
  | [] => []
  | now :: ticks =>
      if now > start + (warmup + duration) then []
      else decide (now > start + warmup) :: send start warmup duration ticks

structure Results where
  latencies : List ℚ
  errors : ℕ
  deriving DecidableEq

/-- What a goroutine does when its request has finished; an error has no latency. -/
def Results.record (r : Results) (finished : Bool × Option ℚ) : Results :=
  match finished with
  | (false, _) => r
  | (true, none) => { r with errors := r.errors + 1 }
  | (true, some ms) => { r with latencies := r.latencies ++ [ms] }

def pct (latencies : List ℚ) (q : ℚ) : Option ℚ := quantile latencies q

structure Report where
  requests : ℕ
  errors : ℕ
  p50 : ℚ
  p90 : ℚ
  p99 : ℚ
  p999 : ℚ
  deriving DecidableEq

/-- The end of `main`; without a successful request it exits with an error. -/
def Results.report (r : Results) : Option Report := do
  guard (r.latencies ≠ [])
  let latencies := r.latencies.insertionSort (· ≤ ·)
  let p50 ← pct latencies (50 / 100)
  let p90 ← pct latencies (90 / 100)
  let p99 ← pct latencies (99 / 100)
  let p999 ← pct latencies (999 / 1000)
  return ⟨latencies.length, r.errors, p50, p90, p99, p999⟩

/-- The report on the requests, in the order in which they finished. -/
def loadgen (finished : List (Bool × Option ℚ)) : Option Report :=
  (finished.foldl Results.record ⟨[], 0⟩).report

end Akil.Webbench
