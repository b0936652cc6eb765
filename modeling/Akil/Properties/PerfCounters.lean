import Akil.Construction.Collector.Perf
import Mathlib.Algebra.Order.BigOperators.Group.List
import Mathlib.Algebra.Order.Ring.Nat
import Mathlib.Data.List.Nodup
import Mathlib.Data.List.Range
import Mathlib.Tactic.Common

/-!
# The cache-miss counters under failures

A collector whose counters fail to attach warns and goes on.  Which CPUs it then counts depends on
the call that failed: a failed open gives up all counters, a failed `ioctl` only its own, and those
of the CPUs before it go on sampling.  Either way the descriptors the collector holds are exactly
those of the events it left open, so that it leaks none, and closing them at the end leaves what was
open before.
-/

namespace Akil

namespace PerfKernel

variable {k : PerfKernel} {prog : ℕ} {period : UInt64} {t t₀ : List PerfEvent} {fds : List ℕ}

/-- A new descriptor is not one that is open. -/
def Fresh (k : PerfKernel) : Prop := ∀ t, ∀ e ∈ t, e.fd ≠ k.fresh t

/-- All three calls succeed for the CPU. -/
def Succeeds (k : PerfKernel) (cpu : ℕ) : Prop :=
  k.openErr cpu = none ∧ k.setBpfErr cpu = none ∧ k.enableErr cpu = none

/-- The first CPU for which a call fails is `m`, with the error `msg`, and `fds` is what is left
then: nothing if the open failed, else the counters of the CPUs before. -/
def FailsAt (k : PerfKernel) (m : ℕ) (msg : String) (fds : List ℕ) : Prop :=
  (∀ cpu < m, k.Succeeds cpu) ∧
    ((k.openErr m = some msg ∧ fds = []) ∨
      (k.openErr m = none ∧ fds.length = m ∧
        (k.setBpfErr m = some msg ∨ (k.setBpfErr m = none ∧ k.enableErr m = some msg))))

/-- The counters of the first CPUs, attached and enabled. -/
def counters (prog : ℕ) (period : UInt64) (fds : List ℕ) : List PerfEvent :=
  fds.zipIdx.map (fun c => ⟨c.1, c.2, period, some prog, true⟩)

lemma map_fd_counters (prog : ℕ) (period : UInt64) (fds : List ℕ) :
    (counters prog period fds).map PerfEvent.fd = fds := by
  rw [counters, List.map_map]
  exact List.zipIdx_map_fst 0 fds

lemma counters_concat (prog : ℕ) (period : UInt64) (fds : List ℕ) (fd : ℕ) :
    counters prog period (fds ++ [fd])
      = counters prog period fds ++ [⟨fd, fds.length, period, some prog, true⟩] := by
  rw [counters, List.zipIdx_append, List.map_append, counters, Nat.zero_add, List.zipIdx_singleton]
  rfl

lemma closeAll_eq (fds : List ℕ) (t : List PerfEvent) :
    closeAll fds t = t.filter (fun e => e.fd ∉ fds) := by
  induction fds generalizing t with
  | nil => simp [closeAll]
  | cons fd fds ih =>
      have hstep : closeAll (fd :: fds) t = closeAll fds (close fd t) := rfl
      rw [hstep, ih, close, List.filter_filter]
      refine List.filter_congr (fun e _ => ?_)
      simp [List.mem_cons, Bool.and_comm]

/-- Closing the one event with the descriptor. -/
lemma close_concat {e : PerfEvent} (h : ∀ e' ∈ t, e'.fd ≠ e.fd) : close e.fd (t ++ [e]) = t := by
  rw [close, List.filter_append, List.filter_eq_self.mpr (by simpa using h)]
  simp

/-- Closing the counters leaves what was open before them. -/
lemma closeAll_counters (h : ∀ e ∈ t₀, e.fd ∉ fds) :
    closeAll fds (t₀ ++ counters prog period fds) = t₀ := by
  have hold : t₀.filter (fun e => e.fd ∉ fds) = t₀ := List.filter_eq_self.mpr (by simpa using h)
  have hcounters : (counters prog period fds).filter (fun e => e.fd ∉ fds) = [] := by
    rw [List.filter_eq_nil_iff]
    intro e he
    have hfd := List.mem_map_of_mem (f := PerfEvent.fd) he
    rw [map_fd_counters] at hfd
    simpa using hfd
  rw [closeAll_eq, List.filter_append, hold, hcounters, List.append_nil]

/-- A change of the one event with the descriptor. -/
lemma map_concat {e : PerfEvent} (h : ∀ e' ∈ t, e'.fd ≠ e.fd) (f : PerfEvent → PerfEvent) :
    (t ++ [e]).map (fun e' => if e'.fd = e.fd then f e' else e') = t ++ [f e] := by
  rw [List.map_append, List.map_singleton, if_pos rfl]
  congr 1
  exact (List.map_congr_left (fun e' he' => if_neg (h e' he'))).trans (List.map_id t)

/-! ## The loop -/

/-- Before CPU `n` the loop has succeeded for the CPUs before it, whose counters are open beside the
events of `t₀`. -/
structure Counting (k : PerfKernel) (prog : ℕ) (period : UInt64) (t₀ : List PerfEvent) (n : ℕ)
    (fds : List ℕ) (t : List PerfEvent) : Prop where
  length : fds.length = n
  before : ∀ cpu < n, k.Succeeds cpu
  table : t = t₀ ++ counters prog period fds
  distinct : fds.Nodup ∧ ∀ e ∈ t₀, e.fd ∉ fds

/-- What the loop over `numCPU` CPUs returns and leaves open: the counters of the first CPUs,
attached and enabled; without an error they are all CPUs', and else there is a first call that
failed. -/
structure Attached (k : PerfKernel) (prog : ℕ) (period : UInt64) (numCPU : ℕ) (t₀ : List PerfEvent)
    (fds : List ℕ) (err : Option String) (t : List PerfEvent) : Prop where
  table : t = t₀ ++ counters prog period fds
  distinct : fds.Nodup ∧ ∀ e ∈ t₀, e.fd ∉ fds
  complete : err = none → fds.length = numCPU ∧ ∀ cpu < numCPU, k.Succeeds cpu
  failed : ∀ msg, err = some msg → ∃ m < numCPU, k.FailsAt m msg fds

namespace Counting

variable {n numCPU : ℕ}

/-- A CPU for which all calls succeed. -/
lemma next (h : Counting k prog period t₀ n fds t) (hfresh : k.Fresh) (hsucc : k.Succeeds n) :
    Counting k prog period t₀ (n + 1) (fds ++ [k.fresh t])
      (t ++ [⟨k.fresh t, n, period, some prog, true⟩]) where
  length := by rw [List.length_append, h.length, List.length_singleton]
  before := by
    intro cpu hcpu
    rcases (Nat.lt_succ_iff.mp hcpu).eq_or_lt with rfl | hlt
    · exact hsucc
    · exact h.before cpu hlt
  table := by rw [counters_concat, h.length, ← List.append_assoc, ← h.table]
  distinct := by
    have hnotMem : k.fresh t ∉ fds := by
      intro hmem
      rw [← map_fd_counters prog period fds] at hmem
      obtain ⟨e, he, hfd⟩ := List.mem_map.mp hmem
      exact hfresh t e (h.table ▸ List.mem_append_right _ he) hfd
    refine ⟨?_, fun e he => ?_⟩
    · rw [List.nodup_append_comm]
      exact List.nodup_cons.mpr ⟨hnotMem, h.distinct.1⟩
    · rw [List.mem_append, List.mem_singleton, not_or]
      exact ⟨h.distinct.2 e he, hfresh t e (h.table ▸ List.mem_append_left _ he)⟩

/-- All CPUs have been counted. -/
lemma attached (h : Counting k prog period t₀ numCPU fds t) :
    Attached k prog period numCPU t₀ fds none t := by
  refine ⟨h.table, h.distinct, fun _ => ⟨h.length, h.before⟩, fun msg hmsg => ?_⟩
  cases hmsg

/-- The open fails, and what was open is closed. -/
lemma attached_of_openErr (h : Counting k prog period t₀ n fds t) (hn : n < numCPU) {err : String}
    (herr : k.openErr n = some err) :
    Attached k prog period numCPU t₀ [] (some err) (closeAll fds t) := by
  refine ⟨?_, ⟨List.nodup_nil, fun _ _ => List.not_mem_nil⟩, fun hnone => ?_, fun msg hmsg => ?_⟩
  · rw [h.table]
    exact (closeAll_counters h.distinct.2).trans (List.append_nil t₀).symm
  · cases hnone
  · obtain rfl := Option.some.inj hmsg
    exact ⟨n, hn, h.before, .inl ⟨herr, rfl⟩⟩

/-- An `ioctl` fails, and its event is closed. -/
lemma attached_of_ioctlErr (h : Counting k prog period t₀ n fds t) (hn : n < numCPU) {err : String}
    (hopen : k.openErr n = none)
    (herr : k.setBpfErr n = some err ∨ (k.setBpfErr n = none ∧ k.enableErr n = some err)) :
    Attached k prog period numCPU t₀ fds (some err) t := by
  refine ⟨h.table, h.distinct, fun hnone => ?_, fun msg hmsg => ?_⟩
  · cases hnone
  · obtain rfl := Option.some.inj hmsg
    exact ⟨n, hn, h.before, .inr ⟨hopen, h.length, herr⟩⟩

/-- The loop from CPU `n` on. -/
lemma attachLoop (h : Counting k prog period t₀ n fds t) (hfresh : k.Fresh) (m : ℕ) :
    let r := k.attachLoop prog period (List.range' n m) fds t
    Attached k prog period (n + m) t₀ r.1 r.2.1 r.2.2 := by
  induction m generalizing n fds t with
  | zero => exact h.attached
  | succ m ih =>
      have hnew := hfresh t
      have hn : n < n + (m + 1) := by omega
      rw [List.range'_succ, PerfKernel.attachLoop, perfEventOpen]
      cases hopen : k.openErr n with
      | some err => exact h.attached_of_openErr hn hopen
      | none =>
          dsimp only
          rw [setBpf]
          cases hsetBpf : k.setBpfErr n with
          | some err =>
              dsimp only
              rw [close_concat (e := ⟨k.fresh t, n, period, none, false⟩) hnew]
              exact h.attached_of_ioctlErr hn hopen (.inl hsetBpf)
          | none =>
              dsimp only
              rw [map_concat (e := ⟨k.fresh t, n, period, none, false⟩) hnew, enable]
              cases henable : k.enableErr n with
              | some err =>
                  dsimp only
                  rw [close_concat (e := ⟨k.fresh t, n, period, some prog, false⟩) hnew]
                  exact h.attached_of_ioctlErr hn hopen (.inr ⟨hsetBpf, henable⟩)
              | none =>
                  dsimp only
                  rw [map_concat (e := ⟨k.fresh t, n, period, some prog, false⟩) hnew,
                    ← Nat.add_assoc, Nat.add_right_comm]
                  exact ih (h.next hfresh ⟨hopen, hsetBpf, henable⟩)

end Counting

/-- No error is what it takes for every CPU to be counted. -/
lemma Attached.err_eq_none_iff {numCPU : ℕ} {err : Option String}
    (h : Attached k prog period numCPU t₀ fds err t) : err = none ↔ fds.length = numCPU := by
  refine ⟨fun herr => (h.complete herr).1, fun hlen => ?_⟩
  cases herr : err with
  | none => rfl
  | some msg =>
      obtain ⟨m, hm, -, ⟨-, rfl⟩ | ⟨-, hfds, -⟩⟩ := h.failed msg herr
      · rw [List.length_nil] at hlen
        omega
      · omega

/-- All calls succeed exactly when there is no error. -/
lemma Attached.err_eq_none_iff_succeeds {numCPU : ℕ} {err : Option String}
    (h : Attached k prog period numCPU t₀ fds err t) :
    err = none ↔ ∀ cpu < numCPU, k.Succeeds cpu := by
  refine ⟨fun herr => (h.complete herr).2, fun hall => ?_⟩
  cases herr : err with
  | none => rfl
  | some msg =>
      obtain ⟨m, hm, -, hfail⟩ := h.failed msg herr
      obtain ⟨hopen, hset, henable⟩ := hall m hm
      simp [hopen, hset, henable] at hfail

lemma attachCacheMissCounters_attached (hfresh : k.Fresh) (prog : ℕ) (period : UInt64)
    (numCPU : ℕ) (t : List PerfEvent) :
    let r := k.attachCacheMissCounters prog period numCPU t
    Attached k prog period numCPU t r.1 r.2.1 r.2.2 := by
  have hstart : Counting k prog period t 0 [] t :=
    ⟨List.length_nil, fun cpu hcpu => absurd hcpu cpu.not_lt_zero, (List.append_nil t).symm,
      List.nodup_nil, fun _ _ => List.not_mem_nil⟩
  have hloop := hstart.attachLoop hfresh numCPU
  rwa [Nat.zero_add, ← List.range_eq_range'] at hloop

end PerfKernel

/-- **The counters of the collector.**  For every pattern of failing calls, the descriptors
`attachCacheMissCounters` returns are those of the counters it leaves open, one for each of the
first CPUs, attached and enabled.  There is no error exactly when every call succeeds, and then
these are all CPUs.  After a failed open it is none, and after a failed `ioctl` for a CPU those
before it, which go on sampling.  Closing the descriptors, as the collector does at its end, leaves
exactly what was open before. -/
theorem attachCacheMissCounters_exact {k : PerfKernel} (hfresh : k.Fresh) (prog : ℕ)
    (period : UInt64) (numCPU : ℕ) (t : List PerfEvent) :
    let (fds, err, t') := k.attachCacheMissCounters prog period numCPU t
    t' = t ++ PerfKernel.counters prog period fds ∧ fds.Nodup ∧
      (err = none ↔ ∀ cpu < numCPU, k.Succeeds cpu) ∧ (err = none ↔ fds.length = numCPU) ∧
      (∀ msg, err = some msg → ∃ m < numCPU, k.FailsAt m msg fds) ∧
      PerfKernel.closeAll fds t' = t := by
  have h := PerfKernel.attachCacheMissCounters_attached hfresh prog period numCPU t
  refine ⟨h.table, h.distinct.1, h.err_eq_none_iff_succeeds, h.err_eq_none_iff, h.failed, ?_⟩
  exact (congrArg _ h.table).trans (PerfKernel.closeAll_counters h.distinct.2)

/-- A kernel that refuses to enable the counter of CPU 2 and takes descriptors above the open
ones. -/
def busyKernel : PerfKernel where
  openErr _ := none
  setBpfErr _ := none
  enableErr cpu := if cpu = 2 then some "device or resource busy" else none
  fresh t := (t.map PerfEvent.fd).sum + 1

lemma busyKernel_fresh : busyKernel.Fresh := fun _ _ he =>
  Nat.ne_of_lt (Nat.lt_succ_of_le
    (List.single_le_sum (fun _ _ => Nat.zero_le _) _ (List.mem_map_of_mem he)))

/-- Of four CPUs the first two are counted. -/
theorem attachCacheMissCounters_exact_busy :
    busyKernel.attachCacheMissCounters 7 10000 4 []
        = ([1, 2], some "device or resource busy", PerfKernel.counters 7 10000 [1, 2]) ∧
      ∃ m < 4, busyKernel.FailsAt m "device or resource busy" [1, 2] :=
  ⟨by decide, (attachCacheMissCounters_exact busyKernel_fresh 7 10000 4 []).2.2.2.2.1 _ rfl⟩

end Akil
