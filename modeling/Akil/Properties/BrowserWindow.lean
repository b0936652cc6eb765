import Akil.Construction.Frontend.Cluster
import Akil.Construction.Profile.Store
import Akil.Properties.Staleness

/-!
# The page's window and the aggregator's

The page keeps its own sliding windows when there is no aggregator, with what its comment calls
the same maths.  `Twin` runs both on the same telemetry: an injection is recorded by the page's
backend and, as a `RecordBulk`, by the store; a read asks the page for its profiles and the store
for one.

The two keep time differently.  The page has one `lastRotate` for all windows and moves it by
whole seconds, so its windows rotate at the seconds counted from the page's start.  A window of the
store has its own `lastRotation`, starts it at the first injection and sets it to the present at
every rotation.  Along a run in which both count the same number of whole seconds since the
window's last rotation, whenever the workload is injected or read, every record is in the same
second on both sides, and the profiles agree (`browser_window_agrees`).  One read half a second
off is enough to break that (`browser_window_differs`).

Go adds `int64`s and the page JavaScript numbers, which are exact up to `2 ^ 53`.  Where the
magnitudes of what a window counts add up to no more than that, both add up exactly.
-/

namespace Akil.Frontend

/-! ## Both windows on the same telemetry -/

/-- `Date.now()` at a clock reading in nanoseconds. -/
def dateNow (t : ℤ) : ℤ := t / 10 ^ 6

/-- The injection as `/api/simulate-events` decodes it. -/
def WorkloadSpec.bulk (w : WorkloadSpec) : RecordCall :=
  .bulk (int64OfInt w.pageFaults) (int64OfInt w.cacheMisses) (int64OfInt w.ctxSwitches)
    (int64OfInt w.lockNs)

/-- The counts of the injection are `int64`s. -/
structure WorkloadSpec.Fits (w : WorkloadSpec) : Prop where
  pageFaults : FitsInt64 w.pageFaults
  cacheMisses : FitsInt64 w.cacheMisses
  ctxSwitches : FitsInt64 w.ctxSwitches
  lockNs : FitsInt64 w.lockNs

/-- The page injects telemetry or reads a profile. -/
inductive PageCall
  | inject (w : WorkloadSpec)
  | read (key : String)
  deriving DecidableEq

/-- The workload a call is about. -/
def PageCall.key : PageCall → String
  | .inject w => w.key
  | .read key => key

/-- The page's backend and the aggregator's store. -/
structure Twin where
  backend : LocalBackend
  store : Store

namespace Twin

/-- Both created at the reading `start`, the store with the page's buckets. -/
def new (start : ℤ) : Twin where
  backend := LocalBackend.new (dateNow start)
  store := newStore buckets (bucketSeconds * 10 ^ 9)

/-- One call on both. -/
def exec (t : ℤ) (c : PageCall) (s : Twin) : Twin :=
  match c with
  | .inject w =>
      { backend := s.backend.record w (dateNow t)
        store := s.store.run
          [(t, .getOrCreate w.key), (t, .onProfile w.key (.record w.bulk w.node))] }
  | .read key =>
      { backend := (s.backend.profiles (dateNow t)).2
        store := (s.store.queryProfile key t).2 }

/-- A read at `t` shows the same rates, samples and confidence for the workload on both sides, or
no profile on either. -/
def Agrees (key : String) (t : ℤ) (s : Twin) : Prop :=
  (s.backend.profiles (dateNow t)).1.filter (fun p => p.key = key)
    = ((s.store.get key).map (fun _ => toProfile (s.store.queryProfile key t).1)).toList

instance (key : String) (t : ℤ) (s : Twin) : Decidable (s.Agrees key t) :=
  inferInstanceAs (Decidable (_ = _))

/-- Since the last rotation of the store's window, the window's clock and the page's clock have
counted the same number of whole seconds, or both the whole window. -/
def SameSeconds (b : LocalBackend) (wp : WorkloadProfile) (t : ℤ) : Prop :=
  min (buckets : ℤ) ((t - wp.lastRotation) / 10 ^ 9)
    = min (buckets : ℤ)
        ((dateNow t - b.lastRotate) / 1000 - (dateNow wp.lastRotation - b.lastRotate) / 1000)

instance (b : LocalBackend) (wp : WorkloadProfile) (t : ℤ) : Decidable (SameSeconds b wp t) :=
  inferInstanceAs (Decidable (_ = _))

/-- A call on the workload finds both clocks in step.  This is a condition on the clock reading
and on the state the call finds. -/
def InStep (key : String) (t : ℤ) (c : PageCall) (s : Twin) : Prop :=
  c.key = key → ∀ wp ∈ s.store.get key, SameSeconds s.backend wp t

instance (key : String) (t : ℤ) (c : PageCall) (s : Twin) : Decidable (s.InStep key t c) :=
  inferInstanceAs (Decidable (_ → _))

end Twin

/-- What a call injects into the workload. -/
def PageCall.injection (key : String) (t : ℤ) : PageCall → Option LogEntry
  | .inject w => if w.key = key then some ⟨t, w.node, w.counts⟩ else none
  | .read _ => none

/-- The injections of one workload. -/
def injections (key : String) (calls : List (ℤ × PageCall)) : List LogEntry :=
  calls.filterMap (fun c => c.2.injection key c.1)

/-- The page's second of a reading, counted from `anchor`, in milliseconds. -/
def secondOf (anchor t : ℤ) : ℤ := (dateNow t - anchor) / 1000

/-- The injections of a page started at `start` in the second of `t` and the eleven before it. -/
def recentInjections (key : String) (start : ℤ) (calls : List (ℤ × PageCall)) (t : ℤ) :
    List LogEntry :=
  (injections key calls).filter (fun e =>
    secondOf (dateNow start) t - secondOf (dateNow start) e.time < (buckets : ℕ))

lemma secondOf_mono (anchor : ℤ) {t t' : ℤ} (h : t ≤ t') :
    secondOf anchor t ≤ secondOf anchor t' := by
  unfold secondOf dateNow
  omega

/-- The magnitudes of an injection's counts, and of what is added up for its `ev`. -/
def Counts.magnitude (c : Counts ℤ) : Counts ℤ where
  eventCount := |c.pageFaults| + |c.cacheMisses| + |c.ctxSwitches| + 1
  pageFaults := |c.pageFaults|
  cacheMisses := |c.cacheMisses|
  lockDurationNs := |c.lockDurationNs|
  ctxSwitches := |c.ctxSwitches|

/-- The magnitudes of some injections, added up.  No partial sum of their counts is larger. -/
def sumMagnitudes (es : List LogEntry) : Counts ℤ :=
  (es.map (fun e => Counts.magnitude e.counts)).sum

/-- All five are at most `2 ^ 53`, up to where every whole number is a JavaScript number. -/
structure Counts.Exact (c : Counts ℤ) : Prop where
  eventCount : c.eventCount ≤ 2 ^ 53
  pageFaults : c.pageFaults ≤ 2 ^ 53
  cacheMisses : c.cacheMisses ≤ 2 ^ 53
  lockDurationNs : c.lockDurationNs ≤ 2 ^ 53
  ctxSwitches : c.ctxSwitches ≤ 2 ^ 53

instance (c : Counts ℤ) : Decidable (Counts.Exact c) :=
  decidable_of_iff (c.eventCount ≤ 2 ^ 53 ∧ c.pageFaults ≤ 2 ^ 53 ∧ c.cacheMisses ≤ 2 ^ 53 ∧
      c.lockDurationNs ≤ 2 ^ 53 ∧ c.ctxSwitches ≤ 2 ^ 53)
    ⟨fun ⟨h₁, h₂, h₃, h₄, h₅⟩ => ⟨h₁, h₂, h₃, h₄, h₅⟩,
      fun ⟨h₁, h₂, h₃, h₄, h₅⟩ => ⟨h₁, h₂, h₃, h₄, h₅⟩⟩

/-! ## Sums that are exact on both sides -/

/-- `m` bounds the magnitude of every counter of `c`. -/
structure Counts.BoundedBy (c m : Counts ℤ) : Prop where
  eventCount : |c.eventCount| ≤ m.eventCount
  pageFaults : |c.pageFaults| ≤ m.pageFaults
  cacheMisses : |c.cacheMisses| ≤ m.cacheMisses
  lockDurationNs : |c.lockDurationNs| ≤ m.lockDurationNs
  ctxSwitches : |c.ctxSwitches| ≤ m.ctxSwitches

namespace Counts.BoundedBy

variable {c c' m m' : Counts ℤ}

lemma add (h : BoundedBy c m) (h' : BoundedBy c' m') : BoundedBy (c + c') (m + m') where
  eventCount := (abs_add_le _ _).trans (add_le_add h.eventCount h'.eventCount)
  pageFaults := (abs_add_le _ _).trans (add_le_add h.pageFaults h'.pageFaults)
  cacheMisses := (abs_add_le _ _).trans (add_le_add h.cacheMisses h'.cacheMisses)
  lockDurationNs := (abs_add_le _ _).trans (add_le_add h.lockDurationNs h'.lockDurationNs)
  ctxSwitches := (abs_add_le _ _).trans (add_le_add h.ctxSwitches h'.ctxSwitches)

lemma fits (h : BoundedBy c m) (hm : Counts.Exact m) : c.Fits := by
  have hfits : ∀ {z b : ℤ}, |z| ≤ b → b ≤ 2 ^ 53 → FitsInt64 z := by
    intro z b hz hb
    obtain ⟨hlow, hhigh⟩ := abs_le.mp hz
    unfold FitsInt64
    omega
  exact ⟨hfits h.eventCount hm.eventCount, hfits h.pageFaults hm.pageFaults,
    hfits h.cacheMisses hm.cacheMisses, hfits h.lockDurationNs hm.lockDurationNs,
    hfits h.ctxSwitches hm.ctxSwitches⟩

end Counts.BoundedBy

lemma WorkloadSpec.counts_boundedBy (w : WorkloadSpec) :
    Counts.BoundedBy w.counts (Counts.magnitude w.counts) := by
  refine ⟨?_, le_rfl, le_rfl, le_rfl, le_rfl⟩
  have hlock : |if w.lockNs > 0 then (1 : ℤ) else 0| ≤ 1 := by split_ifs <;> decide
  have hsum := (abs_add_le (w.cacheMisses + w.pageFaults + w.ctxSwitches) _).trans
    (add_le_add_right hlock _)
  have hparts := abs_add_three w.cacheMisses w.pageFaults w.ctxSwitches
  dsimp only [Counts.magnitude, counts]
  linarith

lemma sumCounts_boundedBy {es : List LogEntry}
    (h : ∀ e ∈ es, Counts.BoundedBy e.counts (Counts.magnitude e.counts)) :
    Counts.BoundedBy (sumCounts es) (sumMagnitudes es) := by
  induction es with
  | nil => exact ⟨le_rfl, le_rfl, le_rfl, le_rfl, le_rfl⟩
  | cons e es ih =>
      exact (h e List.mem_cons_self).add (ih (fun e he => h e (List.mem_cons_of_mem _ he)))

/-- Sums that are exact in JavaScript fit in Go's counters. -/
lemma fits_recentInjections {key : String} {start t : ℤ} {calls : List (ℤ × PageCall)}
    (h : Counts.Exact (sumMagnitudes (recentInjections key start calls t))) :
    (sumCounts (recentInjections key start calls t)).Fits := by
  refine (sumCounts_boundedBy (fun e he => ?_)).fits h
  obtain ⟨c, -, hc⟩ := List.mem_filterMap.mp (List.mem_of_mem_filter he)
  obtain ⟨tc, call⟩ := c
  cases call with
  | read key => cases hc
  | inject w =>
      simp only [PageCall.injection] at hc
      split_ifs at hc
      obtain rfl := Option.some.inj hc
      exact w.counts_boundedBy

/-! ## The page's side -/

namespace LocalBackend

/-- The windows under a key; there is at most one. -/
def windowsOf (key : String) (b : LocalBackend) : List (String × List (Counts ℤ)) :=
  b.windows.filter (fun v => v.1 = key)

/-- After a rotation at `t` the page's clock stands at the second of `t`. -/
lemma rotate_spec {b : LocalBackend} {anchor c t : ℤ} (hb : b.lastRotate = anchor + 1000 * c)
    (hle : c ≤ secondOf anchor t) :
    (b.rotate (dateNow t)).lastRotate = anchor + 1000 * secondOf anchor t ∧
      (b.rotate (dateNow t)).windows = b.windows.map
        (fun w => (w.1, shiftPush^[(min (secondOf anchor t - c) buckets).toNat] w.2)) := by
  have hsteps : ⌊((dateNow t - b.lastRotate : ℤ) : ℚ) / (bucketSeconds * 1000 : ℕ)⌋
      = secondOf anchor t - c := by
    rw [Rat.floor_intCast_div_natCast, hb, secondOf, bucketSeconds]
    omega
  unfold rotate
  rw [hsteps]
  dsimp only
  by_cases hzero : secondOf anchor t - c ≤ 0
  · have heq : secondOf anchor t - c = 0 := by omega
    rw [if_pos hzero, heq]
    refine ⟨by rw [hb]; omega, ?_⟩
    simp
  · rw [if_neg hzero]
    refine ⟨?_, rfl⟩
    rw [hb, bucketSeconds]
    push_cast
    ring

lemma windowsOf_map {b : LocalBackend} {ws : List (String × List (Counts ℤ))}
    {f : List (Counts ℤ) → List (Counts ℤ)} (h : b.windows = ws.map (fun v => (v.1, f v.2)))
    (key : String) :
    b.windowsOf key = (ws.filter (fun v => v.1 = key)).map (fun v => (v.1, f v.2)) := by
  rw [windowsOf, h, List.filter_map]
  rfl

lemma window_isSome_iff (b : LocalBackend) (key : String) :
    (b.window key).isSome ↔ b.windowsOf key ≠ [] := by
  rw [window, List.lookup_isSome_iff, ← List.length_pos_iff, windowsOf,
    List.length_filter_pos_iff]
  simp only [beq_iff_eq, decide_eq_true_eq]
  simp only [eq_comm]

lemma lastRotate_record (w : WorkloadSpec) (now : ℤ) (b : LocalBackend) :
    (b.record w now).lastRotate = (b.rotate now).lastRotate := by
  unfold record
  dsimp only
  split_ifs <;> rfl

/-- An injection leaves the windows of other workloads to the rotation. -/
lemma windowsOf_record_of_ne {w : WorkloadSpec} {key : String} (h : w.key ≠ key) (now : ℤ)
    (b : LocalBackend) : (b.record w now).windowsOf key = (b.rotate now).windowsOf key := by
  have hmap : ∀ ws : List (String × List (Counts ℤ)),
      (ws.map (fun v => if v.1 = w.key then (v.1, v.2.modify (buckets - 1) (· + w.counts))
        else v)).filter (fun v => v.1 = key) = ws.filter (fun v => v.1 = key) := by
    intro ws
    induction ws with
    | nil => rfl
    | cons v ws ih =>
        by_cases hv : v.1 = w.key
        · simp [hv, h, ih]
        · simp [hv, List.filter_cons, ih]
  unfold record windowsOf
  dsimp only
  rw [hmap]
  split_ifs
  · rfl
  · simp [h]

/-- The injected workload has a window afterwards, with the counts in its last bucket. -/
lemma windowsOf_record_self (w : WorkloadSpec) (now : ℤ) (b : LocalBackend) :
    (b.record w now).windowsOf w.key
      = (if (b.rotate now).windowsOf w.key = [] then [(w.key, List.replicate buckets 0)]
          else (b.rotate now).windowsOf w.key).map
          (fun v => (v.1, v.2.modify (buckets - 1) (· + w.counts))) := by
  have hmap : ∀ ws : List (String × List (Counts ℤ)),
      (ws.map (fun v => if v.1 = w.key then (v.1, v.2.modify (buckets - 1) (· + w.counts))
        else v)).filter (fun v => v.1 = w.key)
        = (ws.filter (fun v => v.1 = w.key)).map
            (fun v => (v.1, v.2.modify (buckets - 1) (· + w.counts))) := by
    intro ws
    induction ws with
    | nil => rfl
    | cons v ws ih => by_cases hv : v.1 = w.key <;> simp [hv, ih]
  have hsome := (b.rotate now).window_isSome_iff w.key
  unfold record
  dsimp only
  rw [windowsOf, hmap]
  by_cases hnil : (b.rotate now).windowsOf w.key = []
  · rw [if_neg (fun h => hsome.mp h hnil), if_pos hnil, List.filter_append]
    change ((b.rotate now).windowsOf w.key ++ _).map _ = _
    rw [hnil]
    simp
  · rw [if_pos (hsome.mpr hnil), if_neg hnil]
    rfl

end LocalBackend

/-! ## The store's side -/

/-- The profile under a key after an injection. -/
lemma get_inject (s : Store) (t : ℤ) (key key' nodeName : String) (r : RecordCall) :
    (s.run [(t, .getOrCreate key'), (t, .onProfile key' (.record r nodeName))]).get key
      = if key' = key then some (((s.get key).getD
          (newWorkloadProfile key s.bucketCount s.bucketDuration t)).exec t (.record r nodeName))
        else s.get key := by
  change ((s.exec t (.getOrCreate key')).exec t (.onProfile key' (.record r nodeName))).get key = _
  by_cases hkey : key' = key
  · subst hkey
    rw [if_pos rfl, Store.get_onProfile_self, Store.get_getOrCreate_self]
    rfl
  · have hcreated := s.get_exec_of_ne t (c := .getOrCreate key') hkey
    have hrecorded := (s.exec t (.getOrCreate key')).get_exec_of_ne t
      (c := .onProfile key' (.record r nodeName)) hkey
    rw [if_neg hkey, hrecorded, hcreated]

/-- An injection of counts that are `int64`s records exactly them. -/
lemma WorkloadSpec.bulk_counts {w : WorkloadSpec} (h : w.Fits) : w.bulk.counts = w.counts := by
  have hlock : int64OfInt w.lockNs > 0 ↔ w.lockNs > 0 := by
    have hlt := Int64.lt_iff_toInt_lt (x := 0) (y := int64OfInt w.lockNs)
    rw [toInt_int64OfInt h.lockNs] at hlt
    exact hlt
  unfold bulk RecordCall.counts counts
  simp only [toInt_int64OfInt h.pageFaults, toInt_int64OfInt h.cacheMisses,
    toInt_int64OfInt h.ctxSwitches, toInt_int64OfInt h.lockNs, hlock]
  congr 1
  ring

lemma confidenceFor_toInt (x : Int64) : confidenceFor x.toInt = confidenceOf x := by
  have hhigh : x > 1000 ↔ (x.toInt : ℚ) > 1000 := by
    have := Int64.lt_iff_toInt_lt (x := 1000) (y := x)
    exact_mod_cast this
  have hmedium : x ≥ 100 ↔ (x.toInt : ℚ) ≥ 100 := by
    have := Int64.le_iff_toInt_le (x := 100) (y := x)
    exact_mod_cast this
  have hlow : x > 0 ↔ (x.toInt : ℚ) > 0 := by
    have := Int64.lt_iff_toInt_lt (x := 0) (y := x)
    exact_mod_cast this
  simp only [confidenceFor, confidenceOf, hhigh, hmedium, hlow]

/-- A window that has counted the page's seconds so far and counts as many as the page up to `t`
is dated by the page's clock at `t`. -/
lemma rotate_dated {n : ℕ} (hn : 1 ≤ n) {d anchor t : ℤ} {E : EventLog}
    (hdated : E.log.Dated n (fun e => secondOf anchor e.time) (secondOf anchor E.lastRotation))
    (hle : E.lastRotation ≤ t)
    (hsame : min (n : ℤ) ((t - E.lastRotation) / d)
      = min (n : ℤ) (secondOf anchor t - secondOf anchor E.lastRotation)) :
    (E.rotate n d t).log.Dated n (fun e => secondOf anchor e.time) (secondOf anchor t) ∧
      secondOf anchor (E.rotate n d t).lastRotation = secondOf anchor t ∧
      (E.rotate n d t).lastRotation ≤ t := by
  have hmono := secondOf_mono anchor hle
  unfold EventLog.rotate
  split_ifs with hzero
  · -- nothing rotates, so `t` is in the second of the last rotation
    have hsecond : secondOf anchor t = secondOf anchor E.lastRotation := by
      rw [EventLog.rotationsAt] at hzero
      omega
    rw [hsecond]
    exact ⟨hdated, rfl, hle⟩
  · refine ⟨hdated.advance hmono ?_, rfl, le_rfl⟩
    rw [EventLog.rotationsAt]
    omega

/-! ## In step -/

/-- **The invariant of one workload.**  The store's window and the page's window implement two
rotation logs of the same injections, and the page's clock dates both: the store's up to its last
rotation, the page's up to the second `c` its clock stands at. -/
structure KeySync (key : String) (anchor now c : ℤ) (bs : List (Counts ℤ)) (wp : WorkloadProfile)
    (E : EventLog) (L : RotationLog LogEntry) (es : List LogEntry) : Prop where
  coupled : Coupled key buckets (10 ^ 9) (wp, E)
  register : ShiftRegister buckets LogEntry.counts bs L
  last_le : E.lastRotation ≤ now
  dated : E.log.Dated buckets (fun e => secondOf anchor e.time) (secondOf anchor E.lastRotation)
  page_dated : L.Dated buckets (fun e => secondOf anchor e.time) c
  entries : E.log.entries.map Prod.snd = es
  page_entries : L.entries.map Prod.snd = es

namespace KeySync

variable {key : String} {anchor now c t : ℤ} {bs : List (Counts ℤ)} {wp : WorkloadProfile}
  {E : EventLog} {L : RotationLog LogEntry} {es : List LogEntry}

/-- The page rotates. -/
lemma rotatePage (h : KeySync key anchor now c bs wp E L es) (hle : now ≤ t)
    (hc : c ≤ secondOf anchor t) :
    KeySync key anchor t (secondOf anchor t)
      (LocalBackend.shiftPush^[(min (secondOf anchor t - c) buckets).toNat] bs) wp E
      (L.advance (min (secondOf anchor t - c) buckets).toNat) es where
  coupled := h.coupled
  register := h.register.iterate_shift (by decide) _
  last_le := h.last_le.trans hle
  dated := h.dated
  page_dated := h.page_dated.advance hc (by omega)
  entries := h.entries
  page_entries := h.page_entries

/-- The store's window is queried. -/
lemma query (h : KeySync key anchor t c bs wp E L es)
    (hsame : min (buckets : ℤ) ((t - E.lastRotation) / 10 ^ 9)
      = min (buckets : ℤ) (secondOf anchor t - secondOf anchor E.lastRotation)) :
    KeySync key anchor t c bs (wp.exec t .computeProfile)
      (E.exec buckets (10 ^ 9) t .computeProfile)
      L es := by
  obtain ⟨hdated, hsecond, hlast⟩ := rotate_dated (by decide) h.dated h.last_le hsame
  refine ⟨h.coupled.exec t .computeProfile, h.register, hlast, ?_, h.page_dated, ?_,
    h.page_entries⟩
  · rw [← hsecond] at hdated
    exact hdated
  · exact (congrArg _ (E.entries_rotate _ _ _)).trans h.entries

/-- Both sides record an injection. -/
lemma inject (h : KeySync key anchor t (secondOf anchor t) bs wp E L es) {w : WorkloadSpec}
    (hfits : w.Fits)
    (hsame : min (buckets : ℤ) ((t - E.lastRotation) / 10 ^ 9)
      = min (buckets : ℤ) (secondOf anchor t - secondOf anchor E.lastRotation)) :
    KeySync key anchor t (secondOf anchor t) (bs.modify (buckets - 1) (· + w.counts))
      (wp.exec t (.record w.bulk w.node))
      (E.exec buckets (10 ^ 9) t (.record w.bulk w.node)) (L.append ⟨t, w.node, w.counts⟩)
      (es ++ [⟨t, w.node, w.counts⟩]) := by
  obtain ⟨hdated, hsecond, hlast⟩ := rotate_dated (by decide) h.dated h.last_le hsame
  refine ⟨h.coupled.exec t _, h.register.append (by decide) ⟨t, w.node, w.counts⟩, hlast, ?_,
    h.page_dated.append rfl, ?_, ?_⟩
  · rw [← hsecond] at hdated
    exact hdated.append hsecond.symm
  · change ((E.rotate _ _ _).log.entries ++ [_]).map Prod.snd = _
    rw [List.map_append, E.entries_rotate, h.entries, ← WorkloadSpec.bulk_counts hfits]
    rfl
  · rw [RotationLog.entries_append, List.map_append, h.page_entries]
    rfl

lemma new (key : String) (anchor t : ℤ) :
    KeySync key anchor t (secondOf anchor t) (List.replicate buckets 0)
      (newWorkloadProfile key buckets (10 ^ 9) t) (EventLog.new t) RotationLog.empty [] where
  coupled := Coupled.new key (by decide) (by norm_num) t
  register := ShiftRegister.empty _ _
  last_le := le_rfl
  dated := RotationLog.Dated.empty _ _ _
  page_dated := RotationLog.Dated.empty _ _ _
  entries := rfl
  page_entries := rfl

/-- A read of both windows that finds them in step at the second of `t`. -/
lemma profile_eq (h : KeySync key anchor t (secondOf anchor t) bs wp E L es)
    (hsame : min (buckets : ℤ) ((t - E.lastRotation) / 10 ^ 9)
      = min (buckets : ℤ) (secondOf anchor t - secondOf anchor E.lastRotation))
    (hfits : (sumCounts (es.filter (fun e =>
      secondOf anchor t - secondOf anchor e.time < (buckets : ℕ)))).Fits) :
    LocalBackend.profileOf key bs = toProfile (wp.computeProfile t).1 := by
  obtain ⟨hdated, -, -⟩ := rotate_dated (by decide) h.dated h.last_le hsame
  have hafter := (h.query hsame).coupled
  -- what both windows count
  have hcounted : (E.rotate buckets (10 ^ 9) t).counted buckets
      = es.filter (fun e => secondOf anchor t - secondOf anchor e.time < (buckets : ℕ)) := by
    rw [EventLog.counted, hdated.map_live, E.entries_rotate, h.entries]
  have hpage : bs.foldl (· + ·) 0
      = sumCounts (es.filter (fun e =>
          secondOf anchor t - secondOf anchor e.time < (buckets : ℕ))) := by
    rw [← List.sum_eq_foldl, h.register.sum_eq (by decide), ← h.page_entries,
      ← h.page_dated.map_live, sumCounts, List.map_map]
    rfl
  rw [← hcounted] at hfits hpage
  have hreports : (wp.maybeRotate t).report.Reports (Akil.windowSeconds buckets (10 ^ 9))
      (sumCounts ((E.rotate buckets (10 ^ 9) t).counted buckets)) := by
    have hreport := hafter.refines.report_reports
    rw [hafter.bucketCount, hafter.bucketDuration] at hreport
    exact hreport hfits
  have hseconds : Akil.windowSeconds buckets (10 ^ 9) = (windowSeconds : ℚ) := by
    norm_num [Akil.windowSeconds, windowSeconds, buckets, bucketSeconds]
  have hkey : (wp.maybeRotate t).workloadKey = key := congrArg (fun q => q.1) hafter.params
  rw [hseconds] at hreports
  unfold LocalBackend.profileOf toProfile
  dsimp only
  rw [hpage, Profile.mk.injEq]
  refine ⟨hkey.symm, hreports.cacheMissRate.symm, hreports.lockContentionRatio.symm,
    hreports.pageFaultRate.symm, hreports.contextSwitchRate.symm, ?_, ?_⟩
  · exact_mod_cast hreports.sampleCount.symm
  · rw [← hreports.sampleCount]
    exact confidenceFor_toInt _

end KeySync

/-- **The invariant of the twin.**  The page's clock stands at a whole second not after `now`, the
store is configured as the page is, and the workload has no window on either side or two in
step. -/
structure InSync (key : String) (anchor now : ℤ) (s : Twin) (es : List LogEntry) : Prop where
  bucketCount : s.store.bucketCount = buckets
  bucketDuration : s.store.bucketDuration = 10 ^ 9
  window : ∃ c ≤ secondOf anchor now, s.backend.lastRotate = anchor + 1000 * c ∧
    ((s.backend.windowsOf key = [] ∧ s.store.get key = none ∧ es = []) ∨
      ∃ bs wp E L, s.backend.windowsOf key = [(key, bs)] ∧ s.store.get key = some wp ∧
        KeySync key anchor now c bs wp E L es)

namespace InSync

variable {key : String} {anchor now t : ℤ} {s : Twin} {es : List LogEntry}

lemma new (key : String) (start : ℤ) : InSync key (dateNow start) start (Twin.new start) [] where
  bucketCount := rfl
  bucketDuration := rfl
  window := ⟨0, by simp [secondOf], by simp [Twin.new, LocalBackend.new],
    Or.inl ⟨rfl, rfl, rfl⟩⟩

lemma store_exec (s : Twin) (t : ℤ) (c : PageCall) :
    (s.exec t c).store.bucketCount = s.store.bucketCount ∧
      (s.exec t c).store.bucketDuration = s.store.bucketDuration := by
  cases c with
  | inject w =>
      obtain ⟨hcount, hduration⟩ := s.store.config_exec t (.getOrCreate w.key)
      obtain ⟨hcount', hduration'⟩ := (s.store.exec t (.getOrCreate w.key)).config_exec t
        (.onProfile w.key (.record w.bulk w.node))
      exact ⟨hcount'.trans hcount, hduration'.trans hduration⟩
  | read key =>
      rw [Twin.exec, Store.queryProfile_eq]
      exact Store.config_exec _ _ _

/-- The page's rotation at `t` brings its clock to the second of `t`. -/
lemma rotatePage (h : InSync key anchor now s es) (hle : now ≤ t) :
    (s.backend.rotate (dateNow t)).lastRotate = anchor + 1000 * secondOf anchor t ∧
      (((s.backend.rotate (dateNow t)).windowsOf key = [] ∧ s.store.get key = none ∧ es = []) ∨
        ∃ bs wp E L, (s.backend.rotate (dateNow t)).windowsOf key = [(key, bs)] ∧
          s.store.get key = some wp ∧
          KeySync key anchor t (secondOf anchor t) bs wp E L es) := by
  obtain ⟨c, hc, hlast, hwindow⟩ := h.window
  have hc' := hc.trans (secondOf_mono anchor hle)
  obtain ⟨hrotate, hwindows⟩ := LocalBackend.rotate_spec hlast hc'
  refine ⟨hrotate, ?_⟩
  have hof := LocalBackend.windowsOf_map hwindows key
  change _ = (s.backend.windowsOf key).map _ at hof
  rcases hwindow with ⟨hnil, hnone, hes⟩ | ⟨bs, wp, E, L, hbs, hwp, hsync⟩
  · rw [hnil] at hof
    exact Or.inl ⟨hof, hnone, hes⟩
  · rw [hbs] at hof
    exact Or.inr ⟨_, wp, E, _, hof, hwp, hsync.rotatePage hle hc'⟩

/-- The step condition, in terms of the log the window implements. -/
lemma same (h : InSync key anchor now s es) {wp : WorkloadProfile} {E : EventLog}
    (hcoupled : Coupled key buckets (10 ^ 9) (wp, E))
    (hsame : Twin.SameSeconds s.backend wp t) :
    min (buckets : ℤ) ((t - E.lastRotation) / 10 ^ 9)
      = min (buckets : ℤ) (secondOf anchor t - secondOf anchor E.lastRotation) := by
  obtain ⟨c, -, hlast, -⟩ := h.window
  have heq : wp.lastRotation = E.lastRotation := hcoupled.refines.lastRotation_eq
  unfold Twin.SameSeconds at hsame
  rw [hlast, heq] at hsame
  rw [hsame]
  unfold secondOf
  congr 1
  omega

/-- The injected workload. -/
lemma inject (h : InSync key anchor now s es) (hle : now ≤ t) {w : WorkloadSpec}
    (hkey : w.key = key) (hfits : w.Fits) (hstep : s.InStep key t (.inject w)) :
    InSync key anchor t (s.exec t (.inject w)) (es ++ [⟨t, w.node, w.counts⟩]) := by
  obtain ⟨hlast, hwindow⟩ := h.rotatePage hle
  subst hkey
  have hpage := LocalBackend.windowsOf_record_self w (dateNow t) s.backend
  have hget := get_inject s.store t w.key w.key w.node w.bulk
  rw [if_pos rfl] at hget
  refine ⟨(store_exec _ _ _).1.trans h.bucketCount, (store_exec _ _ _).2.trans h.bucketDuration,
    secondOf anchor t, le_rfl,
    (LocalBackend.lastRotate_record _ _ _).trans hlast, Or.inr ?_⟩
  rcases hwindow with ⟨hnil, hnone, rfl⟩ | ⟨bs, wp, E, L, hbs, hwp, hsync⟩
  · rw [if_pos hnil] at hpage
    rw [hnone, Option.getD_none, h.bucketCount, h.bucketDuration] at hget
    refine ⟨_, _, _, _, hpage, hget, (KeySync.new w.key anchor t).inject hfits ?_⟩
    simp [EventLog.new]
  · rw [hbs, if_neg (List.cons_ne_nil _ _)] at hpage
    rw [hwp, Option.getD_some] at hget
    exact ⟨_, _, _, _, hpage, hget,
      hsync.inject hfits (h.same hsync.coupled (hstep rfl wp hwp))⟩

/-- The read workload. -/
lemma read (h : InSync key anchor now s es) (hle : now ≤ t)
    (hstep : s.InStep key t (.read key)) : InSync key anchor t (s.exec t (.read key)) es := by
  obtain ⟨hlast, hwindow⟩ := h.rotatePage hle
  refine ⟨(store_exec _ _ _).1.trans h.bucketCount, (store_exec _ _ _).2.trans h.bucketDuration,
    secondOf anchor t, le_rfl, hlast, ?_⟩
  rcases hwindow with ⟨hnil, hnone, hes⟩ | ⟨bs, wp, E, L, hbs, hwp, hsync⟩
  · refine Or.inl ⟨hnil, ?_, hes⟩
    rw [Twin.exec, Store.queryProfile, hnone]
    exact hnone
  · refine Or.inr ⟨bs, wp.exec t .computeProfile, _, L, hbs, ?_,
      hsync.query (h.same hsync.coupled (hstep rfl wp hwp))⟩
    rw [Twin.exec, Store.queryProfile, hwp]
    exact Store.get_put_self _ _ _

/-- A call on another workload rotates the page's window and leaves the store's alone. -/
lemma other (h : InSync key anchor now s es) (hle : now ≤ t) {c : PageCall} (hkey : c.key ≠ key) :
    InSync key anchor t (s.exec t c) es := by
  obtain ⟨hlast, hwindow⟩ := h.rotatePage hle
  have hbackend : (s.exec t c).backend.lastRotate = (s.backend.rotate (dateNow t)).lastRotate ∧
      (s.exec t c).backend.windowsOf key = (s.backend.rotate (dateNow t)).windowsOf key := by
    cases c with
    | inject w =>
        exact ⟨LocalBackend.lastRotate_record _ _ _,
          LocalBackend.windowsOf_record_of_ne hkey _ _⟩
    | read key' => exact ⟨rfl, rfl⟩
  have hget : (s.exec t c).store.get key = s.store.get key := by
    cases c with
    | inject w => exact (get_inject s.store t key w.key w.node w.bulk).trans (if_neg hkey)
    | read key' =>
        rw [Twin.exec, Store.queryProfile]
        cases s.store.get key' with
        | none => rfl
        | some wp => exact Store.get_put_of_ne _ (Ne.symm hkey) _
  refine ⟨(store_exec _ _ _).1.trans h.bucketCount, (store_exec _ _ _).2.trans h.bucketDuration,
    secondOf anchor t, le_rfl, hbackend.1.trans hlast, ?_⟩
  rw [hbackend.2, hget]
  exact hwindow

/-- **One step.** -/
lemma exec (h : InSync key anchor now s es) (hle : now ≤ t) {c : PageCall}
    (hfits : ∀ w, c = .inject w → w.key = key → w.Fits) (hstep : s.InStep key t c) :
    InSync key anchor t (s.exec t c) (es ++ (c.injection key t).toList) := by
  by_cases hkey : c.key = key
  · cases c with
    | inject w =>
        have hinjection : (PageCall.inject w).injection key t = some ⟨t, w.node, w.counts⟩ :=
          if_pos hkey
        rw [hinjection]
        exact h.inject hle hkey (hfits w rfl hkey) hstep
    | read key' =>
        obtain rfl : key' = key := hkey
        rw [PageCall.injection, Option.toList_none, List.append_nil]
        exact h.read hle hstep
  · have hinjection : c.injection key t = none := by
      cases c with
      | inject w => exact if_neg hkey
      | read key' => rfl
    rw [hinjection, Option.toList_none, List.append_nil]
    exact h.other hle hkey

/-- What a read in step shows. -/
lemma agrees (h : InSync key anchor now s es) (hle : now ≤ t)
    (hstep : s.InStep key t (.read key))
    (hfits : (sumCounts (es.filter (fun e =>
      secondOf anchor t - secondOf anchor e.time < (buckets : ℕ)))).Fits) :
    s.Agrees key t := by
  obtain ⟨-, hwindow⟩ := h.rotatePage hle
  have hpage : (s.backend.profiles (dateNow t)).1.filter (fun p => p.key = key)
      = ((s.backend.rotate (dateNow t)).windowsOf key).map
          (fun v => LocalBackend.profileOf v.1 v.2) := by
    rw [LocalBackend.profiles, List.filter_map]
    rfl
  unfold Twin.Agrees
  rw [hpage]
  rcases hwindow with ⟨hnil, hnone, -⟩ | ⟨bs, wp, E, L, hbs, hwp, hsync⟩
  · rw [hnil, hnone]
    rfl
  · have hprofile := hsync.profile_eq (h.same hsync.coupled (hstep rfl wp hwp)) hfits
    rw [hbs, hwp, Store.queryProfile, hwp]
    exact congrArg (fun p => [p]) hprofile

end InSync

/-- The invariant along a run. -/
lemma inSync_run {key : String} {start : ℤ} {calls : List (ℤ × PageCall)}
    (hclock : NondecreasingFrom start calls)
    (hsteps : AllSteps Twin.exec (Twin.InStep key) (Twin.new start) calls)
    (hfits : ∀ c ∈ calls, ∀ w, c.2 = .inject w → w.key = key → w.Fits) :
    InSync key (dateNow start) (lastTime start calls) (timedRun Twin.exec (Twin.new start) calls)
      (injections key calls) := by
  induction calls using List.reverseRecOn with
  | nil => exact InSync.new key start
  | append_singleton calls c ih =>
      obtain ⟨hclock, hlast⟩ := nondecreasingFrom_concat.mp hclock
      obtain ⟨hsteps, hstep⟩ := allSteps_concat.mp hsteps
      have hprev := ih hclock hsteps (fun c hc => hfits c (List.mem_append_left _ hc))
      have hinjections : injections key (calls ++ [c])
          = injections key calls ++ (c.2.injection key c.1).toList := by
        rw [injections, List.filterMap_append]
        cases h : c.2.injection key c.1 <;> simp [injections, h]
      rw [hinjections, lastTime_concat, timedRun_append]
      exact hprev.exec hlast (hfits c (List.mem_append_right _ (List.mem_singleton_self c))) hstep

/-- **The page's window and the aggregator's, in step.**  Page and store start at the same
reading and see the same injections, of this workload and of others, and reads.  If every call on
the workload, up to and including a read at `t`, finds both clocks in step, the page and the store
report the same four rates, sample count and confidence at that read.  The counts injected are
`int64`s, and over the window their magnitudes add up to at most `2 ^ 53`, so that the page's sums
are exact too. -/
theorem browser_window_agrees (key : String) (start : ℤ) (calls : List (ℤ × PageCall)) (t : ℤ)
    (hclock : NondecreasingFrom start (calls ++ [(t, .read key)]))
    (hfits : ∀ c ∈ calls, ∀ w, c.2 = .inject w → w.key = key → w.Fits)
    (hsum : Counts.Exact (sumMagnitudes (recentInjections key start calls t)))
    (hsteps : AllSteps Twin.exec (Twin.InStep key) (Twin.new start) (calls ++ [(t, .read key)])) :
    (timedRun Twin.exec (Twin.new start) calls).Agrees key t := by
  obtain ⟨hclock, hlast⟩ := nondecreasingFrom_concat.mp hclock
  obtain ⟨hsteps, hstep⟩ := allSteps_concat.mp hsteps
  exact (inSync_run hclock hsteps hfits).agrees hlast hstep (fits_recentInjections hsum)

/-- A page that injects and reads every second, half a second after it started: both windows
still hold the first injection two seconds later. -/
theorem browser_window_agrees_every_second :
    let web : WorkloadSpec := ⟨"default/Deployment/web", "node-1", 100, 1 / 2, 0, 7⟩
    let calls : List (ℤ × PageCall) := [(500000000, .inject web), (1500000000, .read web.key)]
    (timedRun Twin.exec (Twin.new 0) calls).Agrees web.key 2500000000 ∧
      (((timedRun Twin.exec (Twin.new 0) calls).backend.profiles 2500).1.map
        (fun p => (p.samples, p.lockRatio))) = [(108, 1 / 24)] :=
  ⟨browser_window_agrees _ 0 _ _ (by decide)
      (by
        intro c hc w hw hkey
        fin_cases hc
        · obtain rfl := PageCall.inject.inj hw
          constructor <;> decide +kernel
        · cases hw)
      (by decide +kernel) (by decide +kernel),
    by decide +kernel⟩

/-- **Out of step.**  A hundred misses are injected at the start.  A read after a second and a
half makes the store's window count from there; at 12.2 seconds the page has dropped the misses,
and the store, having counted eleven seconds, still reports them. -/
theorem browser_window_differs :
    let web : WorkloadSpec := ⟨"default/Deployment/web", "node-1", 100, 0, 0, 0⟩
    let calls : List (ℤ × PageCall) := [(0, .inject web), (1500000000, .read web.key)]
    let s := timedRun Twin.exec (Twin.new 0) calls
    NondecreasingFrom 0 (calls ++ [(12200000000, .read web.key)]) ∧ web.Fits ∧
      ¬ s.Agrees web.key 12200000000 ∧
      ((s.backend.profiles (dateNow 12200000000)).1.map (fun p => (p.samples, p.confidence)))
        = [(0, .unknown)] ∧
      (s.store.queryProfile web.key 12200000000).1.sampleCount = 100 := by
  refine ⟨by decide, ?_, by decide +kernel, by decide +kernel, by decide +kernel⟩
  constructor <;> decide +kernel

end Akil.Frontend
