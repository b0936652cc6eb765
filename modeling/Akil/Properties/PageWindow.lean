import Akil.Properties.BrowserWindow
import Akil.Properties.BrowserAutoscaler

/-!
# What the page's own windows show

Beside the aggregator's windows the page's are simple: one clock for all of them, whole seconds
counted from the start of the page, and no rotation that starts the clock anew.  So they need no
condition to be exact.  In any order of injections, resets, reads and autoscaler ticks, at any
readings of a clock that does not run back, a profile shows the injections since the workload was
last reset that fall into the current second or the eleven before it; how often the windows have
been read does not matter.
-/

namespace Akil.Frontend

/-! ## The specification -/

/-- The page's second of a reading, counted from its start; both are in milliseconds. -/
def secondAt (start now : ℤ) : ℤ := (now - start) / 1000

/-- What a call makes of the injections of a workload since its last reset. -/
def keepInjections (key : String) (es : List LogEntry) (call : ℤ × LocalCall) : List LogEntry :=
  match call.2 with
  | .record w => if w.key = key then es ++ [⟨call.1, w.node, w.counts⟩] else es
  | .reset key' => if key' = key then [] else es
  | _ => es

/-- The injections of a workload since its last reset. -/
def keptInjections (key : String) (calls : List (ℤ × LocalCall)) : List LogEntry :=
  calls.foldl (keepInjections key) []

/-- Those in the second of `now` and in the eleven before it. -/
def shownInjections (key : String) (start : ℤ) (calls : List (ℤ × LocalCall)) (now : ℤ) :
    List LogEntry :=
  (keptInjections key calls).filter (fun e =>
    secondAt start now - secondAt start e.time < (buckets : ℕ))

lemma secondAt_mono (start : ℤ) {t t' : ℤ} (h : t ≤ t') : secondAt start t ≤ secondAt start t' := by
  unfold secondAt
  omega

namespace LocalBackend

/-- A rotation brings the page's clock to the second of `now`. -/
lemma rotate_at {b : LocalBackend} {start c now : ℤ} (hb : b.lastRotate = start + 1000 * c)
    (hle : c ≤ secondAt start now) :
    (b.rotate now).lastRotate = start + 1000 * secondAt start now ∧
      (b.rotate now).windows = b.windows.map
        (fun w => (w.1, shiftPush^[(min (secondAt start now - c) buckets).toNat] w.2)) := by
  have hdate : dateNow (now * 10 ^ 6) = now := Int.mul_ediv_cancel now (by norm_num)
  have hsecond : secondOf start (now * 10 ^ 6) = secondAt start now := by
    rw [secondOf, hdate, secondAt]
  have hspec := rotate_spec (t := now * 10 ^ 6) hb (hsecond ▸ hle)
  rwa [hdate, hsecond] at hspec

/-! ## The invariant -/

/-- **The invariant of one workload.**  The page's clock stands at a whole second `c`.  The workload
has no window and nothing to show, or a window that implements a log of its injections. -/
structure Shows (key : String) (start c : ℤ) (b : LocalBackend) (es : List LogEntry) : Prop where
  lastRotate : b.lastRotate = start + 1000 * c
  window : (b.windowsOf key = [] ∧ es = []) ∨
    ∃ bs, ∃ L : RotationLog LogEntry, b.windowsOf key = [(key, bs)] ∧ es ≠ [] ∧
      ShiftRegister buckets LogEntry.counts bs L ∧
      L.Dated buckets (fun e => secondAt start e.time) c ∧ L.entries.map Prod.snd = es

namespace Shows

variable {key : String} {start c now : ℤ} {b : LocalBackend} {es : List LogEntry}

lemma new (key : String) (start : ℤ) : Shows key start 0 (LocalBackend.new start) [] where
  lastRotate := by rw [LocalBackend.new, mul_zero, add_zero]
  window := Or.inl ⟨rfl, rfl⟩

lemma rotate (h : Shows key start c b es) (hle : c ≤ secondAt start now) :
    Shows key start (secondAt start now) (b.rotate now) es := by
  obtain ⟨hlast, hwindows⟩ := rotate_at h.lastRotate hle
  refine ⟨hlast, ?_⟩
  rw [windowsOf_map hwindows]
  change (((b.windowsOf key).map _ = []) ∧ _) ∨ _
  rcases h.window with ⟨hnone, hes⟩ | ⟨bs, L, hwindow, hes, hregister, hdated, hentries⟩
  · exact Or.inl ⟨by rw [hnone, List.map_nil], hes⟩
  · refine Or.inr ⟨_, L.advance (min (secondAt start now - c) buckets).toNat, ?_, hes,
      hregister.iterate_shift (by decide) _, hdated.advance hle (by omega), hentries⟩
    change (b.windowsOf key).map _ = _
    rw [hwindow]
    rfl

/-- An injection, after the rotation it begins with. -/
lemma record_self {w : WorkloadSpec}
    (h : Shows w.key start (secondAt start now) (b.rotate now) es) :
    Shows w.key start (secondAt start now) (b.record w now)
      (es ++ [⟨now, w.node, w.counts⟩]) := by
  refine ⟨(lastRotate_record w now b).trans h.lastRotate, Or.inr ?_⟩
  rw [windowsOf_record_self]
  rcases h.window with ⟨hnone, rfl⟩ | ⟨bs, L, hwindow, hes, hregister, hdated, hentries⟩
  · rw [if_pos hnone]
    exact ⟨_, RotationLog.empty.append ⟨now, w.node, w.counts⟩, rfl, by simp,
      (ShiftRegister.empty buckets LogEntry.counts).append (by decide) ⟨now, w.node, w.counts⟩,
      (RotationLog.Dated.empty _ _ _).append rfl, rfl⟩
  · rw [if_neg (by simp [hwindow]), hwindow]
    refine ⟨_, L.append ⟨now, w.node, w.counts⟩, rfl, by simp,
      hregister.append (by decide) ⟨now, w.node, w.counts⟩, hdated.append rfl, ?_⟩
    rw [RotationLog.entries_append, List.map_append, hentries]
    rfl

/-- A call on the windows of other workloads. -/
lemma of_windowsOf_eq {b' : LocalBackend} (h : Shows key start c b es)
    (hlast : b'.lastRotate = b.lastRotate) (hwindows : b'.windowsOf key = b.windowsOf key) :
    Shows key start c b' es :=
  ⟨hlast.trans h.lastRotate, hwindows ▸ h.window⟩

/-- **One call.** -/
lemma exec (h : Shows key start c b es) (hle : c ≤ secondAt start now) (call : LocalCall) :
    ∃ c' ≤ secondAt start now,
      Shows key start c' (b.exec now call) (keepInjections key es (now, call)) := by
  have hrotate := h.rotate hle
  cases call with
  | record w =>
      refine ⟨secondAt start now, le_rfl, ?_⟩
      by_cases hkey : w.key = key
      · subst hkey
        simp only [keepInjections, if_true]
        exact hrotate.record_self
      · simp only [keepInjections, if_neg hkey]
        exact hrotate.of_windowsOf_eq (lastRotate_record w now b)
          (windowsOf_record_of_ne hkey now b)
  | reset key' =>
      refine ⟨c, hle, ?_⟩
      by_cases hkey : key' = key
      · subst hkey
        simp only [keepInjections, if_true]
        exact ⟨h.lastRotate, Or.inl ⟨by simp [windowsOf, LocalBackend.exec, reset], rfl⟩⟩
      · simp only [keepInjections, if_neg hkey]
        refine h.of_windowsOf_eq rfl ?_
        simp only [LocalBackend.exec, windowsOf, reset, List.filter_filter]
        refine List.filter_congr (fun v _ => ?_)
        rw [← Bool.decide_and, decide_eq_decide]
        exact ⟨fun hv => hv.1, fun hv => ⟨hv, fun h => hkey (h.symm.trans hv)⟩⟩
  | profiles => exact ⟨secondAt start now, le_rfl, hrotate⟩
  | setAutoscale on => exact ⟨c, hle, h.of_windowsOf_eq rfl rfl⟩
  | autoscaleTick =>
      by_cases hon : b.autoscale = false
      · refine ⟨c, hle, ?_⟩
        rw [LocalBackend.exec, autoscaleTick, if_pos hon]
        exact h
      · refine ⟨secondAt start now, le_rfl, ?_⟩
        have htick : (b.autoscaleTick now).lastRotate = (b.rotate now).lastRotate ∧
            (b.autoscaleTick now).windowsOf key = (b.rotate now).windowsOf key := by
          rw [autoscaleTick, if_neg hon]
          dsimp only [profiles]
          split_ifs <;> exact ⟨rfl, rfl⟩
        exact hrotate.of_windowsOf_eq htick.1 htick.2

/-- **A run.** -/
lemma run (h : Shows key start c b es) {t : ℤ} (hle : c ≤ secondAt start t)
    {calls : List (ℤ × LocalCall)} (hclock : NondecreasingFrom t calls) :
    ∃ c' ≤ secondAt start (lastTime t calls),
      Shows key start c' (b.run calls) (calls.foldl (keepInjections key) es) := by
  induction calls generalizing t c b es with
  | nil => exact ⟨c, hle, h⟩
  | cons call calls ih =>
      obtain ⟨c', hle', h'⟩ := h.exec (hle.trans (secondAt_mono start hclock.1)) call.2
      exact ih h' hle' hclock.2

/-- What a read shows. -/
lemma profiles_eq (h : Shows key start c b es) (hle : c ≤ secondAt start now) :
    (b.profiles now).1.filter (fun p => p.key = key)
      = if es = [] then [] else [profileOf key [sumCounts (es.filter (fun e =>
          secondAt start now - secondAt start e.time < (buckets : ℕ)))]] := by
  have hprofiles : (b.profiles now).1.filter (fun p => p.key = key)
      = ((b.rotate now).windowsOf key).map (fun w => profileOf w.1 w.2) := by
    rw [profiles, windowsOf, List.filter_map]
    rfl
  rw [hprofiles]
  rcases (h.rotate hle).window with ⟨hnone, rfl⟩ |
    ⟨bs, L, hwindow, hes, hregister, hdated, hentries⟩
  · rw [hnone, if_pos rfl, List.map_nil]
  · rw [hwindow, if_neg hes, List.map_singleton]
    have hsum : bs.foldl (· + ·) 0 = sumCounts (es.filter (fun e =>
        secondAt start now - secondAt start e.time < (buckets : ℕ))) := by
      rw [← List.sum_eq_foldl, hregister.sum_eq (by decide), ← hentries, ← hdated.map_live,
        sumCounts, List.map_map]
      rfl
    rw [profileOf, profileOf, hsum, List.foldl_cons, List.foldl_nil, zero_add]

end Shows

/-- **The page's windows are exact.**  After any run of injections, resets, reads and autoscaler
ticks, a read at `now` shows a profile for a workload exactly if it was injected since its last
reset, and then one: the rates, samples and confidence of its injections since then that fall into
the second of `now` or the eleven before it, by the page's clock, which does not run back.  Reads
and ticks in between make no difference.  Counts are exact, as JavaScript's are up to `2 ^ 53`. -/
theorem page_window_exact (key : String) (start : ℤ) (calls : List (ℤ × LocalCall)) (now : ℤ)
    (hclock : NondecreasingFrom start calls) (hnow : lastTime start calls ≤ now) :
    ((((LocalBackend.new start).run calls).profiles now).1.filter (fun p => p.key = key))
      = if keptInjections key calls = [] then []
        else [profileOf key [sumCounts (shownInjections key start calls now)]] := by
  have hstart : (0 : ℤ) ≤ secondAt start start := by simp [secondAt]
  obtain ⟨c, hle, h⟩ := (Shows.new key start).run hstart hclock
  exact h.profiles_eq (hle.trans (secondAt_mono start hnow))

/-- Two injections on both sides of a second, read between and twelve seconds after the first. -/
theorem page_window_exact_two :
    let web : WorkloadSpec := ⟨"default/Deployment/web", "node-1", 1200, 0, 0, 0⟩
    let calls : List (ℤ × LocalCall) := [(500, .record web), (700, .profiles), (1500, .record web)]
    ((((LocalBackend.new 0).run calls).profiles 12100).1.filter (fun p => p.key = web.key)).map
      Profile.cacheMissRate = [100] := by
  intro web calls
  have hexact := page_window_exact web.key 0 calls 12100 (by decide) (by decide)
  rw [hexact]
  decide +kernel

end LocalBackend

end Akil.Frontend
