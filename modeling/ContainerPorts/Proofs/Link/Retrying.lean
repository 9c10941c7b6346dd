import ContainerPorts.Link.Retry
import ContainerPorts.Proofs.Replies
import ContainerPorts.Settings.Plugin
import Mathlib.Tactic.Common

/-!
# The course of a call that is tried again

A call fails a number of times, with a pause after each failure, and then it succeeds or
is given up. When an attempt starts follows from how long the attempts before it took and
from the pauses, which the policy fixes by the number of the failure alone. The time that
has passed is what ends the attempts, since no pause is shorter than the least delay.
-/
namespace ContainerPorts

namespace Kernel

/-- A call with its answer. -/
def called (c : LinkCall) (t : Timed (Except LinkError c.Result)) : Program.Reply kernel :=
  ⟨.link c, t⟩

def paused (d : Span) : Program.Reply kernel := ⟨.sleep d, ()⟩

theorem called_inj {c : LinkCall} {t t' : Timed (Except LinkError c.Result)}
    (h : called c t = called c t') : t = t' := eq_of_heq (Sigma.mk.inj h).2

/-- How long a pause was asked for. -/
def pause? : Program.Reply kernel → Option Span
  | ⟨.sleep d, _⟩ => some d
  | _ => none

@[simp] theorem pause?_called (c : LinkCall) (t : Timed (Except LinkError c.Result)) :
    pause? (called c t) = none := rfl

@[simp] theorem pause?_paused (d : Span) : pause? (paused d) = some d := rfl

end Kernel

namespace RetryPolicy

open Kernel

variable (p : RetryPolicy) {c : LinkCall}

/-- The delay after the failure with a number, counted from zero. -/
def delay : ℕ → Span
  | 0 => p.interval
  | k + 1 => min ⟨2 * (delay k).nanos⟩ p.maxBackoff

/-- Attempts that fail, from the one with the number `k` on, each with the delay after it. -/
def failing (c : LinkCall) : ℕ → List (Timed LinkError) → List (Program.Reply kernel)
  | _, [] => []
  | k, f :: fs =>
    called c ⟨.error f.value, f.took⟩ :: paused (p.delay k) :: failing c (k + 1) fs

/-- How long such attempts and the delays after them take. -/
def spent : ℕ → List (Timed LinkError) → Span
  | _, [] => ⟨0⟩
  | k, f :: fs => f.took + p.delay k + spent (k + 1) fs

theorem delay_succ_le (k : ℕ) : p.delay (k + 1) ≤ p.maxBackoff := by
  rw [delay, Span.le_iff, Span.nanos_min]
  exact Nat.min_le_right ..

theorem leastDelay_le_delay (k : ℕ) : p.leastDelay ≤ p.delay k := by
  induction k with
  | zero =>
    rw [leastDelay, delay, Span.le_iff, Span.nanos_min]
    exact Nat.min_le_left ..
  | succ k ih =>
    rw [leastDelay, Span.le_iff, Span.nanos_min] at ih ⊢
    rw [delay, Span.nanos_min]
    dsimp only
    omega

theorem length_mul_leastDelay_le (k : ℕ) (fs : List (Timed LinkError)) :
    fs.length * p.leastDelay.nanos ≤ (p.spent k fs).nanos := by
  induction fs generalizing k with
  | nil => simp [spent]
  | cons f fs ih =>
    have hfirst : p.leastDelay.nanos ≤ (p.delay k).nanos := p.leastDelay_le_delay k
    have hrest := ih (k + 1)
    rw [List.length_cons, Nat.succ_mul, spent, Span.nanos_add, Span.nanos_add]
    omega

theorem filterMap_pause?_failing (k : ℕ) (fs : List (Timed LinkError)) :
    (p.failing c k fs).filterMap pause? = (List.range' k fs.length).map p.delay := by
  induction fs generalizing k with
  | nil => rfl
  | cons f fs ih =>
    rw [failing, List.filterMap_cons_none (pause?_called ..),
      List.filterMap_cons_some (pause?_paused _), ih, List.length_cons, List.range'_succ,
      List.map_cons]

/-- Attempts from a moment on, of which `more` can be made after the next one: some that fail and
another that is the last. Each failure leaves time for the attempt after it, and the last attempt
succeeds, leaves no time for another, or uses up what attempts there are. -/
def Course (c : LinkCall) (elapsed : Span) (k more : ℕ) (es : List (Program.Reply kernel))
    (x : Timed (Except LinkError c.Result)) : Prop :=
  ∃ (fs : List (Timed LinkError)) (last : Timed (Except LinkError c.Result)),
    es = p.failing c k fs ++ [called c last] ∧
      x = ⟨last.value, elapsed + p.spent k fs + last.took⟩ ∧
      (∀ j < fs.length, elapsed + p.spent k (fs.take (j + 1)) ≤ p.maxWait) ∧
      ∀ e, last.value = .error e →
        p.maxWait < elapsed + p.spent k fs + last.took + p.delay (k + fs.length) ∨ fs.length = more

section Course

variable {p} {elapsed : Span} {k more : ℕ} {es : List (Program.Reply kernel)}
  {x : Timed (Except LinkError c.Result)}

theorem Course.last {t : Timed (Except LinkError c.Result)}
    (h : ∀ e, t.value = .error e → p.maxWait < elapsed + t.took + p.delay k ∨ more = 0) :
    p.Course c elapsed k more [called c t] ⟨t.value, elapsed + t.took⟩ := by
  refine ⟨[], t, rfl, rfl, nofun, fun e he => ?_⟩
  rcases h e he with hlate | rfl
  · exact .inl hlate
  · exact .inr rfl

theorem Course.again {f : Timed LinkError} (htime : elapsed + f.took + p.delay k ≤ p.maxWait)
    (h : p.Course c (elapsed + f.took + p.delay k) (k + 1) more es x) :
    p.Course c elapsed k (more + 1)
      (called c ⟨.error f.value, f.took⟩ :: paused (p.delay k) :: es) x := by
  obtain ⟨fs, last, rfl, rfl, hstart, hend⟩ := h
  have hspent (fs : List (Timed LinkError)) : elapsed + p.spent k (f :: fs) =
      elapsed + f.took + p.delay k + p.spent (k + 1) fs := by
    ext
    simp only [spent, Span.nanos_add]
    omega
  refine ⟨f :: fs, last, rfl, by rw [hspent], fun j hj => ?_, fun e he => ?_⟩
  · cases j with
    | zero =>
      rw [List.take_succ_cons, List.take_zero, hspent]
      exact htime
    | succ j =>
      rw [List.take_succ_cons, hspent]
      exact hstart j (Nat.lt_of_succ_lt_succ hj)
  · rw [hspent, List.length_cons, ← Nat.add_assoc k, Nat.add_right_comm k]
    exact (hend e he).imp_right (congrArg Nat.succ)

end Course

theorem attempt_tells (c : LinkCall) (more k : ℕ) (elapsed : Span) :
    (p.attempt c more elapsed (p.delay k)).Tells (p.Course c elapsed k more) := by
  induction more generalizing k elapsed with
  | zero =>
    rw [attempt]
    refine Program.tells_ask fun t => ?_
    have hlast : p.Course c elapsed k 0 [called c t] ⟨t.value, elapsed + t.took⟩ :=
      .last fun _ _ => .inr rfl
    obtain ⟨e | x, took⟩ := t
    · dsimp only
      split <;> exact Program.tells_done hlast
    · exact Program.tells_done hlast
  | succ more ih =>
    rw [attempt]
    refine Program.tells_ask fun t => ?_
    obtain ⟨e | x, took⟩ := t
    · dsimp only
      split
      · rename_i hlate
        exact Program.tells_done (Course.last fun _ _ => .inl hlate)
      · rename_i htime
        refine Program.tells_ask fun _ => ?_
        refine (ih (k + 1) _).mono fun es x h => ?_
        exact Course.again (f := ⟨e, took⟩) (Nat.le_of_not_lt htime) h
    · exact Program.tells_done (Course.last nofun)

theorem retry_tells (c : LinkCall) : (p.retry c).Tells (p.Course c ⟨0⟩ 0 p.retries) :=
  p.attempt_tells c p.retries 0 ⟨0⟩

/-! ### The end of the attempts -/

variable {p}

theorem leastDelay_pos (hinterval : 0 < p.interval.nanos) (hbackoff : 0 < p.maxBackoff.nanos) :
    0 < p.leastDelay.nanos := by
  rw [leastDelay, Span.nanos_min]
  exact Nat.lt_min.mpr ⟨hinterval, hbackoff⟩

/-- There is no time left when as many attempts failed as can be made. -/
theorem late_of_length_eq {fs : List (Timed LinkError)} (hleast : 0 < p.leastDelay.nanos)
    (hfs : fs.length = p.retries) (took : Span) :
    p.maxWait < p.spent 0 fs + took + p.delay fs.length := by
  have hspent := p.length_mul_leastDelay_le 0 fs
  have hdelay : p.leastDelay.nanos ≤ (p.delay fs.length).nanos := p.leastDelay_le_delay _
  have hbudget := Nat.lt_mul_div_succ p.maxWait.nanos hleast
  rw [retries, if_neg (Nat.ne_of_gt hleast)] at hfs
  rw [Nat.mul_comm, Nat.succ_mul, ← hfs] at hbudget
  rw [Span.lt_iff, Span.nanos_add, Span.nanos_add]
  omega

/-- Each failure costs at least the least delay. -/
theorem length_le_of_spent_le {fs : List (Timed LinkError)} (hleast : 0 < p.leastDelay.nanos)
    (hstart : ∀ j < fs.length, p.spent 0 (fs.take (j + 1)) ≤ p.maxWait) :
    fs.length ≤ p.maxWait.nanos / p.leastDelay.nanos := by
  rw [Nat.le_div_iff_mul_le hleast]
  refine Nat.le_trans (p.length_mul_leastDelay_le 0 fs) ?_
  cases fs with
  | nil => exact Nat.zero_le _
  | cons f fs => simpa using (Span.le_iff _ _).mp (hstart fs.length (Nat.lt_succ_self _))

/-- What becomes of a call that is tried again: the attempts `fs` fail, and `last` is the last one.
Of the attempts only those can be made that start in time. -/
structure Tried (p : RetryPolicy) (c : LinkCall) (fs : List (Timed LinkError))
    (last : Timed (Except LinkError c.Result)) (es : List (Program.Reply kernel))
    (x : Timed (Except LinkError c.Result)) : Prop where
  /-- After every failure but the last there is the delay of its number. -/
  replies_eq : es = p.failing c 0 fs ++ [called c last]
  /-- The result is that of the last attempt, and it took all the time. -/
  result_eq : x = ⟨last.value, p.spent 0 fs + last.took⟩
  /-- No attempt after the first starts later than the longest wait. -/
  start_le : ∀ j < fs.length, p.spent 0 (fs.take (j + 1)) ≤ p.maxWait
  /-- The call is given up only if the next attempt would start later. -/
  given_up : ∀ e, last.value = .error e → p.maxWait < p.spent 0 fs + last.took + p.delay fs.length
  attempts_le : fs.length + 1 ≤ 1 + p.maxWait.nanos / min p.interval.nanos p.maxBackoff.nanos

/-- With delays that are not zero a call is tried until it succeeds or the wait is over, whatever
it is answered and however long that takes. -/
theorem retry_ends (p : RetryPolicy) (hinterval : 0 < p.interval.nanos)
    (hbackoff : 0 < p.maxBackoff.nanos) (c : LinkCall) {σ : Type}
    (answer : (r : KernelRequest) → σ → r.Answer × σ) (s : σ) :
    ∃ fs last, p.Tried c fs last ((p.retry c).replies answer s)
      ((p.retry c).runWith answer s).1 := by
  have hleast := leastDelay_pos hinterval hbackoff
  obtain ⟨fs, last, hes, hx, hstart, hend⟩ := (p.retry_tells c).runWith answer s
  simp only [Span.zero_add, Nat.zero_add] at hx hstart hend
  refine ⟨fs, last, hes, hx, hstart, fun e he => ?_, ?_⟩
  · rcases hend e he with hlate | hfs
    · exact hlate
    · exact late_of_length_eq hleast hfs last.took
  · have hlength := length_le_of_spent_le hleast hstart
    rw [leastDelay, Span.nanos_min] at hlength
    omega

/-- A kernel in which so many calls fail before a link can be set up. Each takes a millisecond. -/
def busyKernel : (r : KernelRequest) → ℕ → r.Answer × ℕ
  | .link (.setUp _), 0 => (⟨.ok (), .ofMillis 1⟩, 0)
  | .link _, n => (⟨.error (.notFound 2), .ofMillis 1⟩, n - 1)
  | .leaveNetns, n => ((), n)
  | .sleep _, n => ((), n)

/-- Four attempts take a millisecond each, and there are delays of 5, 10 and 20 milliseconds. -/
theorem retry_ends_busyKernel :
    let p : RetryPolicy := ⟨.ofMillis 5, .ofMillis 50, .ofMillis 200⟩
    let up : LinkCall := .setUp ⟨2, "ens4", "fa:16:3e:00:00:01"⟩
    let result := ((p.retry up).runWith busyKernel 3).1
    0 < p.interval.nanos ∧ 0 < p.maxBackoff.nanos ∧
      result.value.isOk = true ∧ result.took = .ofMillis 39 ∧
      ∃ fs last, p.Tried up fs last ((p.retry up).replies busyKernel 3) result := by
  intro p up result
  have hinterval : 0 < p.interval.nanos := by decide
  have hbackoff : 0 < p.maxBackoff.nanos := by decide
  have hresult : result.value.isOk = true ∧ result.took = .ofMillis 39 := by decide +kernel
  exact ⟨hinterval, hbackoff, hresult.1, hresult.2, retry_ends p hinterval hbackoff up busyKernel 3⟩

/-! ### Which delays are longer than the bound -/

theorem exists_replies_eq_cons (p : RetryPolicy) (c : LinkCall) {σ : Type}
    (answer : (r : KernelRequest) → σ → r.Answer × σ) (s : σ) :
    ∃ es, (p.retry c).replies answer s = called c (answer (.link c) s).1 :: es := by
  rw [retry, attempt]
  exact ⟨_, rfl⟩

/-- If the first delay is in time, there is an attempt after it. -/
theorem retries_ne_zero {took : Span} (h : took + p.interval ≤ p.maxWait) : p.retries ≠ 0 := by
  rw [Span.le_iff, Span.nanos_add] at h
  have hleast : p.leastDelay.nanos ≤ p.interval.nanos := p.leastDelay_le_delay 0
  rw [retries]
  split
  · rw [idleRetries]
    omega
  · rw [Nat.div_ne_zero_iff]
    omega

/-- Only the first delay can be longer than the bound. -/
theorem maxBackoff_lt_delay_iff {k : ℕ} :
    p.maxBackoff < p.delay k ↔ k = 0 ∧ p.maxBackoff < p.interval := by
  cases k with
  | zero => exact (and_iff_right rfl).symm
  | succ k => exact iff_of_false (Nat.not_lt_of_le (p.delay_succ_le k)) nofun

/-- There are delays exactly if the first attempt fails in time. They are numbered from zero on. -/
theorem Course.pauses {first : Timed (Except LinkError c.Result)} {es : List (Program.Reply kernel)}
    {x : Timed (Except LinkError c.Result)}
    (h : p.Course c ⟨0⟩ 0 p.retries (called c first :: es) x) :
    ∃ n, (called c first :: es).filterMap pause? = (List.range' 0 n).map p.delay ∧
      (0 < n ↔ (∃ e, first.value = .error e) ∧ first.took + p.interval ≤ p.maxWait) := by
  obtain ⟨fs, last, hes, -, hstart, hend⟩ := h
  simp only [Span.zero_add, Nat.zero_add] at hstart hend
  refine ⟨fs.length, ?_, ?_⟩
  · rw [hes, List.filterMap_append, filterMap_pause?_failing]
    exact List.append_nil _
  cases fs with
  | nil =>
    -- The first attempt was the last one, so it succeeded or left no time.
    obtain rfl : first = last := called_inj (List.cons.inj hes).1
    refine iff_of_false (Nat.lt_irrefl 0) ?_
    rintro ⟨⟨e, he⟩, htime⟩
    rcases hend e he with hlate | hretries
    · rw [spent, Span.zero_add] at hlate
      exact Nat.not_le_of_lt hlate htime
    · exact retries_ne_zero htime hretries.symm
  | cons f fs =>
    obtain rfl : first = ⟨.error f.value, f.took⟩ := called_inj (List.cons.inj hes).1
    exact iff_of_true (Nat.succ_pos _) ⟨⟨_, rfl⟩, hstart 0 (Nat.succ_pos _)⟩

/-- Some delay is longer than the bound exactly if the first attempt fails with time left for an
interval that is longer. For the interval is never cut to the bound, as the later delays are. -/
theorem long_pause_iff (p : RetryPolicy) (c : LinkCall) {σ : Type}
    (answer : (r : KernelRequest) → σ → r.Answer × σ) (s : σ) :
    let first := (answer (.link c) s).1
    let pauses := ((p.retry c).replies answer s).filterMap pause?
    ((∃ d ∈ pauses, p.maxBackoff < d) ↔ p.maxBackoff < p.interval ∧
      (∃ e, first.value = .error e) ∧ first.took + p.interval ≤ p.maxWait) ∧
    ∀ d ∈ pauses.tail, d ≤ p.maxBackoff := by
  intro first pauses
  obtain ⟨es, hes⟩ := p.exists_replies_eq_cons c answer s
  have hcourse := (p.retry_tells c).runWith answer s
  rw [hes] at hcourse
  obtain ⟨n, hpauses, hn⟩ := hcourse.pauses
  rw [← hn, show pauses = (List.range' 0 n).map p.delay by rw [← hpauses, ← hes]]
  constructor
  · constructor
    · rintro ⟨d, hd, hlong⟩
      obtain ⟨k, hk, rfl⟩ := List.mem_map.mp hd
      obtain ⟨rfl, hlong⟩ := maxBackoff_lt_delay_iff.mp hlong
      exact ⟨hlong, by simpa using hk⟩
    · rintro ⟨hlong, hpos⟩
      exact ⟨p.interval, List.mem_map.mpr ⟨0, by simpa using hpos, rfl⟩, hlong⟩
  · intro d hd
    rw [← List.map_tail, List.tail_range'] at hd
    obtain ⟨k, hk, rfl⟩ := List.mem_map.mp hd
    obtain ⟨j, -, rfl⟩ := List.mem_range'.mp hk
    rw [Nat.zero_add, Nat.one_mul, Nat.add_comm]
    exact p.delay_succ_le j

/-- The plugin sets the interval and leaves the bound as it is. A delay of a second is then more
than the bound of half a second. -/
theorem long_pause_plugin :
    let p := ({ retryIntervalMillis := 1000 } : PluginSettings).retryPolicy
    let up : LinkCall := .setUp ⟨2, "ens4", "fa:16:3e:00:00:01"⟩
    p.maxBackoff = .ofMillis 500 ∧
      ∃ d ∈ ((p.retry up).replies busyKernel 1).filterMap pause?, p.maxBackoff < d :=
  ⟨rfl, (long_pause_iff _ _ busyKernel 1).1.mpr ⟨by decide, ⟨_, rfl⟩, by decide⟩⟩

end RetryPolicy

end ContainerPorts
