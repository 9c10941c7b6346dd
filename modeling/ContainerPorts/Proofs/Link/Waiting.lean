import ContainerPorts.Link.Binder
import ContainerPorts.Proofs.Link.Retrying
import Mathlib.Algebra.Order.Floor.Div

/-!
# Waiting for a link

A link is looked up again and again, with the same delay after each lookup, until one
lookup decides or ends at the timeout or later. So the last lookup still counts, even if it
comes after the timeout. How many lookups there can be follows from the delays between them.
-/
namespace ContainerPorts.UdevWait

open Kernel

/-- What is found for a hardware address. -/
abbrev Sighting : Type := Except LinkError (Option Link)

/-- What a lookup decides. A name is settled that does not begin as the unsettled ones do. -/
inductive Decides (w : UdevWait) (mac : String) : Sighting → Except BindError Link → Prop
  | reserved {l : Link} (hname : l.name = "eth0") :
    Decides w mac (.ok (some l)) (.error (.reserved mac))
  | found {l : Link} (hname : l.name ≠ "eth0") (hsettled : w.enabled = false ∨ w.unsettled = "" ∨
      ¬ w.unsettled.toList <+: l.name.toList) : Decides w mac (.ok (some l)) (.ok l)
  | absent (hw : w.enabled = false) : Decides w mac (.ok none) (.error (.notFound mac))
  | failed {e : LinkError} (hw : w.enabled = false) :
    Decides w mac (.error e) (.error (.lookup mac e))

variable {w : UdevWait} {mac : String}

theorem isUnsettled_eq_false_iff {name : String} :
    w.isUnsettled name = false ↔ w.unsettled = "" ∨ ¬ w.unsettled.toList <+: name.toList := by
  rw [← List.isPrefixOf_iff_prefix, Bool.not_eq_true]
  simp [isUnsettled, Text.begins, Decidable.or_iff_not_imp_left]

theorem verdict?_eq_some_iff {a : Sighting} {r : Except BindError Link} :
    w.verdict? mac a = some r ↔ w.Decides mac a r := by
  constructor
  · intro h
    unfold verdict? at h
    split at h
    · split_ifs at h with hname hsettled
      · cases h
        exact .reserved hname
      · cases h
        rw [Bool.or_eq_true, Bool.not_eq_true', Bool.not_eq_true', isUnsettled_eq_false_iff]
          at hsettled
        exact .found hname hsettled
    · split_ifs at h with hw
      cases h
      exact .absent (by simpa using hw)
    · split_ifs at h with hw
      cases h
      exact .failed (by simpa using hw)
  · rintro (hname | ⟨hname, hsettled⟩ | hw | hw)
    · exact if_pos hname
    · rw [← isUnsettled_eq_false_iff, ← Bool.not_eq_true', ← Bool.not_eq_true', ← Bool.or_eq_true]
        at hsettled
      exact (if_neg hname).trans (if_pos hsettled)
    · exact if_neg (by simp [hw])
    · exact if_neg (by simp [hw])

theorem verdict?_eq_none_iff {a : Sighting} :
    w.verdict? mac a = none ↔ ∀ r, ¬ w.Decides mac a r := by
  simp only [← verdict?_eq_some_iff]
  exact Option.eq_none_iff_forall_ne_some

/-! ### One lookup after another -/

variable (w mac)

/-- Lookups, each with the delay after it. -/
def waiting (looks : List (Timed Sighting)) : List (Program.Reply kernel) :=
  looks.flatMap fun t => [called (.byMac mac) t, paused w.delay]

/-- How long such lookups and the delays after them take. -/
def waited (looks : List (Timed Sighting)) : Span :=
  ⟨looks.length * w.delay.nanos + (looks.map fun t => t.took.nanos).sum⟩

variable {w mac}

@[simp] theorem add_waited_nil (elapsed : Span) : elapsed + w.waited [] = elapsed := by
  ext
  simp [waited]

theorem waited_cons (t : Timed Sighting) (looks : List (Timed Sighting)) :
    w.waited (t :: looks) = t.took + w.delay + w.waited looks := by
  ext
  simp only [waited, List.length_cons, Nat.succ_mul, List.map_cons, List.sum_cons, Span.nanos_add]
  omega

/-- Waiting from a moment on, with `more` lookups left after the next one. All but the last decide
nothing and leave time for another. The last decides, or is over at the timeout, or is the last
that is left. -/
def Course (w : UdevWait) (mac : String) (elapsed : Span) (more : ℕ)
    (es : List (Program.Reply kernel)) (r : Except BindError Link) : Prop :=
  ∃ (early : List (Timed Sighting)) (last : Timed Sighting),
    es = w.waiting mac early ++ [called (.byMac mac) last] ∧
      (∀ k t, early[k]? = some t → w.verdict? mac t.value = none ∧
        elapsed + w.waited (early.take k) + t.took < w.timeout) ∧
      (w.verdict? mac last.value = some r ∨ w.verdict? mac last.value = none ∧
        r = .error (.timeout mac (elapsed + w.waited early + last.took)) ∧
        (w.timeout ≤ elapsed + w.waited early + last.took ∨ early.length = more))

section Course

variable {elapsed : Span} {more : ℕ} {es : List (Program.Reply kernel)}
  {r : Except BindError Link} {t : Timed Sighting}

theorem Course.decided (h : w.verdict? mac t.value = some r) :
    w.Course mac elapsed more [called (.byMac mac) t] r :=
  ⟨[], t, rfl, nofun, .inl h⟩

theorem Course.over (h : w.verdict? mac t.value = none)
    (hend : w.timeout ≤ elapsed + t.took ∨ more = 0) :
    w.Course mac elapsed more [called (.byMac mac) t]
      (.error (.timeout mac (elapsed + t.took))) :=
  ⟨[], t, rfl, nofun, .inr ⟨h, by rw [add_waited_nil], by simpa [eq_comm] using hend⟩⟩

theorem Course.again (h : w.verdict? mac t.value = none) (htime : elapsed + t.took < w.timeout)
    (hrest : w.Course mac (elapsed + t.took + w.delay) more es r) :
    w.Course mac elapsed (more + 1) (called (.byMac mac) t :: paused w.delay :: es) r := by
  obtain ⟨early, last, rfl, hearly, hlast⟩ := hrest
  have hwaited (looks : List (Timed Sighting)) : elapsed + w.waited (t :: looks) =
      elapsed + t.took + w.delay + w.waited looks := by
    rw [waited_cons]
    ext
    simp only [Span.nanos_add]
    omega
  refine ⟨t :: early, last, rfl, fun k t' ht => ?_, ?_⟩
  · cases k with
    | zero =>
      cases ht
      exact ⟨h, by simpa using htime⟩
    | succ k =>
      rw [List.take_succ_cons, hwaited]
      exact hearly k t' ht
  · rw [hwaited, List.length_cons, Nat.succ_inj]
    exact hlast

end Course

theorem look_tells (w : UdevWait) (mac : String) (more : ℕ) (elapsed : Span) :
    (w.look mac more elapsed).Tells (w.Course mac elapsed more) := by
  induction more generalizing elapsed with
  | zero =>
    rw [look]
    refine Program.tells_ask fun t => ?_
    cases hverdict : w.verdict? mac t.value with
    | some r => exact Program.tells_done (.decided hverdict)
    | none =>
      dsimp only
      split <;> exact Program.tells_done (.over hverdict (.inr rfl))
  | succ more ih =>
    rw [look]
    refine Program.tells_ask fun t => ?_
    cases hverdict : w.verdict? mac t.value with
    | some r => exact Program.tells_done (.decided hverdict)
    | none =>
      dsimp only
      split
      · rename_i hlate
        exact Program.tells_done (.over hverdict (.inl hlate))
      · rename_i htime
        refine Program.tells_ask fun _ => (ih _).mono fun es r h => ?_
        exact .again hverdict (Nat.lt_of_not_le htime) h

/-! ### The end of the wait -/

theorem length_mul_delay_le (looks : List (Timed Sighting)) :
    looks.length * w.delay.nanos ≤ (w.waited looks).nanos := Nat.le_add_right ..

theorem lookups_eq (hdelay : 0 < w.delay.nanos) :
    w.lookups = w.timeout.nanos ⌈/⌉ w.delay.nanos := by
  rw [lookups, if_neg hdelay.ne', Nat.ceilDiv_eq_add_pred_div, Nat.add_sub_assoc hdelay]

/-- So many delays reach the timeout. -/
theorem timeout_le_of_length_eq (hdelay : 0 < w.delay.nanos) {early : List (Timed Sighting)}
    (h : early.length = w.lookups) (took : Span) : w.timeout ≤ w.waited early + took := by
  have hceil : w.timeout.nanos ≤ w.delay.nanos * early.length :=
    (ceilDiv_le_iff_le_mul hdelay).mp (by rw [h, lookups_eq hdelay])
  have hwaited := w.length_mul_delay_le early
  rw [Span.le_iff, Span.nanos_add]
  rw [Nat.mul_comm] at hwaited
  omega

/-- The lookups before the last one end before the timeout. -/
theorem length_le_of_early (hdelay : 0 < w.delay.nanos) {early : List (Timed Sighting)}
    (h : ∀ k t, early[k]? = some t → w.waited (early.take k) + t.took < w.timeout) :
    early.length ≤ w.timeout.nanos ⌈/⌉ w.delay.nanos := by
  rcases List.eq_nil_or_concat early with rfl | ⟨looks, t, rfl⟩
  · exact Nat.zero_le _
  · rw [List.concat_eq_append] at h ⊢
    have hlast := h looks.length t (by simp)
    rw [List.take_left, Span.lt_iff, Span.nanos_add] at hlast
    have hwaited := w.length_mul_delay_le looks
    rw [List.length_append, List.length_singleton, Nat.succ_le_iff, ← not_le,
      ceilDiv_le_iff_le_mul hdelay, Nat.mul_comm]
    omega

/-- Waiting was decided by the last of these lookups. The ones before decide nothing and are over
before the timeout. -/
def DecidedBy (w : UdevWait) (mac : String) (es : List (Program.Reply kernel))
    (r : Except BindError Link) : Prop :=
  ∃ (early : List (Timed Sighting)) (last : Timed Sighting),
    es = w.waiting mac early ++ [called (.byMac mac) last] ∧
    early.length + 1 ≤ w.timeout.nanos ⌈/⌉ w.delay.nanos + 1 ∧
    (∀ k t, early[k]? = some t → (∀ r, ¬ w.Decides mac t.value r) ∧
      w.waited (early.take k) + t.took < w.timeout) ∧
    (w.Decides mac last.value r ∨ (∀ r, ¬ w.Decides mac last.value r) ∧
      w.timeout ≤ w.waited early + last.took ∧
      r = .error (.timeout mac (w.waited early + last.took)))

theorem await_tells (hdelay : 0 < w.delay.nanos) (mac : String) :
    (w.await mac).Tells (w.DecidedBy mac) := by
  refine (w.look_tells mac w.lookups ⟨0⟩).mono ?_
  rintro es r ⟨early, last, hes, hearly, hlast⟩
  simp only [Span.zero_add, verdict?_eq_some_iff, verdict?_eq_none_iff] at hearly hlast
  have hlength := length_le_of_early hdelay fun k t ht => (hearly k t ht).2
  refine ⟨early, last, hes, Nat.succ_le_succ hlength, hearly, ?_⟩
  rcases hlast with hdecided | ⟨hnone, hresult, hlate | hlookups⟩
  · exact .inl hdecided
  · exact .inr ⟨hnone, hlate, hresult⟩
  · exact .inr ⟨hnone, timeout_le_of_length_eq hdelay hlookups last.took, hresult⟩

/-- A link that was waited for is not the node's own interface, and its name is final. -/
theorem DecidedBy.name {es : List (Program.Reply kernel)} {l : Link}
    (h : w.DecidedBy mac es (.ok l)) : l.name ≠ "eth0" ∧
      (w.enabled = true → w.unsettled ≠ "" → ¬ w.unsettled.toList <+: l.name.toList) := by
  obtain ⟨early, last, -, -, -, hdecided | ⟨-, -, hresult⟩⟩ := h
  · generalize last.value = sighting at hdecided
    cases hdecided with
    | found hname hsettled =>
      refine ⟨hname, fun henabled hunsettled => ?_⟩
      simpa [henabled, hunsettled] using hsettled
  · cases hresult

/-- With delays that are not zero waiting is decided by the first lookup that decides anything,
among those up to the first one that is over at the timeout or later, whatever they find and however
long they take. Without such a lookup the wait is over after at least the timeout. -/
theorem await_decided (w : UdevWait) (hdelay : 0 < w.delay.nanos) (mac : String) {σ : Type}
    (answer : (r : KernelRequest) → σ → r.Answer × σ) (s : σ) :
    let es := (w.await mac).replies answer s
    let result := ((w.await mac).runWith answer s).1
    (∃ (early : List (Timed Sighting)) (last : Timed Sighting),
      es = w.waiting mac early ++ [called (.byMac mac) last] ∧
      early.length + 1 ≤ w.timeout.nanos ⌈/⌉ w.delay.nanos + 1 ∧
      (∀ k t, early[k]? = some t → (∀ r, ¬ w.Decides mac t.value r) ∧
        w.waited (early.take k) + t.took < w.timeout) ∧
      (w.Decides mac last.value result ∨ (∀ r, ¬ w.Decides mac last.value r) ∧
        w.timeout ≤ w.waited early + last.took ∧
        result = .error (.timeout mac (w.waited early + last.took)))) ∧
    ∀ l, result = .ok l → l.name ≠ "eth0" ∧
      (w.enabled = true → w.unsettled ≠ "" → ¬ w.unsettled.toList <+: l.name.toList) := by
  intro es result
  have hdecided : w.DecidedBy mac es result := (await_tells hdelay mac).runWith answer s
  exact ⟨hdecided, fun l hl => DecidedBy.name (hl ▸ hdecided)⟩

/-- A kernel in which lookups by hardware address find one thing after the other, at once. -/
def sightedKernel : (r : KernelRequest) → List Sighting → r.Answer × List Sighting
  | .link (.byMac _), a :: rest => (⟨a, ⟨0⟩⟩, rest)
  | .link (.byMac _), [] => (⟨.ok none, ⟨0⟩⟩, [])
  | .link _, rest => (⟨.error (.notFound 7), ⟨0⟩⟩, rest)
  | .leaveNetns, rest => ((), rest)
  | .sleep _, rest => ((), rest)

/-- The lookup at 300 milliseconds counts, with a timeout of 250. -/
theorem await_decided_lastLookup :
    let w : UdevWait := { timeout := .ofMillis 250 }
    let l : Link := ⟨7, "ens7", "fa:16:3e:00:00:01"⟩
    let sightings : List Sighting :=
      [.error (.notFound 7), .ok none, .ok (some ⟨7, "eth3", l.mac⟩), .ok (some l)]
    0 < w.delay.nanos ∧ ((w.await l.mac).runWith sightedKernel sightings).1 = .ok l ∧
      ∃ early last, (w.await l.mac).replies sightedKernel sightings =
          w.waiting l.mac early ++ [called (.byMac l.mac) last] ∧
        early.length + 1 ≤ 3 + 1 ∧ w.Decides l.mac last.value (.ok l) := by
  intro w l sightings
  have hdelay : 0 < w.delay.nanos := by decide
  have hresult : ((w.await l.mac).runWith sightedKernel sightings).1 = .ok l := by decide +kernel
  obtain ⟨⟨early, last, hes, hlength, -, hend⟩, -⟩ :=
    await_decided w hdelay l.mac sightedKernel sightings
  have hceil : w.timeout.nanos ⌈/⌉ w.delay.nanos = 3 := by
    rw [Nat.ceilDiv_eq_add_pred_div]
    decide
  rw [hresult] at hend
  rw [hceil] at hlength
  refine ⟨hdelay, hresult, early, last, hes, hlength, ?_⟩
  rcases hend with hdecides | ⟨-, -, htimeout⟩
  · exact hdecides
  · cases htimeout

end ContainerPorts.UdevWait
