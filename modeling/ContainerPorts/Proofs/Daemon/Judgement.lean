import ContainerPorts.Daemon.Reaper
import Mathlib.Data.Nat.Notation
import Mathlib.Tactic.Common
import Mathlib.Tactic.SplitIfs

/-!
# Which ports are orphaned

The judgement on a port goes through its gates one after the other and names the first
that spares it. Here all of them are said at once: a port is deleted only if it is
orphaned, and every orphaned port is. The number of a process is what stands between
the two ends of the path in the first tag that has a namespace, in decimal.
-/
namespace ContainerPorts.Reaper

/-- A port that is orphaned beyond doubt, as far as can be seen. -/
structure Orphaned (config : ReaperConfig) (s : Sight) (p : Cloud.Port) : Prop where
  marked : PortTags.marker ∈ p.tags
  old : ∃ t, p.createdAt = some t ∧ t.toNanos + config.minPortAge.nanos < s.now.toNanos
  down : p.status = "DOWN"
  unplugged : p.deviceId = ""
  gone : config.procMount ≠ none → ∃ before netns after digits pid,
    p.tags = before ++ ("netns=" ++ netns) :: after ∧
      (∀ t ∈ before, ∀ other, t ≠ "netns=" ++ other) ∧
      netns = "/proc/" ++ String.ofList digits ++ "/ns/net" ∧
      Text.readCount? pidBound digits = some pid ∧
      s.hasEntry "1" = true ∧ s.hasEntry (toString pid ++ "/ns/net") = false

variable {config : ReaperConfig} {s : Sight} {p : Cloud.Port}

theorem isOlder_iff {now : Instant} {age : Span} :
    isOlder now age p = true ↔ ∃ t, p.createdAt = some t ∧ t.toNanos + age.nanos < now.toNanos := by
  unfold isOlder
  cases p.createdAt with
  | none => simp
  | some t =>
    simp only [Option.bind_some, Instant.since?, Option.some.injEq, exists_eq_left']
    split_ifs with h
    · simp only [decide_eq_true_eq, Span.lt_iff]
      omega
    · simp only [false_iff]
      omega

theorem netnsPid?_eq_some_iff {netns : String} {pid : ℕ} :
    netnsPid? netns = some pid ↔ ∃ digits,
      netns = "/proc/" ++ String.ofList digits ++ "/ns/net" ∧
        Text.readCount? pidBound digits = some pid := by
  have hform (digits : List Char) : netns = "/proc/" ++ String.ofList digits ++ "/ns/net" ↔
      netns.toList = "/proc/".toList ++ (digits ++ "/ns/net".toList) := by
    rw [← String.toList_inj]
    simp
  simp only [netnsPid?, Option.bind_eq_bind, Option.bind_eq_some_iff, Text.dropStart?_eq_some_iff,
    Text.dropEnd?_eq_some_iff, hform]
  constructor
  · rintro ⟨rest, hrest, digits, rfl, hpid⟩
    exact ⟨digits, hrest, hpid⟩
  · rintro ⟨digits, hnetns, hpid⟩
    exact ⟨_, hnetns, digits, rfl, hpid⟩

theorem checkGone_eq_ok_iff {netns : String} :
    checkGone s netns = .ok () ↔ ∃ pid, netnsPid? netns = some pid ∧
      s.hasEntry "1" = true ∧ s.hasEntry (toString pid ++ "/ns/net") = false := by
  unfold checkGone
  cases netnsPid? netns with
  | none => simp
  | some pid =>
    simp only [Option.some.injEq, exists_eq_left', firstEntry, netnsEntry]
    by_cases hmounted : s.hasEntry "1" = true
    · simp [hmounted]
    · simp [hmounted]

/-- A port without a namespace is not orphaned where namespaces are looked for. -/
theorem checkGone_value?_eq_ok_iff {tags : List String} :
    checkGone s ((PortTags.value? tags PortTags.netnsKey).getD "") = .ok () ↔
      ∃ before netns after pid, tags = before ++ ("netns=" ++ netns) :: after ∧
        (∀ t ∈ before, ∀ other, t ≠ "netns=" ++ other) ∧ netnsPid? netns = some pid ∧
        s.hasEntry "1" = true ∧ s.hasEntry (toString pid ++ "/ns/net") = false := by
  have hkey : '=' ∉ PortTags.netnsKey.toList := by decide
  have htag (netns : String) : PortTags.tag PortTags.netnsKey netns = "netns=" ++ netns := rfl
  have hvalue (netns : String) : PortTags.value? tags PortTags.netnsKey = some netns ↔ _ :=
    PortTags.value?_eq_some_iff hkey
  simp only [htag] at hvalue
  rw [checkGone_eq_ok_iff]
  cases hv : PortTags.value? tags PortTags.netnsKey with
  | none =>
    -- What is judged then is the empty text, which is no path.
    have hempty : netnsPid? "" = none := by decide
    simp only [Option.getD_none, hempty, reduceCtorEq, false_and, exists_false, false_iff]
    rintro ⟨before, netns, after, pid, htags, hbefore, -⟩
    exact nomatch hv.symm.trans ((hvalue netns).mpr ⟨before, after, htags, hbefore⟩)
  | some netns =>
    rw [Option.getD_some]
    constructor
    · rintro ⟨pid, hpid⟩
      obtain ⟨before, after, htags, hbefore⟩ := (hvalue netns).mp hv
      exact ⟨before, netns, after, pid, htags, hbefore, hpid⟩
    · rintro ⟨before, other, after, pid, htags, hbefore, hpid⟩
      obtain rfl : netns = other :=
        Option.some.inj (hv.symm.trans ((hvalue other).mpr ⟨before, after, htags, hbefore⟩))
      exact ⟨pid, hpid⟩

/-- Exactly the orphaned ports pass the judgement. -/
theorem judge_eq_ok_iff : judge config s p = .ok () ↔ Orphaned config s p := by
  unfold judge
  split_ifs with hmarked hold hdown hdevice
  · refine iff_of_false nofun fun h => ?_
    simp [PortTags.isMarked, h.marked] at hmarked
  · refine iff_of_false nofun fun h => ?_
    simp [isOlder_iff.mpr h.old] at hold
  · refine iff_of_false nofun fun h => ?_
    simp [Cloud.Port.isDown, Cloud.Port.down, h.down] at hdown
  · exact iff_of_false nofun fun h => hdevice h.unplugged
  · have hstatus : p.isDown = true := by simpa using hdown
    have hgates (gone) : Orphaned config s p :=
      ⟨by simpa [PortTags.isMarked] using hmarked, isOlder_iff.mp (by simpa using hold),
        of_decide_eq_true hstatus, by simpa using hdevice, gone⟩
    cases hmount : config.procMount with
    | none => exact iff_of_true rfl (hgates fun h => absurd hmount h)
    | some mount =>
      dsimp only
      rw [checkGone_value?_eq_ok_iff]
      constructor
      · rintro ⟨before, netns, after, pid, htags, hbefore, hpid, hentries⟩
        obtain ⟨digits, hnetns, hdigits⟩ := netnsPid?_eq_some_iff.mp hpid
        exact hgates fun _ =>
          ⟨before, netns, after, digits, pid, htags, hbefore, hnetns, hdigits, hentries⟩
      · intro h
        obtain ⟨before, netns, after, digits, pid, htags, hbefore, hnetns, hdigits, hentries⟩ :=
          h.gone (by simp [hmount])
        exact ⟨before, netns, after, pid, htags, hbefore,
          netnsPid?_eq_some_iff.mpr ⟨digits, hnetns, hdigits⟩, hentries⟩

end ContainerPorts.Reaper
