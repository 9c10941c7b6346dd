import ContainerPorts.Proofs.Daemon.SideBySide
import Mathlib.Data.List.Nodup

/-!
# Commands one by one

To run commands one after another is one way to interleave them. Whether a command
asks for a new port does not depend on the others. So if the commands that do are run
in the order in which they got to ask side by side, then the new ports have the same
numbers, and all commands are simulated by the same commands alone.
-/
namespace ContainerPorts

open Cloud

section

variable {ι : Type}

/-! ### Numbers for the new ports -/

theorem mem_creators {i : ι} {es : List (Exchange effects ι Unit)} :
    i ∈ creators es ↔ ∃ e ∈ es, Effect.creates e.request = true ∧ e.turn.task = i := by
  simp [creators, and_assoc]

variable [DecidableEq ι]

/-- New ports are numbered in the order in which they are asked for, and then all others. -/
def numbering (order is : List ι) (i : ι) : ℕ := (is ++ order).idxOf i

section

variable {order is : List ι} (hall : ∀ i, i ∈ order)

include hall

theorem numbering_injective : Function.Injective (numbering order is) := fun i _ h =>
  (List.idxOf_inj (List.mem_append_right is (hall i))).mp h

theorem numbering_lt (i : ι) : numbering order is i < is.length + order.length := by
  rw [← List.length_append]
  exact List.idxOf_lt_length_of_mem (List.mem_append_right is (hall i))

omit hall

theorem numbered_numbering (order : List ι) (his : is.Nodup) :
    Numbered (numbering order is) is := by
  rintro before i after rfl
  have hi : i ∉ before := fun hmem => (List.nodup_append.mp his).2.2 i hmem i (by simp) rfl
  rw [numbering, List.append_assoc, List.idxOf_append_of_notMem hi, List.cons_append,
    List.idxOf_cons_self, Nat.add_zero]

include hall

/-- A task without a new port can have any large number. -/
theorem exists_numbering (his : is.Nodup) {i : ι} (hi : i ∉ is) {n : ℕ}
    (hn : is.length + order.length ≤ n) :
    ∃ ahead : ι → ℕ, Function.Injective ahead ∧ Numbered ahead is ∧ ahead i = n := by
  have hne (j : ι) : numbering order is j ≠ n :=
    Nat.ne_of_lt (Nat.lt_of_lt_of_le (numbering_lt hall j) hn)
  refine ⟨Function.update (numbering order is) i n, fun j k hjk => ?_, ?_, Function.update_self ..⟩
  · by_cases hj : j = i
    · by_cases hk : k = i
      · rw [hj, hk]
      · subst hj
        rw [Function.update_self, Function.update_of_ne hk] at hjk
        exact absurd hjk.symm (hne k)
    · by_cases hk : k = i
      · subst hk
        rw [Function.update_self, Function.update_of_ne hj] at hjk
        exact absurd hjk (hne j)
      · rw [Function.update_of_ne hj, Function.update_of_ne hk] at hjk
        exact numbering_injective hall hjk
  · intro before j after hsplit
    have hj : j ≠ i := by
      rintro rfl
      exact hi (by simp [hsplit])
    rw [Function.update_of_ne hj]
    exact numbered_numbering order his before j after hsplit

end

variable {commands : ι → Command} {s : Site}

/-- A task that has asked for a new port was once about to do so. -/
theorem exists_before_creating {i : ι} {ts : List (Turn ι Unit)}
    (h : i ∈ creators (sideBySide commands s ts).trace) :
    ∃ before e next, creators (sideBySide commands s before).trace <+:
        creators (sideBySide commands s ts).trace ∧
      i ∉ creators (sideBySide commands s before).trace ∧
      (sideBySide commands s before).left i = .ask e next ∧ Effect.creates e = true := by
  induction ts using List.reverseRecOn with
  | nil => exact absurd h List.not_mem_nil
  | append_singleton ts t ih =>
    have hmono : creators (sideBySide commands s ts).trace <+:
        creators (sideBySide commands s (ts ++ [t])).trace := by
      rw [sideBySide, sideBySide, Interleaving.run_concat]
      exact creators_mono (Interleaving.trace_prefix_turn _ t)
    by_cases hmem : i ∈ creators (sideBySide commands s ts).trace
    · obtain ⟨before, e, next, hbefore, hrest⟩ := ih hmem
      exact ⟨before, e, next, hbefore.trans hmono, hrest⟩
    · rw [sideBySide, Interleaving.run_concat, ← sideBySide] at h
      cases hp : (sideBySide commands s ts).left t.task with
      | done a =>
        rw [Interleaving.turn_of_done hp] at h
        exact absurd h hmem
      | ask e next =>
        rw [Interleaving.turn_of_ask hp, creators_concat] at h
        cases hcreates : Effect.creates e with
        | false => simp [hcreates, hmem] at h
        | true =>
          obtain rfl : i = t.task := by simpa [hcreates, hmem] using h
          exact ⟨ts, e, next, hmono, hmem, hp, hcreates⟩

/-- A command that has ended has asked for a new port if it does so alone. -/
theorem Simulated.mem_creators_iff {ahead : ι → ℕ}
    {x : Interleaving effects (fun i => (commands i).Reply) Site Unit}
    (hx : Simulated commands s ahead x) {i : ι} {a : (commands i).Reply}
    (ha : x.left i = .done a) :
    i ∈ creators x.trace ↔
      ∃ e ∈ (commands i).program.requests Site.answer (s.skipping (ahead i)),
        Effect.creates e = true := by
  have hpaired := hx.paired i
  rw [ha] at hpaired
  rw [← hpaired.of_done.2.2, mem_creators]
  constructor
  · rintro ⟨e, he, hcreates, hi⟩
    exact ⟨e.request, List.mem_map_of_mem (Exchange.mem_ofTask.mpr ⟨e, he, hi, rfl⟩), hcreates⟩
  · rintro ⟨r, hr, hcreates⟩
    obtain ⟨reply, hreply, rfl⟩ := List.mem_map.mp hr
    obtain ⟨e, he, hi, rfl⟩ := Exchange.mem_ofTask.mp hreply
    exact ⟨e, he, hcreates, hi⟩

/-- Whether a command asks for a new port does not depend on the others. -/
theorem mem_creators_of_mem (h : Separate commands s) {order : List ι} (hall : ∀ i, i ∈ order)
    {ts ts' : List (Turn ι Unit)} (hts : (creators (sideBySide commands s ts).trace).Nodup)
    (hts' : (creators (sideBySide commands s ts').trace).Nodup)
    (hend : ∀ i, ∃ a, (sideBySide commands s ts').left i = .done a) {i : ι}
    (hi : i ∈ creators (sideBySide commands s ts).trace) :
    i ∈ creators (sideBySide commands s ts').trace := by
  by_contra hi'
  obtain ⟨before, e, next, hmono, hbefore, hask, hcreates⟩ := exists_before_creating hi
  -- In both runs it is compared with the same one alone, where very many numbers are used up.
  obtain ⟨n, hn, hn'⟩ : ∃ n,
      (creators (sideBySide commands s before).trace).length + order.length ≤ n ∧
      (creators (sideBySide commands s ts').trace).length + order.length ≤ n :=
    ⟨_, Nat.le_max_left .., Nat.le_max_right ..⟩
  obtain ⟨ahead, hahead, hnumbered, rfl⟩ :=
    exists_numbering hall (hts.sublist hmono.sublist) hbefore hn
  obtain ⟨ahead', hahead', hnumbered', heq⟩ := exists_numbering hall hts' hi' hn'
  have hpaired := (simulated_run h hahead hnumbered).paired i
  rw [hask] at hpaired
  obtain ⟨a, ha⟩ := hend i
  have hiff := (simulated_run h hahead' hnumbered').mem_creators_iff ha
  rw [heq] at hiff
  exact hi' (hiff.mpr ⟨e, hpaired.mem_requests, hcreates⟩)

/-! ### One after another -/

/-- Run commands one after another. -/
def inOrder (commands : ι → Command) : List ι → Site → List ((i : ι) × (commands i).Reply) × Site
  | [], s => ([], s)
  | i :: is, s =>
    let (a, s) := s.run (commands i).program
    let (replies, s) := inOrder commands is s
    (⟨i, a⟩ :: replies, s)

omit [DecidableEq ι] in
theorem map_inOrder (commands : ι → Command) (order : List ι) (s : Site) :
    (inOrder commands order s).1.map Sigma.fst = order := by
  induction order generalizing s with
  | nil => rfl
  | cons i is ih => exact congrArg (i :: ·) (ih _)

omit [DecidableEq ι] in
/-- A command alone asks for one new port or for none. -/
theorem creators_sublist_singleton {c : Command} (hc : c.invocation.netns ≠ "") {t : Turn ι Unit}
    {s : Site} {es : List (Exchange effects ι Unit)} (hturns : ∀ e ∈ es, e.turn = t)
    (hrequests : es.map Exchange.request = c.program.requests Site.answer s) :
    (creators es).Sublist [t.task] := by
  have hcount : (creators es).length ≤ 1 := by
    have hle := Command.creates_program hc s
    rw [← hrequests, List.countP_map] at hle
    rw [creators, List.length_map, ← List.countP_eq_length_filter]
    exact hle
  have heq : creators es = List.replicate (creators es).length t.task := by
    refine List.eq_replicate_of_mem fun i hi => ?_
    obtain ⟨e, he, -, rfl⟩ := mem_creators.mp hi
    rw [hturns e he]
  rw [heq]
  exact List.replicate_sublist_replicate t.task |>.mpr hcount

/-- To run commands one after another is one way to interleave them. -/
theorem exists_turns_inOrder (hc : ∀ i, (commands i).invocation.netns ≠ "") {order : List ι}
    (horder : order.Nodup) (x : Interleaving effects (fun i => (commands i).Reply) Site Unit)
    (hx : ∀ i ∈ order, x.left i = (commands i).program) :
    ∃ ts is, (x.run (fun _ => Site.answer) ts).state = (inOrder commands order x.state).2 ∧
      (∀ r ∈ (inOrder commands order x.state).1,
        (x.run (fun _ => Site.answer) ts).left r.1 = .done r.2) ∧
      (∀ i ∉ order, (x.run (fun _ => Site.answer) ts).left i = x.left i) ∧
      creators (x.run (fun _ => Site.answer) ts).trace = creators x.trace ++ is ∧
      is.Sublist order := by
  induction order generalizing x with
  | nil =>
    exact ⟨[], [], rfl, fun r hr => absurd hr List.not_mem_nil, fun _ _ => rfl, by simp,
      List.Sublist.refl _⟩
  | cons i order ih =>
    obtain ⟨hi, horder⟩ := List.nodup_cons.mp horder
    obtain ⟨n, es, hrun, hturns, hrequests⟩ :=
      Interleaving.exists_run_alone (fun _ => Site.answer) x ⟨i, ()⟩
    have hprogram : x.left i = (commands i).program := hx i (List.mem_cons_self ..)
    rw [hprogram] at hrun hrequests
    have hfirst := creators_sublist_singleton (hc i) hturns hrequests
    have hothers (j : ι) (hj : j ≠ i) :
        (x.run (fun _ => Site.answer) (List.replicate n ⟨i, ()⟩)).left j = x.left j := by
      rw [hrun]
      exact Function.update_of_ne hj ..
    obtain ⟨ts, is, hstate, hreplies, hleft, hcreators, his⟩ := ih horder
      (x.run (fun _ => Site.answer) (List.replicate n ⟨i, ()⟩)) fun j hj => by
        rw [hothers j fun h => hi (h ▸ hj)]
        exact hx j (List.mem_cons_of_mem i hj)
    have hafter : (x.run (fun _ => Site.answer) (List.replicate n ⟨i, ()⟩)).state =
        (x.state.run (commands i).program).2 := by
      rw [hrun]
      rfl
    rw [hafter] at hstate hreplies
    refine ⟨List.replicate n ⟨i, ()⟩ ++ ts, creators es ++ is, ?_, ?_, ?_, ?_,
      hfirst.append his⟩
    · rw [Interleaving.run_append]
      exact hstate
    · intro r hr
      rw [Interleaving.run_append]
      rcases List.mem_cons.mp hr with rfl | hr
      · dsimp only
        rw [hleft i hi, hrun]
        exact Function.update_self ..
      · exact hreplies r hr
    · intro j hj
      obtain ⟨hji, hj⟩ := not_or.mp (List.mem_cons.not.mp hj)
      rw [Interleaving.run_append, hleft j hj, hothers j hji]
    · rw [Interleaving.run_append, hcreators, hrun]
      simp [creators]

/-- A part of a list without repetitions is told by its members. -/
theorem eq_filter_of_sublist {l is : List ι} (hl : l.Nodup) (his : is.Sublist l) :
    is = l.filter fun i => i ∈ is := by
  induction his with
  | slnil => rfl
  | cons i his ih =>
    obtain ⟨hi, hl⟩ := List.nodup_cons.mp hl
    rw [List.filter_cons_of_neg (by simpa using fun hmem => hi (his.subset hmem))]
    exact ih hl
  | @cons_cons is l i his ih =>
    obtain ⟨hi, hl⟩ := List.nodup_cons.mp hl
    rw [List.filter_cons_of_pos (by simp)]
    refine congrArg (i :: ·) ((ih hl).trans (List.filter_congr fun j hj => ?_))
    have hne : j ≠ i := fun h => hi (h ▸ hj)
    simp [hne]

/-- Commands side by side ask for new ports in the order in which they do one after another. -/
theorem creators_eq (h : Separate commands s) {order : List ι} (hall : ∀ i, i ∈ order)
    (horder : order.Nodup) {ts ts' : List (Turn ι Unit)}
    (hts : (creators (sideBySide commands s ts).trace).Sublist order)
    (hts' : (creators (sideBySide commands s ts').trace).Sublist order)
    (hend : ∀ i, ∃ a, (sideBySide commands s ts).left i = .done a)
    (hend' : ∀ i, ∃ a, (sideBySide commands s ts').left i = .done a) :
    creators (sideBySide commands s ts).trace = creators (sideBySide commands s ts').trace := by
  have hnodup := horder.sublist hts
  have hnodup' := horder.sublist hts'
  rw [eq_filter_of_sublist horder hts, eq_filter_of_sublist horder hts']
  refine List.filter_congr fun i _ => decide_eq_decide.mpr ⟨fun hi => ?_, fun hi => ?_⟩
  · exact mem_creators_of_mem h hall hnodup hnodup' hend' hi
  · exact mem_creators_of_mem h hall hnodup' hnodup hend hi

/-- Commands of different containers do not interfere: side by side they leave the same ports and
reply the same as one after another, in the order in which they ask for new ports. -/
theorem sideBySide_eq_inOrder (h : Separate commands s) {order : List ι} (hall : ∀ i, i ∈ order)
    (horder : order.Nodup) {ts : List (Turn ι Unit)} {replies : (i : ι) → (commands i).Reply}
    (hend : ∀ i, (sideBySide commands s ts).left i = .done (replies i))
    (hcreators : (creators (sideBySide commands s ts).trace).Sublist order) :
    (∀ id, (sideBySide commands s ts).state.world.SamePort (inOrder commands order s).2.world id) ∧
      (inOrder commands order s).1.map (fun r => (⟨r.1, undatedReply r.2⟩ :
        (i : ι) × (commands i).Reply)) = order.map fun i => ⟨i, undatedReply (replies i)⟩ := by
  obtain ⟨ts', is, hstate, hreplies, -, hcreators', his⟩ := exists_turns_inOrder h.netns horder
    { left := fun i => (commands i).program, state := s } fun _ _ => rfl
  change (sideBySide commands s ts').state = (inOrder commands order s).2 at hstate
  change ∀ r ∈ (inOrder commands order s).1, (sideBySide commands s ts').left r.1 = .done r.2
    at hreplies
  change creators (sideBySide commands s ts').trace = is at hcreators'
  have hreplied (i : ι) : ∃ a, ⟨i, a⟩ ∈ (inOrder commands order s).1 := by
    have hi : i ∈ (inOrder commands order s).1.map Sigma.fst := by
      rw [map_inOrder]
      exact hall i
    obtain ⟨⟨j, a⟩, ha, rfl⟩ := List.mem_map.mp hi
    exact ⟨a, ha⟩
  have hend' (i : ι) : ∃ a, (sideBySide commands s ts').left i = .done a := by
    obtain ⟨a, ha⟩ := hreplied i
    exact ⟨a, hreplies _ ha⟩
  have hsame : creators (sideBySide commands s ts).trace =
      creators (sideBySide commands s ts').trace :=
    creators_eq h hall horder hcreators (hcreators' ▸ his) (fun i => ⟨_, hend i⟩) hend'
  obtain ⟨ahead, hahead, hnumbered⟩ : ∃ ahead, Function.Injective ahead ∧
      Numbered ahead (creators (sideBySide commands s ts).trace) :=
    ⟨_, numbering_injective hall, numbered_numbering order (horder.sublist hcreators)⟩
  have hx := simulated_run h hahead hnumbered
  rw [hsame] at hnumbered
  have hy := simulated_run h hahead hnumbered
  constructor
  · intro id
    rw [← hstate]
    exact hx.samePort hy (fun i => ⟨_, hend i⟩) hend' id
  · conv_rhs => rw [← map_inOrder commands order s]
    rw [List.map_map]
    refine List.map_congr_left fun r hr => ?_
    exact Sigma.ext rfl (heq_of_eq (hx.sameReply hy (hend r.1) (hreplies r hr)).symm)

end

/-- Two ADDs on one host, for containers of their own. -/
def twoAdds (other : Bool) : Command where
  host := sampleHost
  verb := .add
  invocation := if other then otherInvocation else sampleInvocation

/-- The other one is always a request ahead. -/
def alternatingTurns : List (Turn Bool Unit) :=
  (List.replicate 8 [⟨true, ()⟩, ⟨false, ()⟩]).flatten

/-- Whether a program has ended. -/
def Program.isDone {S : Signature} {α : Type} : Program S α → Bool
  | .done _ => true
  | .ask .. => false

theorem Program.exists_of_isDone {S : Signature} {α : Type} {p : Program S α} (h : p.isDone) :
    ∃ a, p = .done a := by
  cases p with
  | done a => exact ⟨a, rfl⟩
  | ask r next => cases h

theorem separate_twoAdds : Separate twoAdds (sampleSite .basic) where
  uncached := rfl
  identified p hp := by cases (hp : none = some p)
  fresh _ _ := rfl
  netns i := by cases i <;> decide
  distinct i j h := by
    have hid : (twoAdds i).tags.containerId = (twoAdds j).tags.containerId :=
      congrArg PortTags.containerId h
    cases i <;> cases j <;> first | rfl | exact absurd hid (by decide +kernel)

/-- Both get a new port, the other one first. -/
theorem sideBySide_eq_inOrder_twoAdds :
    let x := sideBySide twoAdds (sampleSite .basic) alternatingTurns
    ∃ replies : (i : Bool) → (twoAdds i).Reply, (∀ i, x.left i = .done (replies i)) ∧
      creators x.trace = [true, false] ∧
      (∀ id, x.state.world.SamePort (inOrder twoAdds [true, false] (sampleSite .basic)).2.world id) ∧
      (inOrder twoAdds [true, false] (sampleSite .basic)).1.map (fun r =>
        (⟨r.1, undatedReply r.2⟩ : (i : Bool) × (twoAdds i).Reply)) =
          [true, false].map fun i => ⟨i, undatedReply (replies i)⟩ := by
  intro x
  have hdone : ∀ i, (x.left i).isDone = true := by decide +kernel
  have hcreators : creators x.trace = [true, false] := by decide +kernel
  choose replies hend using fun i => Program.exists_of_isDone (hdone i)
  refine ⟨replies, hend, hcreators, ?_⟩
  exact sideBySide_eq_inOrder separate_twoAdds (by decide) (by decide) hend
    (hcreators ▸ List.Sublist.refl _)

end ContainerPorts
