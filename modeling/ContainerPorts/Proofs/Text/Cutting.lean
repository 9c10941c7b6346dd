import ContainerPorts.Text.Split
import Mathlib.Data.List.Infix
import Mathlib.Tactic.Common

/-!
# Cutting a text at another text

A text that contains a separator is cut at the first place where that stands. If no end of the
separator is also its beginning, then what is in front of the separator can have no part in it,
and a text without it is told from what stands behind. If the separator is a single character, the
parts between all of its places are those in front of any one of them and those behind it.
-/
namespace ContainerPorts.Text

/-! ### Cutting at every place of a character -/

theorem splitAll_append_cons (sep : Char) (cs ds : List Char) :
    splitAll sep (cs ++ sep :: ds) = splitAll sep cs ++ splitAll sep ds := by
  induction cs with
  | nil => simp [splitAll]
  | cons c cs ih =>
    simp only [List.cons_append, splitAll, ih]
    split
    · rfl
    · cases hs : splitAll sep cs with
      | nil => exact absurd hs (splitAll_ne_nil sep cs)
      | cons p ps => rfl

theorem notMem_of_mem_splitAll {sep : Char} {cs p : List Char} (h : p ∈ splitAll sep cs) :
    sep ∉ p := by
  induction cs generalizing p with
  | nil =>
    obtain rfl := List.mem_singleton.mp h
    exact List.not_mem_nil
  | cons c cs ih =>
    rw [splitAll] at h
    split at h
    · rcases List.mem_cons.mp h with rfl | h
      · exact List.not_mem_nil
      · exact ih h
    · rename_i hc
      cases hparts : splitAll sep cs with
      | nil => exact absurd hparts (splitAll_ne_nil sep cs)
      | cons q qs =>
        rw [hparts] at h ih
        rcases List.mem_cons.mp h with rfl | h
        · exact List.not_mem_cons_of_ne_of_not_mem (Ne.symm hc) (ih List.mem_cons_self)
        · exact ih (List.mem_cons_of_mem _ h)

/-- A text that is a single part has no separator. -/
theorem notMem_of_splitAll_length {sep : Char} {cs : List Char}
    (h : (splitAll sep cs).length ≤ 1) : sep ∉ cs := by
  obtain ⟨p, ps, hparts⟩ := List.exists_cons_of_ne_nil (splitAll_ne_nil sep cs)
  obtain rfl : ps = [] := by
    rw [hparts, List.length_cons] at h
    exact List.length_eq_zero_iff.mp (by omega)
  have hjoin := joinAll_splitAll sep cs
  rw [hparts, joinAll] at hjoin
  rw [← hjoin]
  exact notMem_of_mem_splitAll (hparts ▸ List.mem_singleton_self p)

theorem notMem_of_cutOnce {sep : Char} {cs before behind : List Char}
    (h : cutOnce sep cs = some (before, behind)) : sep ∉ before := by
  induction cs generalizing before with
  | nil => cases h
  | cons c cs ih =>
    rw [cutOnce] at h
    split at h
    · cases h
      exact List.not_mem_nil
    · rename_i hc
      obtain ⟨⟨front, back⟩, hcut, hpair⟩ := Option.map_eq_some_iff.mp h
      cases hpair
      exact List.not_mem_cons_of_ne_of_not_mem (Ne.symm hc) (ih hcut)

/-! ### Cutting at one place of a text -/

variable {sep before behind before' behind' : List Char}

/-- No end of the separator is its beginning, so that it cannot overlap itself. -/
def Unbordered (sep : List Char) : Prop := ∀ k < sep.length, 0 < k → ¬ sep.drop k <+: sep

instance : DecidablePred Unbordered := fun sep =>
  inferInstanceAs (Decidable (∀ k < sep.length, 0 < k → ¬ sep.drop k <+: sep))

theorem Unbordered.prefix_of_prefix_append (hsep : Unbordered sep) (hbefore : before ≠ [])
    (h : sep <+: before ++ (sep ++ behind)) : sep <+: before := by
  by_contra hnot
  have hlength : before.length < sep.length := by
    by_contra hle
    exact hnot (List.prefix_of_prefix_length_le h (List.prefix_append _ _) (Nat.le_of_not_lt hle))
  obtain ⟨tail, rfl⟩ : before <+: sep :=
    List.prefix_of_prefix_length_le (List.prefix_append _ _) h (Nat.le_of_lt hlength)
  -- What is left of the separator would begin the next one.
  have htail : tail <+: before ++ tail := by
    refine List.prefix_of_prefix_length_le ((List.prefix_append_right_inj before).mp h)
      (List.prefix_append _ _) ?_
    simp
  refine hsep before.length hlength (List.length_pos_iff.mpr hbefore) ?_
  rwa [List.drop_left]

/-- A text is cut at an unbordered separator in one way only, if there is none in front of it. -/
theorem firstCut_unique (hsep : Unbordered sep) (h : ¬ sep <:+: before) (h' : ¬ sep <:+: before')
    (heq : before ++ (sep ++ behind) = before' ++ (sep ++ behind')) :
    before = before' ∧ behind = behind' := by
  induction before generalizing before' with
  | nil =>
    cases before' with
    | nil =>
      have htail : sep ++ behind = sep ++ behind' := heq
      exact ⟨rfl, List.append_cancel_left htail⟩
    | cons d before' =>
      have hprefix : sep <+: d :: before' ++ (sep ++ behind') := heq ▸ List.prefix_append _ _
      exact absurd (hsep.prefix_of_prefix_append (List.cons_ne_nil _ _) hprefix).isInfix h'
  | cons c before ih =>
    cases before' with
    | nil =>
      have hprefix : sep <+: c :: before ++ (sep ++ behind) := heq ▸ List.prefix_append _ _
      exact absurd (hsep.prefix_of_prefix_append (List.cons_ne_nil _ _) hprefix).isInfix h
    | cons d before' =>
      obtain ⟨rfl, htail⟩ := List.cons.inj heq
      obtain ⟨rfl, rfl⟩ :=
        ih (fun hin => h (List.infix_cons hin)) (fun hin => h' (List.infix_cons hin)) htail
      exact ⟨rfl, rfl⟩

/-- A text is cut at the first of its separators. Behind any of them there is no more than behind
this one. -/
theorem exists_firstCut (hsep : sep ≠ []) (front back : List Char) : ∃ before behind,
    front ++ (sep ++ back) = before ++ (sep ++ behind) ∧ ¬ sep <:+: before ∧ back <:+ behind := by
  induction front with
  | nil => exact ⟨[], back, rfl, fun hin => hsep (List.infix_nil.mp hin), List.suffix_refl back⟩
  | cons c front ih =>
    obtain ⟨before, behind, hcut, hbefore, hback⟩ := ih
    by_cases hprefix : sep <+: c :: (front ++ (sep ++ back))
    · obtain ⟨rest, hrest⟩ := hprefix
      refine ⟨[], rest, hrest.symm, fun hin => hsep (List.infix_nil.mp hin), ?_⟩
      have hback : back <:+ c :: (front ++ (sep ++ back)) :=
        (List.suffix_append sep back).trans (List.suffix_append (c :: front) _)
      have hall : rest <:+ c :: (front ++ (sep ++ back)) := hrest ▸ List.suffix_append sep rest
      have hlength := congrArg List.length hrest
      simp only [List.length_append, List.length_cons] at hlength
      exact List.suffix_of_suffix_length_le hback hall (by omega)
    · refine ⟨c :: before, behind, congrArg (c :: ·) hcut, fun hin => ?_, hback⟩
      refine (List.infix_cons_iff.mp hin).elim (fun hstart => hprefix ?_) hbefore
      rw [hcut]
      exact hstart.trans (List.prefix_append (c :: before) (sep ++ behind))

end ContainerPorts.Text
