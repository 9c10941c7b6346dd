/-!
# Cutting text at a separator

`splitAll` cuts at every separator and always yields one part more than there
are separators; `cutOnce` cuts at the first one only.
-/
namespace ContainerPorts.Text

/-- The part before the first separator and all parts after it. -/
def splitAll (sep : Char) : List Char → List (List Char)
  | [] => [[]]
  | c :: cs =>
    if c = sep then [] :: splitAll sep cs
    else match splitAll sep cs with
      | [] => [[c]]
      | part :: parts => (c :: part) :: parts

def joinAll (sep : Char) : List (List Char) → List Char
  | [] => []
  | [part] => part
  | part :: parts => part ++ sep :: joinAll sep parts

/-- What stands before and after the first separator, if there is one. -/
def cutOnce (sep : Char) : List Char → Option (List Char × List Char)
  | [] => none
  | c :: cs =>
    if c = sep then some ([], cs)
    else (cutOnce sep cs).map fun p => (c :: p.1, p.2)

def split (sep : Char) (s : String) : List String :=
  (splitAll sep s.toList).map String.ofList

def cut (sep : Char) (s : String) : Option (String × String) :=
  (cutOnce sep s.toList).map fun p => (String.ofList p.1, String.ofList p.2)

/-- Whether `s` begins with `start`. -/
def begins (start s : String) : Bool := start.toList.isPrefixOf s.toList

/-- What follows `start` at the beginning of a text. -/
def dropStart? : List Char → List Char → Option (List Char)
  | [], cs => some cs
  | _ :: _, [] => none
  | p :: ps, c :: cs => if p = c then dropStart? ps cs else none

/-- What stands before `ending` at the end of a text. -/
def dropEnd? (ending cs : List Char) : Option (List Char) :=
  (dropStart? ending.reverse cs.reverse).map List.reverse

theorem dropStart?_eq_some_iff {start cs rest : List Char} :
    dropStart? start cs = some rest ↔ cs = start ++ rest := by
  induction start generalizing cs with
  | nil => simp [dropStart?]
  | cons p start ih =>
    cases cs with
    | nil => simp [dropStart?]
    | cons c cs =>
      by_cases h : p = c
      · subst h
        simp [dropStart?, ih]
      · simp [dropStart?, h, Ne.symm h]

theorem dropEnd?_eq_some_iff {ending cs before : List Char} :
    dropEnd? ending cs = some before ↔ cs = before ++ ending := by
  rw [dropEnd?, Option.map_eq_some_iff]
  constructor
  · rintro ⟨rest, hrest, rfl⟩
    rw [← List.reverse_inj, dropStart?_eq_some_iff.mp hrest]
    simp
  · rintro rfl
    exact ⟨before.reverse, dropStart?_eq_some_iff.mpr List.reverse_append, List.reverse_reverse before⟩

@[simp] theorem splitAll_ne_nil (sep : Char) (cs : List Char) : splitAll sep cs ≠ [] := by
  cases cs with
  | nil => simp [splitAll]
  | cons c cs =>
    simp only [splitAll]
    split
    · simp
    · split <;> simp

@[simp] theorem joinAll_splitAll (sep : Char) (cs : List Char) :
    joinAll sep (splitAll sep cs) = cs := by
  induction cs with
  | nil => rfl
  | cons c cs ih =>
    simp only [splitAll]
    split
    · rename_i h
      cases hs : splitAll sep cs with
      | nil => exact absurd hs (splitAll_ne_nil sep cs)
      | cons part parts => simp [joinAll, ← hs, ih, h]
    · cases hs : splitAll sep cs with
      | nil => exact absurd hs (splitAll_ne_nil sep cs)
      | cons part parts =>
        rw [hs] at ih
        cases parts <;> simp_all [joinAll]

theorem splitAll_append {sep : Char} {part : List Char} (h : sep ∉ part) (cs : List Char) :
    splitAll sep (part ++ sep :: cs) = part :: splitAll sep cs := by
  induction part with
  | nil => simp [splitAll]
  | cons c part ih =>
    simp only [List.mem_cons, not_or] at h
    simp [splitAll, Ne.symm h.1, ih h.2]

theorem splitAll_of_notMem {sep : Char} {part : List Char} (h : sep ∉ part) :
    splitAll sep part = [part] := by
  induction part with
  | nil => rfl
  | cons c part ih =>
    simp only [List.mem_cons, not_or] at h
    simp [splitAll, Ne.symm h.1, ih h.2]

theorem splitAll_joinAll {sep : Char} {parts : List (List Char)} (hparts : parts ≠ [])
    (h : ∀ part ∈ parts, sep ∉ part) : splitAll sep (joinAll sep parts) = parts := by
  fun_induction joinAll sep parts with
  | case1 => exact absurd rfl hparts
  | case2 part => exact splitAll_of_notMem (h part (List.mem_singleton_self part))
  | case3 part parts hne ih =>
    rw [splitAll_append (h part List.mem_cons_self)]
    rw [ih hne fun p hp => h p (List.mem_cons_of_mem part hp)]

theorem mem_joinAll {sep c : Char} {parts : List (List Char)} (h : c ∈ joinAll sep parts) :
    c = sep ∨ ∃ part ∈ parts, c ∈ part := by
  fun_induction joinAll sep parts with
  | case1 => cases h
  | case2 part => exact .inr ⟨part, List.mem_singleton_self part, h⟩
  | case3 part parts hne ih =>
    rcases List.mem_append.mp h with h | h
    · exact .inr ⟨part, List.mem_cons_self, h⟩
    · rcases List.mem_cons.mp h with h | h
      · exact .inl h
      · exact (ih h).imp id fun ⟨p, hp, hc⟩ => ⟨p, List.mem_cons_of_mem part hp, hc⟩

theorem cutOnce_eq_some {sep : Char} {cs before behind : List Char}
    (h : cutOnce sep cs = some (before, behind)) : cs = before ++ sep :: behind := by
  induction cs generalizing before with
  | nil => simp [cutOnce] at h
  | cons c cs ih =>
    simp only [cutOnce] at h
    split at h
    · simp_all
    · obtain ⟨⟨b, e⟩, hc, hp⟩ := Option.map_eq_some_iff.1 h
      cases hp
      rw [ih hc, List.cons_append]

@[simp] theorem cutOnce_append {sep : Char} {before : List Char} (h : sep ∉ before)
    (behind : List Char) : cutOnce sep (before ++ sep :: behind) = some (before, behind) := by
  induction before with
  | nil => simp [cutOnce]
  | cons c cs ih =>
    simp only [List.mem_cons, not_or] at h
    simp [cutOnce, Ne.symm h.1, ih h.2]

/-- A text is cut at a separator in one way only, if there is none behind it. -/
theorem cut_inj {sep : Char} {before behind before' behind' : List Char} (h : sep ∉ behind)
    (h' : sep ∉ behind') (heq : before ++ sep :: behind = before' ++ sep :: behind') :
    before = before' ∧ behind = behind' := by
  have hreverse : behind.reverse ++ sep :: before.reverse =
      behind'.reverse ++ sep :: before'.reverse := by simpa using congrArg List.reverse heq
  have hcut := congrArg (cutOnce sep) hreverse
  rw [cutOnce_append (by simpa using h), cutOnce_append (by simpa using h')] at hcut
  simpa [and_comm] using hcut

end ContainerPorts.Text
