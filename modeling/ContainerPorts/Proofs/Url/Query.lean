import ContainerPorts.Proofs.Text.Percent
import ContainerPorts.Text.Split
import ContainerPorts.Url.Query

/-!
# A query tells its values

The written form of a value can be read back, and the marks that divide a query are not in it.
So two queries that are the same have the same values, whatever characters these have.
-/
namespace ContainerPorts.Url

open Utf8

theorem isFormChar_of_isAlphanum {c : Char} (h : c.isAlphanum = true) : isFormChar c = true := by
  simp [isFormChar, h]

theorem isFormChar_of_mem_encodeChar {c d : Char} (h : d ∈ Percent.encodeChar isFormChar c)
    (hd : d ≠ '%') : isFormChar d = true := by
  rw [Percent.encodeChar] at h
  split at h
  · rename_i hc
    rwa [List.mem_singleton.mp h]
  · obtain ⟨b, -, hb⟩ := List.mem_flatMap.mp h
    exact isFormChar_of_isAlphanum (Percent.isAlphanum_of_mem_encodeByte hb hd)

theorem mem_formChars {cs : List Char} {d : Char} (h : d ∈ formChars cs) :
    isFormChar d = true ∨ d = '+' ∨ d = '%' := by
  obtain ⟨c, -, hc⟩ := List.mem_flatMap.mp h
  split at hc
  · exact .inr (.inl (List.mem_singleton.mp hc))
  · by_cases hd : d = '%'
    · exact .inr (.inr hd)
    · exact .inl (isFormChar_of_mem_encodeChar hc hd)

/-- The bytes that the written form of a value stands for. -/
def readForm (cs : List Char) : Bytes :=
  Percent.decode (bytes (cs.map fun c => if c = '+' then ' ' else c))

theorem map_encodeChar (c : Char) :
    ((Percent.encodeChar isFormChar c).map fun d => if d = '+' then ' ' else d) =
      Percent.encodeChar isFormChar c := by
  conv_rhs => rw [← List.map_id (Percent.encodeChar isFormChar c)]
  refine List.map_congr_left fun d hd => if_neg ?_
  rintro rfl
  exact absurd (isFormChar_of_mem_encodeChar hd (by decide)) (by decide)

theorem readForm_formChars (cs : List Char) : readForm (formChars cs) = bytes cs := by
  induction cs with
  | nil => rfl
  | cons c cs ih =>
    rw [readForm, formChars] at ih ⊢
    rw [List.flatMap_cons, List.map_append, bytes_append, bytes_cons]
    split
    · rename_i hc
      subst hc
      have hspace : bytes (['+'].map fun d => if d = '+' then ' ' else d) = [0x20] := by decide
      rw [hspace, Percent.decode_append_of_notMem (by decide), ih]
      rfl
    · have hkeep : isFormChar c = true → c ≠ '%' := by
        rintro h rfl
        exact absurd h (by decide)
      rw [map_encodeChar, Percent.decode_encodeChar hkeep, ih]

theorem formChars_injective : Function.Injective formChars := by
  intro cs ds h
  have hbytes : bytes cs = bytes ds := by rw [← readForm_formChars, h, readForm_formChars]
  have hdecode := congrArg decode? hbytes
  rwa [decode?_bytes, decode?_bytes, Option.some.injEq, String.ofList_inj] at hdecode

/-- What follows a pair in a query. -/
def pairsBehind : List (String × String) → List Char
  | [] => []
  | pairs => '&' :: pairsChars pairs

theorem pairsChars_cons (p : String × String) (pairs : List (String × String)) :
    pairsChars (p :: pairs) = pairChars p ++ pairsBehind pairs := by
  cases pairs with
  | nil => exact (List.append_nil _).symm
  | cons q pairs => rfl

theorem exists_query_withPairs (u : Url) (name value : String) (rest : List (String × String)) :
    ∃ before, (u.withPairs ((name, value) :: rest)).query =
      some (before ++ '=' :: formChars value.toList ++ pairsBehind rest) := by
  simp only [withPairs]
  split
  · rename_i c cs h
    refine ⟨c :: cs ++ '&' :: formChars name.toList, ?_⟩
    simp [pairsChars_cons, pairChars]
  · refine ⟨formChars name.toList, ?_⟩
    simp [pairsChars_cons, pairChars]

/-- Of two requests for the same URL, the values of their first pairs are the same. -/
theorem withPairs_inj {u v : Url} {name value value' : String} {rest : List (String × String)}
    (h : u.withPairs ((name, value) :: rest) = v.withPairs ((name, value') :: rest)) :
    value = value' := by
  have notMem (cs : List Char) : '=' ∉ formChars cs := fun hmem =>
    absurd (mem_formChars hmem) (by decide)
  obtain ⟨before, hquery⟩ := exists_query_withPairs u name value rest
  obtain ⟨before', hquery'⟩ := exists_query_withPairs v name value' rest
  rw [h, hquery'] at hquery
  have hcut := List.append_cancel_right (Option.some.inj hquery)
  have hform := (Text.cut_inj (notMem _) (notMem _) hcut).2
  exact String.toList_inj.mp (formChars_injective hform).symm

end ContainerPorts.Url
