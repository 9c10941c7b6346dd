import ContainerPorts.Proofs.RecordFiles

/-!
# Puts that do not succeed

The file system may fail any call, and a file that could not be written may be there in part. A
crash may stop a put before any of its calls, or in the middle of one. As long as its file was not
renamed, a put has touched only its temporary file, which no record is read from. It may have
created the directory, though, and then a name that is too long for a file is refused, where before
nothing could be found.
-/
namespace ContainerPorts

namespace FileCall

/-- What a call can come to where the file system may fail. -/
inductive Outcome (d : Directory) : (c : FileCall) → c.Answer → Directory → Prop
  | performed {c : FileCall} {x : c.Answer} {d' : Directory} (h : d.answer c = (x, d')) :
    Outcome d c x d'
  /-- Nothing was changed. -/
  | failed (c : FileCall) (e : FileFault) : Outcome d c (.error e) d
  /-- Not all of the content was written. -/
  | torn (name : String) (b part : Bytes) (e : FileFault) (h : d.writeFault? name = none) :
    Outcome d (.write name b) (.error e) (d.put name (.file part))

end FileCall

open FileCall (Outcome)

/-- A program has stopped, with its result or in a crash, and has left a directory behind. -/
inductive Stopped {α : Type} : Program fileCalls α → Directory → Option α → Directory → Prop
  | ended (a : α) (d : Directory) : Stopped (.done a) d (some a) d
  /-- A crash comes before the next call. -/
  | before (c : FileCall) (next : c.Answer → Program fileCalls α) (d : Directory) :
    Stopped (.ask c next) d none d
  /-- A crash comes before a call has succeeded. -/
  | during {c : FileCall} {next : c.Answer → Program fileCalls α} {d d' : Directory} {e : FileFault}
    (h : Outcome d c (.error e) d') : Stopped (.ask c next) d none d'
  | answered {c : FileCall} {next : c.Answer → Program fileCalls α} {d d' d'' : Directory}
    {x : c.Answer} {a : Option α} (h : Outcome d c x d') (rest : Stopped (next x) d' a d'') :
    Stopped (.ask c next) d a d''

/-- Where nothing fails, a program stops at its end. -/
theorem stopped_runWith {α : Type} (p : Program fileCalls α) (d : Directory) :
    Stopped p d (some (p.runWith (fun c d => d.answer c) d).1)
      (p.runWith (fun c d => d.answer c) d).2 := by
  induction p generalizing d with
  | done a => exact .ended a d
  | ask c next ih => exact .answered (.performed rfl) (ih _ _)

/-! ### What a call that failed has done -/

theorem Directory.eq_of_answer_error {d d' : Directory} {c : FileCall} {e : FileFault}
    (h : d.answer c = (.error e, d')) : d' = d := by
  cases c with
  | prepare => cases congrArg Prod.fst h
  | read name => exact (congrArg Prod.snd h).symm
  | write name b =>
    rw [answer] at h
    split at h
    · exact (congrArg Prod.snd h).symm
    · cases congrArg Prod.fst h
  | rename source target =>
    rw [answer] at h
    split at h
    · exact (congrArg Prod.snd h).symm
    · split at h
      · exact (congrArg Prod.snd h).symm
      · cases congrArg Prod.fst h
  | remove name =>
    rw [answer] at h
    split at h
    · exact (congrArg Prod.snd h).symm
    · cases congrArg Prod.fst h

/-- Only the file of one name has changed, and the directory is there if it was before. -/
structure Directory.Spares (name : String) (d d' : Directory) : Prop where
  others : ∀ other, other ≠ name → d'.entry? other = d.entry? other
  remains : d ≠ none → d' ≠ none

namespace Directory.Spares

variable {d d' d'' : Directory} {name : String}

theorem refl (name : String) (d : Directory) : Spares name d d := ⟨fun _ _ => rfl, id⟩

theorem trans (h : Spares name d d') (h' : Spares name d' d'') : Spares name d d'' where
  others other hne := (h'.others other hne).trans (h.others other hne)
  remains := h'.remains ∘ h.remains

theorem put (name : String) (d : Directory) (e : Entry) : Spares name d (d.put name e) where
  others _ hne := entry?_put_of_ne hne d e
  remains _ := nofun

theorem prepare (name : String) (d : Directory) : Spares name d (some d.entries) where
  others _ _ := rfl
  remains _ := nofun

end Directory.Spares

/-- A call that failed has touched no file but one that was to be written. -/
theorem FileCall.Outcome.spares_of_error {d d' : Directory} {c : FileCall} {e : FileFault}
    {name : String} (h : Outcome d c (.error e) d') (hname : ∀ n b, c = .write n b → n = name) :
    d.Spares name d' := by
  cases h with
  | performed h =>
    obtain rfl := Directory.eq_of_answer_error h
    exact .refl name _
  | failed => exact .refl name d
  | torn n b part _ _ =>
    obtain rfl := hname n b rfl
    exact .put n d _

/-- A file is had as before. Only where there was no directory, a name that is too long for a file
is refused now, and before nothing was found under it. -/
theorem Directory.Spares.content_cases {d d' : Directory} {name other : String}
    (h : Spares name d d') (hne : other ≠ name) :
    d'.content other = d.content other ∨
      d = none ∧ d' ≠ none ∧ nameLimit < other.utf8ByteSize ∧
        d.content other = .error .missing ∧ d'.content other = .error .refused := by
  have hentry := h.others other hne
  cases d with
  | some entries =>
    left
    cases d' with
    | none => exact absurd rfl (h.remains nofun)
    | some entries' => simp only [content, nameFault?, hentry]
  | none =>
    cases d' with
    | none => exact .inl rfl
    | some entries' =>
      have hnone : Directory.entry? (some entries') other = none := hentry
      by_cases hpath : '\x00' ∈ other.toList ∨ pathLimit ≤ other.utf8ByteSize
      · left
        simp only [content, nameFault?, if_pos hpath]
      · by_cases hlong : nameLimit < other.utf8ByteSize
        · right
          refine ⟨rfl, nofun, hlong, ?_, ?_⟩ <;>
            simp only [content, nameFault?, if_neg hpath, if_pos hlong]
        · left
          simp only [content, nameFault?, if_neg hpath, if_neg hlong, hnone]

/-! ### Names that are too long -/

namespace Directory

variable {name : String}

theorem nameFault?_none (hnul : '\x00' ∉ name.toList) (hpath : name.utf8ByteSize < pathLimit) :
    nameFault? none name = some .missing := by
  simp only [nameFault?, hnul, Nat.not_le.mpr hpath, or_self, if_false]

theorem nameFault?_some_of_long (hnul : '\x00' ∉ name.toList)
    (hpath : name.utf8ByteSize < pathLimit) (hlong : nameLimit < name.utf8ByteSize)
    (files : Table Entry) : nameFault? (some files) name = some .refused := by
  simp only [nameFault?, hnul, Nat.not_le.mpr hpath, or_self, if_false, if_pos hlong]

end Directory

namespace RecordStore

variable {dir containerId ifname name : String} {d d' : Directory} {r : InterfaceRecord}

/-- Where a call must not fail, a program stops at that call or goes on after it. -/
theorem stopped_demand (name : String) {path : String} {c : FileCall}
    {next : Program fileCalls (Except StoreError Unit)} {a : Option (Except StoreError Unit)}
    (h : Stopped (demand path c next) d a d') (hname : ∀ n b, c = .write n b → n = name) :
    d.Spares name d' ∨ ∃ x d₁, Outcome d c (.ok x) d₁ ∧ Stopped next d₁ a d' := by
  cases h with
  | before => exact .inl (.refl name d)
  | during h => exact .inl (h.spares_of_error hname)
  | @answered _ _ _ d₁ _ x _ h rest =>
    cases x with
    | error e =>
      cases rest
      exact .inl (h.spares_of_error hname)
    | ok x => exact .inr ⟨x, d₁, h, rest⟩

/-- A put that did not succeed has touched no file but its temporary one. -/
theorem spares_of_stopped_put {a : Option (Except StoreError Unit)}
    (h : Stopped (put dir r) d a d') (ha : a ≠ some (.ok ())) :
    d.Spares (temporary (fileName r.containerId r.ifname)) d' := by
  cases haccept : (Operation.put r).isAccepted with
  | false =>
    obtain ⟨part, hname⟩ := fileName?_of_not haccept
    rw [Operation.pair] at hname
    have hput : put dir r = .done (.error (.invalidKey part)) := by
      simp only [put, hname]
      rfl
    rw [hput] at h
    cases h
    exact .refl _ _
  | true =>
    have hname : fileName? r.containerId r.ifname = .ok (fileName r.containerId r.ifname) :=
      fileName?_of_isAccepted haccept
    rw [put_eq hname] at h
    generalize temporary (fileName r.containerId r.ifname) = tmp at h ⊢
    rcases stopped_demand tmp h (fun _ _ hc => by cases hc) with h | ⟨_, d₁, hprepare, h⟩
    · exact h
    have hprepared : d.Spares tmp d₁ := by
      cases hprepare with
      | performed h =>
        obtain rfl : some d.entries = d₁ := congrArg Prod.snd h
        exact .prepare tmp d
    refine hprepared.trans ?_
    rcases stopped_demand tmp h (by simp) with h | ⟨_, d₂, hwrite, h⟩
    · exact h
    have hwritten : d₁.Spares tmp d₂ := by
      cases hwrite with
      | performed h =>
        rw [Directory.answer] at h
        split at h
        · cases congrArg Prod.fst h
        · obtain rfl := congrArg Prod.snd h
          exact .put tmp d₁ _
    refine hwritten.trans ?_
    rcases stopped_demand tmp h (fun _ _ hc => by cases hc) with h | ⟨_, d₃, -, h⟩
    · exact h
    -- Once its file is renamed, the put has succeeded.
    cases h
    exact absurd rfl ha

/-! ### Reads after a put -/

/-- Wherever a put stops without success, all reads give what they gave before, but for names that
are too long for a file, if the put has created the directory. And whatever is done for a pair that
the store takes, only entries of the directory itself are touched. -/
theorem reads_after_stopped_put (dir : String) (d d' : Directory) (r : InterfaceRecord)
    (a : Option (Except StoreError Unit)) (h : Stopped (put dir r) d a d')
    (ha : a ≠ some (.ok ())) :
    (∀ containerId ifname,
      let read := (Operation.get containerId ifname).run dir
      let name := fileName containerId ifname
      (read d').1 = (read d).1 ∨
        d = none ∧ d' ≠ none ∧ Directory.nameLimit < name.utf8ByteSize ∧
          (read d).1 = .error (.notFound containerId ifname) ∧
          (read d').1 = .error (.file (path dir name) .refused)) ∧
      ∀ o : Operation, o.isAccepted = true → (o.program dir).Asks (Stays dir) := by
  refine ⟨fun containerId ifname => ?_, fun o ho => program_stays ho dir⟩
  dsimp only
  cases haccept : (Operation.get containerId ifname).isAccepted with
  | false =>
    obtain ⟨part, hname⟩ := fileName?_of_not haccept
    rw [Operation.pair] at hname
    left
    simp only [Operation.run, Operation.program, get, hname]
    rfl
  | true =>
    have hspares := spares_of_stopped_put h ha
    rw [run_get haccept, run_get haccept]
    rcases hspares.content_cases (fileName_ne_temporary containerId ifname _) with
      hsame | ⟨hd, hd', hlong, hbefore, hafter⟩
    · exact .inl (congrArg (reading dir containerId ifname _) hsame)
    · refine .inr ⟨hd, hd', hlong, ?_, ?_⟩
      · rw [hbefore]
        rfl
      · rw [hafter]
        rfl

/-- Where there is no directory, a put of a record whose file would have a name that is too long
fails only once the directory is there. -/
theorem stopped_put_of_long (hc : isKey r.containerId = true) (hi : isKey r.ifname = true)
    (hname : fileName r.containerId r.ifname = name) (hnul : '\x00' ∉ name.toList)
    (hpath : (temporary name).utf8ByteSize < Directory.pathLimit)
    (hlong : Directory.nameLimit < name.utf8ByteSize) (dir : String) :
    Stopped (put dir r) none (some (.error (.file (path dir (temporary name)) .refused)))
      (some []) := by
  have haccept : (Operation.put r).isAccepted = true := Bool.and_eq_true_iff.mpr ⟨hc, hi⟩
  have hnul' : '\x00' ∉ (temporary name).toList := by simp [temporary, hnul]
  have hlong' : Directory.nameLimit < (temporary name).utf8ByteSize := by
    rw [temporary, String.utf8ByteSize_append]
    exact Nat.lt_add_right _ hlong
  rw [put_eq (fileName?_of_isAccepted haccept), Operation.pair, hname]
  refine .answered (.performed rfl) (.answered (x := .error .refused) (.performed ?_) (.ended _ _))
  rw [Directory.answer, Directory.writeFault?,
    Directory.nameFault?_some_of_long hnul' hpath hlong']
  rfl

/-- A read of such a record finds nothing without the directory, and is refused with it. -/
theorem run_get_of_long (hc : isKey containerId = true) (hi : isKey ifname = true)
    (hname : fileName containerId ifname = name) (hnul : '\x00' ∉ name.toList)
    (hpath : name.utf8ByteSize < Directory.pathLimit)
    (hlong : Directory.nameLimit < name.utf8ByteSize) (dir : String) :
    ((Operation.get containerId ifname).run dir none).1 = .error (.notFound containerId ifname) ∧
      ((Operation.get containerId ifname).run dir (some [])).1 =
        .error (.file (path dir name) .refused) ∧
      ((Operation.get containerId ifname).run dir (some [])).1 ≠
        ((Operation.get containerId ifname).run dir none).1 := by
  have haccept : (Operation.get containerId ifname).isAccepted = true :=
    Bool.and_eq_true_iff.mpr ⟨hc, hi⟩
  rw [run_get haccept, run_get haccept, hname, Directory.content,
    Directory.nameFault?_none hnul hpath, Directory.content,
    Directory.nameFault?_some_of_long hnul hpath hlong]
  exact ⟨rfl, rfl, fun h => by cases h⟩

/-- A record whose file would have a name that is too long. -/
def longRecord : InterfaceRecord :=
  { containerId := String.ofList (List.replicate 250 'a'), ifname := "eth0" }

theorem notMem_longRecord {c : Char} (hc : c ≠ 'a') : c ∉ longRecord.containerId.toList := by
  have hchars : longRecord.containerId.toList = List.replicate 250 'a' := String.toList_ofList
  rw [hchars]
  exact fun h => hc (List.eq_of_mem_replicate h)

theorem isKey_longRecord : isKey longRecord.containerId = true := by
  have hlength : longRecord.containerId.toList.length = 250 := by
    rw [← List.length_replicate (n := 250) (a := 'a')]
    exact congrArg List.length String.toList_ofList
  have hkey : isKey ("" ++ longRecord.containerId) = true :=
    isKey_append (by decide) (notMem_longRecord (by decide)) (by rw [hlength]; decide)
  rwa [String.empty_append] at hkey

theorem nul_notMem_longRecord :
    '\x00' ∉ (fileName longRecord.containerId longRecord.ifname).toList := by
  have hletters : '\x00' ∉ longRecord.containerId.toList := notMem_longRecord (by decide)
  simp only [fileName, String.toList_append, List.mem_append, hletters, false_or]
  decide

theorem size_longRecord :
    (fileName longRecord.containerId longRecord.ifname).utf8ByteSize = 260 := by
  decide +kernel

/-- A put of this record fails, and so do reads of it from then on, which before found nothing. -/
theorem not_all_reads_unchanged :
    let read := (Operation.get longRecord.containerId longRecord.ifname).run "s"
    let fault (name : String) : StoreError := .file (path "s" name) .refused
    let name := fileName longRecord.containerId longRecord.ifname
    Stopped (put "s" longRecord) none (some (.error (fault (temporary name)))) (some []) ∧
      (read none).1 = .error (.notFound longRecord.containerId longRecord.ifname) ∧
      (read (some [])).1 = .error (fault name) ∧ (read (some [])).1 ≠ (read none).1 := by
  have hlong : Directory.nameLimit <
      (fileName longRecord.containerId longRecord.ifname).utf8ByteSize := by
    rw [size_longRecord]
    decide
  have hpath : (temporary (fileName longRecord.containerId longRecord.ifname)).utf8ByteSize <
      Directory.pathLimit := by
    rw [temporary, String.utf8ByteSize_append, size_longRecord]
    decide
  exact ⟨stopped_put_of_long isKey_longRecord (by decide) rfl nul_notMem_longRecord hpath hlong "s",
    run_get_of_long isKey_longRecord (by decide) rfl nul_notMem_longRecord
      (by rw [size_longRecord]; decide) hlong "s"⟩

/-- Half of a new record is written over a stored one, and then there is a crash: the stored record
is read as before. -/
theorem reads_after_stopped_put_torn :
    let d := filed dashedRecord none
    let d' := d.put (temporary "a-b-c.json") (.file [0x7B])
    Stopped (put "s" { dashedRecord with netns := "n" }) d none d' ∧
      ((Operation.get "a-b" "c").run "s" d').1 = .ok dashedRecord := by
  intro d d'
  have hstopped : Stopped (put "s" { dashedRecord with netns := "n" }) d none d' := by
    have hname : fileName? "a-b" "c" = .ok "a-b-c.json" := by decide
    rw [put_eq (r := { dashedRecord with netns := "n" }) hname]
    refine .answered (.performed rfl) (.during (.torn _ _ _ .refused ?_))
    decide
  obtain ⟨hreads, -⟩ := reads_after_stopped_put "s" d d' _ none hstopped
    (Option.some_ne_none _).symm
  refine ⟨hstopped, ?_⟩
  rcases hreads "a-b" "c" with hsame | ⟨hnone, -⟩
  · have hcontent : d.content (fileName "a-b" "c") =
        .ok (Utf8.encode dashedRecord.toJson.lines) := by
      have hfault : d.nameFault? (fileName "a-b" "c") = none := by decide
      rw [Directory.content, hfault]
      dsimp only [d]
      rw [entry?_filed dashedRecord none ("a-b", "c"), if_pos (by rfl)]
      rfl
    rw [hsame, run_get (by decide), hcontent, reading, InterfaceRecord.decoder_lines]
    rfl
  · exact absurd hnone (Option.some_ne_none _)

end RecordStore

end ContainerPorts
