import ContainerPorts.Proofs.Monitor
import ContainerPorts.Proofs.RecordStore
import ContainerPorts.Proofs.Text.Cutting

/-!
# Which files the store touches

Whatever is done for a pair of names is done to its own two files. For names that the store takes,
these are entries of the directory itself. So the file of a pair stays as it was put, as long as
nothing is done for a pair with the same file.
-/
namespace ContainerPorts

/-- The names of the files that a call is about. -/
def FileCall.names : FileCall → List String
  | .prepare => []
  | .read name => [name]
  | .write name _ => [name]
  | .rename source target => [source, target]
  | .remove name => [name]

namespace Directory

variable {d d' : Directory} {name source target : String} {b : Bytes}

/-- Calls that are not about a file leave its content. -/
theorem content_answer {c : FileCall} (hname : name ∉ c.names) (h : d.content name = .ok b) :
    (d.answer c).2.content name = .ok b := by
  obtain _ | entries := d
  · simp only [content, nameFault?] at h
    split_ifs at h
  have kept (t : Table Entry) (ht : Directory.entry? (some t) name =
      Directory.entry? (some entries) name) : Directory.content (some t) name = .ok b := by
    rw [← h]
    simp only [content, nameFault?, ht]
  cases c with
  | prepare => exact h
  | read other => exact h
  | write other b' =>
    rw [answer]
    split
    · exact h
    · exact kept _ (entry?_put_of_ne (by simpa [FileCall.names] using hname) _ _)
  | rename source target =>
    obtain ⟨hsource, htarget⟩ : name ≠ source ∧ name ≠ target := by
      simpa [FileCall.names] using hname
    rw [answer]
    split
    · exact h
    · split
      · exact h
      · exact kept _ ((entry?_put_of_ne htarget _ _).trans (entry?_drop_of_ne hsource _))
  | remove other =>
    rw [answer]
    split
    · exact h
    · exact kept _ (entry?_drop_of_ne (by simpa [FileCall.names] using hname) _)

theorem nameFault?_of_writeFault? (h : d.writeFault? name = none) : d.nameFault? name = none := by
  unfold writeFault? at h
  split at h
  · cases h
  · assumption

theorem content_of_write {x : Unit} (h : d.answer (.write name b) = (.ok x, d')) :
    d'.content name = .ok b := by
  rw [answer] at h
  split at h
  · cases congrArg Prod.fst h
  · rename_i hfault
    obtain rfl := congrArg Prod.snd h
    exact content_put hfault

theorem content_of_rename {x : Unit} (h : d.answer (.rename source target) = (.ok x, d')) :
    d'.content target = d.content source := by
  rw [answer] at h
  split at h
  · cases congrArg Prod.fst h
  rename_i b hsource
  split at h
  · cases congrArg Prod.fst h
  rename_i hfault
  obtain rfl := congrArg Prod.snd h
  have hname := nameFault?_of_writeFault? hfault
  obtain _ | entries := d
  · simp only [nameFault?] at hname
    split_ifs at hname
  have hput : ((drop (some entries) source).put target (.file b)).nameFault? target = none := hname
  rw [hsource]
  simp only [content, hput, entry?_put_self]

end Directory

namespace RecordStore

variable {dir containerId ifname name : String} {d : Directory} {p : String × String}

/-- Calls about the file with this name and its temporary one. -/
def Concerns (file : String) (c : FileCall) : Prop :=
  ∀ name ∈ c.names, name = file ∨ name = temporary file

theorem asks_demand {P : FileCall → Prop} {at_ : String} {c : FileCall}
    {next : Program fileCalls (Except StoreError Unit)} (hc : P c) (hnext : next.Asks P) :
    (demand at_ c next).Asks P := by
  refine (Program.asks_ask _ _).mpr ⟨hc, fun x => ?_⟩
  cases x with
  | error e => exact Program.asks_done _
  | ok x => exact hnext

/-- Whatever is done for a pair is done to its own files. -/
theorem program_concerns (o : Operation) (dir : String) :
    (o.program dir).Asks (Concerns (fileName o.pair.1 o.pair.2)) := by
  cases haccept : o.isAccepted with
  | false =>
    obtain ⟨part, hname⟩ := fileName?_of_not haccept
    have rejected {α : Type} (e : StoreError) {P : FileCall → Prop} :
        Program.Asks (S := fileCalls) P (.done (Except.error e : Except StoreError α)) :=
      Program.asks_done _
    cases o <;> simp only [Operation.pair] at hname <;>
      simp only [Operation.program, get, put, delete, hname] <;> exact rejected _
  | true =>
    have hname := fileName?_of_isAccepted haccept
    generalize fileName o.pair.1 o.pair.2 = file at hname ⊢
    have reads : Concerns file (.read file) := List.forall_mem_singleton.mpr (.inl rfl)
    have removes : Concerns file (.remove file) := List.forall_mem_singleton.mpr (.inl rfl)
    have writes (b : Bytes) : Concerns file (.write (temporary file) b) :=
      List.forall_mem_singleton.mpr (.inr rfl)
    have renames : Concerns file (.rename (temporary file) file) :=
      List.forall_mem_cons.mpr ⟨.inr rfl, List.forall_mem_singleton.mpr (.inl rfl)⟩
    cases o <;> simp only [Operation.pair] at hname
    case put r =>
      rw [Operation.program, put_eq hname]
      exact asks_demand (List.forall_mem_nil _)
        (asks_demand (writes _) (asks_demand renames (Program.asks_done _)))
    case get containerId ifname =>
      rw [Operation.program, get_eq hname]
      exact (Program.asks_ask _ _).mpr ⟨reads, fun x => Program.asks_done _⟩
    case delete containerId ifname =>
      rw [Operation.program, delete_eq hname]
      exact (Program.asks_ask _ _).mpr ⟨removes, fun x => Program.asks_done _⟩

/-- Operations for pairs that are joined otherwise leave the file of a pair. -/
theorem content_run {o : Operation} {b : Bytes} (hne : joined o.pair ≠ joined p)
    (h : d.content (fileName p.1 p.2) = .ok b) :
    (o.run dir d).2.content (fileName p.1 p.2) = .ok b := by
  refine (program_concerns o dir).runWith
    (J := fun d' : Directory => d'.content (fileName p.1 p.2) = .ok b) (fun c d' hc hd' => ?_) h
  refine Directory.content_answer (fun hmem => ?_) hd'
  rcases hc _ hmem with hfile | htemporary
  · exact hne (fileName_eq_iff.mp hfile).symm
  · exact fileName_ne_temporary _ _ _ htemporary

/-- A program that succeeds has gone on after each call that must not fail. -/
theorem exists_of_run_demand {path : String} {c : FileCall}
    {next : Program fileCalls (Except StoreError Unit)}
    (h : ((demand path c next).runWith (fun c d => d.answer c) d).1 = .ok ()) :
    ∃ x d', d.answer c = (.ok x, d') ∧ (demand path c next).runWith (fun c d => d.answer c) d =
      next.runWith (fun c d => d.answer c) d' := by
  rw [run_demand] at h ⊢
  rcases hanswer : d.answer c with ⟨e | x, d'⟩
  · rw [hanswer] at h
    cases h
  · exact ⟨x, d', rfl, rfl⟩

/-- A record that was put is the content of its file. -/
theorem content_run_put {r : InterfaceRecord} (h : ((Operation.put r).run dir d).1 = .ok ()) :
    (Operation.put r).isAccepted = true ∧
      ((Operation.put r).run dir d).2.content (fileName r.containerId r.ifname) =
        .ok (Utf8.encode r.toJson.lines) := by
  cases haccept : (Operation.put r).isAccepted with
  | false =>
    obtain ⟨part, hname⟩ := fileName?_of_not haccept
    rw [Operation.pair] at hname
    simp only [Operation.run, Operation.program, put, hname] at h
    cases h
  | true =>
    have hname : fileName? r.containerId r.ifname = .ok (fileName r.containerId r.ifname) :=
      fileName?_of_isAccepted haccept
    rw [Operation.run, Operation.program, put_eq hname] at h ⊢
    generalize fileName r.containerId r.ifname = name at h ⊢
    obtain ⟨_, d₁, hprepare, hrun⟩ := exists_of_run_demand h
    rw [hrun] at h ⊢
    obtain ⟨_, d₂, hwrite, hrun⟩ := exists_of_run_demand h
    rw [hrun] at h ⊢
    obtain ⟨_, d₃, hrename, hrun⟩ := exists_of_run_demand h
    rw [hrun]
    have hwritten := Directory.content_of_write hwrite
    exact ⟨rfl, (Directory.content_of_rename hrename).trans hwritten⟩

theorem sorted_of_put {r : InterfaceRecord} {d' : Directory} (hd : d.entries.Sorted)
    (h : (Operation.put r).run dir d = (.ok (), d')) : d'.entries.Sorted := by
  obtain ⟨haccept, -⟩ := content_run_put (congrArg Prod.fst h)
  have hquiet : IsQuiet ((Operation.put r).run dir d).1 := by
    rw [h]
    nofun
  obtain rfl := (Prod.mk.inj (h.symm.trans (run_put haccept hquiet))).2
  exact sorted_filed hd r

/-- A file that can be read is removed. -/
theorem run_delete_of_content {b : Bytes}
    (haccept : (Operation.delete containerId ifname).isAccepted = true)
    (h : d.content (fileName containerId ifname) = .ok b) :
    (Operation.delete containerId ifname).run dir d =
      (.ok (), d.drop (fileName containerId ifname)) := by
  have hname : fileName? containerId ifname = .ok (fileName containerId ifname) :=
    fileName?_of_isAccepted haccept
  rw [Operation.run, Operation.program, delete_eq hname, Program.runWith_ask]
  simp only [Directory.answer, h]
  rfl

/-! ### The directory -/

/-- The path of a name takes one step from the directory, and that leads to an entry of it. -/
def IsChild (dir name : String) : Prop :=
  Text.split '/' (path dir name) = Text.split '/' dir ++ [name] ∧
    name ≠ "" ∧ name ≠ "." ∧ name ≠ ".."

theorem isKey_iff :
    isKey name = true ↔ name ≠ "" ∧ name ≠ "." ∧ name ≠ ".." ∧ '/' ∉ name.toList := by
  simp [isKey, and_assoc]

theorem isChild_of_isKey (dir : String) (h : isKey name = true) : IsChild dir name := by
  obtain ⟨hempty, hdot, hdots, hslash⟩ := isKey_iff.mp h
  refine ⟨?_, hempty, hdot, hdots⟩
  have hpath : (path dir name).toList = dir.toList ++ '/' :: name.toList := by simp [path]
  rw [Text.split, hpath, Text.splitAll_append_cons, Text.splitAll_of_notMem hslash]
  simp [Text.split]

/-- What follows a name is no slash and makes it longer than two characters. -/
theorem isKey_append {ending : String} (hname : '/' ∉ name.toList) (hending : '/' ∉ ending.toList)
    (hlength : 2 < ending.toList.length) : isKey (name ++ ending) = true := by
  have ne_of_short {s : String} (hs : s.toList.length ≤ 2) : name ++ ending ≠ s := by
    rintro rfl
    rw [String.toList_append, List.length_append] at hs
    omega
  have hempty : name ++ ending ≠ "" := ne_of_short (by decide)
  have hdot : name ++ ending ≠ "." := ne_of_short (by decide)
  have hdots : name ++ ending ≠ ".." := ne_of_short (by decide)
  have hslash : '/' ∉ (name ++ ending).toList := by simp [hname, hending]
  exact isKey_iff.mpr ⟨hempty, hdot, hdots, hslash⟩

theorem isKey_fileName (hc : isKey containerId = true) (hi : isKey ifname = true) :
    isKey (fileName containerId ifname) = true := by
  obtain ⟨-, -, -, hcslash⟩ := isKey_iff.mp hc
  obtain ⟨-, -, -, hislash⟩ := isKey_iff.mp hi
  refine isKey_append ?_ (by decide) (by decide)
  simp [hcslash, hislash]

theorem isKey_temporary (h : isKey name = true) : isKey (temporary name) = true :=
  isKey_append (isKey_iff.mp h).2.2.2 (by decide) (by decide)

/-- Calls about entries of the directory itself. -/
def Stays (dir : String) (c : FileCall) : Prop := ∀ name ∈ c.names, IsChild dir name

/-- For a pair that the store takes, all files that are touched are in the directory itself. -/
theorem program_stays {o : Operation} (h : o.isAccepted = true) (dir : String) :
    (o.program dir).Asks (Stays dir) := by
  obtain ⟨hc, hi⟩ := Bool.and_eq_true_iff.mp h
  have hfile := isKey_fileName hc hi
  refine (program_concerns o dir).mono fun c hnames name hmem => ?_
  rcases hnames name hmem with rfl | rfl
  · exact isChild_of_isKey dir hfile
  · exact isChild_of_isKey dir (isKey_temporary hfile)

end RecordStore

end ContainerPorts
