import ContainerPorts.Proofs.Documents
import ContainerPorts.RecordStore
import ContainerPorts.Text.Split
import Mathlib.Data.List.Basic

/-!
# Histories of the record store

A record is kept in a file that is named after the container and the interface, with a
dash between them. So the store is a map from joined names. Pairs that are joined to the
same name share one file, and what is read under any of them is what was last put or
deleted under any of them. A pair that no other pair is joined like has a file of its
own. The temporary file of a put is never the file of a record.
-/
namespace ContainerPorts

/-- The text that a record is stored as is read as that record. -/
theorem InterfaceRecord.decoder_lines (r : InterfaceRecord) :
    InterfaceRecord.decoder.ofBytes (Utf8.encode r.toJson.lines) = .ok r :=
  (r.decoder_reads.readsBack (by decide)).2

namespace Directory

variable {d : Directory} {name other : String} {b : Bytes}

@[simp] theorem entry?_put_self (d : Directory) (name : String) (e : Entry) :
    Directory.entry? (d.put name e) name = some e := Table.find?_insert_self name e d.entries

theorem entry?_put_of_ne (h : other ≠ name) (d : Directory) (e : Entry) :
    Directory.entry? (d.put name e) other = d.entry? other := Table.find?_insert_of_ne h e d.entries

theorem entry?_drop_self (h : d.entries.Sorted) (name : String) :
    Directory.entry? (d.drop name) name = none := h.find?_erase_self name

theorem entry?_drop_of_ne (h : other ≠ name) (d : Directory) :
    Directory.entry? (d.drop name) other = d.entry? other := Table.find?_erase_of_ne h d.entries

/-- Unless the file system refuses it, a file is had if it is there. -/
theorem content_cases (h : d.content name ≠ .error .refused) :
    (∃ b, d.content name = .ok b ∧ d.entry? name = some (.file b)) ∨
      d.content name = .error .missing ∧ d.entry? name = none := by
  have hmissing (hfault : d.nameFault? name = some .missing) : d = none := by
    unfold nameFault? at hfault
    split at hfault
    · cases hfault
    · split at hfault
      · rfl
      · split at hfault <;> cases hfault
  cases hfault : d.nameFault? name with
  | some e =>
    cases e with
    | missing =>
      obtain rfl := hmissing hfault
      exact .inr ⟨by simp [content, hfault], rfl⟩
    | refused => simp [content, hfault] at h
  | none =>
    simp only [content, hfault] at h ⊢
    cases hentry : d.entry? name with
    | none => exact .inr ⟨rfl, rfl⟩
    | some e =>
      cases e with
      | file b => exact .inl ⟨b, rfl, rfl⟩
      | directory => simp [hentry] at h

/-- A file that could be written can be read. -/
theorem content_put (h : d.writeFault? name = none) :
    (d.put name (.file b)).content name = .ok b := by
  have hfault : d.nameFault? name = none := by
    cases hf : d.nameFault? name with
    | none => rfl
    | some e => simp [writeFault?, hf] at h
  have hput : (d.put name (.file b)).nameFault? name = none := by
    cases d with
    | none =>
      simp only [nameFault?] at hfault
      split at hfault <;> cases hfault
    | some entries => exact hfault
  simp [content, hput]

end Directory

namespace RecordStore

/-- One use of the store. -/
inductive Operation where
  | put (r : InterfaceRecord)
  | get (containerId ifname : String)
  | delete (containerId ifname : String)

/-- A result that is no fault of the file system. -/
def IsQuiet {α : Type} (x : Except StoreError α) : Prop :=
  ∀ path fault, x ≠ .error (.file path fault)

namespace Operation

abbrev Result : Operation → Type
  | .get _ _ => InterfaceRecord
  | _ => Unit

/-- The container and the interface. -/
def pair : Operation → String × String
  | .put r => (r.containerId, r.ifname)
  | .get containerId ifname => (containerId, ifname)
  | .delete containerId ifname => (containerId, ifname)

/-- Whether the store takes both parts of the pair. -/
def isAccepted (o : Operation) : Bool := isKey o.pair.1 && isKey o.pair.2

def program (dir : String) : (o : Operation) → Program fileCalls (Except StoreError o.Result)
  | .put r => RecordStore.put dir r
  | .get containerId ifname => RecordStore.get dir containerId ifname
  | .delete containerId ifname => RecordStore.delete dir containerId ifname

def run (dir : String) (o : Operation) (d : Directory) : Except StoreError o.Result × Directory :=
  (o.program dir).runWith (fun c d => d.answer c) d

/-- The record of the pair afterwards, where `held` was its record before. -/
def leave (held : Option InterfaceRecord) : Operation → Option InterfaceRecord
  | .put r => some r
  | .get _ _ => held
  | .delete _ _ => none

/-- The one record that is kept for some pairs. -/
def change (pairs : String × String → Prop) [DecidablePred pairs] (held : Option InterfaceRecord)
    (o : Operation) : Option InterfaceRecord :=
  if o.isAccepted ∧ pairs o.pair then o.leave held else held

end Operation

/-- The directory after some operations. -/
def after (dir : String) (ops : List Operation) (d : Directory) : Directory :=
  ops.foldl (fun d o => (o.run dir d).2) d

/-- The file system fails none of some operations. -/
def Unfailing (dir : String) : List Operation → Directory → Prop
  | [], _ => True
  | o :: ops, d => IsQuiet (o.run dir d).1 ∧ Unfailing dir ops (o.run dir d).2

/-- The record that was last put under some pairs and not deleted since under any of them. -/
def standing (pairs : String × String → Prop) [DecidablePred pairs] (ops : List Operation) :
    Option InterfaceRecord :=
  ops.foldl (Operation.change pairs) none

/-- What is read under a pair whose record stands, or that has none. -/
def found (p : String × String) : Option InterfaceRecord → Except StoreError InterfaceRecord
  | some r => .ok r
  | none => .error (.notFound p.1 p.2)

/-! ### File names -/

/-- A pair as it stands in a file name. -/
def joined (p : String × String) : String := p.1 ++ "-" ++ p.2

variable {dir containerId ifname name : String} {d : Directory} {r : InterfaceRecord}
  {p q : String × String}

theorem fileName_eq_iff : fileName p.1 p.2 = fileName q.1 q.2 ↔ joined p = joined q := by
  simp only [fileName, joined, ← String.toList_inj, String.toList_append]
  exact List.append_left_inj _

/-- Names of interfaces without dashes are told apart from the containers. -/
theorem eq_of_joined_eq (hp : '-' ∉ p.2.toList) (hq : '-' ∉ q.2.toList)
    (h : joined p = joined q) : p = q := by
  have hlist : p.1.toList ++ '-' :: p.2.toList = q.1.toList ++ '-' :: q.2.toList := by
    simpa [joined] using congrArg String.toList h
  obtain ⟨hcontainer, hifname⟩ := Text.cut_inj hp hq hlist
  exact Prod.ext (String.toList_inj.mp hcontainer) (String.toList_inj.mp hifname)

theorem fileName_ne_temporary (containerId ifname name : String) :
    fileName containerId ifname ≠ temporary name := by
  intro h
  have hends := congrArg (fun s : String => s.toList.reverse) h
  simp [fileName, temporary] at hends

theorem fileName?_of_isAccepted {o : Operation} (h : o.isAccepted = true) :
    fileName? o.pair.1 o.pair.2 = .ok (fileName o.pair.1 o.pair.2) := by
  obtain ⟨hc, hi⟩ := Bool.and_eq_true_iff.mp h
  simp only [fileName?, checkKey, hc, hi, if_true]
  rfl

theorem fileName?_of_not {o : Operation} (h : o.isAccepted = false) :
    ∃ part, fileName? o.pair.1 o.pair.2 = .error (.invalidKey part) := by
  cases hc : isKey o.pair.1 with
  | false => exact ⟨o.pair.1, by simp only [fileName?, checkKey, hc]; rfl⟩
  | true =>
    rw [Operation.isAccepted, hc, Bool.true_and] at h
    exact ⟨o.pair.2, by simp only [fileName?, checkKey, hc, h]; rfl⟩

/-! ### One operation -/

/-- What a read makes of the content of a file. -/
def reading (dir containerId ifname name : String) :
    Except FileFault Bytes → Except StoreError InterfaceRecord
  | .error e => .error (fileError dir containerId ifname name e)
  | .ok b => (InterfaceRecord.decoder.ofBytes b).mapError (.json (path dir name))

theorem get_eq (h : fileName? containerId ifname = .ok name) :
    get dir containerId ifname = Program.ask (S := fileCalls) (.read name) fun x =>
      .done (reading dir containerId ifname name x) := by
  simp only [get, h]
  refine congrArg (Program.ask (S := fileCalls) _) (funext fun x => ?_)
  cases x with
  | error e => rfl
  | ok b =>
    simp only [Program.bind, Function.comp_apply, ExceptT.bindCont, reading]
    cases InterfaceRecord.decoder.ofBytes b <;> rfl

theorem delete_eq (h : fileName? containerId ifname = .ok name) :
    delete dir containerId ifname = Program.ask (S := fileCalls) (.remove name) fun x =>
      .done (x.mapError (fileError dir containerId ifname name)) := by
  simp only [delete, h]
  refine congrArg (Program.ask (S := fileCalls) _) (funext fun x => ?_)
  cases x <;> rfl

/-- Go on after a call that must not fail. -/
def demand (path : String) (c : FileCall) (next : Program fileCalls (Except StoreError Unit)) :
    Program fileCalls (Except StoreError Unit) :=
  .ask (S := fileCalls) c fun x => match x with
    | .error e => .done (.error (.file path e))
    | .ok _ => next

theorem put_eq (h : fileName? r.containerId r.ifname = .ok name) :
    put dir r = demand dir .prepare (demand (path dir (temporary name))
      (.write (temporary name) (Utf8.encode r.toJson.lines)) (demand (path dir name)
        (.rename (temporary name) name) (.done (.ok ())))) := by
  simp only [put, h]
  refine congrArg (Program.ask (S := fileCalls) _) (funext fun x => ?_)
  cases x with
  | error e => rfl
  | ok _ =>
    refine congrArg (Program.ask (S := fileCalls) _) (funext fun x => ?_)
    cases x with
    | error e => rfl
    | ok _ =>
      refine congrArg (Program.ask (S := fileCalls) _) (funext fun x => ?_)
      cases x <;> rfl

theorem run_demand (path : String) (c : FileCall)
    (next : Program fileCalls (Except StoreError Unit)) (d : Directory) :
    (demand path c next).runWith (fun c d => d.answer c) d = match d.answer c with
      | (.error e, d') => (.error (.file path e), d')
      | (.ok _, d') => next.runWith (fun c d => d.answer c) d' := by
  rw [demand, Program.runWith_ask]
  dsimp only
  rcases d.answer c with ⟨x, d'⟩
  cases x <;> rfl

/-- The content of the file of a record. -/
def stored (r : InterfaceRecord) : Entry := .file (Utf8.encode r.toJson.lines)

/-- The directory with a record put into it. -/
def filed (r : InterfaceRecord) (d : Directory) : Directory :=
  let name := fileName r.containerId r.ifname
  ((Directory.put (some d.entries) (temporary name) (stored r)).drop (temporary name)).put name
    (stored r)

theorem run_put (h : (Operation.put r).isAccepted = true)
    (hquiet : IsQuiet ((Operation.put r).run dir d).1) :
    (Operation.put r).run dir d = (.ok (), filed r d) := by
  have hname : fileName? r.containerId r.ifname = .ok (fileName r.containerId r.ifname) :=
    fileName?_of_isAccepted h
  have hprepare : d.answer .prepare = (.ok (), some d.entries) := rfl
  simp only [Operation.run, Operation.program, put_eq hname, run_demand, hprepare] at hquiet ⊢
  simp only [Directory.answer] at hquiet ⊢
  generalize hn : fileName r.containerId r.ifname = name at hquiet ⊢
  cases hwrite : Directory.writeFault? (some d.entries) (temporary name) with
  | some e => simp [hwrite, IsQuiet] at hquiet
  | none =>
    simp only [hwrite, Directory.content_put hwrite] at hquiet ⊢
    cases hrename : Directory.writeFault? (Directory.put (some d.entries) (temporary name)
      (.file (Utf8.encode r.toJson.lines))) name with
    | some e => simp [hrename, IsQuiet] at hquiet
    | none =>
      rw [filed, hn]
      rfl

theorem sorted_filed (h : d.entries.Sorted) (r : InterfaceRecord) : (filed r d).entries.Sorted :=
  ((h.insert _ _).erase _).insert _ _

theorem entry?_filed (r : InterfaceRecord) (d : Directory) (p : String × String) :
    Directory.entry? (filed r d) (fileName p.1 p.2) =
      if joined (r.containerId, r.ifname) = joined p then some (stored r)
      else d.entry? (fileName p.1 p.2) := by
  have htemporary := fileName_ne_temporary p.1 p.2 (fileName r.containerId r.ifname)
  split_ifs with h
  · rw [← fileName_eq_iff.mpr h]
    exact Directory.entry?_put_self _ _ _
  · have hne : fileName p.1 p.2 ≠ fileName r.containerId r.ifname := fun he =>
      h (fileName_eq_iff.mp he.symm)
    rw [filed, Directory.entry?_put_of_ne hne, Directory.entry?_drop_of_ne htemporary,
      Directory.entry?_put_of_ne htemporary]
    rfl

theorem run_rejected {o : Operation} (h : o.isAccepted = false) (d : Directory) :
    (o.run dir d).2 = d := by
  obtain ⟨part, hname⟩ := fileName?_of_not h
  cases o with
  | put r =>
    rw [Operation.pair] at hname
    simp only [Operation.run, Operation.program, put, hname]
    rfl
  | get containerId ifname =>
    rw [Operation.pair] at hname
    simp only [Operation.run, Operation.program, get, hname]
    rfl
  | delete containerId ifname =>
    rw [Operation.pair] at hname
    simp only [Operation.run, Operation.program, delete, hname]
    rfl

theorem run_get (h : (Operation.get containerId ifname).isAccepted = true) (d : Directory) :
    (Operation.get containerId ifname).run dir d = (reading dir containerId ifname
      (fileName containerId ifname) (d.content (fileName containerId ifname)), d) := by
  have hname : fileName? containerId ifname = .ok (fileName containerId ifname) :=
    fileName?_of_isAccepted h
  rw [Operation.run, Operation.program, get_eq hname]
  rfl

theorem run_delete (h : (Operation.delete containerId ifname).isAccepted = true)
    (hquiet : IsQuiet ((Operation.delete containerId ifname).run dir d).1) :
    ((Operation.delete containerId ifname).run dir d).2 = d.drop (fileName containerId ifname) ∨
      ((Operation.delete containerId ifname).run dir d).2 = d ∧
        d.entry? (fileName containerId ifname) = none := by
  have hname : fileName? containerId ifname = .ok (fileName containerId ifname) :=
    fileName?_of_isAccepted h
  rw [Operation.run, Operation.program, delete_eq hname, Program.runWith_ask] at hquiet ⊢
  simp only [Directory.answer] at hquiet ⊢
  have hcontent : d.content (fileName containerId ifname) ≠ .error .refused := by
    intro he
    rw [he] at hquiet
    exact hquiet _ _ rfl
  rcases Directory.content_cases hcontent with ⟨b, hb, -⟩ | ⟨hb, hentry⟩
  · rw [hb]
    exact .inl rfl
  · rw [hb]
    exact .inr ⟨rfl, hentry⟩

/-- An operation that does not fail changes the file of a pair as it changes the record of all
pairs that are joined alike. -/
theorem entry?_run {o : Operation} (hd : d.entries.Sorted) (hquiet : IsQuiet (o.run dir d).1)
    {held : Option InterfaceRecord} (h : d.entry? (fileName p.1 p.2) = held.map stored) :
    (o.run dir d).2.entries.Sorted ∧ Directory.entry? (o.run dir d).2 (fileName p.1 p.2) =
      (o.change (fun q => joined q = joined p) held).map stored := by
  cases haccept : o.isAccepted with
  | false =>
    rw [run_rejected haccept]
    simpa [Operation.change, haccept] using ⟨hd, h⟩
  | true =>
    simp only [Operation.change, haccept, true_and]
    cases o with
    | put r =>
      rw [run_put haccept hquiet]
      refine ⟨sorted_filed hd r, (entry?_filed r d p).trans ?_⟩
      rw [Operation.pair]
      split_ifs
      · rfl
      · exact h
    | get containerId ifname =>
      rw [run_get haccept]
      refine ⟨hd, h.trans ?_⟩
      rw [Operation.leave, ite_self]
    | delete containerId ifname =>
      rw [Operation.pair, Operation.leave]
      rcases run_delete haccept hquiet with hrun | ⟨hrun, hentry⟩
      · rw [hrun]
        refine ⟨hd.erase _, ?_⟩
        split_ifs with hj
        · rw [← fileName_eq_iff.mpr hj]
          exact Directory.entry?_drop_self hd _
        · rw [Directory.entry?_drop_of_ne fun he => hj (fileName_eq_iff.mp he.symm), h]
      · rw [hrun]
        refine ⟨hd, ?_⟩
        split_ifs with hj
        · rw [← fileName_eq_iff.mpr hj]
          exact hentry
        · exact h

/-! ### Histories -/

theorem entry?_after {ops : List Operation} (hd : d.entries.Sorted) (hquiet : Unfailing dir ops d)
    {held : Option InterfaceRecord} (h : d.entry? (fileName p.1 p.2) = held.map stored) :
    Directory.entry? (after dir ops d) (fileName p.1 p.2) =
      (ops.foldl (Operation.change fun q => joined q = joined p) held).map stored := by
  induction ops generalizing d held with
  | nil => exact h
  | cons o ops ih =>
    obtain ⟨hfirst, hrest⟩ := hquiet
    obtain ⟨hd', h'⟩ := entry?_run hd hfirst h
    exact ih hd' hrest h'

theorem unfailing_append {ops ops' : List Operation} :
    Unfailing dir (ops ++ ops') d ↔ Unfailing dir ops d ∧ Unfailing dir ops' (after dir ops d) := by
  induction ops generalizing d with
  | nil => exact (true_and _).symm.to_iff
  | cons o ops ih => simp only [List.cons_append, Unfailing, ih, and_assoc]; rfl

/-- A read that does not fail finds the record that is in the file. -/
theorem run_get_eq_found {held : Option InterfaceRecord} (hc : isKey p.1 = true)
    (hi : isKey p.2 = true) (hquiet : IsQuiet ((Operation.get p.1 p.2).run dir d).1)
    (h : d.entry? (fileName p.1 p.2) = held.map stored) :
    ((Operation.get p.1 p.2).run dir d).1 = found p held := by
  have haccept : (Operation.get p.1 p.2).isAccepted = true := Bool.and_eq_true_iff.mpr ⟨hc, hi⟩
  rw [run_get haccept] at hquiet ⊢
  dsimp only at hquiet ⊢
  have hcontent : d.content (fileName p.1 p.2) ≠ .error .refused := by
    intro he
    rw [he] at hquiet
    exact hquiet _ _ rfl
  rcases Directory.content_cases hcontent with ⟨b, hb, hentry⟩ | ⟨hb, hentry⟩
  · rw [hentry] at h
    cases held with
    | none => cases h
    | some r =>
      obtain rfl : b = Utf8.encode r.toJson.lines := by
        simpa [stored] using h
      rw [hb, reading, InterfaceRecord.decoder_lines]
      rfl
  · rw [hentry] at h
    cases held with
    | none =>
      rw [hb]
      rfl
    | some r => cases h

/-- The records of a pair and of the pairs that are joined alike are changed together, as long as
no operation is for another one of them. -/
theorem standing_eq {ops : List Operation}
    (h : ∀ o ∈ ops, o.isAccepted = true → joined o.pair = joined p → o.pair = p) :
    standing (fun q => joined q = joined p) ops = standing (fun q => q = p) ops := by
  refine List.foldl_ext _ _ none fun held o ho => ?_
  have hiff : (o.isAccepted = true ∧ joined o.pair = joined p) ↔
      (o.isAccepted = true ∧ o.pair = p) :=
    and_congr_right fun ha => ⟨h o ho ha, congrArg joined⟩
  simp only [Operation.change, hiff]

/-- After any history that the file system does not fail, a read finds the record that was last
put under a pair with the same joined name and not deleted since under such a pair. For a pair
that no other pair of the history is joined like, this is the record that was last put under it
and not deleted since under it. -/
theorem get_after (dir : String) (ops : List Operation) (d : Directory) (p : String × String)
    (hc : isKey p.1 = true) (hi : isKey p.2 = true) (hd : d.entries.Sorted)
    (hnone : d.entry? (fileName p.1 p.2) = none)
    (hquiet : Unfailing dir (ops ++ [.get p.1 p.2]) d) :
    ((Operation.get p.1 p.2).run dir (after dir ops d)).1 =
        found p (standing (fun q => joined q = joined p) ops) ∧
      ((∀ o ∈ ops, o.isAccepted = true → joined o.pair = joined p → o.pair = p) →
        ((Operation.get p.1 p.2).run dir (after dir ops d)).1 =
          found p (standing (fun q => q = p) ops)) := by
  obtain ⟨hops, hread, -⟩ := unfailing_append.mp hquiet
  have hfound : ((Operation.get p.1 p.2).run dir (after dir ops d)).1 =
      found p (standing (fun q => joined q = joined p) ops) :=
    run_get_eq_found hc hi hread (entry?_after hd hops hnone)
  exact ⟨hfound, fun h => standing_eq h ▸ hfound⟩

/-- A record of an interface whose container has a dash in its name. -/
def dashedRecord : InterfaceRecord := { containerId := "a-b", ifname := "c" }

/-- Once a record is put for interface c of container a-b, it is read for interface b-c of
container a, which no record was put for. -/
theorem get_after_dashedRecord :
    let ops : List Operation := [.put dashedRecord]
    let p := ("a", "b-c")
    isKey p.1 = true ∧ isKey p.2 = true ∧ Unfailing "s" (ops ++ [.get p.1 p.2]) none ∧
      standing (fun q => q = p) ops = none ∧
      ((Operation.get p.1 p.2).run "s" (after "s" ops none)).1 = .ok dashedRecord := by
  intro ops p
  have hc : isKey p.1 = true := by decide
  have hi : isKey p.2 = true := by decide
  have hquiet : Unfailing "s" (ops ++ [.get p.1 p.2]) none := by
    have hput : IsQuiet ((Operation.put dashedRecord).run "s" none).1 := nofun
    have hafter : after "s" ops none = filed dashedRecord none :=
      congrArg Prod.snd (run_put (by decide) hput)
    have hfault : (filed dashedRecord none).nameFault? (fileName p.1 p.2) = none := by decide
    have hjoined : joined (dashedRecord.containerId, dashedRecord.ifname) = joined p := by decide
    have hcontent : (after "s" ops none).content (fileName p.1 p.2) =
        .ok (Utf8.encode dashedRecord.toJson.lines) := by
      rw [hafter, Directory.content, hfault]
      dsimp only
      rw [entry?_filed, if_pos hjoined]
      rfl
    refine ⟨hput, ?_, trivial⟩
    change IsQuiet ((Operation.get p.1 p.2).run "s" (after "s" ops none)).1
    rw [run_get (by decide), hcontent, reading, InterfaceRecord.decoder_lines]
    nofun
  obtain ⟨hfound, -⟩ := get_after "s" ops none p hc hi .nil rfl hquiet
  exact ⟨hc, hi, hquiet, rfl, hfound⟩

end RecordStore

end ContainerPorts
