import ContainerPorts.Proofs.Cloud.Dates
import ContainerPorts.Proofs.Cloud.Furniture

/-!
# Calls within a share of the ports

Two worlds with the same furniture agree on a share of the ports if each port of
the share is in both or in neither, and the same but for its date. A call that is
about ports of the share only is answered alike in both. They still agree after it,
and no port outside the share was touched.
-/
namespace ContainerPorts.Cloud

theorem PortTable.pairwise_toList (t : PortTable) : t.toList.Pairwise fun p q => p.id < q.id := by
  rw [toList, List.pairwise_map]
  refine t.sorted.imp_of_mem fun {m m'} hm hm' hlt => ?_
  rwa [t.keyed m hm, t.keyed m' hm']

/-- The first port that passes is the one with the least id. -/
theorem PortTable.find?_toList_eq_some {t : PortTable} {P : Port → Bool} {p : Port} :
    t.toList.find? P = some p ↔
      t.find? p.id = some p ∧ P p = true ∧
        ∀ q, t.find? q.id = some q → P q = true → ¬ q.id < p.id := by
  have hsorted := t.pairwise_toList
  rw [List.find?_eq_some_iff_append]
  constructor
  · rintro ⟨hp, before, after, hlist, hbefore⟩
    refine ⟨mem_toList.mp (by simp [hlist]), hp, fun q hq hPq hlt => ?_⟩
    have hmem : q ∈ before ++ p :: after := hlist ▸ mem_toList.mpr hq
    rcases List.mem_append.mp hmem with hb | ha
    · simpa [hPq] using hbefore q hb
    · rw [hlist, List.pairwise_append] at hsorted
      rcases List.mem_cons.mp ha with rfl | ha
      · exact String.lt_irrefl _ hlt
      · exact String.lt_irrefl _ (String.lt_trans hlt ((List.pairwise_cons.mp hsorted.2.1).1 q ha))
  · rintro ⟨hp, hPp, hleast⟩
    obtain ⟨before, after, hlist⟩ := List.append_of_mem (mem_toList.mpr hp)
    refine ⟨hPp, before, after, hlist, fun q hq => ?_⟩
    have hq' : t.find? q.id = some q := mem_toList.mp (by simp [hlist, hq])
    rw [hlist, List.pairwise_append] at hsorted
    have hlt : q.id < p.id := hsorted.2.2 q hq p (by simp)
    by_contra hPq
    exact hleast q hq' (by simpa using hPq) hlt

/-- Whether a call asks for a new port. -/
def Call.creates : Call → Bool
  | .createPort .. => true
  | _ => false

/-- Calls that are about ports of a share, or about the ports with certain tags. -/
def Call.Within (share : String → Prop) (tags : List String) : Call → Prop
  | .assignPort id _ => share id
  | .deletePort id => share id
  | .detachPort id _ => share id
  | .setPortTags id _ => share id
  | .portByTags ts => ts = tags
  | _ => True

/-- A call that may be answered by a cache is about no port in particular. -/
theorem Call.within_of_cacheable {share : String → Prop} {tags : List String} {c : Call}
    (h : c.isCacheable) : c.Within share tags := by
  cases c <;> trivial

/-- The port that a call is about. -/
def Call.target? : Call → Option String
  | .assignPort id _ => some id
  | .deletePort id => some id
  | .detachPort id _ => some id
  | .setPortTags id _ => some id
  | _ => none

theorem Call.Within.share_of_target? {share : String → Prop} {tags : List String} {c : Call}
    {id : String} (h : c.Within share tags) (hid : c.target? = some id) : share id := by
  cases c <;> first | exact Option.some.inj hid ▸ h | cases hid

theorem Call.not_creates_of_target? {c : Call} {id : String} (h : c.target? = some id) :
    ¬ c.creates = true := by
  cases c <;> first | exact Bool.false_ne_true | cases h

theorem Call.changes_of_creates {c : Call} (h : c.creates = true) : c.changes = true := by
  cases c <;> first | rfl | cases h

theorem Call.creates_of_cacheable {c : Call} (h : c.isCacheable) : c.creates = false := by
  cases c <;> first | rfl | simp [isCacheable, caching?] at h

namespace World

/-- Worlds that differ in the dates of a port at most. -/
def SamePort (w v : World) (id : String) : Prop :=
  (w.port? id).map Port.undated = (v.port? id).map Port.undated

theorem SamePort.cases {w v : World} {id : String} (h : w.SamePort v id) :
    (w.port? id = none ∧ v.port? id = none) ∨
      ∃ p q, w.port? id = some p ∧ v.port? id = some q ∧ p.undated = q.undated := by
  unfold SamePort at h
  cases hw : w.port? id with
  | none =>
    cases hv : v.port? id with
    | none => exact .inl ⟨rfl, rfl⟩
    | some q => simp [hw, hv] at h
  | some p =>
    cases hv : v.port? id with
    | none => simp [hw, hv] at h
    | some q => exact .inr ⟨p, q, rfl, rfl, by simpa [hw, hv] using h⟩

/-- Worlds with the same furniture and the same share of ports. -/
structure Agree (share : String → Prop) (w v : World) : Prop where
  furniture : w.furniture = v.furniture
  ports : ∀ id, share id → w.SamePort v id

theorem SamePort.symm {w v : World} {id : String} (h : w.SamePort v id) : v.SamePort w id :=
  Eq.symm h

theorem SamePort.trans {w v u : World} {id : String} (h : w.SamePort v id) (h' : v.SamePort u id) :
    w.SamePort u id := Eq.trans h h'

theorem SamePort.of_eq {w v : World} {id : String} (h : w.port? id = v.port? id) :
    w.SamePort v id := congrArg (Option.map Port.undated) h

/-- The ports with certain tags are all in the share. -/
def Holds (share : String → Prop) (tags : List String) (w : World) : Prop :=
  ∀ p, w.port? p.id = some p → tags ⊆ p.tags → share p.id

namespace Agree

variable {share : String → Prop} {tags : List String} {w v : World}

theorem symm (h : Agree share w v) : Agree share v w :=
  ⟨h.furniture.symm, fun id hid => (h.ports id hid).symm⟩

theorem exists_port (h : Agree share w v) {p : Port} (hid : share p.id)
    (hp : w.port? p.id = some p) : ∃ q, v.port? q.id = some q ∧ p.undated = q.undated := by
  rcases (h.ports _ hid).cases with ⟨hnone, -⟩ | ⟨p', q, hp', hq, hpq⟩
  · cases hp.symm.trans hnone
  · obtain rfl := Option.some.inj (hp.symm.trans hp')
    exact ⟨q, by rwa [← Port.id_eq hpq], hpq⟩

theorem find?_carries (h : Agree share w v) (hw : w.Holds share tags) (hv : v.Holds share tags)
    {p : Port} (hp : w.portList.find? (fun p => p.carries tags) = some p) :
    ∃ q, v.portList.find? (fun p => p.carries tags) = some q ∧ p.undated = q.undated := by
  obtain ⟨hfound, hcarries, hleast⟩ := PortTable.find?_toList_eq_some.mp hp
  have hshare : share p.id := hw p hfound (Port.carries_iff.mp hcarries)
  obtain ⟨q, hq, hpq⟩ := h.exists_port hshare hfound
  have carries {p q : Port} (hpq : p.undated = q.undated) (hp : p.carries tags) :
      q.carries tags := by
    rw [Port.carries_iff] at hp ⊢
    rwa [← Port.tags_eq hpq]
  refine ⟨q, PortTable.find?_toList_eq_some.mpr ⟨hq, carries hpq hcarries, ?_⟩, hpq⟩
  intro q' hq' hcarries' hlt
  have hshare' : share q'.id := hv q' hq' (Port.carries_iff.mp hcarries')
  obtain ⟨p', hp', hqp'⟩ := h.symm.exists_port hshare' hq'
  refine hleast p' hp' (carries hqp' hcarries') ?_
  rwa [Port.id_eq hpq, ← Port.id_eq hqp']

theorem portByTags (h : Agree share w v) (hw : w.Holds share tags) (hv : v.Holds share tags) :
    (Call.portByTags tags).SameButDates (firstOr .port (fun p => p.carries tags) w.portList)
      (firstOr .port (fun p => p.carries tags) v.portList) := by
  unfold firstOr
  cases hp : w.portList.find? (fun p => p.carries tags) with
  | some p =>
    obtain ⟨q, hq, hpq⟩ := h.find?_carries hw hv hp
    rw [hq]
    exact congrArg Except.ok hpq
  | none =>
    cases hq : v.portList.find? (fun p => p.carries tags) with
    | none => rfl
    | some q =>
      obtain ⟨p, hp', -⟩ := h.symm.find?_carries hv hw hq
      cases hp.symm.trans hp'

/-- Worlds agree as long as neither the furniture nor the ports of the share change. -/
theorem congr (h : Agree share w v) {w' v' : World} (hw : w'.furniture = w.furniture)
    (hv : v'.furniture = v.furniture) (hports : ∀ id, share id → w'.SamePort v' id) :
    Agree share w' v' :=
  ⟨hw.trans (h.furniture.trans hv.symm), hports⟩

theorem lookup (h : Agree share w v) (now now' : Instant) {c : Call} (hc : c.changes = false) :
    Agree share (w.answer now c).2 (v.answer now' c).2 := by
  refine h.congr furniture_answer furniture_answer fun id hid => ?_
  have hports (now : Instant) (w : World) : (w.answer now c).2.port? id = w.port? id :=
    congrArg (Stock.port? · id) (stock_answer_of_lookup hc)
  rw [SamePort, hports, hports]
  exact h.ports id hid

theorem putPort (h : Agree share w v) {p q : Port} (hpq : p.undated = q.undated) :
    Agree share (w.putPort p) (v.putPort q) := by
  refine h.congr rfl rfl fun id hid => ?_
  unfold SamePort
  by_cases heq : id = p.id
  · subst heq
    have hp : (w.putPort p).port? p.id = some p := Stock.port?_put_self w.stock p
    have hq : (v.putPort q).port? q.id = some q := Stock.port?_put_self v.stock q
    rw [hp, Port.id_eq hpq, hq]
    exact congrArg some hpq
  · have hne : id ≠ q.id := by rwa [← Port.id_eq hpq]
    have hp : (w.putPort p).port? id = w.port? id := Stock.port?_put_of_ne heq w.stock
    have hq : (v.putPort q).port? id = v.port? id := Stock.port?_put_of_ne hne v.stock
    rw [hp, hq]
    exact h.ports id hid

/-- An edit of a port of the share that does not look at dates. -/
theorem onPort {α : Type} (h : Agree share w v) {id : String} (hid : share id) {f : Port → Port}
    {g : Port → α} (hf : ∀ p q : Port, p.undated = q.undated → (f p).undated = (f q).undated)
    (hg : ∀ p q : Port, p.undated = q.undated → g (f p) = g (f q)) :
    (w.onPort id f g).1 = (v.onPort id f g).1 ∧
      Agree share (w.onPort id f g).2 (v.onPort id f g).2 := by
  unfold World.onPort
  rcases (h.ports id hid).cases with ⟨hp, hq⟩ | ⟨p, q, hp, hq, hpq⟩
  · rw [hp, hq]
    exact ⟨rfl, h⟩
  · rw [hp, hq]
    exact ⟨congrArg Except.ok (hg p q hpq), h.putPort (hf p q hpq)⟩

theorem createPort (h : Agree share w v) (hnumber : w.lastNumber = v.lastNumber)
    (now now' : Instant) (r : PortRequest) (x : Option PortExtension) :
    (Call.createPort r x).SameButDates (w.perform now (.createPort r x)).1
        (v.perform now' (.createPort r x)).1 ∧
      Agree share (w.perform now (.createPort r x)).2 (v.perform now' (.createPort r x)).2 := by
  have hsubnets : w.subnets = v.subnets := congrArg Furniture.subnets h.furniture
  have hsubnet : ({ w with lastNumber := v.lastNumber + 1 } : World).subnetFor r =
      ({ v with lastNumber := v.lastNumber + 1 } : World).subnetFor r := by
    simp only [subnetFor, hsubnets]
  simp only [perform, hnumber]
  rw [hsubnet]
  have hcount : Agree share { w with lastNumber := v.lastNumber + 1 }
      { v with lastNumber := v.lastNumber + 1 } := h.congr rfl rfl h.ports
  cases ({ v with lastNumber := v.lastNumber + 1 } : World).subnetFor r with
  | error e => exact ⟨rfl, hcount⟩
  | ok subnetId => exact ⟨rfl, hcount.putPort rfl⟩

theorem deletePort (h : Agree share w v) {id : String} (hid : share id) (now now' : Instant) :
    (w.perform now (.deletePort id)).1 = (v.perform now' (.deletePort id)).1 ∧
      Agree share (w.perform now (.deletePort id)).2 (v.perform now' (.deletePort id)).2 := by
  simp only [perform]
  rcases (h.ports id hid).cases with ⟨hp, hq⟩ | ⟨p, q, hp, hq, hpq⟩
  · rw [hp, hq]
    exact ⟨rfl, h⟩
  · rw [hp, hq]
    refine ⟨rfl, h.congr rfl rfl fun other hother => ?_⟩
    have erased (w : World) : ({ w with ports := w.ports.erase id } : World).port? other =
        if other = id then none else w.port? other := by
      by_cases heq : other = id
      · subst heq
        rw [if_pos rfl]
        exact Stock.port?_erase_self w.stock other
      · rw [if_neg heq]
        exact Stock.port?_erase_of_ne heq w.stock
    rw [SamePort, erased, erased]
    split
    · rfl
    · exact h.ports other hother

theorem remember (h : Agree share w v) (c : Call) : Agree share (w.remember c) (v.remember c) :=
  h.congr rfl rfl h.ports

/-- A call within the share is answered alike in worlds that agree, and leaves them in agreement;
for a new port the worlds must have come to the same number. -/
theorem answer (h : Agree share w v) {c : Call} (hc : c.Within share tags)
    (hw : w.Holds share tags) (hv : v.Holds share tags)
    (hnumber : c.creates = true → w.refusal? .createPort = none → w.lastNumber = v.lastNumber)
    (now now' : Instant) :
    c.Alike (w.answer now c).1 (v.answer now' c).1 ∧
      Agree share (w.answer now c).2 (v.answer now' c).2 := by
  by_cases hchanges : c.changes = false
  · refine ⟨fun hasked => ?_, h.lookup now now' hchanges⟩
    by_cases hreads : c.readsFurniture = true
    · have hanswer : (w.answer now c).1 = (v.answer now' c).1 :=
        answer_of_readsFurniture hreads h.furniture
      rw [hanswer]
      rfl
    · cases c with
      | portByTags ts =>
        obtain rfl : ts = tags := hc
        rcases answer_cases_of_furniture h.furniture now now' (.portByTags ts) with
          ⟨e, ha, ha'⟩ | ⟨-, ha, ha'⟩
        · rw [ha, ha']
          rfl
        · rw [ha, ha']
          exact (h.remember _).portByTags hw hv
      | _ =>
        first
          | exact absurd rfl hreads
          | exact Bool.noConfusion hasked
          | exact Bool.noConfusion hchanges
  · rcases answer_cases_of_furniture h.furniture now now' c with ⟨e, ha, ha'⟩ | ⟨hr, ha, ha'⟩
    · rw [ha, ha']
      exact ⟨fun _ => rfl, h.remember c⟩
    · rw [ha, ha']
      cases c with
      | createPort r x =>
        have hcreate := (h.remember (.createPort r x)).createPort (hnumber rfl hr) now now' r x
        exact ⟨fun _ => hcreate.1, hcreate.2⟩
      | deletePort id =>
        have hdelete := (h.remember (.deletePort id)).deletePort hc now now'
        exact ⟨fun _ => congrArg _ hdelete.1, hdelete.2⟩
      | assignPort id serverId =>
        have hattachment (p q : Port) (hpq : p.undated = q.undated) :
            attachmentOf (attach serverId p) = attachmentOf (attach serverId q) := by
          simpa [attachmentOf, attach, Port.undated] using
            congrArg (fun p => attachmentOf (attach serverId p)) hpq
        have hedit := (h.remember (.assignPort id serverId)).onPort (f := attach serverId)
          (g := attachmentOf) hc
          (fun p q hpq => congrArg (attach serverId) hpq) hattachment
        exact ⟨fun _ => congrArg _ hedit.1, hedit.2⟩
      | detachPort id serverId =>
        have hedit := (h.remember (.detachPort id serverId)).onPort (f := unplug)
          (g := fun _ => ()) hc
          (fun p q hpq => congrArg unplug hpq) fun _ _ _ => rfl
        exact ⟨fun _ => congrArg _ hedit.1, hedit.2⟩
      | setPortTags id ts =>
        have hedit := (h.remember (.setPortTags id ts)).onPort
          (f := fun p => { p with tags := ts }) (g := fun _ => ()) hc
          (fun p q hpq => Port.undated_tags hpq ts) fun _ _ _ => rfl
        exact ⟨fun _ => congrArg _ hedit.1, hedit.2⟩
      | _ => exact absurd rfl hchanges

end Agree

variable {share : String → Prop} {tags : List String} {w : World} {now : Instant} {c : Call}

/-- A new port takes the next number, unless new ports are refused. -/
theorem createPort_cases_of_refusal (now : Instant) (w : World) (r : PortRequest)
    (x : Option PortExtension) :
    (w.refusal? .createPort ≠ none ∧ (w.answer now (.createPort r x)).2.stock = w.stock) ∨
      w.refusal? .createPort = none ∧ ((w.answer now (.createPort r x)).2.stock = w.stock.count ∨
        ∃ p : Port, p.id = portId (w.lastNumber + 1) ∧
          (w.answer now (.createPort r x)).2.stock = w.stock.count.put p) := by
  unfold answer
  simp only [Call.method]
  cases w.refusal? .createPort with
  | some message => exact .inl ⟨nofun, rfl⟩
  | none =>
    refine .inr ⟨rfl, ?_⟩
    simp only [perform]
    split
    · exact .inl rfl
    · exact .inr ⟨_, rfl, rfl⟩

/-- What a call can do to the stock: nothing, unless it gets as far as to ask for a new port; or
change or remove the port that it is about; or use up the next number, even if there is no port. -/
theorem stock_answer_cases (now : Instant) (w : World) (c : Call) :
    ((c.creates = true → w.refusal? .createPort ≠ none) ∧ (w.answer now c).2.stock = w.stock) ∨
      (∃ p : Port, c.target? = some p.id ∧ (w.answer now c).2.stock = w.stock.put p) ∨
      (∃ id, c.target? = some id ∧ (w.answer now c).2.stock = w.stock.erase id) ∨
      c.creates = true ∧ w.refusal? .createPort = none ∧
        ((w.answer now c).2.stock = w.stock.count ∨
          ∃ p : Port, p.id = portId (w.lastNumber + 1) ∧
            (w.answer now c).2.stock = w.stock.count.put p) := by
  have edited {α : Type} {id : String} {f : Port → Port} {r : Except Failure α × World}
      (h : Edits id f w.stock r) (hf : ∀ p, (f p).id = p.id) :
      r.2.stock = w.stock ∨ ∃ p : Port, some id = some p.id ∧ r.2.stock = w.stock.put p := by
    rcases h with ⟨e, -, hs⟩ | ⟨p, x, hp, -, hs⟩
    · exact .inl hs
    · exact .inr ⟨f p, congrArg some ((hf p).trans (Stock.id_of_port? hp)).symm, hs⟩
  by_cases hchanges : c.changes = false
  · refine .inl ⟨fun hcreates => ?_, stock_answer_of_lookup hchanges⟩
    exact absurd ((Call.changes_of_creates hcreates).symm.trans hchanges) (by decide)
  · cases c with
    | assignPort id serverId =>
      exact (edited (assignPort_edits now w id serverId) fun _ => rfl).imp (⟨nofun, ·⟩) .inl
    | detachPort id serverId =>
      exact (edited (detachPort_edits now w id serverId) fun _ => rfl).imp (⟨nofun, ·⟩) .inl
    | setPortTags id ts =>
      exact (edited (setPortTags_edits now w id ts) fun _ => rfl).imp (⟨nofun, ·⟩) .inl
    | deletePort id =>
      rcases deletePort_cases now w id with ⟨e, -, hs⟩ | ⟨-, hs⟩
      · exact .inl ⟨nofun, hs⟩
      · exact .inr (.inr (.inl ⟨id, rfl, hs⟩))
    | createPort r x =>
      rcases createPort_cases_of_refusal now w r x with ⟨hr, hs⟩ | ⟨hr, hs⟩
      · exact .inl ⟨fun _ => hr, hs⟩
      · exact .inr (.inr (.inr ⟨rfl, hr, hs⟩))
    | _ => exact absurd rfl hchanges

/-- A call within a share touches no other port. -/
theorem port?_answer_of_within (hc : c.Within share tags)
    (hnew : c.creates = true → w.refusal? .createPort = none → share (portId (w.lastNumber + 1)))
    {id : String} (hid : ¬ share id) : (w.answer now c).2.port? id = w.port? id := by
  rw [← stock_port?, ← stock_port?]
  rcases stock_answer_cases now w c with
    ⟨-, hs⟩ | ⟨p, hp, hs⟩ | ⟨other, hother, hs⟩ | ⟨hcreates, hr, hs | ⟨p, hp, hs⟩⟩
  · rw [hs]
  · have hne : id ≠ p.id := fun heq => hid (heq ▸ hc.share_of_target? hp)
    rw [hs, Stock.port?_put_of_ne hne]
  · have hne : id ≠ other := fun heq => hid (heq ▸ hc.share_of_target? hother)
    rw [hs, Stock.port?_erase_of_ne hne]
  · rw [hs, Stock.port?_count]
  · have hne : id ≠ p.id := fun heq => hid (heq.trans hp ▸ hnew hcreates hr)
    rw [hs, Stock.port?_put_of_ne hne, Stock.port?_count]

/-- Only a call for a new port uses up a number, and only if such calls are not refused. -/
theorem lastNumber_answer :
    (w.answer now c).2.lastNumber =
      if c.creates = true ∧ w.refusal? .createPort = none then w.lastNumber + 1
      else w.lastNumber := by
  change (w.answer now c).2.stock.lastNumber = _
  rcases stock_answer_cases now w c with
    ⟨hsame, hs⟩ | ⟨p, hp, hs⟩ | ⟨id, hid, hs⟩ | ⟨hcreates, hr, hs | ⟨p, -, hs⟩⟩
  · rw [hs, if_neg fun h => hsame h.1 h.2]
    rfl
  · rw [hs, if_neg fun h => Call.not_creates_of_target? hp h.1]
    rfl
  · rw [hs, if_neg fun h => Call.not_creates_of_target? hid h.1]
    rfl
  · rw [hs, if_pos ⟨hcreates, hr⟩]
    rfl
  · rw [hs, if_pos ⟨hcreates, hr⟩]
    rfl

end World

end ContainerPorts.Cloud
