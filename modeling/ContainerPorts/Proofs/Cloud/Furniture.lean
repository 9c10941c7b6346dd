import ContainerPorts.Proofs.Cloud.Stock

/-!
# What stays the same in a world

Calls change the stock of ports only. Everything else in a world, the refusals
included, is there from the beginning to the end, and lookups that look at no port
are always answered in the same way.
-/
namespace ContainerPorts.Cloud

/-- What no call changes. -/
structure Furniture where
  servers : List Server
  networks : List Network
  subnets : List Subnet
  projects : List Project
  securityGroups : List SecurityGroup
  refusals : List (Method × String)

/-- Whether a call looks something up that is no port. -/
def Call.readsFurniture : Call → Bool
  | .networkByName _ => true
  | .projectByName _ => true
  | .serverByName _ => true
  | .securityGroupByName .. => true
  | .subnetById _ => true
  | .subnetByName .. => true
  | _ => false

theorem Call.changes_of_readsFurniture {c : Call} (h : c.readsFurniture = true) :
    c.changes = false := by
  cases c <;> first | rfl | cases h

namespace World

variable {w w' : World} {now now' : Instant} {c : Call}

def furniture (w : World) : Furniture :=
  ⟨w.servers, w.networks, w.subnets, w.projects, w.securityGroups, w.refusals⟩

theorem furniture_onPort {α : Type} (id : String) (f : Port → Port) (g : Port → α) :
    (w.onPort id f g).2.furniture = w.furniture := by
  unfold onPort
  split <;> rfl

@[simp] theorem furniture_answer : (w.answer now c).2.furniture = w.furniture := by
  rcases answer_cases now w c with ⟨message, ha⟩ | ha
  · rw [ha]
    rfl
  · rw [ha]
    cases c <;> simp only [perform]
    case assignPort => exact furniture_onPort ..
    case detachPort => exact furniture_onPort ..
    case setPortTags => exact furniture_onPort ..
    all_goals first | rfl | (split <;> rfl)

theorem refusal?_eq (h : w.furniture = w'.furniture) (m : Method) :
    w.refusal? m = w'.refusal? m := by
  have hr : w.refusals = w'.refusals := congrArg Furniture.refusals h
  rw [refusal?, refusal?, hr]

/-- A call is refused in both of two worlds with the same furniture, or performed in both. -/
theorem answer_cases_of_furniture (h : w.furniture = w'.furniture) (now now' : Instant) (c : Call) :
    (∃ e, w.answer now c = (.error e, w.remember c) ∧
        w'.answer now' c = (.error e, w'.remember c)) ∨
      (w.refusal? c.method = none ∧ w.answer now c = (w.remember c).perform now c ∧
        w'.answer now' c = (w'.remember c).perform now' c) := by
  have hr : w.refusal? c.method = w'.refusal? c.method := refusal?_eq h c.method
  unfold answer
  rw [← hr]
  cases hm : w.refusal? c.method with
  | some message => exact .inl ⟨_, rfl, rfl⟩
  | none => exact .inr ⟨rfl, rfl, rfl⟩

theorem answer_of_readsFurniture (hc : c.readsFurniture) (h : w.furniture = w'.furniture) :
    (w.answer now c).1 = (w'.answer now' c).1 := by
  rcases answer_cases_of_furniture h now now' c with ⟨e, ha, ha'⟩ | ⟨-, ha, ha'⟩
  · rw [ha, ha']
  · rw [ha, ha']
    simp only [furniture, Furniture.mk.injEq] at h
    obtain ⟨hservers, hnetworks, hsubnets, hprojects, hgroups, -⟩ := h
    cases c <;> simp only [Call.readsFurniture, Bool.false_eq_true] at hc
    all_goals simp only [perform, remember, *]

end World

end ContainerPorts.Cloud
