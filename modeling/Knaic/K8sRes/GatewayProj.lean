import Knaic.Inference.RouteStatus

open Go
open Kube (Fields mapOf)
open Inference (conditionStatus gatewayConditionStatus objects sliceAt stringAt)

namespace K8sRes

structure Listener where
  name     : Str
  port     : Int
  protocol : Str
  hostname : Str
deriving DecidableEq

structure GatewayProjection where
  gatewayClassName : Str
  listeners        : List Listener
  addresses        : List Str
  status           : Str
deriving DecidableEq

-- A condition with a type and a status.
def Says (m : Fields) (type status : String) : Prop :=
  stringAt m ["type"] = str type ∧ stringAt m ["status"] = str status

instance (m : Fields) (type status : String) : Decidable (Says m type status) :=
  inferInstanceAs (Decidable (_ ∧ _))

-- What a condition decides by itself.
def verdict (m : Fields) : Option Str :=
  if Says m "Accepted" "True" then some (str "Accepted")
  else if Says m "Programmed" "False" then some (str "Failed")
  else none

-- The first condition that decides counts.
def firstVerdict (conditions : List Fields) : Str :=
  (conditions.findSome? verdict).getD (str "Pending")

def conditions (o : Fields) : List Fields :=
  objects (sliceAt o ["status", "conditions"])

def gatewayStatus (o : Fields) : Str :=
  firstVerdict (conditions o)

def projectGateway (o : Fields) : GatewayProjection where
  gatewayClassName := stringAt o ["spec", "gatewayClassName"]
  listeners        := (objects (sliceAt o ["spec", "listeners"])).map fun m => {
    name     := stringAt m ["name"]
    port     := (m.nestedInt64 [str "port"]).getD 0
    protocol := stringAt m ["protocol"]
    hostname := stringAt m ["hostname"]
  }
  addresses        :=
    ((objects (sliceAt o ["status", "addresses"])).map (stringAt · ["value"])).filter (· ≠ [])
  status           := gatewayStatus o

-- A condition that has failed, which `gatewayConditionStatus` finds wherever it is.
def Failing (m : Fields) : Prop :=
  Says m "Accepted" "False" ∨ Says m "Programmed" "False"

instance (m : Fields) : Decidable (Failing m) :=
  inferInstanceAs (Decidable (_ ∨ _))

-- The conditions in front of the first one that says that the gateway was accepted.
def unaccepted (cs : List Fields) : List Fields :=
  cs.takeWhile fun m => ¬Says m "Accepted" "True"

-- Nothing has failed, or the gateway fails to be programmed before it is said to be accepted.
def Unequivocal (cs : List Fields) : Prop :=
  (∀ m ∈ cs, ¬Failing m) ∨ ∃ m ∈ unaccepted cs, Says m "Programmed" "False"

instance (cs : List Fields) : Decidable (Unequivocal cs) :=
  inferInstanceAs (Decidable ((∀ m ∈ cs, _) ∨ ∃ m ∈ unaccepted cs, _))

section Says

variable {m : Fields} {type type' status status' : String}

-- The loop of `gatewayConditionStatus`, one condition at a time.
theorem conditionStatus_cons (a : Bool) (m : Fields) (cs : List Fields) :
    conditionStatus a (m :: cs) =
      if Failing m then str "Failed" else conditionStatus (a || Says m "Accepted" "True") cs := by
  have hf : ((stringAt m ["type"] = str "Accepted" || stringAt m ["type"] = str "Programmed") &&
      stringAt m ["status"] = str "False") ↔ Failing m := by
    simp [Failing, Says, or_and_right]
  have ha : (decide (stringAt m ["type"] = str "Accepted") && decide (stringAt m ["status"] = str "True")) =
      decide (Says m "Accepted" "True") := (Bool.decide_and ..).symm
  simp only [conditionStatus, hf, ha]

end Says

-- Any failure decides, then any acceptance.
theorem conditionStatus_eq (a : Bool) (cs : List Fields) :
    conditionStatus a cs =
      if ∃ m ∈ cs, Failing m then str "Failed"
      else if a ∨ ∃ m ∈ cs, Says m "Accepted" "True" then str "Accepted"
      else str "Pending" := by
  induction cs generalizing a
  case nil          => simp [conditionStatus]
  case cons m cs hi =>
    rw [conditionStatus_cons, hi]
    by_cases hf : Failing m
    case pos => simp [hf]
    case neg => simp [hf, or_assoc]

theorem firstVerdict_cons (m : Fields) (cs : List Fields) :
    firstVerdict (m :: cs) = (verdict m).getD (firstVerdict cs) := by
  simp only [firstVerdict, List.findSome?_cons]
  cases verdict m <;> rfl

-- Only a failure in front of all acceptances decides.
theorem firstVerdict_eq (cs : List Fields) :
    firstVerdict cs =
      if ∃ m ∈ unaccepted cs, Says m "Programmed" "False" then str "Failed"
      else if ∃ m ∈ cs, Says m "Accepted" "True" then str "Accepted"
      else str "Pending" := by
  induction cs
  case nil          => simp [firstVerdict, unaccepted]
  case cons m cs hi =>
    rw [firstVerdict_cons]
    by_cases ha : Says m "Accepted" "True"
    case pos => simp [verdict, unaccepted, ha]
    case neg =>
      have hu : unaccepted (m :: cs) = m :: unaccepted cs := by simp [unaccepted, ha]
      by_cases hp : Says m "Programmed" "False"
      case pos => simp [verdict, ha, hp, hu]
      case neg => simp [verdict, ha, hp, hu, hi]

theorem failing_of_unaccepted {cs : List Fields}
    (h : ∃ m ∈ unaccepted cs, Says m "Programmed" "False") : ∃ m ∈ cs, Failing m := by
  have ⟨m, hm, hs⟩ := h
  exact ⟨m, List.takeWhile_sublist _ |>.mem hm, .inr hs⟩

theorem gatewayStatus_agrees_iff (o : Fields) :
    gatewayStatus o = gatewayConditionStatus o ↔ Unequivocal (conditions o) := by
  show firstVerdict (conditions o) = conditionStatus false (conditions o) ↔ _
  rw [firstVerdict_eq, conditionStatus_eq]
  by_cases hu : ∃ m ∈ unaccepted (conditions o), Says m "Programmed" "False"
  case pos => simp [Unequivocal, hu, failing_of_unaccepted hu]
  case neg =>
    by_cases hf : ∃ m ∈ conditions o, Failing m
    case neg =>
      simp only [if_neg hu, if_neg hf, Bool.false_eq_true, false_or]
      exact iff_of_true trivial (.inl fun m hm h => hf ⟨m, hm, h⟩)
    case pos =>
      have hn : ¬Unequivocal (conditions o) := by
        rintro (h | h)
        · have ⟨m, hm, hf⟩ := hf
          exact h m hm hf
        · exact hu h
      rw [if_neg hu, if_pos hf, iff_false_right hn]
      split
      case isTrue  => decide
      case isFalse => decide

-- An object whose status has the conditions, given by type and status.
def gatewayWith (cs : List (String × String)) : Fields :=
  mapOf [("status", .obj (mapOf [("conditions", .list (cs.map fun c =>
    .obj (mapOf [("type", .string (str c.1)), ("status", .string (str c.2))])))]))]

-- An accepted gateway that is not programmed.
theorem accepted_unprogrammed : ¬∀ o, gatewayStatus o = gatewayConditionStatus o := by
  intro h
  exact absurd (h (gatewayWith [("Accepted", "True"), ("Programmed", "False")])) (by decide)

end K8sRes
