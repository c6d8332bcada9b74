import Knaic.Inference.RoundTrip
import Knaic.K8sRes.TrainingProj

open Go Kube
open Inference (get_quantities nestedString_of_get quantities quantities_sorted)

-- What is read of the quantities that a form has sent.
namespace K8sRes

-- No accelerator has the name of another resource.
def Unreserved (gpuValues : Entries Int) : Prop :=
  ∀ k, Reserved k → gpuValues.get k = none

variable {o : Fields} {path : List Str} {cpu memory : Str} {g : Dict Int}

theorem get_quantities_reserved (cpu memory : Str) (hu : Unreserved g.entries) :
    (quantities cpu memory g.entries).get (str "cpu") = (if cpu = [] then none else some (.string cpu)) ∧
    (quantities cpu memory g.entries).get (str "memory") = if memory = [] then none else some (.string memory) := by
  have hc : g.get (str "cpu") = none := hu _ (.inl rfl)
  have hm : g.get (str "memory") = none := hu _ (.inr rfl)
  constructor
  case left  => simp [get_quantities, hc]
  case right => simp [get_quantities, hm]

theorem amounts_of_map (hq : (o.nestedMap path).getD [] = quantities cpu memory g.entries) (hu : Unreserved g.entries) :
    (o.nestedString (path ++ [str "cpu"])).getD [] = cpu ∧
    (o.nestedString (path ++ [str "memory"])).getD [] = memory := by
  obtain ⟨hc, hm⟩ := get_quantities_reserved cpu memory hu
  rw [← hq, ← o.nestedField_append] at hc hm
  exact ⟨nestedString_of_get hc, nestedString_of_get hm⟩

-- Nothing is collected under the reserved names, and under the others what was sent.
theorem get_collected (cpu memory : Str) (g : Dict Int) (k : Str) :
    ((quantities cpu memory g.entries).foldl collectTrainJob .empty).get k = if Reserved k then none else g.get k := by
  rw [get_collectAllTrainJob (quantities_sorted ..), get_quantities, Dict.get_empty, Option.or_none]
  by_cases hk : Reserved k
  case pos => simp [hk]
  case neg =>
    have hc := not_or.mp hk
    simp only [hk, hc.left, hc.right, and_false, if_false, Option.or_none]
    cases g.get k <;> rfl

theorem collected_iff :
    ((quantities cpu memory g.entries).foldl collectTrainJob .empty).entries = g.entries ↔ Unreserved g.entries := by
  constructor
  case mp =>
    intro he k hk
    have hg := get_collected cpu memory g k
    rwa [Dict.get, he, if_pos hk] at hg
  case mpr =>
    intro hu
    congr 1
    ext k : 1
    rw [get_collected]
    split
    case isTrue hk => exact (hu k hk).symm
    case isFalse   => rfl

end K8sRes
