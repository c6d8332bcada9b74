import Knaic.Go.Dict
import Knaic.Inference.Accelerators

open Go Kube Inference

-- The resources of a container over all orders in which its maps are visited.
namespace K8sRes

-- A container, or a model, with its limits and requests.
structure Container where
  fields   : Fields
  limits   : Dict Value
  requests : Dict Value
  declares : Declares fields [str "resources"] limits requests

namespace Container

structure Orders (c : Container) where
  limits   : Visit c.limits
  requests : Visit c.requests
  values   : Visit (mergeAcceleratorResources limits.entries requests.entries)

def Orders.inOrder (c : Container) : Orders c :=
  ⟨.inOrder _, .inOrder _, .inOrder _⟩

-- `containerResources`, where the count is that of NVIDIA's own key or of the first one that is visited.
def containerResourcesIn (c : Container) (π : Orders c) : ContainerResources :=
  let gpuValues := mergeAcceleratorResources π.limits.entries π.requests.entries
  { containerResources c.fields with
    gpu       :=
      match gpuValues.get (str "nvidia.com/gpu") with
      | some v => v
      | none   => (π.values.entries.head?.map Prod.snd).getD 0
    gpuValues := gpuValues }

-- The count of an accelerator.
def count (c : Container) (k : Str) : Option Int :=
  if isAccelerator k then (leader c.limits c.requests k).bind count? else none

variable {c : Container}

theorem collect_comm (out : Dict Int) (e e' : Str × Value) (h : e.1 ≠ e'.1) :
    collect (collect out e) e' = collect (collect out e') e := by
  ext k : 1
  simp only [get_collect, Option.or_assoc]
  by_cases hk : k = e.1
  case pos => simp [hk, h]
  case neg => simp [hk]

-- The counts do not depend on the order.
theorem merge_orders (π : Orders c) :
    mergeAcceleratorResources π.limits.entries π.requests.entries = (containerResources c.fields).gpuValues := by
  rw [c.declares.gpuValues, mergeAcceleratorResources, π.requests.foldl_eq collect_comm,
    π.limits.foldl_eq collect_comm, mergeAcceleratorResources]

theorem containerResourcesIn_inOrder (c : Container) :
    c.containerResourcesIn (.inOrder c) = containerResources c.fields := by
  have hm := merge_orders (.inOrder c)
  simp only [containerResourcesIn, hm]
  simp only [Orders.inOrder, Visit.inOrder] at hm ⊢
  rw [hm]
  rfl

theorem exists_visit (π : Orders c) :
    ∃ v : Visit (containerResources c.fields).gpuValues, v.entries = π.values.entries :=
  ⟨⟨π.values.entries, merge_orders π ▸ π.values.perm⟩, rfl⟩

theorem exists_orders (v : Visit (containerResources c.fields).gpuValues) :
    ∃ π : Orders c, π.values.entries = v.entries := by
  have hm : mergeAcceleratorResources c.limits.entries c.requests.entries = _ := merge_orders (.inOrder c)
  have hp : v.entries.Perm (mergeAcceleratorResources c.limits.entries c.requests.entries).entries := by
    rw [hm]
    exact v.perm
  exact ⟨⟨.inOrder _, .inOrder _, ⟨v.entries, hp⟩⟩, rfl⟩

theorem get_gpuValues (c : Container) (k : Str) : (containerResources c.fields).gpuValues.get k = c.count k := by
  unfold count
  split
  case isTrue hk  => rw [c.declares.gpuValues, get_mergeAcceleratorResources _ _ hk]
  case isFalse hk => exact (accelerators_containerResources c.fields).get_none hk

-- Everything but the count of cards is the same in every order.
theorem containerResourcesIn_eq_iff {π π' : Orders c} :
    c.containerResourcesIn π = c.containerResourcesIn π' ↔
      (c.containerResourcesIn π).gpu = (c.containerResourcesIn π').gpu := by
  simp [containerResourcesIn, merge_orders]

-- What is projected is the same in every order if and only if NVIDIA's own key counts, or all the others count the same.
theorem order_irrelevant_iff (c : Container) :
    (∀ π π' : Orders c, c.containerResourcesIn π = c.containerResourcesIn π') ↔
      (∃ n, c.count (str "nvidia.com/gpu") = some n) ∨
      ∀ k k' n n', c.count k = some n → c.count k' = some n' → n = n' := by
  simp only [containerResourcesIn_eq_iff]
  simp only [containerResourcesIn, merge_orders, ← get_gpuValues]
  cases hg : (containerResources c.fields).gpuValues.get (str "nvidia.com/gpu")
  case some n => simp
  case none   =>
    simp only [reduceCtorEq, exists_false, false_or]
    have hh : ∀ v : Visit (containerResources c.fields).gpuValues,
        v.entries.find? (fun _ => true) = v.entries.head? := by
      intro v
      cases v.entries <;> rfl
    have hv := Visit.find_const_iff (m := (containerResources c.fields).gpuValues) (p := fun _ => true)
      (f := fun e => (e.map Prod.snd).getD 0)
    simp only [Option.map_some, Option.getD_some, forall_const, hh] at hv
    constructor
    case mp =>
      intro h k k' n n' hk hk'
      refine hv.mp (fun v v' => ?_) k n k' n' hk hk'
      obtain ⟨π, hπ⟩ := exists_orders v
      obtain ⟨π', hπ'⟩ := exists_orders v'
      rw [← hπ, ← hπ']
      exact h π π'
    case mpr =>
      intro h π π'
      obtain ⟨v, hπ⟩ := exists_visit π
      obtain ⟨v', hπ'⟩ := exists_visit π'
      rw [← hπ, ← hπ']
      exact hv.mpr (fun k n k' n' hk hk' => h k k' n n' hk hk') v v'

-- Half of the cores and eight gigabytes of one card.
def hami : Dict Value :=
  (Dict.empty.set (str "nvidia.com/gpucores") (.int 50)).set (str "nvidia.com/gpumem") (.int 8192)

def hamiFields : Fields :=
  mapOf [("resources", .obj (mapOf [("limits", .obj hami.entries)]))]

theorem hami_declared : Declares hamiFields [str "resources"] hami .empty :=
  ⟨by rfl, by rfl⟩

def shared : Container :=
  ⟨hamiFields, hami, .empty, hami_declared⟩

theorem either_count_shown :
    ¬∀ (c : Container) (π π' : Orders c),
      (c.containerResourcesIn π).gpu = (c.containerResourcesIn π').gpu ∧
      (c.containerResourcesIn π).gpuValues = (c.containerResourcesIn π').gpuValues := by
  intro h
  have hg := (h shared (.inOrder _) ⟨.inOrder _, .inOrder _, ⟨_, List.reverse_perm _⟩⟩).left
  revert hg
  decide +kernel

end Container
end K8sRes
