import Knaic.Go.Fields
import Knaic.Go.Dict
import Knaic.Gpu.Status
import Knaic.Kube.Objects
import Knaic.Kube.Quantity

open Go

-- What is shown of a node, over all orders in which its maps are visited.
namespace Admin

structure Taint where
  key    : Str
  value  : Str
  effect : Str
deriving DecidableEq

structure NodeCondition where
  type   : Str
  status : Str

-- What the cluster says of a node. What it says of its capacity are quantities.
structure Node where
  name       : Str
  labels     : Dict Str
  taints     : List Taint
  capacity   : Dict Kube.Quantity
  conditions : List NodeCondition
  kubelet    : Str
  kernel     : Str
  quantities : ∀ k q, capacity.get k = some q → (Kube.Quantity.value q.text).isSome

structure NodeInfo where
  name    : Str
  role    : Str
  cpu     : Str
  memory  : Str
  gpu     : Str
  status  : Str
  kubelet : Str
  kernel  : Str
  labels  : Dict Str
  taints  : List Taint

namespace Node

structure Orders (n : Node) where
  labels   : Visit n.labels
  capacity : Visit n.capacity

def Orders.inOrder (n : Node) : Orders n :=
  ⟨.inOrder _, .inOrder _⟩

def isGPU (e : Str × Kube.Quantity) : Bool :=
  e.1.hasInfix (str "gpu")

-- The count is that of the first key that is visited and has the letters in it.
def gpuInfo (n : Node) (π : Orders n) : Str × Str :=
  let product := (n.labels.get (str "nvidia.com/gpu.product")).getD []
  match π.capacity.entries.find? isGPU with
  | some e => (e.2.text, product)
  | none   => (str "-", product)

def formatGPU (count product : Str) : Str :=
  if count = [] ∨ count = str "-" ∨ count = str "0" then str "-"
  else if product = [] then count
  else count ++ str " x " ++ product

-- No quantity is zero, too.
def quantityString (q : Option Kube.Quantity) : Str :=
  let text := (q.map Kube.Quantity.text).getD (str "0")
  if text = str "0" then [] else text

def cloneStringMap {m : Dict Str} (v : Visit m) : Dict Str :=
  v.entries.foldl (fun d e => d.set e.1 e.2) .empty

def projectNode (n : Node) (π : Orders n) : NodeInfo :=
  let (gpuCount, gpuProduct) := n.gpuInfo π
  { name    := n.name
    role    :=
      if (n.labels.get (str "node-role.kubernetes.io/control-plane")).isSome then str "control-plane"
      else if (n.labels.get (str "node-role.kubernetes.io/master")).isSome then str "control-plane"
      else if gpuCount ≠ [] ∧ gpuCount ≠ str "0" then str "gpu-worker"
      else str "worker"
    cpu     := quantityString (n.capacity.get (str "cpu"))
    memory  := quantityString (n.capacity.get (str "memory"))
    gpu     := formatGPU gpuCount gpuProduct
    status  :=
      if n.conditions.any fun c => c.type = str "Ready" && c.status = str "True" then str "Ready"
      else str "NotReady"
    kubelet := n.kubelet
    kernel  := n.kernel
    labels  := cloneStringMap π.labels
    taints  := n.taints }

-- The count is the amount of a key that counts cards, which is up to the vendor of the cards.
def CountsCards (cards : Str → Prop) (n : Node) (π : Orders n) : Prop :=
  ∀ e, π.capacity.entries.find? isGPU = some e →
    ∃ k q, n.capacity.get k = some q ∧ cards k ∧ (n.gpuInfo π).1 = q.text

section Projection

variable {n : Node} {t t' product : Str}

-- What is printed of a quantity is not what is shown where there is none.
theorem formatGPU_inj (ht : (Kube.Quantity.value t).isSome) (ht' : (Kube.Quantity.value t').isSome)
    (h : formatGPU t product = formatGPU t' product) : t = t' := by
  have hp : ∀ s, (Kube.Quantity.value s).isSome → s ≠ [] ∧ s ≠ str "-" := by
    intro s hs
    constructor <;> rintro rfl <;> exact absurd hs (by decide +kernel)
  have hd : ∀ s, s ≠ [] → s ≠ str "-" → (if product = [] then s else s ++ str " x " ++ product) ≠ str "-" := by
    intro s hn hs
    split
    case isTrue  => exact hs
    case isFalse =>
      intro he
      have hl := congrArg List.length he
      have hx : (str " x ").length = 3 ∧ (str "-").length = 1 := by decide
      simp only [List.length_append, hx] at hl
      omega
  obtain ⟨hn, hm⟩ := hp t ht
  obtain ⟨hn', hm'⟩ := hp t' ht'
  simp only [formatGPU, hn, hm, hn', hm', false_or] at h
  by_cases hz : t = str "0" <;> by_cases hz' : t' = str "0" <;> simp only [hz, hz', if_true, if_false] at h
  case pos => rw [hz, hz']
  case neg => exact absurd h.symm (hd t' hn' hm')
  case pos => exact absurd h (hd t hn hm)
  case neg =>
    split at h
    case isTrue  => exact h
    case isFalse => exact List.append_cancel_right (List.append_cancel_right h)

theorem gpuInfo_fst (π : Orders n) :
    (n.gpuInfo π).1 = ((π.capacity.entries.find? isGPU).map fun e => e.2.text).getD (str "-") := by
  simp only [gpuInfo]
  cases π.capacity.entries.find? isGPU <;> rfl

theorem gpuInfo_snd (π : Orders n) : (n.gpuInfo π).2 = (n.labels.get (str "nvidia.com/gpu.product")).getD [] := by
  simp only [gpuInfo]
  cases π.capacity.entries.find? isGPU <;> rfl

theorem gpuInfo_of_find {π : Orders n} {e : Str × Kube.Quantity} (h : π.capacity.entries.find? isGPU = some e) :
    (n.gpuInfo π).1 = e.2.text := by
  simp [gpuInfo_fst, h]

theorem projectNode_gpu {π : Orders n} {e : Str × Kube.Quantity} (h : π.capacity.entries.find? isGPU = some e) :
    (n.projectNode π).gpu = formatGPU e.2.text ((n.labels.get (str "nvidia.com/gpu.product")).getD []) := by
  rw [← gpuInfo_of_find h, ← gpuInfo_snd π]
  rfl

theorem cloneStringMap_eq {m : Dict Str} (v : Visit m) : cloneStringMap v = m :=
  v.foldl_set

-- Nothing but the count depends on the order.
theorem projectNode_congr {π π' : Orders n} (h : (n.gpuInfo π).1 = (n.gpuInfo π').1) :
    n.projectNode π = n.projectNode π' := by
  have hi : n.gpuInfo π = n.gpuInfo π' := Prod.ext h ((gpuInfo_snd π).trans (gpuInfo_snd π').symm)
  simp only [projectNode, hi, cloneStringMap_eq]

-- The amounts of all keys that are taken for cards are the same.
def SameAmounts (n : Node) : Prop :=
  ∀ k q k' q', n.capacity.get k = some q → n.capacity.get k' = some q' → isGPU (k, q) → isGPU (k', q') →
    q.text = q'.text

theorem projectNode_const_iff : (∀ π π' : Orders n, n.projectNode π = n.projectNode π') ↔ n.SameAmounts := by
  constructor
  case mp =>
    intro h k q k' q' hk hk' hg hg'
    obtain ⟨v, hv⟩ := Visit.exists_find hk hg
    obtain ⟨v', hv'⟩ := Visit.exists_find hk' hg'
    have hp := congrArg NodeInfo.gpu (h ⟨.inOrder _, v⟩ ⟨.inOrder _, v'⟩)
    rw [projectNode_gpu hv, projectNode_gpu hv'] at hp
    exact formatGPU_inj (n.quantities k q hk) (n.quantities k' q' hk') hp
  case mpr =>
    intro h π π'
    apply projectNode_congr
    have hf := Visit.find_const_iff (m := n.capacity) (p := isGPU)
      (f := fun e => (e.map fun e => e.2.text).getD (str "-"))
    rw [gpuInfo_fst, gpuInfo_fst]
    exact hf.mpr h π.capacity π'.capacity

-- A node is shown as the same in every order, with the number of its cards, if and only if all keys that are taken for
-- cards have one amount, and a key that counts cards has it.
theorem nodes_counted_iff (cards : Str → Prop) (n : Node) :
    ((∀ π π' : Orders n, n.projectNode π = n.projectNode π') ∧ ∀ π : Orders n, n.CountsCards cards π) ↔
      n.SameAmounts ∧ ∀ k q, n.capacity.get k = some q → isGPU (k, q) →
        ∃ k' q', n.capacity.get k' = some q' ∧ cards k' ∧ q.text = q'.text := by
  rw [projectNode_const_iff]
  apply and_congr_right
  intro _
  constructor
  case mp =>
    intro h k q hk hg
    obtain ⟨v, hv⟩ := Visit.exists_find hk hg
    have hc := h ⟨.inOrder _, v⟩ _ hv
    rwa [gpuInfo_of_find hv] at hc
  case mpr =>
    intro h π e he
    rw [gpuInfo_of_find he]
    obtain ⟨hk, hg⟩ := π.capacity.of_find he
    exact h e.1 e.2 hk hg

section Example

-- Eight cards, each of which is shared by its memory.
def hamiCapacity : Dict Kube.Quantity :=
  (Dict.empty.set (str "nvidia.com/gpu") ⟨str "8"⟩).set (str "nvidia.com/gpumem") ⟨str "655360"⟩

theorem hamiCapacity_quantities :
    ∀ k q, hamiCapacity.get k = some q → (Kube.Quantity.value q.text).isSome := by
  intro k q h
  have hall : ∀ e ∈ hamiCapacity.entries, (Kube.Quantity.value e.2.text).isSome := by decide +kernel
  exact hall (k, q) (Entries.mem_of_get h)

def shared : Node where
  name       := str "node-1"
  labels     := .empty
  taints     := []
  capacity   := hamiCapacity
  conditions := [⟨str "Ready", str "True"⟩]
  kubelet    := str "v1.31.0"
  kernel     := str "6.1.0"
  quantities := hamiCapacity_quantities

-- The keys that count for their vendor.
def primary (n : Node) (k : Str) : Prop :=
  (Gpu.vendorOf k (n.capacity.entries.map fun e => Str.toLower e.1)).2

theorem memory_counted :
    ¬∀ n : Node, (∀ π π' : Orders n, n.projectNode π = n.projectNode π') ∧ ∀ π : Orders n, n.CountsCards n.primary π := by
  intro h
  have hg := congrArg NodeInfo.gpu
    ((h shared).left (.inOrder _) ⟨.inOrder _, ⟨shared.capacity.entries.reverse, List.reverse_perm _⟩⟩)
  revert hg
  decide +kernel

end Example
end Projection
end Node
end Admin
