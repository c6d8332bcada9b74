import Knaic.Go.Tally

open Go

namespace Gpu

-- Numbers by resource key.
abbrev Tally :=
  Go.Map Int64

-- A quantity of a resource is what `quantityToInt64` makes of it.
structure Container where
  name     : Str
  requests : Tally
  limits   : Tally

structure Pod where
  ns         : Str
  name       : Str
  nodeName   : Str
  phase      : Str
  containers : List Container

structure Node where
  name        : Str
  allocatable : Tally

structure Counts where
  total     : Int64
  used      : Int64
  available : Int64
deriving DecidableEq

structure VendorSummary where
  vendor  : Str
  keys    : List Str
  counts  : Counts
  byKey   : Go.Map Counts
  primary : Str
deriving DecidableEq

structure NodeSummary where
  node      : Str
  capacity  : Tally
  allocated : Option Tally
  pods      : Int64
deriving DecidableEq

structure ContainerUsage where
  name      : Str
  resources : Tally
deriving DecidableEq

structure PodUsage where
  ns         : Str
  name       : Str
  node       : Str
  phase      : Str
  resources  : Tally
  containers : List ContainerUsage
deriving DecidableEq

structure Status where
  scope   : Str
  target  : Str
  summary : Counts
  vendors : List VendorSummary
  nodes   : List NodeSummary
  pods    : List PodUsage

structure Options where
  scope   : Str
  ns      : Str
  isAdmin : Bool

def isAcceleratorKey (k : Str) : Bool :=
  if k ∈ [str "cpu", str "memory", str "pods", str "ephemeral-storage"] then false
  else if k.hasPrefix (str "hugepages-") || k.hasPrefix (str "attachable-volumes-") ||
      k.hasPrefix (str "storage-") then
    false
  else 0x2f ∈ k

-- The vendor of a key, and whether the key is the one that counts for the vendor. What is in
-- `allKeys` is in lower case.
def vendorOf (key : Str) (allKeys : List Str) : Str × Bool :=
  let k := key.toLower
  if k.hasPrefix (str "nvidia.com/") then
    let hamiManaged := str "nvidia.com/gpualloc" ∈ allKeys ∨ str "nvidia.com/gpucores" ∈ allKeys ∨
      str "nvidia.com/gpumem" ∈ allKeys
    if hamiManaged then
      if k = str "nvidia.com/gpualloc" then (str "HAMi", true)
      else if k = str "nvidia.com/gpu" then (str "HAMi", str "nvidia.com/gpualloc" ∉ allKeys)
      else (str "HAMi", false)
    else if k = str "nvidia.com/gpu" then (str "NVIDIA", true)
    else (str "NVIDIA", false)
  else if k.hasPrefix (str "amd.com/") then (str "AMD", k = str "amd.com/gpu")
  else if k.hasPrefix (str "huawei.com/ascend") || k.hasPrefix (str "huawei.com/npu") then
    (str "Huawei NPU", true)
  else if k.hasPrefix (str "hami.io/") then (str "HAMi", k = str "hami.io/vgpu")
  else if k.hasPrefix (str "intel.com/") then (str "Intel", k = str "intel.com/gpu")
  else if k.hasPrefix (str "aliyun.com/") then (str "Aliyun", k.hasSuffix (str "/gpu"))
  else if k.hasPrefix (str "rocm.amd.com/") then (str "AMD ROCm", k = str "rocm.amd.com/gpu")
  else
    let i := k.idxOf 0x2f
    if 0 < i ∧ i < k.length then (Str.toUpper (k.take 1) ++ (k.take i).drop 1, true)
    else (key, true)

-- What is used beyond what there is counts as nothing left.
def countsOf (alloc used : Tally) (k : Str) : Counts :=
  let available := alloc.count k - used.count k
  ⟨alloc.count k, used.count k, if available < 0 then 0 else available⟩

def addKey (alloc used : Tally) (keySet : List Str) (bucket : Go.Map VendorSummary) (k : Str) :
    Go.Map VendorSummary :=
  let (vendor, primary) := vendorOf k keySet
  let v := (bucket.lookup vendor).getD ⟨vendor, [], ⟨0, 0, 0⟩, ∅, []⟩
  let c := countsOf alloc used k
  let v := { v with keys := v.keys ++ [k], byKey := v.byKey.insert k c }
  bucket.insert vendor <|
    if primary && v.primary = [] then { v with primary := k, counts := c } else v

-- A vendor without a primary key is told by the first of its keys.
def withPrimary (v : VendorSummary) : VendorSummary :=
  match v.keys with
  | k :: _ =>
    if v.primary = [] then
      { v with primary := k, counts := (v.byKey.lookup k).getD ⟨0, 0, 0⟩ }
    else v
  | []     => v

def groupByVendor (keys : List Str) (alloc used : Tally) : List VendorSummary :=
  let keySet := keys.map Str.toLower
  ((keys.foldl (addKey alloc used keySet) ∅).values.map withPrimary).insertionSort
    fun a b => !(b.vendor < a.vendor : Bool)

-- The keys of both tallies, sorted.
def allKeys (alloc used : Tally) : List Str :=
  let keys := alloc.keyList.foldl (fun m k => m.insert k ()) (∅ : Go.Map Unit)
  (used.keyList.foldl (fun m k => m.insert k ()) keys).keyList

-- What a pod uses so far: of the container that is looked at, of the pod, and whether it uses
-- anything at all.
structure Usage where
  container : Tally
  pod       : Tally
  any       : Bool

def Usage.put (s : Usage) (k : Str) (n : Int64) : Usage where
  container := s.container.insert k n
  pod       := s.pod.add k n
  any       := true

def addRequest (s : Usage) (e : Str × Int64) : Usage :=
  if !isAcceleratorKey e.1 then s else s.put e.1 e.2

-- A limit counts where there is no request.
def addLimit (s : Usage) (e : Str × Int64) : Usage :=
  if !isAcceleratorKey e.1 then s
  else if (s.container.lookup e.1).isSome then s
  else s.put e.1 e.2

def addContainer (s : PodUsage × Bool) (c : Container) : PodUsage × Bool :=
  let used := c.requests.entries.foldl addRequest ⟨∅, s.1.resources, s.2⟩
  let used := c.limits.entries.foldl addLimit used
  let row := { s.1 with resources := used.pod }
  (if used.container.keyList.isEmpty then row
    else { row with containers := row.containers ++ [⟨c.name, used.container⟩] }, used.any)

def podRowFor (pod : Pod) : Option PodUsage :=
  let row : PodUsage := {
    ns         := pod.ns
    name       := pod.name
    node       := pod.nodeName
    phase      := pod.phase
    resources  := ∅
    containers := []
  }
  let (row, any) := pod.containers.foldl addContainer (row, false)
  if any then some row else none

def addCapacity (s : Tally × Tally) (e : Str × Int64) : Tally × Tally :=
  if !isAcceleratorKey e.1 then s else (s.1.insert e.1 e.2, s.2.add e.1 e.2)

-- What there is in all, and the nodes that have accelerators.
def addNode (s : Tally × List NodeSummary) (n : Node) : Tally × List NodeSummary :=
  let (capacity, nodeAlloc) := n.allocatable.entries.foldl addCapacity (∅, s.1)
  (nodeAlloc, if capacity.keyList.isEmpty then s.2 else s.2 ++ [⟨n.name, capacity, some ∅, 0⟩])

structure Totals where
  usedByKey   : Tally
  usedPerNode : Go.Map Tally
  podsPerNode : Go.Map Int64
  podRows     : List PodUsage

def Totals.addRow (t : Totals) (row : PodUsage) : Totals :=
  let t := { t with
    usedByKey := t.usedByKey.addAll row.resources
    podRows   := t.podRows ++ [row] }
  if row.node = [] then t
  else { t with
    usedPerNode := t.usedPerNode.insert row.node
      (((t.usedPerNode.lookup row.node).getD ∅).addAll row.resources)
    podsPerNode := t.podsPerNode.add row.node 1 }

def addPod (t : Totals) (pod : Pod) : Totals :=
  if pod.phase = str "Succeeded" ∨ pod.phase = str "Failed" then t
  else
    match podRowFor pod with
    | none     => t
    | some row => t.addRow row

def rowLess (a b : PodUsage) : Bool :=
  if a.ns ≠ b.ns then a.ns < b.ns else a.name < b.name

def sortRows (rows : List PodUsage) : List PodUsage :=
  rows.insertionSort fun a b => !rowLess b a

def sortNodes (nodes : List NodeSummary) : List NodeSummary :=
  nodes.insertionSort fun a b => !(b.node < a.node : Bool)

def addSummary (c : Counts) (v : VendorSummary) : Counts where
  total     := c.total + v.counts.total
  used      := c.used + v.counts.used
  available := c.available + v.counts.available

-- What the API server answers to the lists of nodes and of pods of a namespace, or of all pods if
-- that is empty.
structure Lists where
  nodes : Except Error (List Node)
  pods  : Str → Except Error (List Pod)

def Lists.nodesFor (l : Lists) (opts : Options) : List Node :=
  if opts.isAdmin then l.nodes.toOption.getD [] else []

def Lists.podsFor (l : Lists) (opts : Options) : List Pod :=
  if opts.scope = str "cluster" && opts.isAdmin then (l.pods []).toOption.getD []
  else if opts.ns ≠ [] then (l.pods opts.ns).toOption.getD []
  else []

-- What both services make of their tallies.
def report (opts : Options) (nodeAlloc usedByKey : Tally) (nodes : List NodeSummary)
    (rows : List PodUsage) : Status :=
  let vendors := groupByVendor (allKeys nodeAlloc usedByKey) nodeAlloc usedByKey
  {
    scope   := opts.scope
    target  := opts.ns
    summary := vendors.foldl addSummary ⟨0, 0, 0⟩
    vendors := vendors
    nodes   := nodes
    pods    := rows
  }

def status (l : Lists) (opts : Options) : Status :=
  let (nodeAlloc, nodes) := (l.nodesFor opts).foldl addNode (∅, [])
  let t := (l.podsFor opts).foldl addPod ⟨∅, ∅, ∅, []⟩
  let nodes := nodes.map fun n => { n with
    allocated := t.usedPerNode.lookup n.node
    pods      := t.podsPerNode.count n.node }
  report opts nodeAlloc t.usedByKey (sortNodes nodes) (sortRows t.podRows)

end Gpu
