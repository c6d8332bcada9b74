import Knaic.Gpu.Samples

open Go

namespace Gpu

-- What is in a cluster has names, and no two pods of a namespace have the same.
structure Inventory where
  nodes    : List Node
  pods     : List Pod
  nodeName : ∀ n ∈ nodes, n.name ≠ []
  podName  : ∀ p ∈ pods, p.ns ≠ [] ∧ p.name ≠ []
  distinct : (pods.map fun p => (p.ns, p.name)).Nodup

namespace Inventory

-- The pods of a namespace, or all of them.
def podsIn (c : Inventory) (ns : Option Str) : List Pod :=
  match ns with
  | none    => c.pods
  | some ns => c.pods.filter (·.ns = ns)

-- What the API server says of the cluster.
def lists (c : Inventory) : Lists where
  nodes   := .ok c.nodes
  pods ns := .ok (c.podsIn (if ns = [] then none else some ns))

theorem mem_podsIn (c : Inventory) {ns : Option Str} {p : Pod} (h : p ∈ c.podsIn ns) :
    p ∈ c.pods := by
  cases ns
  case none   => exact h
  case some _ => exact List.mem_of_mem_filter h

end Inventory

-- The samples of `kube_node_status_capacity`.
def Node.samples (n : Node) : List Sample :=
  n.allocatable.entries.map fun e => ⟨mangle e.1, n.name, [], [], [], e.2⟩

-- The samples of `kube_pod_container_resource_requests`, which are those of live pods.
def Container.samples (p : Pod) (c : Container) : List Sample :=
  c.requests.entries.map fun e => ⟨mangle e.1, p.nodeName, p.ns, p.name, c.name, e.2⟩

def Pod.samples (p : Pod) : List Sample :=
  p.containers.flatMap (Container.samples p)

-- Metrics that describe a cluster, in any order.
structure Describes (c : Inventory) (query : Query → Except Error (List Sample)) : Prop where
  capacity : ∃ l, query .capacity = .ok l ∧ l.Perm (selected (c.nodes.flatMap Node.samples))
  requests : ∀ ns, ∃ l, query (.requests ns) = .ok l ∧
             l.Perm (selected (((c.podsIn ns).filter Pod.live).flatMap Pod.samples))

-- What the containers of live pods may use is what they ask for.
def Inventory.Limited (c : Inventory) : Prop :=
  ∀ p ∈ c.pods, p.live → ∀ x ∈ p.containers, x.limits = x.requests

-- All keys are told by metrics.
structure Inventory.Regular (c : Inventory) : Prop where
  nodes : ∀ n ∈ c.nodes, ∀ k, (n.allocatable.lookup k).isSome → Gpu.Regular k
  pods  : ∀ p ∈ c.pods, p.live → ∀ x ∈ p.containers, ∀ k, (x.requests.lookup k).isSome →
          Gpu.Regular k

-- A report of a whole cluster or of one namespace.
def Options.Scoped (opts : Options) : Prop :=
  opts.scope = str "cluster" ∨ opts.scope = str "namespace" ∧ opts.ns ≠ []

-- The namespace that the report from metrics asks for.
def Options.asked (opts : Options) : Option Str :=
  if opts.scope = str "namespace" && opts.ns ≠ [] then some opts.ns else none

-- The report that is made with the rights to see everything.
def Options.admin (opts : Options) : Options :=
  { opts with isAdmin := true }

theorem podsFor_admin {opts : Options} (h : opts.Scoped) (c : Inventory) :
    c.lists.podsFor opts.admin = c.podsIn opts.asked := by
  have hne : str "cluster" ≠ str "namespace" := by decide
  cases h
  case inl hs =>
    simp only [Lists.podsFor, Options.admin, Options.asked, hs, Inventory.lists, decide_true,
      Bool.and_true, if_true, hne, decide_false, Bool.false_and, Bool.false_eq_true, if_false]
    rfl
  case inr hs =>
    simp only [Lists.podsFor, Options.admin, Options.asked, hs.left, hs.right, Inventory.lists,
      hne.symm, decide_false, Bool.false_and, Bool.false_eq_true, if_false, ne_eq,
      not_false_eq_true, if_true, decide_true, Bool.and_self]
    rfl

section Samples

variable {g : Sample → Prop} [DecidablePred g] {k : Str}

theorem selected_flatMap {β : Type} {l : List β} {f : β → List Sample} :
    selected (l.flatMap f) = l.flatMap fun x => selected (f x) :=
  List.filter_flatMap ..

theorem Node.tells {n : Node} (hn : n.name ≠ [])
    (hr : ∀ k, (n.allocatable.lookup k).isSome → Regular k) :
    Tells (fun s => isAcceleratorKey s.key ∧ s.node ≠ []) k (selected n.samples) (n.amount k)
      (n.has k) := by
  have h := Tells.entries (g := fun s => isAcceleratorKey s.key ∧ s.node ≠ []) (k := k) hr
    (f := fun e => ⟨mangle e.1, n.name, [], [], [], e.2⟩) (P := n.name ≠ []) (fun _ => rfl)
    (fun _ => rfl) (fun _ => Iff.rfl)
  simp only [eq_true hn, true_and] at h
  exact h

variable {p : Pod} {sel : Prop} [Decidable sel]

theorem Container.tells {c : Container} (hl : c.limits = c.requests)
    (hr : ∀ k, (c.requests.lookup k).isSome → Regular k)
    (hg : ∀ s : Sample, s.ns = p.ns → s.pod = p.name → (g s ↔ isAcceleratorKey s.key ∧ sel)) :
    Tells g k (selected (c.samples p)) (if sel then c.amount k else 0)
      (sel ∧ (c.used k).isSome) := by
  have h := Tells.entries (g := g) (k := k) (P := sel) hr
    (f := fun e => ⟨mangle e.1, p.nodeName, p.ns, p.name, c.name, e.2⟩) (fun _ => rfl)
    (fun _ => rfl) (fun e => hg _ rfl rfl)
  have hu : c.used k = if isAcceleratorKey k then c.requests.lookup k else none := by
    rw [Container.used, hl, Option.or_self]
  have hn : (if sel then c.amount k else 0) =
      if sel ∧ isAcceleratorKey k then c.requests.count k else 0 := by
    rw [Container.amount, hu, ite_and]
    by_cases ha : isAcceleratorKey k <;> simp [ha, Map.count]
  have hs : (c.used k).isSome ↔ isAcceleratorKey k ∧ (c.requests.lookup k).isSome := by
    rw [hu]
    by_cases ha : isAcceleratorKey k <;> simp [ha]
  rw [hn, hs]
  exact h

theorem Pod.tells (hl : ∀ c ∈ p.containers, c.limits = c.requests)
    (hr : ∀ c ∈ p.containers, ∀ k, (c.requests.lookup k).isSome → Regular k)
    (hg : ∀ s : Sample, s.ns = p.ns → s.pod = p.name → (g s ↔ isAcceleratorKey s.key ∧ sel)) :
    Tells g k (selected p.samples) (if sel then p.amount k else 0) (sel ∧ p.uses k) := by
  have h := Tells.flatMap fun c hc => Container.tells (k := k) (hl c hc) (hr c hc) hg
  rw [← selected_flatMap] at h
  have hn : (p.containers.map fun c => if sel then c.amount k else 0).sum =
      if sel then p.amount k else 0 := by
    by_cases hs : sel <;> simp [hs, Pod.amount]
  have hu : (∃ c ∈ p.containers, sel ∧ (c.used k).isSome) ↔ sel ∧ p.uses k := by
    simp only [Pod.uses]
    tauto
  rw [hn, hu] at h
  exact h

end Samples

-- The same for all pods that are asked for, and some of them.
theorem requests_tell {c : Inventory} (hl : c.Limited) (hr : c.Regular) (ns : Option Str)
    {g : Sample → Prop} [DecidablePred g] {sel : Pod → Prop} [DecidablePred sel]
    (hg : ∀ p ∈ c.podsIn ns, ∀ s : Sample, s.ns = p.ns → s.pod = p.name →
      (g s ↔ isAcceleratorKey s.key ∧ sel p)) (k : Str) :
    Tells g k (selected (((c.podsIn ns).filter Pod.live).flatMap Pod.samples))
      (((c.podsIn ns).filter Pod.live).map fun p => if sel p then p.amount k else 0).sum
      (∃ p ∈ (c.podsIn ns).filter Pod.live, sel p ∧ p.uses k) := by
  rw [selected_flatMap]
  refine Tells.flatMap fun p hp => ?_
  have ⟨hm, hlive⟩ := List.mem_filter.mp hp
  have hc := c.mem_podsIn hm
  exact Pod.tells (hl p hc hlive) (hr.pods p hc hlive) (hg p hm)

-- The rows of pods with different names.
section PodRows

variable {pods : List Pod} {ns name k : Str}

theorem podRows_rows (hd : (pods.map fun p => (p.ns, p.name)).Nodup) :
    Rows (pods.filterMap podRowFor) where
  filled r hr := by
    have ⟨p, _, hp⟩ := List.mem_filterMap.mp hr
    have ⟨k, hk⟩    := (podRowFor_isSome p).mp (by rw [hp]; rfl)
    exact ⟨k, ((podRowFor_row hp).keys k).mpr hk⟩
  distinct    := by
    have hk : List.Sublist ((pods.filterMap podRowFor).map fun r => (r.ns, r.name))
        (pods.map fun p => (p.ns, p.name)) := by
      clear hd
      induction pods
      case nil          => exact .slnil
      case cons p ps hi =>
        cases hr : podRowFor p
        case none     => rw [List.filterMap_cons_none hr]; exact hi.cons _
        case some row =>
          rw [List.filterMap_cons_some hr, List.map_cons, List.map_cons, (podRowFor_row hr).ns,
            (podRowFor_row hr).name]
          exact hi.cons_cons _
    exact hd.sublist hk

theorem podRows_resources (hd : (pods.map fun p => (p.ns, p.name)).Nodup) :
    (resourcesOf (pods.filterMap podRowFor) ns name).count k =
      (pods.map fun p => if p.ns = ns ∧ p.name = name then p.amount k else 0).sum ∧
    (((resourcesOf (pods.filterMap podRowFor) ns name).lookup k).isSome ↔
      ∃ p ∈ pods, (p.ns = ns ∧ p.name = name) ∧ p.uses k) := by
  induction pods
  case nil          => exact ⟨Map.count_empty k, by simp [resourcesOf, rowFor]⟩
  case cons p ps hi =>
    obtain ⟨hn, hd⟩ := List.nodup_cons.mp hd
    obtain ⟨hc, hk⟩ := hi hd
    simp only [List.map_cons, List.sum_cons, List.exists_mem_cons_iff]
    cases hr : podRowFor p
    case none     =>
      have hu : ¬p.uses k := by
        intro hu
        have hs := (podRowFor_isSome p).mpr ⟨k, hu⟩
        rw [hr] at hs
        cases hs
      rw [List.filterMap_cons_none hr, hc, hk, podRowFor_none hr, ite_self, zero_add]
      simp [hu]
    case some row =>
      have hrow := podRowFor_row hr
      rw [List.filterMap_cons_some hr]
      by_cases he : p.ns = ns ∧ p.name = name
      case neg =>
        have hf : resourcesOf (row :: ps.filterMap podRowFor) ns name =
            resourcesOf (ps.filterMap podRowFor) ns name := by
          rw [resourcesOf, rowFor, List.find?_cons_of_neg (by simpa [hrow.ns, hrow.name] using he)]
          rfl
        rw [hf, hc, hk]
        simp [he]
      case pos =>
        obtain ⟨rfl, rfl⟩ := he
        have hf : resourcesOf (row :: ps.filterMap podRowFor) p.ns p.name = row.resources := by
          rw [resourcesOf, rowFor, List.find?_cons_of_pos (by simp [hrow.ns, hrow.name])]
          rfl
        -- No other pod has the name.
        have hq : ∀ q ∈ ps, ¬(q.ns = p.ns ∧ q.name = p.name) := fun q hq he =>
          hn (List.mem_map.mpr ⟨q, hq, by rw [he.left, he.right]⟩)
        have hs :
            (ps.map fun q => if q.ns = p.ns ∧ q.name = p.name then q.amount k else 0).sum = 0 := by
          refine List.sum_eq_zero fun a ha => ?_
          obtain ⟨q, hm, he⟩ := List.mem_map.mp ha
          rw [← he, if_neg (hq q hm)]
        rw [hf, hrow.count, hrow.keys, hs, if_pos ⟨rfl, rfl⟩, add_zero]
        refine ⟨rfl, ?_⟩
        constructor
        case mp  => exact fun h => .inl ⟨⟨rfl, rfl⟩, h⟩
        case mpr =>
          rintro (h | ⟨q, hm, he, _⟩)
          · exact h.right
          · exact absurd he (hq q hm)

end PodRows
-- What the reports say of a cluster.
structure Agree (s t : Status) : Prop where
  vendors : s.vendors = t.vendors
  summary : s.summary = t.summary
  pods    : s.pods.map PodUsage.shown = t.pods.map PodUsage.shown

section Views

variable {c : Inventory} {l : List Sample} {ns : Option Str}

theorem nodeAlloc_agree (hr : c.Regular)
    (hl : l.Perm (selected (c.nodes.flatMap Node.samples))) :
    (l.foldl Capacities.add ⟨∅, ∅⟩).nodeAlloc = (c.nodes.foldl addNode (∅, [])).1 := by
  have h : ∀ k, _ := fun k =>
    ((Tells.flatMap fun n hn => Node.tells (k := k) (c.nodeName n hn) (hr.nodes n hn)).perm
      (selected_flatMap ▸ hl)).fold add_nodeAlloc (s := ⟨∅, ∅⟩) rfl
  exact Map.ext_count (fun k => (h k).right.trans (nodeAlloc_spec c.nodes k).right.symm)
    fun k => (h k).left.trans (nodeAlloc_spec c.nodes k).left.symm

variable (hl : c.Limited) (hr : c.Regular)
  (hp : l.Perm (selected (((c.podsIn ns).filter Pod.live).flatMap Pod.samples)))

include hl hr hp

theorem usedByKey_agree :
    (l.foldl Requests.add ⟨∅, ∅, ∅, [], []⟩).usedByKey =
      ((c.podsIn ns).foldl addPod ⟨∅, ∅, ∅, []⟩).usedByKey := by
  have hg : ∀ p ∈ c.podsIn ns, ∀ s : Sample, s.ns = p.ns → s.pod = p.name →
      (s.requested ↔ isAcceleratorKey s.key ∧ True) := by
    intro p hm s hn ha
    have hne := c.podName p (c.mem_podsIn hm)
    simp [Sample.requested, hn, ha, hne]
  have h : ∀ k, _ := fun k => ((requests_tell hl hr ns hg k).perm hp).fold
    (fun s b => (add_requested s b).left) (s := ⟨∅, ∅, ∅, [], []⟩) rfl
  refine Map.ext_count (fun k => ?_) fun k => ?_
  case refine_1 =>
    rw [(h k).right, (usedByKey_spec (c.podsIn ns) k).right]
    simp [and_assoc]
  case refine_2 =>
    rw [(h k).left, (usedByKey_spec (c.podsIn ns) k).left, usage]
    simp

theorem podRows_agree :
    (sortRows (l.foldl Requests.add ⟨∅, ∅, ∅, [], []⟩).podRows).map PodUsage.shown =
      (sortRows ((c.podsIn ns).foldl addPod ⟨∅, ∅, ∅, []⟩).podRows).map PodUsage.shown := by
  have hd : (((c.podsIn ns).filter Pod.live).map fun p => (p.ns, p.name)).Nodup := by
    refine c.distinct.sublist (.map _ (List.filter_sublist.trans ?_))
    cases ns
    case none   => exact .refl _
    case some _ => exact List.filter_sublist
  have hrows := podRows_rows hd
  rw [podRows_eq]
  have hs : Rows (Requests.mk ∅ ∅ ∅ [] []).podRows := ⟨.nil, by simp⟩
  refine (requests_rows hs l).sorted_eq hrows fun ns' name => ?_
  have hg : ∀ p ∈ c.podsIn ns, ∀ s : Sample, s.ns = p.ns → s.pod = p.name →
      (s.requested ∧ s.ns = ns' ∧ s.pod = name ↔
        isAcceleratorKey s.key ∧ p.ns = ns' ∧ p.name = name) := by
    intro p hm s hn ha
    have hne := c.podName p (c.mem_podsIn hm)
    simp [Sample.requested, hn, ha, hne]
  have h : ∀ k, _ := fun k => ((requests_tell hl hr ns hg k).perm hp).fold
    (π := fun s : Requests => resourcesOf s.podRows ns' name) add_resourcesOf
    (s := ⟨∅, ∅, ∅, [], []⟩) rfl
  exact Map.ext_count (fun k => (h k).right.trans (podRows_resources hd).right.symm)
    fun k => (h k).left.trans (podRows_resources hd).left.symm

end Views

theorem monitoringStatus_ok {query : Query → Except Error (List Sample)} {opts : Options}
    {caps reqs : List Sample} (hc : query .capacity = .ok caps)
    (hr : query (.requests opts.asked) = .ok reqs) :
    ∃ nodes, monitoringStatus true query opts = .ok (report opts
      (caps.foldl Capacities.add ⟨∅, ∅⟩).nodeAlloc
      (reqs.foldl Requests.add ⟨∅, ∅, ∅, [], []⟩).usedByKey nodes
      (sortRows (reqs.foldl Requests.add ⟨∅, ∅, ∅, [], []⟩).podRows)) := by
  rw [Options.asked] at hr
  simp only [monitoringStatus, hc, hr]
  exact ⟨_, rfl⟩

theorem status_report (l : Lists) (opts : Options) :
    ∃ nodes, status l opts = report opts ((l.nodesFor opts).foldl addNode (∅, [])).1
      ((l.podsFor opts).foldl addPod ⟨∅, ∅, ∅, []⟩).usedByKey nodes
      (sortRows ((l.podsFor opts).foldl addPod ⟨∅, ∅, ∅, []⟩).podRows) :=
  ⟨_, rfl⟩

theorem views_agree (c : Inventory) (query : Query → Except Error (List Sample)) (opts : Options)
    (h : Describes c query) (hs : opts.Scoped) (hl : c.Limited) (hr : c.Regular) :
    (∃ s, monitoringStatus true query opts = .ok s ∧ Agree s (status c.lists opts.admin)) ∧
    ∀ k, Dotted k ↔ matchesQuery (mangle k) ∧ canonicalResourceKey (mangle k) = k ∧
      k.getLast? ≠ some 0x2f := by
  refine ⟨?_, fun _ => dotted_iff⟩
  have ⟨caps, hcaps, hcp⟩ := h.capacity
  have ⟨reqs, hreqs, hrp⟩ := h.requests opts.asked
  have ⟨nodes, hm⟩  := monitoringStatus_ok hcaps hreqs
  have ⟨nodes', hs'⟩ := status_report c.lists opts.admin
  have hn : c.lists.nodesFor opts.admin = c.nodes := rfl
  have hrows := podRows_agree hl hr hrp
  rw [hn, podsFor_admin hs, ← nodeAlloc_agree hr hcp, ← usedByKey_agree hl hr hrp] at hs'
  exact ⟨_, hm, hs' ▸ ⟨rfl, rfl, hrows⟩⟩

section Fixtures

-- What metrics say of a cluster.
def Inventory.metrics (c : Inventory) : Query → Except Error (List Sample)
  | .capacity    => .ok (selected (c.nodes.flatMap Node.samples))
  | .requests ns => .ok (selected (((c.podsIn ns).filter Pod.live).flatMap Pod.samples))

theorem Inventory.metrics_describe (c : Inventory) : Describes c c.metrics where
  capacity   := ⟨_, rfl, .refl _⟩
  requests _ := ⟨_, rfl, .refl _⟩

-- A node with eight accelerators and a pod that uses two of them.
def oneNode (key : Str) : Inventory where
  nodes    := [⟨str "node-1", Finmap.singleton key 8⟩]
  pods     := [{
    ns         := str "team"
    name       := str "train"
    nodeName   := str "node-1"
    phase      := str "Running"
    containers := [⟨str "main", Finmap.singleton key 2, Finmap.singleton key 2⟩]
  }]
  distinct := List.nodup_singleton _
  nodeName := by
    have hn : str "node-1" ≠ [] := by decide
    exact fun n h => List.mem_singleton.mp h ▸ hn
  podName  := by
    have hn : str "team" ≠ [] ∧ str "train" ≠ [] := by decide
    exact fun p h => List.mem_singleton.mp h ▸ hn

theorem oneNode_limited (key : Str) : (oneNode key).Limited := by
  intro p hp _ x hx
  rw [List.mem_singleton.mp hp] at hx
  rw [List.mem_singleton.mp hx]

theorem oneNode_regular {key : Str} (h : Regular key) : (oneNode key).Regular := by
  have hs : ∀ {n : Int64} {k}, ((Finmap.singleton key n : Tally).lookup k).isSome → Regular k := by
    intro n k hk
    rw [Finmap.lookup_isSome, Finmap.mem_singleton] at hk
    exact hk ▸ h
  constructor
  case nodes =>
    intro n hn k hk
    rw [List.mem_singleton.mp hn] at hk
    exact hs hk
  case pods  =>
    intro p hp _ x hx k hk
    rw [List.mem_singleton.mp hp] at hx
    rw [List.mem_singleton.mp hx] at hk
    exact hs hk

def partition : Str :=
  str "nvidia.com/mig-1g.5gb"

end Fixtures

theorem views_agree_card :
    (∃ s, monitoringStatus true (oneNode card).metrics wholeCluster = .ok s ∧
      Agree s (status (oneNode card).lists wholeCluster.admin)) ∧
    ∀ k, Dotted k ↔ matchesQuery (mangle k) ∧ canonicalResourceKey (mangle k) = k ∧
      k.getLast? ≠ some 0x2f := by
  have hd : Dotted card := dotted_iff.mpr (by decide)
  have hr : Regular card := by
    rw [Regular, if_pos (by decide)]
    exact hd
  exact views_agree _ _ _ (oneNode card).metrics_describe (.inl rfl) (oneNode_limited card)
    (oneNode_regular hr)

-- The dash in the name of a partition comes back as something else.
theorem partition_renamed :
    (¬∀ c query opts, Describes c query → opts.Scoped → c.Limited →
      ∃ s, monitoringStatus true query opts = .ok s ∧ Agree s (status c.lists opts.admin)) ∧
    ¬∀ k, isAcceleratorKey k → canonicalResourceKey (mangle k) = k := by
  constructor
  case right => exact fun h => absurd (h partition (by decide)) (by decide)
  case left  =>
    intro h
    have ⟨s, hs, ha⟩ := h _ _ wholeCluster (oneNode partition).metrics_describe (.inl rfl)
      (oneNode_limited partition)
    have hm : (monitoringStatus true (oneNode partition).metrics wholeCluster).toOption.map
        (·.vendors.map (·.keys)) = some [[str "nvidia.com.mig.1g/5gb"]] := by
      decide +kernel
    have ht : (status (oneNode partition).lists wholeCluster.admin).vendors.map (·.keys) =
        [[partition]] := by
      decide +kernel
    rw [hs] at hm
    have he : s.vendors.map (·.keys) = _ := Option.some.inj hm
    rw [ha.vendors, ht] at he
    exact absurd he (by decide)

end Gpu
