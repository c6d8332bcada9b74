import Knaic.Gpu.Views

open Go

-- The pods that metrics tell of, and the nodes that they are scheduled to.
namespace Gpu

def Requests.onNode (s : Requests) (n : Str) : Tally :=
  (s.usedPerNode.lookup n).getD ∅

-- The row of the pod that a sample is about.
def samePod (ns name : Str) (b : Sample) : Bool :=
  b.requested ∧ b.ns = ns ∧ b.pod = name

section Rows

variable {rows : List PodUsage} {row : PodUsage} {f : PodUsage → Int64} {d : Int64}

theorem setRow_cons {r : PodUsage} (hd : ((r :: rows).map fun r => (r.ns, r.name)).Nodup) :
    setRow (r :: rows) row = if r.ns = row.ns ∧ r.name = row.name then row :: rows else r :: setRow rows row := by
  obtain ⟨hn, -⟩ := List.nodup_cons.mp hd
  by_cases he : r.ns = row.ns ∧ r.name = row.name
  case neg =>
    rw [if_neg he, setRow, setRow, List.any_cons, List.map_cons, if_neg he, decide_eq_false he, Bool.false_or]
    split <;> rfl
  case pos =>
    have hrows : rows.map (fun r => if r.ns = row.ns ∧ r.name = row.name then row else r) = rows := by
      refine (List.map_congr_left fun r' hr' => if_neg fun h => ?_).trans (List.map_id _)
      exact hn (List.mem_map.mpr ⟨r', hr', Prod.ext (h.left.trans he.left.symm) (h.right.trans he.right.symm)⟩)
    rw [if_pos he, setRow, List.any_cons, List.map_cons, if_pos he, decide_eq_true he, Bool.true_or, if_pos rfl, hrows]

-- Setting a row adds to a sum what it has more than the one before.
theorem sum_setRow (hd : (rows.map fun r => (r.ns, r.name)).Nodup)
    (hf : f row = ((rowFor rows row.ns row.name).map f).getD 0 + d) :
    ((setRow rows row).map f).sum = (rows.map f).sum + d := by
  induction rows
  case nil          => simpa [setRow, rowFor] using hf
  case cons r rs hi =>
    rw [setRow_cons hd]
    obtain ⟨-, hd⟩ := List.nodup_cons.mp hd
    by_cases he : r.ns = row.ns ∧ r.name = row.name
    case neg =>
      rw [rowFor, List.find?_cons_of_neg (by simpa using he)] at hf
      rw [if_neg he, List.map_cons, List.sum_cons, hi hd hf, List.map_cons, List.sum_cons, add_assoc]
    case pos =>
      rw [rowFor, List.find?_cons_of_pos (by simpa using he)] at hf
      rw [if_pos he, List.map_cons, List.sum_cons, hf, List.map_cons, List.sum_cons, add_right_comm]
      rfl

end Rows

-- The loop over the requests.
section Loop

variable {s : Requests} {b : Sample} {n k ns name : Str}

theorem row_node (s : Requests) (b : Sample) :
    (s.row b).node = ((rowFor s.podRows b.ns b.pod).map (·.node)).getD b.node := by
  unfold Requests.row
  cases rowFor s.podRows b.ns b.pod <;> rfl

theorem add_onNode (h : b.requested) (n : Str) : (s.add b).onNode n =
    if (s.row b).node = n ∧ n ≠ [] then (s.onNode n).add b.key b.value else s.onNode n := by
  obtain ⟨ha, hn, hp⟩ := h
  have hk : ¬(!isAcceleratorKey (canonicalResourceKey b.resource)) = true := by
    simpa [Sample.key] using ha
  have hnode : (s.row b).node =
    ((rowFor s.podRows b.ns b.pod).getD ⟨b.ns, b.pod, b.node, str "Running", ∅, []⟩).node := rfl
  rw [Requests.add, if_neg hk, if_neg (not_or.mpr ⟨hn, hp⟩), hnode]
  dsimp only
  generalize ((rowFor s.podRows b.ns b.pod).getD ⟨b.ns, b.pod, b.node, str "Running", ∅, []⟩).node = node
  by_cases he : node = []
  case pos =>
    rw [if_pos he, if_neg fun h => h.right (h.left ▸ he)]
    rfl
  case neg =>
    rw [if_neg he]
    have hu : ∀ t : Requests,
        t.usedPerNode = s.usedPerNode.insert node (((s.usedPerNode.lookup node).getD ∅).add b.key b.value) →
        t.onNode n = if node = n ∧ n ≠ [] then (s.onNode n).add b.key b.value else s.onNode n := by
      intro t ht
      rw [Requests.onNode, ht, Map.lookup_insert_eq]
      by_cases hnn : n = node
      case neg =>
        rw [if_neg hnn, if_neg fun h => hnn h.left.symm]
        rfl
      case pos =>
        subst hnn
        rw [if_pos rfl, if_pos ⟨rfl, he⟩]
        rfl
    split <;> exact hu _ rfl

theorem add_on (node n : Str) (c d : Int64) (p : Prop) [Decidable p] :
    (if decide (node = n ∧ node ≠ []) then c + (if p then d else 0) else 0) =
      (if decide (node = n ∧ node ≠ []) then c else 0) + if node = n ∧ n ≠ [] ∧ p then d else 0 := by
  by_cases he : node = n
  case neg => simp [he]
  case pos =>
    subst he
    by_cases hn : node = []
    case pos => simp [hn]
    case neg => simp [hn]

-- What a row has on a node, with one more sample.
theorem row_amount (s : Requests) (b : Sample) (n k : Str) :
    (if decide ((s.row b).node = n ∧ (s.row b).node ≠ []) then (s.row b).resources.count k else 0) =
      ((rowFor s.podRows (s.row b).ns (s.row b).name).map fun r =>
        if decide (r.node = n ∧ r.node ≠ []) then r.resources.count k else 0).getD 0 +
      if (s.row b).node = n ∧ n ≠ [] ∧ k = b.key then b.value else 0 := by
  have hk := row_key s b
  rw [row_resources, Map.count_add, add_on, hk.left, hk.right, row_node, resourcesOf]
  cases rowFor s.podRows b.ns b.pod
  case none   => simp
  case some r => rfl

-- What is known of the rows and of the nodes after some samples.
structure Requests.Told (l : List Sample) (s : Requests) : Prop where
  rows   : Rows s.podRows
  nodes  : ∀ ns name, (rowFor s.podRows ns name).map (·.node) = (l.find? (samePod ns name)).map (·.node)
  onNode : ∀ n k, n ≠ [] → (s.onNode n).count k = ((rowsOn n s.podRows).map (·.resources.count k)).sum

theorem Requests.Told.add {l : List Sample} (h : s.Told l) (b : Sample) : (s.add b).Told (l ++ [b]) := by
  by_cases hb : b.requested
  case neg =>
    rw [add_ignored hb]
    refine ⟨h.rows, fun ns name => ?_, h.onNode⟩
    rw [h.nodes, List.find?_append, List.find?_cons_of_neg (by simp [samePod, hb]), List.find?_nil, Option.or_none]
  case pos =>
    have hrows := (add_requested s b).right
    rw [if_pos hb] at hrows
    have hset : Rows (setRow s.podRows (s.row b)) := by
      refine h.rows.set ⟨b.key, ?_⟩
      rw [row_resources, Map.isSome_add]
      exact .inl rfl
    constructor
    case rows   => rwa [hrows]
    case nodes  =>
      intro ns name
      rw [hrows, rowFor_setRow, (row_key s b).left, (row_key s b).right, List.find?_append]
      split
      case isFalse hn =>
        rw [h.nodes, List.find?_cons_of_neg (by simp [samePod, hn]), List.find?_nil, Option.or_none]
      case isTrue he  =>
        obtain ⟨rfl, rfl⟩ := he
        rw [List.find?_cons_of_pos (by simp [samePod, hb]), Option.map_some, row_node, h.nodes]
        cases l.find? (samePod b.ns b.pod) <;> rfl
    case onNode =>
      intro n k hn
      have ho := h.onNode n k hn
      rw [rowsOn, Map.sum_kept] at ho
      rw [hrows, add_onNode hb, rowsOn, Map.sum_kept, sum_setRow h.rows.distinct (row_amount s b n k), ← ho]
      by_cases he : (s.row b).node = n
      case neg => rw [if_neg fun h => he h.left, if_neg fun h => he h.left, add_zero]
      case pos =>
        rw [if_pos ⟨he, hn⟩, Map.count_add]
        simp only [he, hn, ne_eq, not_false_eq_true, true_and]

theorem requests_told (l : List Sample) : (l.foldl Requests.add ⟨∅, ∅, ∅, [], []⟩).Told l := by
  induction l using List.reverseRecOn
  case append_singleton l b hi =>
    rw [List.foldl_concat]
    exact hi.add b
  case nil =>
    exact {
      rows         := ⟨.nil, by simp⟩
      nodes _ _    := rfl
      onNode _ k _ := Map.count_empty k
    }

end Loop

-- Whether a sample tells of an accelerator of a node.
def Sample.offers (b : Sample) (n : Str) : Prop :=
  isAcceleratorKey b.key ∧ b.node ≠ [] ∧ b.node = n

-- The loop over the capacities.
section Capacities

variable {s : Capacities} {n : Str} {v : NodeSummary}

theorem add_nodes (s : Capacities) (b : Sample) : (s.add b).nodes =
    if isAcceleratorKey b.key ∧ b.node ≠ [] then
      s.nodes.insert b.node { (s.nodes.lookup b.node).getD ⟨b.node, ∅, some ∅, 0⟩ with
        capacity := ((s.nodes.lookup b.node).getD ⟨b.node, ∅, some ∅, 0⟩).capacity.add b.key b.value }
    else s.nodes := by
  by_cases ha : isAcceleratorKey b.key
  case neg =>
    rw [if_neg fun h => ha h.left, Capacities.add]
    exact congrArg Capacities.nodes (if_pos (by simpa [Sample.key] using ha))
  case pos =>
    have hk : ¬(!isAcceleratorKey b.key) = true := by simp [ha]
    by_cases hn : b.node = []
    case pos =>
      rw [if_neg fun h => h.right hn, Capacities.add]
      exact congrArg Capacities.nodes ((if_neg hk).trans (if_pos hn))
    case neg =>
      rw [if_pos ⟨ha, hn⟩, Capacities.add]
      exact congrArg Capacities.nodes ((if_neg hk).trans (if_neg hn))

-- The nodes are those that some sample tells of, each under its name.
structure Capacities.Named (l : List Sample) (s : Capacities) : Prop where
  node  : ∀ n v, s.nodes.lookup n = some v → v.node = n
  nodes : ∀ n, (s.nodes.lookup n).isSome ↔ ∃ b ∈ l, b.offers n

theorem Capacities.Named.add {l : List Sample} (h : s.Named l) (b : Sample) : (s.add b).Named (l ++ [b]) := by
  have ho : ∀ n, b.offers n ↔ (isAcceleratorKey b.key ∧ b.node ≠ []) ∧ n = b.node := by
    intro n
    rw [Sample.offers, and_assoc, @eq_comm _ n]
  constructor
  case node  =>
    intro n v hv
    rw [add_nodes] at hv
    split at hv
    case isFalse => exact h.node n v hv
    case isTrue  =>
      cases Map.lookup_insert_some hv
      case inr hv => exact h.node n v hv
      case inl he =>
        obtain ⟨rfl, rfl⟩ := he
        cases hl : s.nodes.lookup b.node
        case none   => rfl
        case some v => exact h.node _ v hl
  case nodes =>
    intro n
    simp only [add_nodes, List.mem_append, List.mem_singleton, or_and_right, exists_or, exists_eq_left, ← h.nodes, ho]
    split
    case isFalse hb => simp [hb]
    case isTrue hb  =>
      rw [Map.isSome_insert]
      simp [hb, or_comm]

theorem capacities_named (l : List Sample) : (l.foldl Capacities.add ⟨∅, ∅⟩).Named l := by
  induction l using List.reverseRecOn
  case append_singleton l b hi =>
    rw [List.foldl_concat]
    exact hi.add b
  case nil =>
    exact {
      node _ _ h := by cases (Finmap.lookup_empty _).symm.trans h
      nodes _    := by simp
    }

end Capacities

-- A pod that is scheduled is on a node that is listed, with what all pods on that node have.
def Housed (s : Status) : Prop :=
  ∀ r ∈ s.pods, r.node ≠ [] → ∃! n, n ∈ s.nodes ∧ n.node = r.node ∧
    ∀ k, (n.allocated.getD ∅).count k = ((rowsOn r.node s.pods).map (·.resources.count k)).sum

-- Metrics that answer with some samples.
def answering (caps : List Sample) (reqs : Option Str → List Sample) : Query → Except Error (List Sample)
  | .capacity    => .ok caps
  | .requests ns => .ok (reqs ns)

-- The first sample of a pod.
def Sample.First (b : Sample) (l : List Sample) : Prop :=
  l.find? (samePod b.ns b.pod) = some b

section Nodes

variable {caps reqs : List Sample} {n : NodeSummary}

def nodeList (caps reqs : List Sample) : List NodeSummary :=
  let t := reqs.foldl Requests.add ⟨∅, ∅, ∅, [], []⟩
  sortNodes <| (caps.foldl Capacities.add ⟨∅, ∅⟩).nodes.values.map fun n => { n with
    allocated := t.usedPerNode.lookup n.node
    pods      := t.podsPerNode.count n.node }

theorem mem_nodeList : n ∈ nodeList caps reqs ↔
    ∃ v, (caps.foldl Capacities.add ⟨∅, ∅⟩).nodes.lookup n.node = some v ∧
      n = ⟨n.node, v.capacity, (reqs.foldl Requests.add ⟨∅, ∅, ∅, [], []⟩).usedPerNode.lookup n.node,
        (reqs.foldl Requests.add ⟨∅, ∅, ∅, [], []⟩).podsPerNode.count n.node⟩ := by
  have hn := capacities_named caps
  simp only [nodeList, sortNodes, List.mem_insertionSort, List.mem_map, Map.mem_values]
  constructor
  case mp  =>
    rintro ⟨v, ⟨name, hv⟩, rfl⟩
    have he := hn.node name v hv
    exact ⟨v, by rw [he]; exact hv, rfl⟩
  case mpr =>
    rintro ⟨v, hv, he⟩
    have hname := hn.node _ v hv
    exact ⟨v, ⟨_, hv⟩, by rw [hname]; exact he.symm⟩

theorem nodeList_listed {name : Str} (h : ∃ n ∈ nodeList caps reqs, n.node = name) : ∃ c ∈ caps, c.offers name := by
  obtain ⟨n, hm, rfl⟩ := h
  obtain ⟨v, hv, -⟩ := mem_nodeList.mp hm
  exact ((capacities_named caps).nodes n.node).mp (Option.isSome_iff_exists.mpr ⟨v, hv⟩)

-- What is listed of a node of which some capacity is known.
theorem node_listed (reqs : List Sample) {name : Str} (h : ∃ c ∈ caps, c.offers name) :
    ∃ n, (n ∈ nodeList caps reqs ∧ n.node = name ∧
      n.allocated.getD ∅ = (reqs.foldl Requests.add ⟨∅, ∅, ∅, [], []⟩).onNode name) ∧
    ∀ n' ∈ nodeList caps reqs, n'.node = name → n' = n := by
  obtain ⟨v, hv⟩ := Option.isSome_iff_exists.mp (((capacities_named caps).nodes name).mpr h)
  let t := reqs.foldl Requests.add ⟨∅, ∅, ∅, [], []⟩
  refine ⟨⟨name, v.capacity, t.usedPerNode.lookup name, t.podsPerNode.count name⟩, ?_, ?_⟩
  case refine_1 => exact ⟨mem_nodeList.mpr ⟨v, hv, rfl⟩, rfl, rfl⟩
  case refine_2 =>
    rintro n hm rfl
    obtain ⟨v', hv', he⟩ := mem_nodeList.mp hm
    cases hv.symm.trans hv'
    exact he

end Nodes

section First

variable {l : List Sample} {r : PodUsage} {b : Sample}

theorem samePod_iff {ns name : Str} : samePod ns name b ↔ b.requested ∧ b.ns = ns ∧ b.pod = name :=
  decide_eq_true_iff

-- A row is on the node of the first sample of its pod.
theorem row_first (hr : r ∈ (l.foldl Requests.add ⟨∅, ∅, ∅, [], []⟩).podRows) :
    ∃ b : Sample, b.First l ∧ b.node = r.node := by
  have ht := requests_told l
  have hb := ht.nodes r.ns r.name
  rw [ht.rows.rowFor_eq hr, Option.map_some] at hb
  obtain ⟨b, hb, he⟩ := Option.map_eq_some_iff.mp hb.symm
  obtain ⟨-, hns, hname⟩ := samePod_iff.mp (List.find?_some hb)
  exact ⟨b, by rw [Sample.First, hns, hname]; exact hb, he⟩

theorem first_row (hb : b.First l) : ∃ r ∈ (l.foldl Requests.add ⟨∅, ∅, ∅, [], []⟩).podRows, r.node = b.node := by
  have hr := (requests_told l).nodes b.ns b.pod
  rw [hb, Option.map_some] at hr
  obtain ⟨r, hr, he⟩ := Option.map_eq_some_iff.mp hr
  exact ⟨r, (rowFor_some hr).left, he⟩

end First

theorem monitoringStatus_answering (caps : List Sample) (reqs : Option Str → List Sample) (opts : Options) :
    monitoringStatus true (answering caps reqs) opts = .ok (report opts
      (caps.foldl Capacities.add ⟨∅, ∅⟩).nodeAlloc
      ((reqs opts.asked).foldl Requests.add ⟨∅, ∅, ∅, [], []⟩).usedByKey (nodeList caps (reqs opts.asked))
      (sortRows ((reqs opts.asked).foldl Requests.add ⟨∅, ∅, ∅, [], []⟩).podRows)) :=
  rfl

theorem monitoringStatus_housed_iff (caps : List Sample) (reqs : Option Str → List Sample) (opts : Options) :
    ∃ s, monitoringStatus true (answering caps reqs) opts = .ok s ∧ (Housed s ↔
      ∀ b : Sample, b.First (reqs opts.asked) → b.node ≠ [] → ∃ c ∈ caps, c.offers b.node) := by
  refine ⟨_, monitoringStatus_answering caps reqs opts, ?_⟩
  generalize reqs opts.asked = l
  have hp : (sortRows (l.foldl Requests.add ⟨∅, ∅, ∅, [], []⟩).podRows).Perm
      (l.foldl Requests.add ⟨∅, ∅, ∅, [], []⟩).podRows := List.perm_insertionSort ..
  constructor
  case mp  =>
    intro h b hb hn
    obtain ⟨r, hr, he⟩ := first_row hb
    obtain ⟨n, hm, -⟩ := h r (hp.mem_iff.mpr hr) (he ▸ hn)
    exact nodeList_listed ⟨n, hm.left, hm.right.left.trans he⟩
  case mpr =>
    intro h r hr hn
    obtain ⟨b, hb, he⟩ := row_first (hp.mem_iff.mp hr)
    obtain ⟨n, ⟨hm, hnode, ha⟩, hu⟩ := node_listed l (he ▸ h b hb (he ▸ hn))
    refine ⟨n, ⟨hm, hnode, fun k => ?_⟩, ?_⟩
    case refine_1 =>
      rw [ha, (requests_told l).onNode _ k hn]
      exact (((hp.filter _).map _).sum_eq).symm
    case refine_2 => exact fun n' h' => hu n' h'.left h'.right.left

-- A request of a pod on a node of which no capacity is known.
def scheduled : Sample where
  resource  := str "nvidia_com_gpu"
  node      := str "node-1"
  ns        := str "team"
  pod       := str "train"
  container := str "main"
  value     := 1

-- The node of a pod is missing where there is no sample of its capacity.
theorem pod_orphaned :
    ¬∀ caps reqs opts, ∃ s, monitoringStatus true (answering caps reqs) opts = .ok s ∧ Housed s := by
  intro h
  obtain ⟨s, hs, hh⟩ := h [] (fun _ => [scheduled]) wholeCluster
  cases (monitoringStatus_answering ..).symm.trans hs
  have hf : scheduled.First [scheduled] := List.find?_cons_of_pos (by decide)
  obtain ⟨r, hr, he⟩ := first_row hf
  have hn : r.node ≠ [] := he ▸ (by decide : str "node-1" ≠ [])
  obtain ⟨n, hm, -⟩ := hh r ((List.perm_insertionSort ..).mem_iff.mpr hr) hn
  obtain ⟨c, hc, -⟩ := nodeList_listed ⟨n, hm.left, hm.right.left⟩
  cases hc

end Gpu
