import Knaic.Gpu.Accounting
import Knaic.Gpu.Status

open Go

namespace Gpu

-- A row of an instant query with the labels that are read, of which one that is missing is empty.
-- The value is what `int64` makes of the number.
structure Sample where
  resource  : Str
  node      : Str
  ns        : Str
  pod       : Str
  container : Str
  value     : Int64

-- The capacity of nodes and the requests of containers, of one namespace or of all. Both queries ask
-- only for resources whose name matches `.+_.+_.+`.
inductive Query
  | capacity
  | requests (ns : Option Str)

def underscore : UInt8 :=
  0x5f

-- `strings.LastIndex` for one byte
def lastIndex (s : Str) (b : UInt8) : Option Nat :=
  if b ∈ s then some (s.length - 1 - s.reverse.idxOf b) else none

def canonicalResourceKey (ks : Str) : Str :=
  match lastIndex ks underscore with
  | none     => ks
  | some idx =>
    let group := (ks.take idx).map fun b => if b = underscore then 0x2e else b
    let resource := ks.drop (idx + 1)
    if group = [] then resource else group ++ 0x2f :: resource

-- A map of nodes by name, and what there is in all.
structure Capacities where
  nodeAlloc : Tally
  nodes     : Go.Map NodeSummary

def Capacities.add (s : Capacities) (sample : Sample) : Capacities :=
  let key := canonicalResourceKey sample.resource
  if !isAcceleratorKey key then s
  else if sample.node = [] then s
  else
    let ns := (s.nodes.lookup sample.node).getD ⟨sample.node, ∅, some ∅, 0⟩
    {
      nodeAlloc := s.nodeAlloc.add key sample.value
      nodes     := s.nodes.insert sample.node
        { ns with capacity := ns.capacity.add key sample.value }
    }

def setRow (rows : List PodUsage) (row : PodUsage) : List PodUsage :=
  if rows.any fun r => r.ns = row.ns ∧ r.name = row.name then
    rows.map fun r => if r.ns = row.ns ∧ r.name = row.name then row else r
  else
    rows ++ [row]

def rowFor (rows : List PodUsage) (ns name : Str) : Option PodUsage :=
  rows.find? fun r => r.ns = ns ∧ r.name = name

def addToContainer (containers : List ContainerUsage) (name key : Str) (n : Int64) :
    List ContainerUsage :=
  match containers with
  | []      => [⟨name, Map.add ∅ key n⟩]
  | c :: cs =>
    if c.name = name then { c with resources := c.resources.add key n } :: cs
    else c :: addToContainer cs name key n

-- The map of rows is the list of its entries, in the order in which they came. The pods that have
-- been counted on their nodes are those in `seen`.
structure Requests where
  usedByKey   : Tally
  usedPerNode : Go.Map Tally
  podsPerNode : Go.Map Int64
  podRows     : List PodUsage
  seen        : List (Str × Str)

def Requests.add (s : Requests) (sample : Sample) : Requests :=
  let key := canonicalResourceKey sample.resource
  if !isAcceleratorKey key then s
  else if sample.ns = [] ∨ sample.pod = [] then s
  else
    let row := (rowFor s.podRows sample.ns sample.pod).getD
      ⟨sample.ns, sample.pod, sample.node, str "Running", ∅, []⟩
    let n := sample.value
    let row := { row with
      resources  := row.resources.add key n
      containers := addToContainer row.containers sample.container key n }
    let s := { s with
      usedByKey := s.usedByKey.add key n
      podRows   := setRow s.podRows row }
    if row.node = [] then s
    else
      let onNode := (s.usedPerNode.lookup row.node).getD ∅
      let s := { s with usedPerNode := s.usedPerNode.insert row.node (onNode.add key n) }
      if (sample.ns, sample.pod) ∈ s.seen then s
      else { s with
        podsPerNode := s.podsPerNode.add row.node 1
        seen        := (sample.ns, sample.pod) :: s.seen }

-- The report from metrics. `available` says whether there is anything to ask.
def monitoringStatus (available : Bool) (query : Query → Except Error (List Sample))
    (opts : Options) : Except Error Status := do
  if !available then
    return ⟨opts.scope, opts.ns, ⟨0, 0, 0⟩, [], [], []⟩
  else
    let caps ← (query .capacity).mapError (.wrap "query node capacity")
    let ns := if opts.scope = str "namespace" && opts.ns ≠ [] then some opts.ns else none
    let requests ← (query (.requests ns)).mapError (.wrap "query pod requests")
    let c := caps.foldl Capacities.add ⟨∅, ∅⟩
    let r := requests.foldl Requests.add ⟨∅, ∅, ∅, [], []⟩
    let nodes := c.nodes.values.map fun n => { n with
      allocated := r.usedPerNode.lookup n.node
      pods      := r.podsPerNode.count n.node }
    return report opts c.nodeAlloc r.usedByKey (sortNodes nodes) (sortRows r.podRows)

-- What a row says of its pod.
def PodUsage.shown (r : PodUsage) : Str × Str × Tally :=
  (r.ns, r.name, r.resources)

-- The rows of different pods, of which each uses something.
structure Rows (rows : List PodUsage) : Prop where
  distinct : (rows.map fun r => (r.ns, r.name)).Nodup
  filled   : ∀ r ∈ rows, ∃ k, (r.resources.lookup k).isSome

def resourcesOf (rows : List PodUsage) (ns name : Str) : Tally :=
  ((rowFor rows ns name).map (·.resources)).getD ∅

variable {rows rows' : List PodUsage} {row : PodUsage} {ns name : Str} {m : Tally}

theorem rowFor_some (h : rowFor rows ns name = some row) :
    row ∈ rows ∧ row.ns = ns ∧ row.name = name :=
  ⟨List.mem_of_find?_eq_some h, of_decide_eq_true (List.find?_some h :)⟩

theorem rowFor_isSome : (rowFor rows ns name).isSome ↔ ∃ r ∈ rows, r.ns = ns ∧ r.name = name := by
  rw [rowFor, List.find?_isSome]
  simp only [decide_eq_true_eq]

-- Looking into the rows after one was set.
theorem rowFor_setRow :
    rowFor (setRow rows row) ns name =
      if row.ns = ns ∧ row.name = name then some row else rowFor rows ns name := by
  unfold setRow
  split
  case isFalse hn =>
    rw [rowFor, List.find?_append]
    split
    case isFalse he => simp [he, rowFor]
    case isTrue he  =>
      obtain ⟨rfl, rfl⟩ := he
      have hr : rows.find? (fun r => r.ns = row.ns ∧ r.name = row.name) = none := by
        simpa using hn
      rw [hr, Option.none_or]
      exact List.find?_cons_of_pos (by simp)
  case isTrue hs =>
    have hp : (fun r : PodUsage => decide (r.ns = ns ∧ r.name = name)) ∘
        (fun r => if r.ns = row.ns ∧ r.name = row.name then row else r) =
        fun r => decide (r.ns = ns ∧ r.name = name) := by
      funext r
      simp only [Function.comp_apply]
      split
      case isTrue h  => rw [h.left, h.right]
      case isFalse h => rfl
    rw [rowFor, List.find?_map, hp]
    split
    case isTrue he =>
      obtain ⟨rfl, rfl⟩ := he
      have ⟨r, hm, hk⟩ := List.any_eq_true.mp hs
      have ⟨r', hr⟩    := Option.isSome_iff_exists.mp
        (rowFor_isSome.mpr ⟨r, hm, of_decide_eq_true hk⟩)
      have ⟨_, hn, ha⟩ := rowFor_some hr
      rw [rowFor] at hr
      rw [hr, Option.map_some, if_pos ⟨hn, ha⟩]
    case isFalse he =>
      cases hr : rowFor rows ns name
      case none   =>
        rw [rowFor] at hr
        rw [hr]
        rfl
      case some r =>
        have ⟨_, hn, ha⟩ := rowFor_some hr
        rw [rowFor] at hr
        subst hn
        subst ha
        rw [hr, Option.map_some, if_neg fun h => he ⟨h.left.symm, h.right.symm⟩]

theorem setRow_keys :
    (setRow rows row).map (fun r => (r.ns, r.name)) =
      rows.map (fun r => (r.ns, r.name)) ++
        if (row.ns, row.name) ∈ rows.map (fun r => (r.ns, r.name)) then []
        else [(row.ns, row.name)] := by
  have hm : (row.ns, row.name) ∈ rows.map (fun r => (r.ns, r.name)) ↔
      rows.any (fun r => r.ns = row.ns ∧ r.name = row.name) := by
    simp
  unfold setRow
  split
  case isFalse h => rw [if_neg (mt hm.mp h), List.map_append]; rfl
  case isTrue h  =>
    rw [if_pos (hm.mpr h), List.append_nil, List.map_map]
    refine List.map_congr_left fun r _ => ?_
    simp only [Function.comp_apply]
    split
    case isTrue he  => rw [he.left, he.right]
    case isFalse he => rfl

theorem mem_setRow {r : PodUsage} (h : r ∈ setRow rows row) : r = row ∨ r ∈ rows := by
  unfold setRow at h
  split at h
  case isFalse => simpa [or_comm] using h
  case isTrue  =>
    have ⟨r', hm, he⟩ := List.mem_map.mp h
    split at he
    case isTrue  => exact .inl he.symm
    case isFalse => exact .inr (he ▸ hm)

namespace Rows

theorem set (h : Rows rows) (hr : ∃ k, (row.resources.lookup k).isSome) :
    Rows (setRow rows row) where
  filled r hm := by
    cases mem_setRow hm
    case inl he => exact he ▸ hr
    case inr hm => exact h.filled r hm
  distinct    := by
    rw [setRow_keys]
    split
    case isTrue     => simpa using h.distinct
    case isFalse hn =>
      refine List.nodup_append.mpr ⟨h.distinct, List.nodup_singleton _, ?_⟩
      rintro a ha b hb rfl
      exact hn (List.mem_singleton.mp hb ▸ ha)

theorem rowFor_eq (h : Rows rows) (hm : row ∈ rows) :
    rowFor rows row.ns row.name = some row := by
  have ⟨r, hr⟩ := Option.isSome_iff_exists.mp (rowFor_isSome.mpr ⟨row, hm, rfl, rfl⟩)
  have ⟨hm', hn, ha⟩ := rowFor_some hr
  rw [hr, List.inj_on_of_nodup_map h.distinct hm' hm (by rw [hn, ha])]

theorem mem_shown (h : Rows rows) :
    (ns, name, m) ∈ rows.map PodUsage.shown ↔
      (rowFor rows ns name).map (·.resources) = some m := by
  rw [List.mem_map, Option.map_eq_some_iff]
  constructor
  case mp  =>
    rintro ⟨r, hm, he⟩
    cases he
    exact ⟨r, h.rowFor_eq hm, rfl⟩
  case mpr =>
    rintro ⟨r, hr, rfl⟩
    have ⟨hm, hn, ha⟩ := rowFor_some hr
    exact ⟨r, hm, by rw [PodUsage.shown, hn, ha]⟩

-- Where there is a row, it is not empty.
theorem resources_eq (h : Rows rows) (h' : Rows rows')
    (he : resourcesOf rows ns name = resourcesOf rows' ns name) :
    (rowFor rows ns name).map (·.resources) = (rowFor rows' ns name).map (·.resources) := by
  have hne : ∀ {l : List PodUsage} {r}, Rows l → rowFor l ns name = some r → r.resources ≠ ∅ := by
    rintro l r hl hr hn
    have ⟨k, hk⟩ := hl.filled r (rowFor_some hr).left
    rw [hn, Finmap.lookup_empty] at hk
    cases hk
  unfold resourcesOf at he
  cases hr : rowFor rows ns name <;> cases hr' : rowFor rows' ns name <;>
    simp only [hr, hr', Option.map_none, Option.map_some, Option.getD_none, Option.getD_some] at he
  case none.none => rfl
  case some.some => exact congrArg some he
  case none.some => exact absurd he.symm (hne h' hr')
  case some.none => exact absurd he (hne h hr)

theorem nodup_shown (h : Rows rows) : (rows.map PodUsage.shown).Nodup :=
  .of_map (fun s => (s.1, s.2.1)) (by rw [List.map_map]; exact h.distinct)

end Rows

-- The order of the rows, on what they say.
def shownLe (a b : Str × Str × Tally) : Prop :=
  toLex (a.1, a.2.1) ≤ toLex (b.1, b.2.1)

theorem rowLess_iff (a b : PodUsage) : rowLess a b ↔ toLex (a.shown.1, a.shown.2.1) < toLex (b.shown.1, b.shown.2.1) := by
  simp only [rowLess, lex_iff, PodUsage.shown, decide_eq_true_eq]

theorem pairwise_sortRows (rows : List PodUsage) :
    ((sortRows rows).map PodUsage.shown).Pairwise shownLe := by
  have := total_of_rank rowLess_iff
  have := trans_of_rank rowLess_iff
  rw [List.pairwise_map]
  exact (List.pairwise_insertionSort _ rows).imp (not_less_iff rowLess_iff _ _).mp

-- Two reports say the same of their pods when every pod has the same resources in both.
theorem Rows.sorted_eq (h : Rows rows) (h' : Rows rows')
    (he : ∀ ns name, resourcesOf rows ns name = resourcesOf rows' ns name) :
    (sortRows rows).map PodUsage.shown = (sortRows rows').map PodUsage.shown := by
  have hp : ∀ l : List PodUsage, ((sortRows l).map PodUsage.shown).Perm (l.map PodUsage.shown) :=
    fun l => (List.perm_insertionSort _ l).map _
  have hm : ∀ s, s ∈ rows.map PodUsage.shown ↔ s ∈ rows'.map PodUsage.shown := by
    intro s
    rw [h.mem_shown, h'.mem_shown, h.resources_eq h' (he ..)]
  refine List.Perm.eq_of_pairwise ?_ (pairwise_sortRows rows) (pairwise_sortRows rows') ?_
  case refine_2 =>
    have hr := (List.perm_ext_iff_of_nodup h.nodup_shown h'.nodup_shown).mpr hm
    exact (hp rows).trans (hr.trans (hp rows').symm)
  case refine_1 =>
    rintro ⟨ns, name, a⟩ ⟨ns', name', b⟩ ha hb hab hba
    have hl := toLex.injective (le_antisymm hab hba)
    simp only [Prod.mk.injEq] at hl
    obtain ⟨rfl, rfl⟩ := hl
    have ha := h.mem_shown.mp ((hp rows).mem_iff.mp ha)
    have hb := h.mem_shown.mp ((hm _).mpr ((hp rows').mem_iff.mp hb))
    rw [Option.some.inj (ha.symm.trans hb)]

end Gpu
