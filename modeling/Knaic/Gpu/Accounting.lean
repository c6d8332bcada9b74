import Mathlib.Algebra.Ring.Int.Defs
import Mathlib.Data.List.Forall2
import Knaic.Gpu.Vendors

open Go

namespace Gpu

-- What a container uses of an accelerator: what it requests, or else its limit.
def Container.used (c : Container) (k : Str) : Option Int64 :=
  if isAcceleratorKey k then (c.requests.lookup k).or (c.limits.lookup k) else none

def Container.amount (c : Container) (k : Str) : Int64 :=
  (c.used k).getD 0

def Pod.amount (p : Pod) (k : Str) : Int64 :=
  (p.containers.map (·.amount k)).sum

def Pod.uses (p : Pod) (k : Str) : Prop :=
  ∃ c ∈ p.containers, (c.used k).isSome

-- The loops over the requests and the limits of one container.
section Containers

variable {s s₀ : Usage} {c : Container} {k k' : Str} {n : Int64}

-- What the container uses has been added to what the pod used before.
structure Usage.From (s₀ s : Usage) : Prop where
  count : ∀ k, s.pod.count k = s₀.pod.count k + s.container.count k
  keys  : ∀ k, (s.pod.lookup k).isSome ↔ (s₀.pod.lookup k).isSome ∨ (s.container.lookup k).isSome
  any   : s.any ↔ s₀.any ∨ ∃ k, (s.container.lookup k).isSome

theorem Usage.From.put (h : s.From s₀) (hk : ¬(s₀.container.lookup k).isSome) :
    s.From (s₀.put k n) where
  count k' := by
    simp only [Usage.put, Map.count_add, Map.count_insert, h.count]
    split
    case isFalse => rw [add_zero]
    case isTrue he =>
      subst he
      rw [Map.count_of_not_isSome hk, add_zero]
  keys k'  := by
    simp only [Usage.put, Map.isSome_add, Map.isSome_insert, h.keys]
    tauto
  any      := by
    simp only [Usage.put, Map.isSome_insert, true_iff]
    exact .inr ⟨k, .inl rfl⟩

theorem Usage.From.refl (h : s.container = ∅) : s.From s where
  count k := by rw [h, Map.count_empty, add_zero]
  keys k  := by simp [h]
  any     := by simp [h]

theorem Usage.put_lookup (s : Usage) (k : Str) (n : Int64) (k' : Str) :
    (s.put k n).container.lookup k' = if k' = k then some n else s.container.lookup k' :=
  Map.lookup_insert_eq

-- A loop that puts what is not there yet. What is there stays, if there can be anything.
theorem adds_spec {f : Usage → Str × Int64 → Usage} (m : Tally) (h : s₀.From s)
    (hs : ∀ s e, isAcceleratorKey e.1 = false → f s e = s)
    (hp : ∀ s e, isAcceleratorKey e.1 → ¬(s.container.lookup e.1).isSome → f s e = s.put e.1 e.2)
    (hk : s.container = ∅ ∨ ∀ s e, (s.container.lookup e.1).isSome → f s e = s) :
    s₀.From (m.entries.foldl f s) ∧
    ∀ k, (m.entries.foldl f s).container.lookup k =
      (s.container.lookup k).or (if isAcceleratorKey k then m.lookup k else none) := by
  have ⟨ks, hks, hf, hl⟩ := m.entries_induction (s := s) (f := f)
    (P := fun ks s' => s₀.From s' ∧ ∀ k, s'.container.lookup k =
      (s.container.lookup k).or (if isAcceleratorKey k ∧ k ∈ ks then m.lookup k else none))
    ⟨h, by simp⟩ ?_
  case refine_1 =>
    rintro ks s' k a ha hm ⟨hf, hl⟩
    have hs' : s'.container.lookup k = s.container.lookup k := by simp [hl, hm]
    by_cases hacc : isAcceleratorKey k
    case neg =>
      rw [hs s' (k, a) (by simpa using hacc)]
      refine ⟨hf, fun k' => (hl k').trans ?_⟩
      by_cases he : k' = k
      case pos =>
        subst he
        simp_all
      case neg => simp [he]
    case pos =>
      by_cases hc : (s'.container.lookup k).isSome
      case pos =>
        obtain ⟨n, hn⟩ := Option.isSome_iff_exists.mp (hs' ▸ hc)
        cases hk
        case inl hk => simp [hk] at hn
        case inr hk =>
          rw [hk s' (k, a) hc]
          refine ⟨hf, fun k' => (hl k').trans ?_⟩
          by_cases he : k' = k
          case pos =>
            subst he
            simp [hn]
          case neg => simp [he]
      case neg =>
        rw [hp s' (k, a) hacc hc]
        refine ⟨hf.put hc, fun k' => ?_⟩
        rw [Usage.put_lookup, hl]
        by_cases he : k' = k
        case neg => simp [he]
        case pos =>
          subst he
          have hn : s.container.lookup k' = none := by simpa [hs'] using hc
          simp [hn, hacc, ha]
  refine ⟨hf, fun k => (hl k).trans ?_⟩
  by_cases hm : k ∈ ks
  case pos => simp [hm]
  case neg => simp [hm, Option.not_isSome_iff_eq_none.mp ((hks k).not.mp hm)]

theorem addRequests_spec (m : Tally) (hs : s.container = ∅) :
    s.From (m.entries.foldl addRequest s) ∧
    ∀ k, (m.entries.foldl addRequest s).container.lookup k =
      if isAcceleratorKey k then m.lookup k else none := by
  have ⟨hf, hl⟩ := adds_spec (f := addRequest) m (.refl hs) (fun s e ha => if_pos (by simp [ha]))
    (fun s e ha _ => if_neg (by simp [ha])) (.inl hs)
  exact ⟨hf, fun k => (hl k).trans (by simp [hs])⟩

theorem addLimits_spec (m : Tally) (h : s₀.From s) :
    s₀.From (m.entries.foldl addLimit s) ∧
    ∀ k, (m.entries.foldl addLimit s).container.lookup k =
      (s.container.lookup k).or (if isAcceleratorKey k then m.lookup k else none) := by
  refine adds_spec m h (fun s e ha => if_pos (by simp [ha])) (fun s e ha hc => ?_) (.inr fun s e hc => ?_)
  case refine_1 => simp [addLimit, ha, hc]
  case refine_2 => simp [addLimit, hc]

-- The usage after both loops.
def Container.usage (c : Container) (s : Usage) : Usage :=
  c.limits.entries.foldl addLimit (c.requests.entries.foldl addRequest s)

theorem usage_spec (c : Container) (hs : s.container = ∅) :
    s.From (c.usage s) ∧ ∀ k, (c.usage s).container.lookup k = c.used k := by
  have ⟨hr, hrl⟩ := addRequests_spec c.requests hs
  have ⟨hf, hl⟩  := addLimits_spec c.limits hr
  refine ⟨hf, fun k => (hl k).trans ?_⟩
  rw [hrl]
  by_cases hk : isAcceleratorKey k <;> simp [Container.used, hk]

theorem usage_count (c : Container) (hs : s.container = ∅) (k : Str) :
    (c.usage s).container.count k = c.amount k := by
  rw [Map.count, (usage_spec c hs).right]
  rfl

end Containers

-- A row with what the containers use.
structure Row (p : Pod) (row : PodUsage) : Prop where
  ns        : row.ns = p.ns
  name      : row.name = p.name
  node      : row.node = p.nodeName
  phase     : row.phase = p.phase
  count     : ∀ k, row.resources.count k = p.amount k
  keys      : ∀ k, (row.resources.lookup k).isSome ↔ p.uses k
  container : ∀ k, row.resources.count k = (row.containers.map (·.resources.count k)).sum

theorem addContainer_row (s : PodUsage × Bool) (c : Container) :
    (addContainer s c).1.ns = s.1.ns ∧ (addContainer s c).1.name = s.1.name ∧
    (addContainer s c).1.node = s.1.node ∧ (addContainer s c).1.phase = s.1.phase := by
  simp only [addContainer]
  split <;> exact ⟨rfl, rfl, rfl, rfl⟩

theorem addContainer_resources (s : PodUsage × Bool) (c : Container) :
    (addContainer s c).1.resources = (c.usage ⟨∅, s.1.resources, s.2⟩).pod := by
  simp only [addContainer]
  split <;> rfl

theorem addContainer_count (s : PodUsage × Bool) (c : Container) (k : Str) :
    (addContainer s c).1.resources.count k = s.1.resources.count k + c.amount k := by
  have hf := (@usage_spec ⟨∅, s.1.resources, s.2⟩ c rfl).left
  rw [addContainer_resources, hf.count, usage_count c rfl]

theorem addContainer_keys (s : PodUsage × Bool) (c : Container) (k : Str) :
    ((addContainer s c).1.resources.lookup k).isSome ↔
    (s.1.resources.lookup k).isSome ∨ (c.used k).isSome := by
  have ⟨hf, hl⟩ := @usage_spec ⟨∅, s.1.resources, s.2⟩ c rfl
  rw [addContainer_resources, hf.keys, hl]

theorem addContainer_any (s : PodUsage × Bool) (c : Container) :
    (addContainer s c).2 ↔ s.2 ∨ ∃ k, (c.used k).isSome := by
  have ⟨hf, hl⟩ := @usage_spec ⟨∅, s.1.resources, s.2⟩ c rfl
  have h : (addContainer s c).2 = (c.usage ⟨∅, s.1.resources, s.2⟩).any := rfl
  rw [h, hf.any]
  simp only [hl]

theorem addContainer_containers (s : PodUsage × Bool) (c : Container) (k : Str) :
    ((addContainer s c).1.containers.map (·.resources.count k)).sum =
      (s.1.containers.map (·.resources.count k)).sum + c.amount k := by
  have hc := @usage_count ⟨∅, s.1.resources, s.2⟩ c rfl k
  have h : (addContainer s c).1.containers =
      if (c.usage ⟨∅, s.1.resources, s.2⟩).container.keyList.isEmpty then s.1.containers
      else s.1.containers ++ [⟨c.name, (c.usage ⟨∅, s.1.resources, s.2⟩).container⟩] :=
    apply_ite PodUsage.containers ..
  rw [h]
  split
  case isFalse    => simp [hc]
  case isTrue he =>
    have hk : ¬((c.usage ⟨∅, s.1.resources, s.2⟩).container.lookup k).isSome := by
      rw [← Map.mem_keyList, List.isEmpty_iff.mp he]
      exact List.not_mem_nil
    rw [← hc, Map.count_of_not_isSome hk, add_zero]

theorem addContainers_spec (s : PodUsage × Bool) (cs : List Container) (k : Str) :
    (cs.foldl addContainer s).1.resources.count k =
      s.1.resources.count k + (cs.map (·.amount k)).sum ∧
    (((cs.foldl addContainer s).1.resources.lookup k).isSome ↔
      (s.1.resources.lookup k).isSome ∨ ∃ c ∈ cs, (c.used k).isSome) ∧
    ((cs.foldl addContainer s).1.containers.map (·.resources.count k)).sum =
      (s.1.containers.map (·.resources.count k)).sum + (cs.map (·.amount k)).sum := by
  induction cs generalizing s
  case nil          => simp
  case cons c cs hi =>
    have ⟨hc, hk, hs⟩ := hi (addContainer s c)
    simp only [List.foldl_cons, List.map_cons, List.sum_cons, List.exists_mem_cons_iff]
    refine ⟨?_, ?_, ?_⟩
    case refine_1 => rw [hc, addContainer_count, add_assoc]
    case refine_2 => rw [hk, addContainer_keys, or_assoc]
    case refine_3 => rw [hs, addContainer_containers, add_assoc]

theorem addContainers_any (s : PodUsage × Bool) (cs : List Container) :
    (cs.foldl addContainer s).2 ↔ s.2 ∨ ∃ c ∈ cs, ∃ k, (c.used k).isSome := by
  induction cs generalizing s
  case nil          => simp
  case cons c cs hi =>
    rw [List.foldl_cons, hi, addContainer_any, List.exists_mem_cons_iff, or_assoc]

theorem addContainers_row (s : PodUsage × Bool) (cs : List Container) :
    (cs.foldl addContainer s).1.ns = s.1.ns ∧ (cs.foldl addContainer s).1.name = s.1.name ∧
    (cs.foldl addContainer s).1.node = s.1.node ∧
    (cs.foldl addContainer s).1.phase = s.1.phase := by
  induction cs generalizing s
  case nil          => exact ⟨rfl, rfl, rfl, rfl⟩
  case cons c cs hi =>
    have ⟨h₁, h₂, h₃, h₄⟩ := hi (addContainer s c)
    have ⟨h₅, h₆, h₇, h₈⟩ := addContainer_row s c
    exact ⟨h₁.trans h₅, h₂.trans h₆, h₃.trans h₇, h₄.trans h₈⟩

theorem podRowFor_row {p : Pod} {row : PodUsage} (h : podRowFor p = some row) : Row p row := by
  simp only [podRowFor] at h
  split at h
  case isFalse => cases h
  case isTrue  =>
    cases h
    have hr := addContainers_row (⟨p.ns, p.name, p.nodeName, p.phase, ∅, []⟩, false) p.containers
    have hs := addContainers_spec (⟨p.ns, p.name, p.nodeName, p.phase, ∅, []⟩, false) p.containers
    exact {
      ns          := hr.left
      name        := hr.right.left
      node        := hr.right.right.left
      phase       := hr.right.right.right
      count k     := by simpa [Pod.amount] using (hs k).left
      keys k      := by simpa [Pod.uses] using (hs k).right.left
      container k := by simpa using (hs k).left.trans (by simpa using (hs k).right.right.symm)
    }

theorem podRowFor_isSome (p : Pod) : (podRowFor p).isSome ↔ ∃ k, p.uses k := by
  have h := addContainers_any (⟨p.ns, p.name, p.nodeName, p.phase, ∅, []⟩, false) p.containers
  simp only [podRowFor]
  split
  case isTrue ha =>
    have ⟨c, hc, k, hk⟩ := (h.mp ha).resolve_left (by simp)
    exact iff_of_true rfl ⟨k, c, hc, hk⟩
  case isFalse ha =>
    refine iff_of_false (by simp) fun ⟨k, c, hc, hk⟩ => ha (h.mpr (.inr ⟨c, hc, k, hk⟩))

-- The loop over the pods.
section Pods

variable {t : Totals} {k n : Str}

def Pod.live (p : Pod) : Bool :=
  ¬(p.phase = str "Succeeded" ∨ p.phase = str "Failed")

theorem addPods_eq (t : Totals) (pods : List Pod) :
    pods.foldl addPod t = ((pods.filter Pod.live).filterMap podRowFor).foldl Totals.addRow t := by
  induction pods generalizing t
  case nil          => rfl
  case cons p ps hi =>
    rw [List.foldl_cons, hi]
    by_cases hp : p.phase = str "Succeeded" ∨ p.phase = str "Failed"
    case pos => simp [addPod, Pod.live, hp]
    case neg =>
      have hl : p.live = true := decide_eq_true hp
      rw [addPod, if_neg hp, List.filter_cons_of_pos hl]
      cases hr : podRowFor p
      case none     => rw [List.filterMap_cons_none hr]
      case some row => rw [List.filterMap_cons_some hr, List.foldl_cons]

theorem addRow_usedByKey (t : Totals) (row : PodUsage) :
    (t.addRow row).usedByKey = t.usedByKey.addAll row.resources := by
  simp only [Totals.addRow]
  split <;> rfl

theorem addRow_podRows (t : Totals) (row : PodUsage) :
    (t.addRow row).podRows = t.podRows ++ [row] := by
  simp only [Totals.addRow]
  split <;> rfl

-- What is used on the node `n`.
def Totals.onNode (t : Totals) (n : Str) : Tally :=
  (t.usedPerNode.lookup n).getD ∅

theorem addRow_onNode (t : Totals) (row : PodUsage) :
    ((t.addRow row).onNode n).count k =
      (t.onNode n).count k + if row.node = n ∧ row.node ≠ [] then row.resources.count k else 0 := by
  simp only [Totals.addRow, Totals.onNode]
  split
  case isTrue he  => rw [if_neg (fun h => h.right he), add_zero]
  case isFalse hn =>
    rw [Map.lookup_insert_eq]
    by_cases he : row.node = n
    case neg => rw [if_neg (Ne.symm he), if_neg (fun h => he h.left), add_zero]
    case pos =>
      subst he
      rw [if_pos rfl, if_pos ⟨rfl, hn⟩, Option.getD_some, Map.count_addAll]

theorem addRow_podsPerNode (t : Totals) (row : PodUsage) :
    (t.addRow row).podsPerNode.count n =
      t.podsPerNode.count n + if row.node = n ∧ row.node ≠ [] then 1 else 0 := by
  simp only [Totals.addRow]
  split
  case isTrue he  => rw [if_neg (fun h => h.right he), add_zero]
  case isFalse hn => rw [Map.count_add]; simp only [eq_comm, hn, ne_eq, not_false_eq_true, and_true]

-- The rows of what runs on the node `n`.
def rowsOn (n : Str) (rows : List PodUsage) : List PodUsage :=
  rows.filter fun r => r.node = n ∧ r.node ≠ []

theorem addRows_spec (t : Totals) (rows : List PodUsage) :
    (rows.foldl Totals.addRow t).podRows = t.podRows ++ rows ∧
    (∀ k, (rows.foldl Totals.addRow t).usedByKey.count k =
      t.usedByKey.count k + (rows.map (·.resources.count k)).sum) ∧
    (∀ k, ((rows.foldl Totals.addRow t).usedByKey.lookup k).isSome ↔
      (t.usedByKey.lookup k).isSome ∨ ∃ r ∈ rows, (r.resources.lookup k).isSome) ∧
    (∀ n k, ((rows.foldl Totals.addRow t).onNode n).count k =
      (t.onNode n).count k + ((rowsOn n rows).map (·.resources.count k)).sum) ∧
    ∀ n, (rows.foldl Totals.addRow t).podsPerNode.count n =
      t.podsPerNode.count n + ((rowsOn n rows).map fun _ => 1).sum := by
  induction rows generalizing t
  case nil          => simp [rowsOn]
  case cons r rs hi =>
    have ⟨hr, hc, hk, hn, hp⟩ := hi (t.addRow r)
    have hf : ∀ n, rowsOn n (r :: rs) =
        (if r.node = n ∧ r.node ≠ [] then [r] else []) ++ rowsOn n rs := by
      intro n
      rw [rowsOn, List.filter_cons]
      simp only [decide_eq_true_eq]
      split <;> rfl
    simp only [List.foldl_cons, List.map_cons, List.sum_cons, List.exists_mem_cons_iff]
    refine ⟨?_, fun k => ?_, fun k => ?_, fun n k => ?_, fun n => ?_⟩
    case refine_1 => rw [hr, addRow_podRows, List.append_assoc]; rfl
    case refine_2 => rw [hc, addRow_usedByKey, Map.count_addAll, add_assoc]
    case refine_3 => rw [hk, addRow_usedByKey, Map.isSome_addAll, or_assoc]
    case refine_4 =>
      rw [hn n k, addRow_onNode, add_assoc, hf]
      split <;> simp
    case refine_5 =>
      rw [hp n, addRow_podsPerNode, add_assoc, hf]
      split <;> simp

theorem podRowFor_none {p : Pod} (h : podRowFor p = none) (k : Str) : p.amount k = 0 := by
  have hu : ¬∃ k, p.uses k := by
    rw [← podRowFor_isSome, h]
    exact Bool.false_ne_true
  refine List.sum_eq_zero fun a ha => ?_
  have ⟨c, hc, he⟩ := List.mem_map.mp ha
  have hn : c.used k = none := by
    by_contra hs
    exact hu ⟨k, c, hc, Option.ne_none_iff_isSome.mp hs⟩
  rw [← he, Container.amount, hn]
  rfl

theorem rows_sum (pods : List Pod) (k : Str) :
    ((pods.filterMap podRowFor).map (·.resources.count k)).sum =
      (pods.map (·.amount k)).sum := by
  induction pods
  case nil          => rfl
  case cons p ps hi =>
    cases hr : podRowFor p
    case none     => simp [List.filterMap_cons_none hr, hi, podRowFor_none hr]
    case some row => simp [List.filterMap_cons_some hr, hi, (podRowFor_row hr).count]

theorem rows_keys (pods : List Pod) (k : Str) :
    (∃ r ∈ pods.filterMap podRowFor, (r.resources.lookup k).isSome) ↔ ∃ p ∈ pods, p.uses k := by
  simp only [List.mem_filterMap]
  constructor
  case mp =>
    rintro ⟨r, ⟨p, hp, hr⟩, hs⟩
    exact ⟨p, hp, ((podRowFor_row hr).keys k).mp hs⟩
  case mpr =>
    rintro ⟨p, hp, hu⟩
    have ⟨r, hr⟩ := Option.isSome_iff_exists.mp ((podRowFor_isSome p).mpr ⟨k, hu⟩)
    exact ⟨r, ⟨p, hp, hr⟩, ((podRowFor_row hr).keys k).mpr hu⟩

end Pods

-- The loop over the nodes.
section Nodes

variable {k : Str}

def Node.amount (n : Node) (k : Str) : Int64 :=
  if isAcceleratorKey k then n.allocatable.count k else 0

def Node.has (n : Node) (k : Str) : Prop :=
  isAcceleratorKey k ∧ (n.allocatable.lookup k).isSome

theorem addCapacities_spec (n : Node) (t : Tally) (k : Str) :
    let s := n.allocatable.entries.foldl addCapacity (∅, t)
    s.1.count k = n.amount k ∧ ((s.1.lookup k).isSome ↔ n.has k) ∧
    s.2.count k = t.count k + n.amount k ∧
    ((s.2.lookup k).isSome ↔ (t.lookup k).isSome ∨ n.has k) := by
  have ⟨ks, hks, hc, hs, hc', hs'⟩ := n.allocatable.entries_induction (s := ((∅ : Tally), t))
    (f := addCapacity)
    (P := fun ks s =>
      (s.1.count k = if isAcceleratorKey k ∧ k ∈ ks then n.allocatable.count k else 0) ∧
      ((s.1.lookup k).isSome ↔ isAcceleratorKey k ∧ k ∈ ks) ∧
      (s.2.count k = t.count k + if isAcceleratorKey k ∧ k ∈ ks then n.allocatable.count k else 0) ∧
      ((s.2.lookup k).isSome ↔ (t.lookup k).isSome ∨ isAcceleratorKey k ∧ k ∈ ks)) (by simp) ?_
  case refine_1 =>
    rintro ks s k' a ha hk ⟨hc, hs, hc', hs'⟩
    unfold addCapacity
    by_cases he : k = k'
    case neg =>
      split
      case isTrue  => simp [he, hc, hs, hc', hs']
      case isFalse => simp [he, hc, hs, hc', hs', Map.count_insert, Map.count_add,
          Map.isSome_add]
    case pos =>
      subst he
      have hcount : n.allocatable.count k = a := by rw [Map.count, ha]; rfl
      split
      case isTrue hacc =>
        simp only [Bool.not_eq_true'] at hacc
        simp [hacc, hc, hs, hc', hs']
      case isFalse hacc =>
        simp only [Bool.not_eq_true', Bool.not_eq_false] at hacc
        simp [hacc, hk, hc', hcount, Map.count_insert, Map.count_add, Map.isSome_add]
  have ha : (if isAcceleratorKey k ∧ k ∈ ks then n.allocatable.count k else 0) = n.amount k := by
    by_cases hk : k ∈ ks
    case pos => simp [Node.amount, hk]
    case neg => simp [Node.amount, hk, Map.count_of_not_isSome ((hks k).not.mp hk)]
  rw [ha] at hc hc'
  rw [hks] at hs hs'
  exact ⟨hc, hs, hc', hs'⟩

-- Whether the node has an accelerator at all.
def Node.accelerated (n : Node) : Bool :=
  n.allocatable.keyList.any isAcceleratorKey

theorem Node.accelerated_iff (n : Node) : n.accelerated ↔ ∃ k, n.has k := by
  simp only [accelerated, List.any_eq_true, Map.mem_keyList]
  exact exists_congr fun _ => and_comm

theorem addNode_fst (s : Tally × List NodeSummary) (n : Node) :
    (addNode s n).1 = (n.allocatable.entries.foldl addCapacity (∅, s.1)).2 :=
  rfl

theorem addNode_names (s : Tally × List NodeSummary) (n : Node) :
    (addNode s n).2.map (·.node) =
      s.2.map (·.node) ++ if n.accelerated then [n.name] else [] := by
  have hk : ∀ k, _ := fun k => (addCapacities_spec n s.1 k).right.left
  simp only [addNode]
  split
  case isTrue he =>
    have ha : ¬n.accelerated := by
      rw [n.accelerated_iff]
      rintro ⟨k, hn⟩
      have hm := Map.mem_keyList.mpr ((hk k).mpr hn)
      rw [List.isEmpty_iff.mp he] at hm
      cases hm
    simp [ha]
  case isFalse he =>
    have ⟨k, hm⟩ := List.exists_mem_of_ne_nil _ (List.isEmpty_iff.not.mp he)
    have ha : n.accelerated := n.accelerated_iff.mpr ⟨k, (hk k).mp (Map.mem_keyList.mp hm)⟩
    simp [ha]

theorem addNodes_spec (s : Tally × List NodeSummary) (nodes : List Node) :
    (∀ k, (nodes.foldl addNode s).1.count k = s.1.count k + (nodes.map (·.amount k)).sum) ∧
    (∀ k, ((nodes.foldl addNode s).1.lookup k).isSome ↔
      (s.1.lookup k).isSome ∨ ∃ n ∈ nodes, n.has k) ∧
    (nodes.foldl addNode s).2.map (·.node) =
      s.2.map (·.node) ++ (nodes.filter Node.accelerated).map (·.name) := by
  induction nodes generalizing s
  case nil          => simp
  case cons n ns hi =>
    have ⟨hc, hk, hn⟩ := hi (addNode s n)
    simp only [List.foldl_cons, List.map_cons, List.sum_cons, List.exists_mem_cons_iff]
    refine ⟨fun k => ?_, fun k => ?_, ?_⟩
    case refine_1 => rw [hc, addNode_fst, (addCapacities_spec n s.1 k).right.right.left, add_assoc]
    case refine_2 => rw [hk, addNode_fst, (addCapacities_spec n s.1 k).right.right.right, or_assoc]
    case refine_3 =>
      rw [hn, addNode_names]
      by_cases ha : n.accelerated <;> simp [ha]

end Nodes

-- The vendors.
section Vendors

variable {alloc used : Tally} {keySet keys : List Str} {k vendor : Str} {v : VendorSummary}

-- What has been grouped of some keys.
structure Grouped (alloc used : Tally) (keySet keys : List Str) (bucket : Go.Map VendorSummary) :
    Prop where
  vendor : ∀ n v, bucket.lookup n = some v → v.vendor = n
  counts : ∀ n v k, bucket.lookup n = some v → v.byKey.lookup k =
           if k ∈ keys ∧ (vendorOf k keySet).1 = n then some (countsOf alloc used k) else none
  shown  : ∀ k ∈ keys, (bucket.lookup (vendorOf k keySet).1).isSome

theorem grouped (alloc used : Tally) (keySet keys : List Str) :
    Grouped alloc used keySet keys (keys.foldl (addKey alloc used keySet) ∅) := by
  have hl : ∀ n v, (keys.foldl (addKey alloc used keySet) ∅).lookup n = some v →
      v = gather alloc used keySet n (keysOf keySet keys n) := by
    intro n v h
    rw [lookup_bucket] at h
    split at h
    case isTrue  => cases h
    case isFalse => exact (Option.some.inj h).symm
  constructor
  case vendor =>
    intro n v h
    rw [hl n v h]
    exact gather_vendor ..
  case counts =>
    intro n v k h
    rw [hl n v h, gather_byKey]
    simp only [keysOf, List.mem_filter, decide_eq_true_eq]
  case shown =>
    intro k hk
    have hm : k ∈ keysOf keySet keys (vendorOf k keySet).1 := List.mem_filter.mpr ⟨hk, by simp⟩
    rw [lookup_bucket, if_neg (List.ne_nil_of_mem hm)]
    rfl

@[simp]
theorem withPrimary_byKey (v : VendorSummary) : (withPrimary v).byKey = v.byKey := by
  unfold withPrimary
  split
  case h_2 => rfl
  case h_1 => split <;> rfl

theorem mem_groupByVendor :
    v ∈ groupByVendor keys alloc used ↔
    ∃ n v₀, (keys.foldl (addKey alloc used (keys.map Str.toLower)) ∅).lookup n = some v₀ ∧
      withPrimary v₀ = v := by
  simp only [groupByVendor, List.mem_insertionSort, List.mem_map, Map.mem_values]
  constructor
  case mp  => exact fun ⟨v₀, ⟨n, h⟩, he⟩ => ⟨n, v₀, h, he⟩
  case mpr => exact fun ⟨n, v₀, h, he⟩ => ⟨v₀, ⟨n, h⟩, he⟩

theorem groupByVendor_counts (hv : v ∈ groupByVendor keys alloc used) {c : Counts}
    (hk : v.byKey.lookup k = some c) : c = countsOf alloc used k := by
  have ⟨n, v₀, hl, he⟩ := mem_groupByVendor.mp hv
  have hc := (grouped alloc used (keys.map Str.toLower) keys).counts n v₀ k hl
  subst he
  rw [withPrimary_byKey, hc] at hk
  split at hk
  case isTrue  => exact (Option.some.inj hk).symm
  case isFalse => cases hk

-- Every key is shown at one vendor.
theorem groupByVendor_shown (hk : k ∈ keys) :
    ∃! v, v ∈ groupByVendor keys alloc used ∧ (v.byKey.lookup k).isSome := by
  have hg := grouped alloc used (keys.map Str.toLower) keys
  have ⟨v₀, hl⟩ := Option.isSome_iff_exists.mp (hg.shown k hk)
  refine ⟨withPrimary v₀, ⟨mem_groupByVendor.mpr ⟨_, v₀, hl, rfl⟩, ?_⟩, ?_⟩
  case refine_1 =>
    rw [withPrimary_byKey, hg.counts _ v₀ k hl, if_pos ⟨hk, rfl⟩]
    rfl
  case refine_2 =>
    intro v ⟨hv, hs⟩
    have ⟨n, v₁, hl₁, he⟩ := mem_groupByVendor.mp hv
    subst he
    rw [withPrimary_byKey, hg.counts n v₁ k hl₁] at hs
    split at hs
    case isFalse  => cases hs
    case isTrue h =>
      rw [h.right] at hl
      cases hl.symm.trans hl₁
      rfl

theorem isSome_insertAll (l : List Str) (m : Go.Map Unit) :
    ((l.foldl (fun m k => m.insert k ()) m).lookup k).isSome ↔ k ∈ l ∨ (m.lookup k).isSome := by
  induction l generalizing m
  case nil     => simp
  case cons hi => rw [List.foldl_cons, hi, Map.isSome_insert, List.mem_cons, or_left_comm, or_assoc]

theorem mem_allKeys :
    k ∈ allKeys alloc used ↔ (alloc.lookup k).isSome ∨ (used.lookup k).isSome := by
  simp only [allKeys, Map.mem_keyList, isSome_insertAll]
  simp [or_comm]

end Vendors

-- What there is of an accelerator on the nodes, and what the live pods use of it.
def total (nodes : List Node) (k : Str) : Int64 :=
  (nodes.map (·.amount k)).sum

def usage (pods : List Pod) (k : Str) : Int64 :=
  ((pods.filter Pod.live).map (·.amount k)).sum

-- Whether the pod uses an accelerator at all.
def Pod.accelerated (p : Pod) : Bool :=
  p.containers.any fun c => (c.requests.keyList ++ c.limits.keyList).any isAcceleratorKey

theorem Container.used_isSome (c : Container) (k : Str) :
    (c.used k).isSome ↔
    isAcceleratorKey k ∧ ((c.requests.lookup k).isSome ∨ (c.limits.lookup k).isSome) := by
  by_cases h : isAcceleratorKey k <;> simp [used, h]

theorem Pod.accelerated_iff (p : Pod) : p.accelerated ↔ ∃ k, p.uses k := by
  simp only [accelerated, uses, Container.used_isSome, List.any_eq_true, List.mem_append,
    Map.mem_keyList]
  constructor
  case mp  => exact fun ⟨c, hc, k, hk, ha⟩ => ⟨k, c, hc, ha, hk⟩
  case mpr => exact fun ⟨k, c, hc, ha, hk⟩ => ⟨c, hc, k, hk, ha⟩

-- The pods that run on a node.
def podsOn (n : Str) (pods : List Pod) : List Pod :=
  pods.filter fun p => p.nodeName = n ∧ p.nodeName ≠ []

-- What the report says of nodes and pods. All sums are those of `int64`.
structure Conserved (nodes : List Node) (pods : List Pod) (s : Status) : Prop where
  rows   : ∃ rows, s.pods.Perm rows ∧
           List.Forall₂ Row (pods.filter fun p => p.live && p.accelerated) rows
  counts : ∀ v ∈ s.vendors, ∀ k c, v.byKey.lookup k = some c →
           c.total = total nodes k ∧ c.used = usage pods k ∧
           c.available = max 0 (total nodes k - usage pods k)
  shown  : ∀ k, (∃ n ∈ nodes, n.has k) ∨ (∃ p ∈ pods, p.live ∧ p.uses k) →
           ∃! v, v ∈ s.vendors ∧ (v.byKey.lookup k).isSome
  names  : (s.nodes.map (·.node)).Perm ((nodes.filter Node.accelerated).map (·.name))
  nodes  : ∀ n ∈ s.nodes, (∀ k, (n.allocated.getD ∅).count k = usage (podsOn n.node pods) k) ∧
           n.pods = Int64.ofNat
             ((podsOn n.node pods).filter fun p => p.live && p.accelerated).length

theorem podRowFor_accelerated (p : Pod) : (podRowFor p).isSome = p.accelerated :=
  Bool.eq_iff_iff.mpr ((podRowFor_isSome p).trans p.accelerated_iff.symm)

theorem rows_forall₂ (pods : List Pod) :
    List.Forall₂ Row (pods.filter fun p => p.live && p.accelerated)
      ((pods.filter Pod.live).filterMap podRowFor) := by
  induction pods
  case nil          => exact .nil
  case cons p ps hi =>
    have ha := podRowFor_accelerated p
    by_cases hl : p.live
    case neg => simpa [hl] using hi
    case pos =>
      rw [List.filter_cons_of_pos hl]
      cases hr : podRowFor p
      case none     => simpa [List.filterMap_cons_none hr, ← ha, hr] using hi
      case some row =>
        rw [List.filterMap_cons_some hr, List.filter_cons_of_pos (by simp [hl, ← ha, hr])]
        exact .cons (podRowFor_row hr) hi

theorem rowsOn_rows (n : Str) (pods : List Pod) :
    rowsOn n (pods.filterMap podRowFor) = (podsOn n pods).filterMap podRowFor := by
  induction pods
  case nil          => rfl
  case cons p ps hi =>
    simp only [rowsOn, podsOn] at hi ⊢
    cases hr : podRowFor p
    case none     =>
      rw [List.filterMap_cons_none hr, hi, List.filter_cons]
      split
      case isTrue  => rw [List.filterMap_cons_none hr]
      case isFalse => rfl
    case some row =>
      have hn := (podRowFor_row hr).node
      rw [List.filterMap_cons_some hr, List.filter_cons, List.filter_cons, hn, hi]
      split
      case isTrue  => rw [List.filterMap_cons_some hr]
      case isFalse => rfl

theorem clamp_eq_max (n : Int64) : (if n < 0 then 0 else n) = max 0 n := by
  show _ = if 0 ≤ n then n else 0
  by_cases h : n < 0
  case pos => rw [if_pos h, if_neg (Int64.not_le.mpr h)]
  case neg => rw [if_neg h, if_pos (Int64.not_lt.mp h)]

theorem sum_ones (l : List PodUsage) : (l.map fun _ => (1 : Int64)).sum = Int64.ofNat l.length := by
  induction l
  case nil     => rfl
  case cons hi =>
    rw [List.map_cons, List.sum_cons, hi, List.length_cons, Int64.ofNat_add, add_comm]
    rfl

theorem nodeAlloc_spec (nodes : List Node) (k : Str) :
    (nodes.foldl addNode (∅, [])).1.count k = total nodes k ∧
    (((nodes.foldl addNode (∅, [])).1.lookup k).isSome ↔ ∃ n ∈ nodes, n.has k) := by
  have ⟨ha, hk, _⟩ := addNodes_spec (∅, []) nodes
  rw [ha, hk, Map.count_empty, zero_add, Finmap.lookup_empty]
  exact ⟨rfl, by simp⟩

theorem usedByKey_spec (pods : List Pod) (k : Str) :
    (pods.foldl addPod ⟨∅, ∅, ∅, []⟩).usedByKey.count k = usage pods k ∧
    (((pods.foldl addPod ⟨∅, ∅, ∅, []⟩).usedByKey.lookup k).isSome ↔
      ∃ p ∈ pods, p.live ∧ p.uses k) := by
  have ⟨_, hc, hk, _, _⟩ := addRows_spec ⟨∅, ∅, ∅, []⟩ ((pods.filter Pod.live).filterMap podRowFor)
  rw [addPods_eq, hc, hk, rows_sum, rows_keys, Map.count_empty, zero_add, Finmap.lookup_empty]
  exact ⟨rfl, by simp [and_assoc]⟩

theorem podRows_eq (pods : List Pod) :
    (pods.foldl addPod ⟨∅, ∅, ∅, []⟩).podRows = (pods.filter Pod.live).filterMap podRowFor := by
  rw [addPods_eq, (addRows_spec ..).left, List.nil_append]

theorem status_conserved (l : Lists) (opts : Options) :
    Conserved (l.nodesFor opts) (l.podsFor opts) (status l opts) := by
  have ⟨_, _, hn⟩ := addNodes_spec (∅, []) (l.nodesFor opts)
  have ⟨_, _, _, ho, hp⟩ := addRows_spec ⟨∅, ∅, ∅, []⟩
    (((l.podsFor opts).filter Pod.live).filterMap podRowFor)
  rw [← addPods_eq] at ho hp
  have hr := podRows_eq (l.podsFor opts)
  have ha := nodeAlloc_spec (l.nodesFor opts)
  have hu := usedByKey_spec (l.podsFor opts)
  constructor
  case rows =>
    refine ⟨_, ?_, rows_forall₂ (l.podsFor opts)⟩
    exact (List.perm_insertionSort _ _).trans (.of_eq hr)
  case counts =>
    intro v hv k c hl
    rw [groupByVendor_counts hv hl, countsOf, (ha k).left, (hu k).left]
    exact ⟨rfl, rfl, clamp_eq_max _⟩
  case shown =>
    intro k h
    refine groupByVendor_shown (mem_allKeys.mpr ?_)
    exact h.imp (ha k).right.mpr (hu k).right.mpr
  case names =>
    refine ((List.perm_insertionSort _ _).map _).trans ?_
    rw [List.map_map]
    exact .of_eq hn
  case nodes =>
    intro n hm
    have ⟨n₀, _, he⟩ := List.mem_map.mp ((List.mem_insertionSort _).mp hm)
    subst he
    have hf : podsOn n₀.node ((l.podsFor opts).filter Pod.live) =
        (podsOn n₀.node (l.podsFor opts)).filter Pod.live := List.filter_comm ..
    refine ⟨fun k => ?_, ?_⟩
    case refine_1 =>
      refine (ho n₀.node k).trans ?_
      rw [rowsOn_rows, rows_sum, hf]
      exact zero_add _
    case refine_2 =>
      refine (hp n₀.node).trans ?_
      rw [rowsOn_rows, hf, (rows_forall₂ _).length_eq, ← sum_ones]
      exact zero_add _

section Fixtures

def card : Str :=
  str "nvidia.com/gpu"

def worker (name : String) (requests : Tally) : Pod where
  ns         := str "team"
  name       := str name
  nodeName   := str "node-1"
  phase      := str "Running"
  containers := [⟨str "main", requests, ∅⟩]

def wholeCluster : Options where
  scope   := str "cluster"
  ns      := []
  isAdmin := true

-- A node with eight cards and a pod that uses none, and two pods that ask for the most there can be.
def idle : Lists where
  nodes  := .ok [⟨str "node-1", Finmap.singleton card 8⟩]
  pods _ := .ok [worker "web" ∅]

def excessive : Lists where
  nodes  := .ok []
  pods _ := .ok [worker "a" (Finmap.singleton card Int64.maxValue),
    worker "b" (Finmap.singleton card Int64.maxValue)]

end Fixtures

-- The sums are not those of integers, and a pod without an accelerator does not count.
theorem overflow_and_idle :
    ¬(∀ l opts, ∀ v ∈ (status l opts).vendors, ∀ k c, v.byKey.lookup k = some c →
      c.used.toInt = (((l.podsFor opts).filter Pod.live).map fun p => (p.amount k).toInt).sum) ∧
    ¬∀ l opts, ∀ n ∈ (status l opts).nodes,
      n.pods.toInt = ((podsOn n.node (l.podsFor opts)).filter Pod.live).length := by
  constructor
  case left =>
    intro h
    have hs : (status excessive wholeCluster).vendors.map (·.byKey.lookup card) =
        [some ⟨0, -2, 2⟩] := by
      decide +kernel
    have ⟨v, hv, hl⟩ := List.mem_map.mp (hs.symm ▸ List.mem_singleton_self _)
    exact absurd (h excessive wholeCluster v hv card _ hl) (by decide +kernel)
  case right =>
    intro h
    have hs : (status idle wholeCluster).nodes.map (fun n => (n.node, n.pods)) =
        [(str "node-1", 0)] := by
      decide
    have ⟨n, hn, hl⟩ := List.mem_map.mp (hs.symm ▸ List.mem_singleton_self _)
    have hp := h idle wholeCluster n hn
    obtain ⟨hnode, hpods⟩ := Prod.mk.inj hl
    rw [hnode, hpods] at hp
    exact absurd hp (by decide +kernel)

end Gpu
