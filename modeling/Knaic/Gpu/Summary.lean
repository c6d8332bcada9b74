import Mathlib.Tactic.Tauto
import Knaic.Gpu.Accounting

open Go

-- The cards that are counted in all.
namespace Gpu

-- A primary key that is not the first one of its vendor.
def further (keySet keys : List Str) (k : Str) : Bool :=
  (vendorOf k keySet).2 &&
    keys.any fun k' => k' < k && (vendorOf k' keySet).2 && (vendorOf k' keySet).1 = (vendorOf k keySet).1

def furtherKeys (keys : List Str) : List Str :=
  keys.filter (further (lowered keys) keys)

section Sums

variable {alloc used : Tally} {keySet keys ks : List Str} {k n : Str} (amount : Str → Int64)

-- In a sorted list, what satisfies a condition after something else that does is all but the first that does.
theorem filter_tail (p : Str → Bool) (hs : ks.Pairwise (· < ·)) :
    (ks.filter fun k => p k && ks.any fun k' => k' < k && p k') = (ks.filter p).tail := by
  have hf : (ks.filter fun k => p k && ks.any fun k' => k' < k && p k') =
      (ks.filter p).filter fun k => (ks.filter p).any (· < k) := by
    rw [List.filter_filter]
    refine List.filter_congr fun k _ => ?_
    rw [Bool.eq_iff_iff]
    simp [List.any_eq_true]
    tauto
  rw [hf]
  have hs' := hs.filter p
  cases hl : ks.filter p
  case nil       => rfl
  case cons k' l =>
    rw [hl] at hs'
    obtain ⟨hk, -⟩ := List.pairwise_cons.mp hs'
    rw [List.filter_cons_of_neg, List.tail_cons, List.filter_eq_self.mpr]
    case _ =>
      intro k hm
      exact List.any_eq_true.mpr ⟨k', List.mem_cons_self, decide_eq_true (hk k hm)⟩
    case _ =>
      rw [List.any_eq_true]
      rintro ⟨k, hm, hlt⟩
      have hlt := of_decide_eq_true hlt
      cases List.mem_cons.mp hm
      case inl he => exact lt_irrefl _ (he ▸ hlt)
      case inr hm => exact lt_asymm hlt (hk k hm)

theorem filter_further (hs : keys.Pairwise (· < ·)) (n : Str) :
    (keysOf keySet keys n).filter (further keySet keys) = (primaries keySet (keysOf keySet keys n)).tail := by
  have hf := filter_tail (fun k => (vendorOf k keySet).2)
    (show (keysOf keySet keys n).Pairwise (· < ·) from hs.filter _)
  rw [primaries, ← hf]
  refine List.filter_congr fun k hk => ?_
  have hv : (vendorOf k keySet).1 = n := of_decide_eq_true (List.mem_filter.mp hk).right
  rw [further, hv, Bool.eq_iff_iff]
  simp only [keysOf, List.any_filter, Bool.and_eq_true, List.any_eq_true, decide_eq_true_eq]
  tauto

-- The headline of a vendor is short of its further primary keys.
theorem headline_sum (hn : ks ≠ []) : amount (headline keySet ks) + ((primaries keySet ks).tail.map amount).sum =
    ((primaries keySet ks).map amount).sum + if primaries keySet ks = [] then amount (ks.headD []) else 0 := by
  obtain ⟨k, l, rfl⟩ := List.exists_cons_of_ne_nil hn
  cases hl : primaries keySet (k :: l) <;> simp [headline, hl]

theorem sum_flatMap (vs : List VendorSummary) (p : Str → Bool) :
    (((vs.flatMap (·.keys)).filter p).map amount).sum = (vs.map fun v => ((v.keys.filter p).map amount).sum).sum := by
  induction vs
  case nil          => rfl
  case cons v vs hi => simp [hi]

theorem summary_total (vs : List VendorSummary) (c : Counts) :
    (vs.foldl addSummary c).total = c.total + (vs.map (·.counts.total)).sum := by
  induction vs generalizing c
  case nil          => simp
  case cons v vs hi => rw [List.foldl_cons, hi, List.map_cons, List.sum_cons, ← add_assoc]; rfl

-- The cards: all keys that count for their vendor, and the first key of a vendor without such a key.
def cards (keys : List Str) (vs : List VendorSummary) : Int64 :=
  ((primaries (lowered keys) keys).map amount).sum +
    ((vs.filter fun v => primaries (lowered keys) v.keys = []).map fun v => amount (v.keys.headD [])).sum

theorem total_add (hk : ∀ k ∈ keys, k ≠ []) (hs : keys.Pairwise (· < ·)) :
    ((groupByVendor keys alloc used).foldl addSummary ⟨0, 0, 0⟩).total +
        ((furtherKeys keys).map alloc.count).sum =
      cards alloc.count keys (groupByVendor keys alloc used) := by
  have hp := keys_perm hk alloc used (hs.imp ne_of_lt)
  have hsum : ∀ p : Str → Bool, ((keys.filter p).map alloc.count).sum =
      ((groupByVendor keys alloc used).map fun v => ((v.keys.filter p).map alloc.count).sum).sum := by
    intro p
    rw [← sum_flatMap]
    exact (((hp.filter p).map _).sum_eq).symm
  rw [summary_total, zero_add, furtherKeys, cards, primaries, hsum, hsum, Map.sum_kept, ← List.sum_map_add,
    ← List.sum_map_add]
  congr 1
  refine List.map_congr_left fun v hv => ?_
  have hv' := vendor_shown hk hv
  have hf : v.keys.filter (further (lowered keys) keys) = (primaries (lowered keys) v.keys).tail := by
    rw [hv'.own]
    exact filter_further hs _
  rw [hf, hv'.counts, countsOf, headline_sum _ hv'.nonempty]
  by_cases hn : primaries (lowered keys) v.keys = []
  case pos => rw [if_pos hn, if_pos (decide_eq_true hn)]; rfl
  case neg => rw [if_neg hn, if_neg (by simpa using hn)]; rfl

end Sums

-- What is told of nodes and of pods, as the loops come to it.
def nodeEntries (nodes : List Node) : List (Str × Int64) :=
  nodes.flatMap fun n => n.allocatable.entries.filter fun e => isAcceleratorKey e.1

def rowEntries (pods : List Pod) : List (Str × Int64) :=
  ((pods.filter Pod.live).filterMap podRowFor).flatMap (·.resources.entries)

def tally (es : List (Str × Int64)) : Tally :=
  es.foldl (fun m e => m.add e.1 e.2) ∅

def observedKeys (nodes : List Node) (pods : List Pod) : List Str :=
  allKeys (tally (nodeEntries nodes)) (tally (rowEntries pods))

def sortVendors (vs : List VendorSummary) : List VendorSummary :=
  vs.insertionSort fun a b => !(b.vendor < a.vendor : Bool)

-- What is grouped when nodes and pods, and the entries of the maps, come in some order.
inductive InSomeOrder (nodes : List Node) (pods : List Pod) : List VendorSummary → Prop
  | intro {es us : List (Str × Int64)} {ks : List Str} {vs : List VendorSummary} :
    es.Perm (nodeEntries nodes) →
    us.Perm (rowEntries pods) →
    ks.Perm (allKeys (tally es) (tally us)) →
    vs.Perm ((ks.insertionSort (· ≤ ·)).foldl
      (addKey (tally es) (tally us) (lowered (ks.insertionSort (· ≤ ·)))) ∅).values →
    InSomeOrder nodes pods (sortVendors (vs.map withPrimary))

section Observed

variable {nodes : List Node} {pods : List Pod} {alloc used : Tally} {keys : List Str} {k : Str}

theorem addCapacities_tally (es : List (Str × Int64)) (s : Tally × Tally) : (es.foldl addCapacity s).2 =
    (es.filter fun e => isAcceleratorKey e.1).foldl (fun m e => m.add e.1 e.2) s.2 := by
  induction es generalizing s
  case nil          => rfl
  case cons e es hi =>
    rw [List.foldl_cons, hi, addCapacity]
    by_cases he : isAcceleratorKey e.1 <;> simp [he]

theorem addNodes_tally (s : Tally × List NodeSummary) :
    (nodes.foldl addNode s).1 = (nodeEntries nodes).foldl (fun m e => m.add e.1 e.2) s.1 := by
  induction nodes generalizing s
  case nil          => rfl
  case cons n ns hi =>
    rw [List.foldl_cons, hi, addNode_fst, addCapacities_tally, ← List.foldl_append]
    rfl

theorem addRows_tally (rows : List PodUsage) (t : Totals) : (rows.foldl Totals.addRow t).usedByKey =
    (rows.flatMap (·.resources.entries)).foldl (fun m e => m.add e.1 e.2) t.usedByKey := by
  induction rows generalizing t
  case nil          => rfl
  case cons r rs hi => rw [List.foldl_cons, hi, addRow_usedByKey, Map.addAll, ← List.foldl_append, List.flatMap_cons]

theorem status_eq (l : Lists) (opts : Options) : (status l opts).vendors =
    groupByVendor (observedKeys (l.nodesFor opts) (l.podsFor opts)) (tally (nodeEntries (l.nodesFor opts)))
      (tally (rowEntries (l.podsFor opts))) := by
  have hn : ((l.nodesFor opts).foldl addNode (∅, [])).1 = tally (nodeEntries (l.nodesFor opts)) := addNodes_tally _
  have hp : ((l.podsFor opts).foldl addPod ⟨∅, ∅, ∅, []⟩).usedByKey = tally (rowEntries (l.podsFor opts)) := by
    rw [addPods_eq]
    exact addRows_tally ..
  rw [observedKeys, ← hn, ← hp]
  rfl

theorem count_nodes (nodes : List Node) (k : Str) : (tally (nodeEntries nodes)).count k = total nodes k := by
  rw [← (nodeAlloc_spec nodes k).left, addNodes_tally]
  rfl

theorem mem_observedKeys :
    k ∈ observedKeys nodes pods ↔ (∃ n ∈ nodes, n.has k) ∨ ∃ p ∈ pods, p.live ∧ p.uses k := by
  rw [observedKeys, mem_allKeys, ← (nodeAlloc_spec nodes k).right, ← (usedByKey_spec pods k).right, addNodes_tally,
    addPods_eq, addRows_tally]
  rfl

theorem allKeys_sorted (alloc used : Tally) : (allKeys alloc used).Pairwise (· < ·) :=
  ((Map.sorted_keyList _).and (Map.nodup_keyList _)).imp fun h => lt_of_le_of_ne h.left h.right

theorem observedKeys_ne (hk : k ∈ observedKeys nodes pods) : k ≠ [] := by
  have hacc : isAcceleratorKey k := by
    cases mem_observedKeys.mp hk
    case inl h =>
      obtain ⟨_, _, hn⟩ := h
      exact hn.left
    case inr h =>
      obtain ⟨_, _, _, c, _, hc⟩ := h
      exact ((c.used_isSome k).mp hc).left
  rintro rfl
  cases hacc

theorem vendorNames_nodup (alloc used : Tally) (hk : ∀ k ∈ keys, k ≠ []) :
    ((groupByVendor keys alloc used).map (·.vendor)).Nodup := by
  have hp := (groupByVendor_perm alloc used keys).map (·.vendor)
  rw [List.map_map] at hp
  have hn : (vendorNames alloc used keys).map ((·.vendor) ∘ vendorNamed alloc used keys) =
      vendorNames alloc used keys := by
    refine (List.map_congr_left fun n hn => ?_).trans (List.map_id _)
    exact (vendorNamed_shown hk alloc used (mem_vendorNames.mp hn)).left
  rw [hp.nodup_iff, hn]
  exact Map.nodup_keyList _

-- Vendors have names of their own, and so the sort puts them in one order.
theorem sortVendors_perm {vs vs' : List VendorSummary} (h : vs.Perm vs') (hd : (vs.map (·.vendor)).Nodup) :
    sortVendors vs = sortVendors vs' := by
  have hr : ∀ a b : VendorSummary, (a.vendor < b.vendor : Bool) ↔ a.vendor < b.vendor := fun _ _ => decide_eq_true_iff
  have := total_of_rank hr
  have := trans_of_rank hr
  refine List.Perm.eq_of_pairwise ?_ (List.pairwise_insertionSort ..) (List.pairwise_insertionSort ..)
    ((List.perm_insertionSort ..).trans (h.trans (List.perm_insertionSort ..).symm))
  intro a b ha hb hab hba
  rw [not_less_iff hr] at hab hba
  have ha : a ∈ vs := (List.mem_insertionSort _).mp ha
  have hb : b ∈ vs := h.mem_iff.mpr ((List.mem_insertionSort _).mp hb)
  exact List.inj_on_of_nodup_map hd ha hb (le_antisymm hab hba)

theorem insertionSort_allKeys (alloc used : Tally) :
    (allKeys alloc used).insertionSort (· ≤ ·) = allKeys alloc used :=
  ((allKeys_sorted alloc used).imp le_of_lt).insertionSort_eq

theorem inSomeOrder_iff {vs : List VendorSummary} : InSomeOrder nodes pods vs ↔
    vs = groupByVendor (observedKeys nodes pods) (tally (nodeEntries nodes)) (tally (rowEntries pods)) := by
  constructor
  case mp  =>
    rintro ⟨hes, hus, hks, hvs⟩
    rw [tally, tally, Map.foldl_add_perm hes, Map.foldl_add_perm hus] at hks hvs
    rw [insertionSort_eq hks, insertionSort_allKeys] at hvs
    refine sortVendors_perm (hvs.map _) ?_
    rw [((hvs.map withPrimary).map (·.vendor)).nodup_iff]
    have hd := vendorNames_nodup (tally (nodeEntries nodes)) (tally (rowEntries pods))
      fun k (hk : k ∈ observedKeys nodes pods) => observedKeys_ne hk
    exact ((List.perm_insertionSort ..).map _).nodup_iff.mp hd
  case mpr =>
    rintro rfl
    refine .intro (.refl _) (.refl _) (.refl _) ?_
    rw [insertionSort_allKeys]
    exact .refl _

end Observed

-- What the vendors and the summary say of nodes and pods. All sums are those of `int64`.
structure CountedOnce (nodes : List Node) (pods : List Pod) (s : Status) : Prop where
  observed : ∀ k, k ∈ observedKeys nodes pods ↔ (∃ n ∈ nodes, n.has k) ∨ ∃ p ∈ pods, p.live ∧ p.uses k
  keys     : (s.vendors.flatMap (·.keys)).Perm (observedKeys nodes pods) ∧ (observedKeys nodes pods).Nodup
  vendors  : (s.vendors.map (·.vendor)).Nodup ∧ ∀ v ∈ s.vendors, v.keys ≠ [] ∧
             ∀ k, k ∈ v.keys ↔ k ∈ observedKeys nodes pods ∧
               (vendorOf k (lowered (observedKeys nodes pods))).1 = v.vendor
  primary  : ∀ v ∈ s.vendors, v.primary ∈ v.keys
  orders   : ∀ vs, InSomeOrder nodes pods vs ↔ vs = s.vendors
  total    : s.summary.total = cards (total nodes) (observedKeys nodes pods) s.vendors

theorem status_total (l : Lists) (opts : Options) :
    (status l opts).summary.total +
        ((furtherKeys (observedKeys (l.nodesFor opts) (l.podsFor opts))).map (total (l.nodesFor opts))).sum =
      cards (total (l.nodesFor opts)) (observedKeys (l.nodesFor opts) (l.podsFor opts)) (status l opts).vendors := by
  have hc : (tally (nodeEntries (l.nodesFor opts))).count = total (l.nodesFor opts) := funext (count_nodes _)
  have hs : (status l opts).summary = (status l opts).vendors.foldl addSummary ⟨0, 0, 0⟩ := rfl
  rw [hs, status_eq, ← hc]
  exact total_add (fun _ => observedKeys_ne) (allKeys_sorted ..)

-- The summary counts the cards where nothing is left of the primary keys that come after another
-- one of their vendor.
theorem counted_once_iff (l : Lists) (opts : Options) :
    CountedOnce (l.nodesFor opts) (l.podsFor opts) (status l opts) ↔
    ((furtherKeys (observedKeys (l.nodesFor opts) (l.podsFor opts))).map (total (l.nodesFor opts))).sum = 0 := by
  have ht := status_total l opts
  constructor
  case mp  =>
    intro h
    rw [← h.total] at ht
    exact add_eq_left.mp ht
  case mpr =>
    intro h
    rw [h, add_zero] at ht
    have hk : ∀ k ∈ observedKeys (l.nodesFor opts) (l.podsFor opts), k ≠ [] := fun _ => observedKeys_ne
    have hd : (observedKeys (l.nodesFor opts) (l.podsFor opts)).Nodup := (allKeys_sorted ..).imp ne_of_lt
    exact {
      observed _  := mem_observedKeys
      keys        := ⟨by rw [status_eq]; exact keys_perm hk _ _ hd, hd⟩
      vendors     := by
        rw [status_eq]
        refine ⟨vendorNames_nodup _ _ hk, fun v hv => ?_⟩
        have hv' := vendor_shown hk hv
        refine ⟨hv'.nonempty, fun k => ?_⟩
        rw [hv'.own, keysOf, List.mem_filter, decide_eq_true_eq]
      primary v hv := by
        rw [status_eq] at hv
        have hv' := vendor_shown hk hv
        rw [hv'.primary]
        exact headline_mem hv'.nonempty
      orders _    := by rw [status_eq, inSomeOrder_iff]
      total       := ht
    }

-- A node with cards of two models of one vendor.
def mixed : Lists where
  nodes  := .ok [⟨str "node-1", Map.ofList [(str "huawei.com/Ascend310P", 4), (str "huawei.com/Ascend910B", 8)]⟩]
  pods _ := .ok []

-- Of two models of one vendor only one is counted.
theorem model_missed : ¬∀ l opts, CountedOnce (l.nodesFor opts) (l.podsFor opts) (status l opts) := by
  intro h
  exact absurd (h mixed wholeCluster).total (by decide +kernel)

end Gpu
