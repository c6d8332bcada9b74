import Knaic.Gpu.ResourceKeys
import Knaic.Gpu.Monitoring

open Go

namespace Gpu

def Sample.key (s : Sample) : Str :=
  canonicalResourceKey s.resource

-- What a query gets of some samples.
def selected (l : List Sample) : List Sample :=
  l.filter (matchesQuery ·.resource)

-- A key that metrics can tell: if it is that of an accelerator then it comes back from its name, and
-- else its name is not asked for.
def Regular (k : Str) : Prop :=
  if isAcceleratorKey k then Dotted k else ¬matchesQuery (mangle k)

theorem Regular.told {k : Str} (h : Regular k) :
    matchesQuery (mangle k) ∧ isAcceleratorKey (canonicalResourceKey (mangle k)) ∨
      isAcceleratorKey k → canonicalResourceKey (mangle k) = k ∧ matchesQuery (mangle k) ∧
      isAcceleratorKey k := by
  unfold Regular at h
  split at h
  case isTrue ha  => exact fun _ => ⟨h.told.right, h.told.left, ha⟩
  case isFalse ha =>
    intro ht
    cases ht
    case inl hm => exact absurd hm.left h
    case inr hk => exact absurd hk ha

section Tells

variable {β : Type} {g : Sample → Prop} [DecidablePred g] {k : Str} {l l' : List Sample} {n : Int64}
  {has : Prop}

-- What the samples that count say of a key: how much there is, and whether there is any.
structure Tells (g : Sample → Prop) [DecidablePred g] (k : Str) (l : List Sample) (n : Int64)
    (has : Prop) : Prop where
  count : (l.map fun s => if g s ∧ s.key = k then s.value else 0).sum = n
  keys  : (∃ s ∈ l, g s ∧ s.key = k) ↔ has

namespace Tells

theorem perm (h : Tells g k l n has) (hp : l'.Perm l) : Tells g k l' n has where
  count := (hp.map _).sum_eq.trans h.count
  keys  := by simpa only [hp.mem_iff] using h.keys

theorem flatMap {l : List β} {f : β → List Sample} {n : β → Int64} {has : β → Prop}
    (h : ∀ x ∈ l, Tells g k (f x) (n x) (has x)) :
    Tells g k (l.flatMap f) (l.map n).sum (∃ x ∈ l, has x) where
  count := by
    induction l
    case nil          => rfl
    case cons x l hi  =>
      rw [List.flatMap_cons, List.map_append, List.sum_append, (h x (.head _)).count,
        hi fun y hy => h y (.tail _ hy), List.map_cons, List.sum_cons]
  keys  := by
    simp only [List.mem_flatMap]
    constructor
    case mp  => exact fun ⟨s, ⟨x, hx, hs⟩, hk⟩ => ⟨x, hx, (h x hx).keys.mp ⟨s, hs, hk⟩⟩
    case mpr =>
      rintro ⟨x, hx, hh⟩
      have ⟨s, hs, hk⟩ := (h x hx).keys.mpr hh
      exact ⟨s, ⟨x, hx, hs⟩, hk⟩

-- The samples that count of one tally.
theorem entries {m : Tally} (hm : ∀ k, (m.lookup k).isSome → Regular k) {f : Str × Int64 → Sample}
    (hr : ∀ e, (f e).resource = mangle e.1) (hv : ∀ e, (f e).value = e.2) {P : Prop}
    [Decidable P] (hg : ∀ e, g (f e) ↔ isAcceleratorKey (f e).key ∧ P) :
    Tells g k (selected (m.entries.map f)) (if P ∧ isAcceleratorKey k then m.count k else 0)
      (P ∧ isAcceleratorKey k ∧ (m.lookup k).isSome) := by
  have ht : ∀ e ∈ m.entries, matchesQuery (f e).resource ∧ g (f e) ∧ (f e).key = k ↔
      (P ∧ isAcceleratorKey k) ∧ e.1 = k := by
    intro e he
    have h := (hm e.1 (by rw [Map.mem_entries.mp he]; rfl)).told
    rw [hg, Sample.key, hr]
    constructor
    case mp  =>
      rintro ⟨hq, ⟨ha, hs⟩, hk⟩
      have ⟨hc, _, ha'⟩ := h (.inl ⟨hq, ha⟩)
      rw [hc] at hk
      exact ⟨⟨hs, hk ▸ ha'⟩, hk⟩
    case mpr =>
      rintro ⟨⟨hs, ha⟩, rfl⟩
      have ⟨hc, hq, _⟩ := h (.inr ha)
      exact ⟨hq, ⟨hc.symm ▸ ha, hs⟩, hc⟩
  constructor
  case keys  =>
    simp only [selected, List.mem_filter, List.mem_map]
    constructor
    case mp  =>
      rintro ⟨_, ⟨⟨e, he, rfl⟩, hq⟩, hk⟩
      have ⟨⟨hs, ha⟩, hk⟩ := (ht e he).mp ⟨hq, hk⟩
      exact ⟨hs, ha, by rw [← hk, Map.mem_entries.mp he]; rfl⟩
    case mpr =>
      rintro ⟨hs, ha, hl⟩
      have ⟨n, hn⟩ := Option.isSome_iff_exists.mp hl
      have he : (k, n) ∈ m.entries := Map.mem_entries.mpr hn
      have ⟨hq, hk⟩ := (ht _ he).mpr ⟨⟨hs, ha⟩, rfl⟩
      exact ⟨_, ⟨⟨_, he, rfl⟩, hq⟩, hk⟩
  case count =>
    have hs : ∀ e ∈ m.entries,
        (if matchesQuery (f e).resource ∧ g (f e) ∧ (f e).key = k then (f e).value else 0) =
          if P ∧ isAcceleratorKey k then if e.1 = k then e.2 else 0 else 0 := by
      intro e he
      rw [hv, ← ite_and]
      exact if_congr (ht e he) rfl rfl
    rw [selected, List.filter_map, List.map_map]
    refine (Map.sum_filter m.entries).trans ?_
    refine (congrArg List.sum (List.map_congr_left hs)).trans ?_
    split
    case isTrue  => exact m.entries_sum k
    case isFalse => simp

-- What a loop makes of them that adds up the samples that count.
theorem fold {σ : Type} {f : σ → Sample → σ} {π : σ → Tally} (ht : Tells g k l n has)
    (h : ∀ s b, π (f s b) = if g b then (π s).add b.key b.value else π s) {s : σ} (hs : π s = ∅) :
    (π (l.foldl f s)).count k = n ∧ (((π (l.foldl f s)).lookup k).isSome ↔ has) := by
  have ⟨hc, hk⟩ := Map.foldl_add h l s k
  rw [hs, Map.count_empty, zero_add] at hc
  rw [hs, Finmap.lookup_empty] at hk
  exact ⟨hc.trans ht.count, hk.trans (by simpa using ht.keys)⟩

end Tells
end Tells

-- The loops over the samples.
section Loops

variable {ns name : Str}

theorem add_nodeAlloc (s : Capacities) (b : Sample) :
    (s.add b).nodeAlloc =
      if isAcceleratorKey b.key ∧ b.node ≠ [] then s.nodeAlloc.add b.key b.value
      else s.nodeAlloc := by
  by_cases ha : isAcceleratorKey b.key
  case neg =>
    rw [if_neg fun h => ha h.left, Capacities.add]
    exact congrArg Capacities.nodeAlloc (if_pos (by simpa [Sample.key] using ha))
  case pos =>
    have hk : ¬(!isAcceleratorKey b.key) = true := by simp [ha]
    by_cases hn : b.node = []
    case pos =>
      rw [if_neg fun h => h.right hn, Capacities.add]
      exact congrArg Capacities.nodeAlloc ((if_neg hk).trans (if_pos hn))
    case neg =>
      rw [if_pos ⟨ha, hn⟩, Capacities.add]
      exact congrArg Capacities.nodeAlloc ((if_neg hk).trans (if_neg hn))

-- Whether a sample of requests counts.
def Sample.requested (s : Sample) : Prop :=
  isAcceleratorKey s.key ∧ s.ns ≠ [] ∧ s.pod ≠ []

instance : DecidablePred Sample.requested :=
  fun _ => inferInstanceAs (Decidable (_ ∧ _))

-- The row of a pod with one more sample.
def Requests.row (s : Requests) (b : Sample) : PodUsage :=
  let row := (rowFor s.podRows b.ns b.pod).getD ⟨b.ns, b.pod, b.node, str "Running", ∅, []⟩
  { row with
    resources  := row.resources.add b.key b.value
    containers := addToContainer row.containers b.container b.key b.value }

theorem add_ignored {s : Requests} {b : Sample} (h : ¬b.requested) : s.add b = s := by
  unfold Requests.add
  by_cases ha : isAcceleratorKey b.key
  case neg => exact if_pos (by simpa [Sample.key] using ha)
  case pos =>
    have hn : b.ns = [] ∨ b.pod = [] := by
      by_contra hn
      exact h ⟨ha, not_or.mp hn⟩
    exact (if_neg (by simpa [Sample.key] using ha)).trans (if_pos hn)

theorem add_requested (s : Requests) (b : Sample) :
    (s.add b).usedByKey =
      (if b.requested then s.usedByKey.add b.key b.value else s.usedByKey) ∧
    (s.add b).podRows = if b.requested then setRow s.podRows (s.row b) else s.podRows := by
  by_cases hr : b.requested
  case neg =>
    rw [add_ignored hr, if_neg hr, if_neg hr]
    exact ⟨rfl, rfl⟩
  case pos =>
    rw [if_pos hr, if_pos hr, Requests.add]
    have ⟨ha, hn, hp⟩ := hr
    have hk : ¬(!isAcceleratorKey (canonicalResourceKey b.resource)) = true := by
      simpa [Sample.key] using ha
    rw [if_neg hk, if_neg (not_or.mpr ⟨hn, hp⟩)]
    dsimp only
    split
    case isTrue  => exact ⟨rfl, rfl⟩
    case isFalse => split <;> exact ⟨rfl, rfl⟩

theorem row_key (s : Requests) (b : Sample) :
    (s.row b).ns = b.ns ∧ (s.row b).name = b.pod := by
  unfold Requests.row
  cases hr : rowFor s.podRows b.ns b.pod
  case none     => exact ⟨rfl, rfl⟩
  case some row => exact (rowFor_some hr).right

theorem row_resources (s : Requests) (b : Sample) :
    (s.row b).resources = (resourcesOf s.podRows b.ns b.pod).add b.key b.value := by
  unfold Requests.row resourcesOf
  cases rowFor s.podRows b.ns b.pod <;> rfl

theorem add_resourcesOf (s : Requests) (b : Sample) :
    resourcesOf (s.add b).podRows ns name =
      if b.requested ∧ b.ns = ns ∧ b.pod = name then
        (resourcesOf s.podRows ns name).add b.key b.value
      else resourcesOf s.podRows ns name := by
  rw [(add_requested s b).right]
  by_cases hr : b.requested
  case neg => rw [if_neg hr, if_neg fun h => hr h.left]
  case pos =>
    rw [if_pos hr, resourcesOf, rowFor_setRow, (row_key s b).left, (row_key s b).right]
    split
    case isFalse hn => rw [if_neg fun h => hn h.right]; rfl
    case isTrue he  =>
      obtain ⟨rfl, rfl⟩ := he
      rw [if_pos ⟨hr, rfl, rfl⟩]
      exact row_resources s b

theorem requests_rows {s : Requests} (h : Rows s.podRows) (l : List Sample) :
    Rows (l.foldl Requests.add s).podRows := by
  induction l generalizing s
  case nil          => exact h
  case cons b l hi  =>
    refine hi ?_
    rw [(add_requested s b).right]
    split
    case isFalse => exact h
    case isTrue  =>
      refine h.set ⟨b.key, ?_⟩
      rw [row_resources, Map.isSome_add]
      exact .inl rfl

end Loops
end Gpu
