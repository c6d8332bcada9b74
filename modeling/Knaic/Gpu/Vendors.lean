import Knaic.Gpu.Status

open Go

-- The vendors that keys are grouped by.
namespace Gpu

section Gather

variable (alloc used : Tally) (keySet : List Str)

-- The vendor before a key is added to it.
def vendorBefore (bucket : Go.Map VendorSummary) (vendor : Str) : VendorSummary :=
  (bucket.lookup vendor).getD ⟨vendor, [], ⟨0, 0, 0⟩, ∅, []⟩

-- A vendor with one more key.
def VendorSummary.addTo (v : VendorSummary) (k : Str) : VendorSummary :=
  let c := countsOf alloc used k
  let v := { v with keys := v.keys ++ [k], byKey := v.byKey.insert k c }
  if (vendorOf k keySet).2 && v.primary = [] then { v with primary := k, counts := c } else v

-- A vendor with some keys.
def gather (vendor : Str) (ks : List Str) : VendorSummary :=
  ks.foldl (·.addTo alloc used keySet) ⟨vendor, [], ⟨0, 0, 0⟩, ∅, []⟩

def keysOf (keys : List Str) (vendor : Str) : List Str :=
  keys.filter fun k => (vendorOf k keySet).1 = vendor

-- The keys that count for their vendor.
def primaries (ks : List Str) : List Str :=
  ks.filter fun k => (vendorOf k keySet).2

variable {alloc used keySet} {keys ks : List Str} {k n : Str}

theorem addKey_insert (bucket : Go.Map VendorSummary) (k : Str) : addKey alloc used keySet bucket k =
    bucket.insert (vendorOf k keySet).1 ((vendorBefore bucket (vendorOf k keySet).1).addTo alloc used keySet k) := by
  unfold addKey VendorSummary.addTo
  generalize vendorOf k keySet = p
  obtain ⟨vendor, primary⟩ := p
  rfl

theorem keysOf_concat (keys : List Str) (k n : Str) : keysOf keySet (keys ++ [k]) n =
    if (vendorOf k keySet).1 = n then keysOf keySet keys n ++ [k] else keysOf keySet keys n := by
  rw [keysOf, List.filter_append, List.filter_singleton]
  split <;> simp_all [keysOf]

theorem gather_concat (vendor : Str) (ks : List Str) (k : Str) :
    gather alloc used keySet vendor (ks ++ [k]) = (gather alloc used keySet vendor ks).addTo alloc used keySet k :=
  List.foldl_concat ..

-- Every vendor is gathered from its own keys.
theorem lookup_bucket (keys : List Str) (n : Str) : (keys.foldl (addKey alloc used keySet) ∅).lookup n =
    if keysOf keySet keys n = [] then none else some (gather alloc used keySet n (keysOf keySet keys n)) := by
  induction keys using List.reverseRecOn generalizing n
  case nil                        => exact Finmap.lookup_empty n
  case append_singleton keys k hi =>
    have hb : vendorBefore (keys.foldl (addKey alloc used keySet) ∅) (vendorOf k keySet).1 =
        gather alloc used keySet (vendorOf k keySet).1 (keysOf keySet keys (vendorOf k keySet).1) := by
      rw [vendorBefore, hi]
      split
      case isTrue h  =>
        rw [h]
        rfl
      case isFalse h => rfl
    rw [List.foldl_concat, addKey_insert, Map.lookup_insert_eq, hb, keysOf_concat]
    by_cases hn : n = (vendorOf k keySet).1
    case neg => rw [if_neg hn, if_neg (Ne.symm hn), hi]
    case pos =>
      subst hn
      rw [if_pos rfl, if_pos rfl, if_neg (by simp), gather_concat]

theorem addTo_vendor (v : VendorSummary) (k : Str) : (v.addTo alloc used keySet k).vendor = v.vendor :=
  (apply_ite VendorSummary.vendor ..).trans (ite_self _)

theorem addTo_keys (v : VendorSummary) (k : Str) : (v.addTo alloc used keySet k).keys = v.keys ++ [k] :=
  (apply_ite VendorSummary.keys ..).trans (ite_self _)

theorem addTo_byKey (v : VendorSummary) (k : Str) :
    (v.addTo alloc used keySet k).byKey = v.byKey.insert k (countsOf alloc used k) :=
  (apply_ite VendorSummary.byKey ..).trans (ite_self _)

theorem gather_vendor (n : Str) (ks : List Str) : (gather alloc used keySet n ks).vendor = n := by
  induction ks using List.reverseRecOn
  case nil                      => rfl
  case append_singleton ks k hi => rw [gather_concat, addTo_vendor, hi]

theorem gather_keys (n : Str) (ks : List Str) : (gather alloc used keySet n ks).keys = ks := by
  induction ks using List.reverseRecOn
  case nil                      => rfl
  case append_singleton ks k hi => rw [gather_concat, addTo_keys, hi]

theorem gather_byKey (n : Str) (ks : List Str) (k : Str) :
    (gather alloc used keySet n ks).byKey.lookup k = if k ∈ ks then some (countsOf alloc used k) else none := by
  induction ks using List.reverseRecOn
  case nil                       => exact Finmap.lookup_empty k
  case append_singleton ks k' hi =>
    rw [gather_concat, addTo_byKey, Map.lookup_insert_eq, hi]
    by_cases he : k = k' <;> simp [he]

theorem primaries_concat (ks : List Str) (k : Str) :
    primaries keySet (ks ++ [k]) = primaries keySet ks ++ if (vendorOf k keySet).2 then [k] else [] := by
  rw [primaries, List.filter_append, List.filter_singleton, Bool.cond_eq_ite]
  rfl

-- What counts of keys that have names is the first one that counts for the vendor.
structure Gathered (alloc used : Tally) (keySet ks : List Str) (v : VendorSummary) : Prop where
  primary : v.primary = ((primaries keySet ks).head?).getD []
  counts  : v.counts = ((primaries keySet ks).head?.map (countsOf alloc used)).getD ⟨0, 0, 0⟩

theorem gathered (alloc used : Tally) (n : Str) (h : ∀ k ∈ ks, k ≠ []) :
    Gathered alloc used keySet ks (gather alloc used keySet n ks) := by
  induction ks using List.reverseRecOn
  case nil                      => exact ⟨rfl, rfl⟩
  case append_singleton ks k hi =>
    obtain ⟨hp, hc⟩ := hi fun k hk => h k (List.mem_append_left _ hk)
    -- A vendor without a primary key so far has none among its keys.
    have hn : (gather alloc used keySet n ks).primary = [] ↔ primaries keySet ks = [] := by
      rw [hp]
      cases hl : primaries keySet ks
      case nil       => simp
      case cons k' l =>
        have hk' : k' ∈ ks := List.mem_of_mem_filter (hl ▸ List.mem_cons_self : k' ∈ primaries keySet ks)
        simpa using h k' (List.mem_append_left _ hk')
    rw [gather_concat, VendorSummary.addTo]
    by_cases hc' : ((vendorOf k keySet).2 && (gather alloc used keySet n ks).primary = []) = true
    case pos =>
      have ⟨hk', he⟩ : (vendorOf k keySet).2 = true ∧ primaries keySet ks = [] := by simpa [hn] using hc'
      simp only [hc', if_true]
      exact ⟨by simp [primaries_concat, hk', he], by simp [primaries_concat, hk', he]⟩
    case neg =>
      have hh : (primaries keySet (ks ++ [k])).head? = (primaries keySet ks).head? := by
        rw [primaries_concat]
        by_cases hk' : (vendorOf k keySet).2 = true
        case neg => simp [hk']
        case pos =>
          have he : primaries keySet ks ≠ [] := by simpa [hk', hn] using hc'
          rw [List.head?_append_of_ne_nil _ he]
      simp only [hc', Bool.false_eq_true, if_false]
      exact ⟨by rw [hh, hp], by rw [hh, hc]⟩

-- The key that stands for a vendor.
def headline (keySet ks : List Str) : Str :=
  ((primaries keySet ks).head?.or ks.head?).getD []

theorem withPrimary_gather (alloc used : Tally) (n : Str) (hk : ∀ k ∈ ks, k ≠ []) (hn : ks ≠ []) :
    let v := withPrimary (gather alloc used keySet n ks)
    v.vendor = n ∧ v.keys = ks ∧ v.primary = headline keySet ks ∧ v.counts = countsOf alloc used (headline keySet ks) := by
  have hv : (gather alloc used keySet n ks).vendor = n := gather_vendor ..
  have hks : (gather alloc used keySet n ks).keys = ks := gather_keys ..
  obtain ⟨hp, hc⟩ : Gathered alloc used keySet ks (gather alloc used keySet n ks) := gathered alloc used n hk
  obtain ⟨k, l, rfl⟩ := List.exists_cons_of_ne_nil hn
  unfold withPrimary
  rw [hks]
  dsimp only
  cases hl : primaries keySet (k :: l)
  case nil        =>
    rw [hl] at hp
    rw [if_pos (by simpa using hp)]
    exact ⟨hv, rfl, by simp [headline, hl], by simp [headline, hl, gather_byKey]⟩
  case cons k' l' =>
    have hk' : k' ≠ [] := hk k' (List.mem_of_mem_filter (hl ▸ List.mem_cons_self : k' ∈ primaries keySet (k :: l)))
    rw [hl] at hp hc
    rw [if_neg (by simpa [hp] using hk')]
    exact ⟨hv, hks, by simp [headline, hl, hp], by simp [headline, hl, hc]⟩

theorem headline_mem (hn : ks ≠ []) : headline keySet ks ∈ ks := by
  obtain ⟨k, l, rfl⟩ := List.exists_cons_of_ne_nil hn
  cases hl : primaries keySet (k :: l)
  case nil        => simp [headline, hl]
  case cons k' l' =>
    have hm : k' ∈ primaries keySet (k :: l) := hl ▸ List.mem_cons_self
    simpa [headline, hl] using List.mem_of_mem_filter hm

end Gather

section Groups

variable {alloc used : Tally} {keys : List Str} {v : VendorSummary} {k n : Str}

def lowered (keys : List Str) : List Str :=
  keys.map Str.toLower

-- The vendor that is shown under a name.
def vendorNamed (alloc used : Tally) (keys : List Str) (n : Str) : VendorSummary :=
  withPrimary (gather alloc used (lowered keys) n (keysOf (lowered keys) keys n))

def vendorNames (alloc used : Tally) (keys : List Str) : List Str :=
  (keys.foldl (addKey alloc used (lowered keys)) ∅).keyList

theorem mem_vendorNames : n ∈ vendorNames alloc used keys ↔ keysOf (lowered keys) keys n ≠ [] := by
  rw [vendorNames, Map.mem_keyList, lookup_bucket]
  split <;> simp_all

theorem values_eq (alloc used : Tally) (keys : List Str) :
    (keys.foldl (addKey alloc used (lowered keys)) ∅).values.map withPrimary =
      (vendorNames alloc used keys).map (vendorNamed alloc used keys) := by
  have h : (keys.foldl (addKey alloc used (lowered keys)) ∅).values =
      (vendorNames alloc used keys).map fun n => gather alloc used (lowered keys) n (keysOf (lowered keys) keys n) := by
    rw [Map.values, ← List.filterMap_eq_map]
    refine List.filterMap_congr fun n hn => ?_
    rw [lookup_bucket, if_neg (mem_vendorNames.mp hn)]
    rfl
  rw [h, List.map_map]
  rfl

theorem groupByVendor_perm (alloc used : Tally) (keys : List Str) :
    (groupByVendor keys alloc used).Perm ((vendorNames alloc used keys).map (vendorNamed alloc used keys)) := by
  rw [← values_eq]
  exact List.perm_insertionSort ..

-- What is shown of a vendor whose keys have names.
structure Shown (alloc used : Tally) (keys : List Str) (v : VendorSummary) : Prop where
  own      : v.keys = keysOf (lowered keys) keys v.vendor
  nonempty : v.keys ≠ []
  primary  : v.primary = headline (lowered keys) v.keys
  counts   : v.counts = countsOf alloc used (headline (lowered keys) v.keys)

variable (hk : ∀ k ∈ keys, k ≠ [])

include hk

theorem vendorNamed_shown (alloc used : Tally) (h : keysOf (lowered keys) keys n ≠ []) :
    (vendorNamed alloc used keys n).vendor = n ∧ Shown alloc used keys (vendorNamed alloc used keys n) := by
  have hks : ∀ k ∈ keysOf (lowered keys) keys n, k ≠ [] := fun k hm => hk k (List.mem_of_mem_filter hm)
  obtain ⟨hv, hkeys, hp, hc⟩ := withPrimary_gather alloc used n hks h
  refine ⟨hv, ?_⟩
  unfold vendorNamed
  exact ⟨hkeys.trans (by rw [hv]), by rwa [hkeys], by rw [hp, hkeys], by rw [hc, hkeys]⟩

theorem vendor_shown (hv : v ∈ groupByVendor keys alloc used) : Shown alloc used keys v := by
  obtain ⟨n, hn, rfl⟩ := List.mem_map.mp ((groupByVendor_perm alloc used keys).mem_iff.mp hv)
  exact (vendorNamed_shown hk alloc used (mem_vendorNames.mp hn)).right

omit hk in
-- A key belongs to one vendor.
theorem keysOf_disjoint {n' : Str} (h : k ∈ keysOf (lowered keys) keys n) (h' : k ∈ keysOf (lowered keys) keys n') :
    n = n' := by
  have hn := (List.mem_filter.mp h).right
  have hn' := (List.mem_filter.mp h').right
  exact (of_decide_eq_true hn).symm.trans (of_decide_eq_true hn')

-- Every key is a key of one vendor.
theorem keys_perm (alloc used : Tally) (hd : keys.Nodup) :
    ((groupByVendor keys alloc used).flatMap (·.keys)).Perm keys := by
  have hkeys : ∀ n ∈ vendorNames alloc used keys,
      (vendorNamed alloc used keys n).keys = keysOf (lowered keys) keys n := by
    intro n hn
    obtain ⟨hv, hs⟩ := vendorNamed_shown hk alloc used (mem_vendorNames.mp hn)
    rw [hs.own, hv]
  refine ((groupByVendor_perm alloc used keys).flatMap_right _).trans ?_
  rw [List.flatMap_map, List.flatMap_congr hkeys]
  refine (List.perm_ext_iff_of_nodup ?_ hd).mpr fun k => ?_
  case refine_1 =>
    refine List.nodup_flatMap.mpr ⟨fun n _ => hd.filter _, ?_⟩
    refine (Map.nodup_keyList _).imp fun hne => ?_
    exact fun k hk hk' => hne (keysOf_disjoint hk hk')
  case refine_2 =>
    rw [List.mem_flatMap]
    constructor
    case mp  =>
      rintro ⟨n, -, hm⟩
      exact List.mem_of_mem_filter hm
    case mpr =>
      intro hm
      have hown : k ∈ keysOf (lowered keys) keys (vendorOf k (lowered keys)).1 := List.mem_filter.mpr ⟨hm, by simp⟩
      exact ⟨_, mem_vendorNames.mpr (List.ne_nil_of_mem hown), hown⟩

end Groups

end Gpu
