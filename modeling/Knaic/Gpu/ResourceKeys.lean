import Knaic.Gpu.Monitoring

open Go

namespace Gpu

def alphanumeric (b : UInt8) : Bool :=
  48 ≤ b && b ≤ 57 || 65 ≤ b && b ≤ 90 || 97 ≤ b && b ≤ 122

-- The name of a resource in metrics. Names of resources are ASCII.
def mangle (k : Str) : Str :=
  k.map fun b => if alphanumeric b then b else underscore

-- The expression `.+_.+_.+`, which is about whole names.
def matchesQuery (r : Str) : Bool :=
  (List.range r.length).any fun i => (List.range r.length).any fun j =>
    1 ≤ i && i + 2 ≤ j && j + 2 ≤ r.length && r[i]? = some underscore && r[j]? = some underscore

theorem matchesQuery_of_split {a b c : Str} (ha : a ≠ []) (hb : b ≠ []) (hc : c ≠ []) :
    matchesQuery (a ++ underscore :: (b ++ underscore :: c)) := by
  have ha := List.length_pos_iff.mpr ha
  have hb := List.length_pos_iff.mpr hb
  have hc := List.length_pos_iff.mpr hc
  simp only [matchesQuery, List.any_eq_true, List.mem_range, Bool.and_eq_true, decide_eq_true_eq]
  refine ⟨a.length, ?_, a.length + 1 + b.length, ?_, ⟨⟨⟨?_, ?_⟩, ?_⟩, ?_⟩, ?_⟩
  case refine_3 | refine_4 => omega
  case refine_6 => simp
  case refine_7 =>
    rw [List.getElem?_append_right (by omega)]
    have h : a.length + 1 + b.length - a.length = b.length + 1 := by omega
    simp [h]
  all_goals
    simp only [List.length_append, List.length_cons]
    omega

theorem lastIndex_append {g r : Str} {b : UInt8} (hr : b ∉ r) :
    lastIndex (g ++ b :: r) b = some g.length := by
  have hi : (g ++ b :: r).reverse.idxOf b = r.length := by
    simp [List.idxOf_append_of_notMem, hr]
  rw [lastIndex, if_pos (by simp), hi]
  simp only [List.length_append, List.length_cons, Option.some.injEq]
  omega

theorem canonicalResourceKey_append {g r : Str} (hg : g ≠ []) (hr : underscore ∉ r) :
    canonicalResourceKey (g ++ underscore :: r) =
      (g.map fun b => if b = underscore then 0x2e else b) ++ 0x2f :: r := by
  simp [canonicalResourceKey, lastIndex_append hr, hg]

-- A key whose group is made of letters, digits and dots, with a dot between other characters, and
-- whose resource is made of letters and digits.
def Dotted (k : Str) : Prop :=
  ∃ a b r, k = a ++ 0x2e :: (b ++ 0x2f :: r) ∧ a ≠ [] ∧ b ≠ [] ∧ r ≠ [] ∧
  (∀ c ∈ a ++ b, alphanumeric c ∨ c = 0x2e) ∧ ∀ c ∈ r, alphanumeric c

theorem mangle_alphanumeric {r : Str} (h : ∀ c ∈ r, alphanumeric c) : mangle r = r :=
  (List.map_congr_left fun c hc => if_pos (h c hc)).trans (List.map_id _)

theorem underscore_notMem {r : Str} (h : ∀ c ∈ r, alphanumeric c) : underscore ∉ r :=
  fun hm => absurd (h _ hm) (by decide)

theorem unmangle_dotted {g : Str} (h : ∀ c ∈ g, alphanumeric c ∨ c = 0x2e) :
    ((mangle g).map fun b => if b = underscore then 0x2e else b) = g := by
  rw [mangle, List.map_map]
  refine (List.map_congr_left fun c hc => ?_).trans (List.map_id _)
  have hu : ¬alphanumeric underscore := by decide
  cases h c hc
  case inr he =>
    subst he
    decide
  case inl ha =>
    have hne : c ≠ underscore := by
      rintro rfl
      exact hu ha
    simp [ha, hne]

theorem Dotted.told {k : Str} (h : Dotted k) :
    matchesQuery (mangle k) ∧ canonicalResourceKey (mangle k) = k := by
  have ⟨a, b, r, hk, ha, hb, hr, hg, hs⟩ := h
  have hm : mangle k = mangle a ++ underscore :: (mangle b ++ underscore :: r) := by
    have hd : ¬alphanumeric 0x2e ∧ ¬alphanumeric 0x2f := by decide
    rw [hk, mangle, List.map_append, List.map_cons, List.map_append, List.map_cons, if_neg hd.left,
      if_neg hd.right, ← mangle, ← mangle, ← mangle, mangle_alphanumeric hs]
  have hg' : ∀ c ∈ a ++ 0x2e :: b, alphanumeric c ∨ c = 0x2e := by
    intro c hc
    cases List.mem_append.mp hc
    case inl hc => exact hg c (List.mem_append_left _ hc)
    case inr hc =>
      cases List.mem_cons.mp hc
      case inl he => exact .inr he
      case inr hc => exact hg c (List.mem_append_right _ hc)
  have hne : mangle a ≠ [] ∧ mangle b ≠ [] := by simp [mangle, ha, hb]
  refine ⟨hm ▸ matchesQuery_of_split hne.left hne.right hr, ?_⟩
  have hj : mangle k = mangle (a ++ 0x2e :: b) ++ underscore :: r := by
    rw [hm]
    simp [mangle]
    decide
  rw [hj, canonicalResourceKey_append (by simp [mangle]) (underscore_notMem hs),
    unmangle_dotted hg', hk]
  simp

-- Where a text has a byte for the last time.
theorem exists_last {s : Str} {b : UInt8} (h : b ∈ s) : ∃ g r, s = g ++ b :: r ∧ b ∉ r := by
  have ⟨r, g, he, hr⟩ := List.eq_append_cons_of_mem (List.mem_reverse.mpr h)
  exact ⟨g.reverse, r.reverse, by simpa using congrArg List.reverse he, by simpa using hr⟩

theorem mem_mangle {k : Str} {c : UInt8} (h : c ∈ mangle k) : alphanumeric c ∨ c = underscore := by
  have ⟨b, _, he⟩ := List.mem_map.mp h
  split at he
  case isTrue ha => exact .inl (he ▸ ha)
  case isFalse   => exact .inr he.symm

-- A name that the query selects has a separator inside of what comes before its last one.
theorem matchesQuery_append {g r : Str} (hr : underscore ∉ r)
    (h : matchesQuery (g ++ underscore :: r)) :
    ∃ a b, g = a ++ underscore :: b ∧ a ≠ [] ∧ b ≠ [] := by
  simp only [matchesQuery, List.any_eq_true, List.mem_range, Bool.and_eq_true,
    decide_eq_true_eq] at h
  have ⟨i, _, j, _, ⟨⟨⟨hi, hij⟩, _⟩, hui⟩, huj⟩ := h
  have hj : j ≤ g.length := by
    by_contra hn
    rw [List.getElem?_append_right (by omega)] at huj
    have he : j - g.length = j - g.length - 1 + 1 := by omega
    rw [he, List.getElem?_cons_succ] at huj
    exact hr (List.mem_of_getElem? huj)
  rw [List.getElem?_append_left (by omega)] at hui
  have ⟨hl, he⟩ := List.getElem?_eq_some_iff.mp hui
  refine ⟨g.take i, g.drop (i + 1), ?_, ?_, ?_⟩
  case refine_1 => rw [← he, ← List.drop_eq_getElem_cons hl, List.take_append_drop]
  case refine_2 =>
    refine List.ne_nil_of_length_pos ?_
    rw [List.length_take]
    omega
  case refine_3 =>
    refine List.ne_nil_of_length_pos ?_
    rw [List.length_drop]
    omega

-- The keys that come back from their names in metrics, among those with a resource.
theorem dotted_iff {k : Str} :
    Dotted k ↔ matchesQuery (mangle k) ∧ canonicalResourceKey (mangle k) = k ∧
      k.getLast? ≠ some 0x2f := by
  constructor
  case mp  =>
    intro h
    have ⟨a, b, r, hk, _, _, hr, _, hs⟩ := h
    refine ⟨h.told.left, h.told.right, fun hl => ?_⟩
    have hm : 0x2f ∈ r := by
      have he : k = (a ++ 0x2e :: b ++ [0x2f]) ++ r := by simp [hk]
      rw [he, List.getLast?_append_of_ne_nil _ hr] at hl
      exact List.mem_of_getLast? hl
    exact absurd (hs _ hm) (by decide)
  case mpr =>
    rintro ⟨hq, hc, hl⟩
    have hu : underscore ∈ mangle k := by
      simp only [matchesQuery, List.any_eq_true, Bool.and_eq_true, decide_eq_true_eq] at hq
      have ⟨_, _, _, _, _, huj⟩ := hq
      exact List.mem_of_getElem? huj
    have ⟨g, r, hm, hr⟩ := exists_last hu
    have ⟨a, b, hg, ha, hb⟩ := matchesQuery_append hr (hm ▸ hq)
    rw [hm, canonicalResourceKey_append (by simp [hg]) hr, hg, List.map_append, List.map_cons,
      if_pos rfl] at hc
    have hrr : ∀ c ∈ r, alphanumeric c := by
      intro c hcr
      have hmem : c ∈ mangle k := by simp [hm, hcr]
      exact (mem_mangle hmem).resolve_right fun he => hr (he ▸ hcr)
    refine ⟨a.map fun b => if b = underscore then 0x2e else b,
      b.map fun b => if b = underscore then 0x2e else b, r, ?_, ?_, ?_, ?_, ?_, hrr⟩
    case refine_1 => rw [← hc, List.append_assoc, List.cons_append]
    case refine_2 => simpa using ha
    case refine_3 => simpa using hb
    case refine_4 =>
      rintro rfl
      exact hl (hc ▸ List.getLast?_concat ..)
    case refine_5 =>
      intro c hcab
      rw [← List.map_append] at hcab
      have ⟨d, hd, he⟩ := List.mem_map.mp hcab
      have hmem : d ∈ mangle k := by
        rw [hm, hg]
        cases List.mem_append.mp hd
        case inl h => simp [h]
        case inr h => simp [h]
      split at he
      case isTrue     => exact .inr he.symm
      case isFalse hn => exact .inl (he ▸ (mem_mangle hmem).resolve_right hn)

end Gpu
