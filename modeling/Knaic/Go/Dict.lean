import Mathlib.Data.List.Basic
import Mathlib.Data.List.Induction
import Mathlib.Data.List.Sort
import Knaic.Go.Basic

namespace Go

-- Literals differ as their bytes do.
@[simp]
theorem str_inj {a b : String} : str a = str b ↔ a = b := by
  refine ⟨fun h => ?_, fun h => h ▸ rfl⟩
  apply String.toByteArray_inj.mp
  rw [← String.utf8Encode_toList, ← String.utf8Encode_toList]
  simp only [List.utf8Encode]
  exact congrArg _ h

@[simp]
theorem str_eq_nil {a : String} : str a = [] ↔ a = "" :=
  str_inj (b := "")

-- The entries of a map with strings for keys. A map has them in the order of its keys, whatever the
-- order in which they were set.
abbrev Entries (α : Type) :=
  List (Str × α)

namespace Entries

variable {α : Type} {k k' : Str} {a b : α} {l l' m : Entries α}

def get (l : Entries α) (k : Str) : Option α :=
  (l.find? fun e => e.1 = k).map Prod.snd

def set (l : Entries α) (k : Str) (a : α) : Entries α :=
  match l with
  | []     => [(k, a)]
  | e :: l => if k < e.1 then (k, a) :: e :: l else if k = e.1 then (k, a) :: l else e :: set l k a

def erase (l : Entries α) (k : Str) : Entries α :=
  l.filter fun e => e.1 ≠ k

-- `for k, a := range m { l[k] = a }`
def setAll (l m : Entries α) : Entries α :=
  m.foldl (fun l e => l.set e.1 e.2) l

def Sorted (l : Entries α) : Prop :=
  l.Pairwise fun e f => e.1 < f.1

@[simp]
theorem get_nil (k : Str) : get ([] : Entries α) k = none :=
  rfl

theorem set_nil (k : Str) (a : α) : set [] k a = [(k, a)] :=
  rfl

theorem get_cons (e : Str × α) (l : Entries α) (k : Str) :
    get (e :: l) k = if e.1 = k then some e.2 else get l k := by
  simp only [get, List.find?_cons]
  by_cases h : e.1 = k <;> simp [h]

theorem mem_of_get (h : l.get k = some a) : (k, a) ∈ l := by
  have ⟨e, he, ha⟩ := Option.map_eq_some_iff.mp h
  have hk : e.1 = k := by simpa using List.find?_some he
  have hm := List.mem_of_find?_eq_some he
  rwa [← hk, ← ha]

theorem get_set (l : Entries α) (k : Str) (a : α) (k' : Str) :
    (l.set k a).get k' = if k' = k then some a else l.get k' := by
  induction l
  case nil => simp [set, get_cons, eq_comm]
  case cons e l hi =>
    simp only [set]
    by_cases hlt : k < e.1
    case pos => simp [hlt, get_cons, eq_comm]
    case neg =>
      by_cases heq : k = e.1
      case pos =>
        subst heq
        simp only [hlt, if_false, if_true, get_cons, eq_comm]
        split <;> rfl
      case neg =>
        simp only [hlt, heq, if_false, get_cons, hi]
        by_cases he : e.1 = k'
        case pos => simp [← he, Ne.symm heq]
        case neg => simp [he]

@[simp]
theorem get_set_self (l : Entries α) (k : Str) (a : α) : (l.set k a).get k = some a := by
  simp [get_set]

@[simp]
-- Of the entries that a loop sets, those that have one key say the same.
theorem get_foldl_set {β : Type} {f : β → Str} {g : β → α} {bs : List β} {b : β} (hb : b ∈ bs)
    (h : ∀ c ∈ bs, f c = f b → g c = g b) (l : Entries α) :
    (bs.foldl (fun l c => l.set (f c) (g c)) l).get (f b) = some (g b) := by
  induction bs using List.reverseRecOn
  case nil => cases hb
  case append_singleton bs c hi =>
    rw [List.foldl_append, List.foldl_cons, List.foldl_nil, get_set]
    split
    case isTrue he  => rw [h c (by simp) he.symm]
    case isFalse he =>
      have hm : b ∈ bs := by
        cases List.mem_append.mp hb
        case inl hm => exact hm
        case inr hm => cases List.mem_singleton.mp hm; exact absurd rfl he
      exact hi hm fun c hc => h c (List.mem_append_left _ hc)

@[simp]
theorem set_ne_nil (l : Entries α) (k : Str) (a : α) : l.set k a ≠ [] := by
  intro h
  have hg := get_set_self l k a
  simp [h] at hg

theorem get_set_ne (l : Entries α) (a : α) (h : k' ≠ k) : (l.set k a).get k' = l.get k' := by
  simp [get_set, h]

theorem get_erase (l : Entries α) (k k' : Str) :
    (l.erase k).get k' = if k' = k then none else l.get k' := by
  induction l
  case nil => simp [erase]
  case cons e l hi =>
    simp only [erase, List.filter_cons] at hi ⊢
    by_cases he : e.1 = k
    case pos =>
      simp only [he, ne_eq, not_true, decide_false, Bool.false_eq_true, if_false, hi, get_cons]
      by_cases hk : k' = k
      case pos => simp [hk]
      case neg => simp [hk, Ne.symm hk]
    case neg =>
      simp only [he, ne_eq, not_false_eq_true, decide_true, if_true, get_cons, hi]
      by_cases hk : e.1 = k'
      case pos => simp [← hk, he]
      case neg => simp [hk]

theorem mem_set (h : e ∈ l.set k a) : e = (k, a) ∨ e ∈ l := by
  induction l
  case nil         => exact .inl (List.mem_singleton.mp h)
  case cons f l hi =>
    simp only [set] at h
    split at h
    case isTrue => exact List.mem_cons.mp h
    split at h
    case isTrue  => exact (List.mem_cons.mp h).imp_right (.tail _)
    case isFalse =>
      cases List.mem_cons.mp h
      case inl h => exact .inr (h ▸ .head _)
      case inr h => exact (hi h).imp_right (.tail _)

theorem Sorted.nil : Sorted ([] : Entries α) :=
  List.Pairwise.nil

theorem Sorted.set (h : Sorted l) (k : Str) (a : α) : Sorted (l.set k a) := by
  induction l
  case nil         => exact List.pairwise_singleton _ _
  case cons e l hi =>
    have ⟨hh, ht⟩ := List.pairwise_cons.mp h
    simp only [Entries.set]
    split
    case isTrue hlt =>
      refine List.pairwise_cons.mpr ⟨fun f hf => ?_, h⟩
      cases List.mem_cons.mp hf
      case inl hf => exact hf ▸ hlt
      case inr hf => exact List.lt_trans hlt (hh f hf)
    split
    case isTrue heq => exact List.pairwise_cons.mpr ⟨fun f hf => heq ▸ hh f hf, ht⟩
    case isFalse hlt heq =>
      refine List.pairwise_cons.mpr ⟨fun f hf => ?_, hi ht⟩
      cases mem_set hf
      case inr hf => exact hh f hf
      case inl hf =>
        subst hf
        by_contra hn
        have ht : Std.Trichotomous fun x y : Str => x < y := inferInstance
        exact heq (ht.trichotomous _ _ hlt hn)

theorem Sorted.erase (h : Sorted l) (k : Str) : Sorted (l.erase k) :=
  h.filter _

theorem Sorted.setAll (h : Sorted l) (m : Entries α) : Sorted (l.setAll m) := by
  induction m generalizing l
  case nil       => exact h
  case cons e m hi => exact hi (h.set e.1 e.2)

theorem get_of_nodup {a : α} (hd : (l.map Prod.fst).Nodup) (h : (k, a) ∈ l) : get l k = some a := by
  induction l
  case nil         => cases h
  case cons e l hi =>
    have ⟨hn, hd⟩ := List.nodup_cons.mp hd
    rw [get_cons]
    cases h
    case head   => exact if_pos rfl
    case tail h =>
      have hne : e.1 ≠ k := fun he => hn (he ▸ List.mem_map_of_mem h)
      rw [if_neg hne, hi hd h]

theorem Sorted.keys_nodup (h : Sorted l) : (l.map Prod.fst).Nodup := by
  apply List.pairwise_map.mpr
  apply List.Pairwise.imp _ h
  intro e f hlt he
  exact List.lt_irrefl _ (he ▸ hlt)

-- In a map there is one entry for a key.
theorem Sorted.get_of_mem (h : Sorted l) (hm : (k, a) ∈ l) : l.get k = some a :=
  get_of_nodup h.keys_nodup hm

theorem Sorted.get_eq_some_iff (h : Sorted l) : l.get k = some a ↔ (k, a) ∈ l :=
  ⟨mem_of_get, h.get_of_mem⟩

-- The first key is not among the others.
theorem Sorted.get_tail (h : Sorted (e :: l)) : l.get e.1 = none := by
  cases hg : l.get e.1
  case none   => rfl
  case some a => exact absurd ((List.pairwise_cons.mp h).left _ (mem_of_get hg)) (List.lt_irrefl e.1)

-- Maps with the same answers are the same.
theorem Sorted.ext (h : Sorted l) (h' : Sorted l') (hg : ∀ k, l.get k = l'.get k) : l = l' := by
  have : Std.Irrefl fun e f : Str × α => e.1 < f.1 := ⟨fun e => List.lt_irrefl e.1⟩
  have : Std.Asymm fun e f : Str × α => e.1 < f.1 :=
    ⟨fun e f hef hfe => List.lt_irrefl e.1 (List.lt_trans hef hfe)⟩
  apply List.Pairwise.eq_of_mem_iff h h'
  rintro ⟨k, a⟩
  rw [← h.get_eq_some_iff, ← h'.get_eq_some_iff, hg]

theorem Sorted.set_comm (h : l.Sorted) (hk : k ≠ k') (a b : α) :
    (l.set k a).set k' b = (l.set k' b).set k a := by
  apply Sorted.ext ((h.set k a).set k' b) ((h.set k' b).set k a)
  intro j
  simp only [get_set]
  by_cases hj : j = k'
  case pos => simp [hj, hk.symm]
  case neg => simp [hj]

theorem get_map {β : Type} (f : α → β) (l : Entries α) (k : Str) :
    get (l.map fun e => (e.1, f e.2)) k = (l.get k).map f := by
  induction l
  case nil         => rfl
  case cons e l hi =>
    rw [List.map_cons, get_cons, get_cons, hi]
    split <;> rfl

theorem map_set {β : Type} (f : α → β) (l : Entries α) (k : Str) (a : α) :
    (l.set k a).map (fun e => (e.1, f e.2)) = set (l.map fun e => (e.1, f e.2)) k (f a) := by
  induction l
  case nil         => rfl
  case cons e l hi =>
    simp only [set, List.map_cons]
    split
    · rfl
    · split
      · rfl
      · simp [hi]

theorem Sorted.map {β : Type} (h : Sorted l) (f : α → β) :
    Sorted (l.map fun e => (e.1, f e.2)) :=
  List.pairwise_map.mpr h

theorem eq_nil_iff_get : l = [] ↔ ∀ k, l.get k = none := by
  constructor
  case mp => rintro rfl; exact get_nil
  case mpr =>
    intro h
    cases l
    case nil => rfl
    case cons e l =>
      have he := h e.1
      simp [get_cons] at he

theorem setAll_append (l m m' : Entries α) : l.setAll (m ++ m') = (l.setAll m).setAll m' :=
  List.foldl_append

theorem setAll_ne_nil (h : l ≠ []) (m : Entries α) : l.setAll m ≠ [] := by
  induction m generalizing l
  case nil         => exact h
  case cons e _ hi => exact hi (set_ne_nil l e.1 e.2)

theorem get_setAll_nil (l m : Entries α) (k : Str) :
    (l.setAll m).get k = (get (setAll [] m) k).or (l.get k) := by
  induction m using List.reverseRecOn
  case nil                   => rfl
  case append_singleton m e hi =>
    rw [setAll_append, setAll_append]
    show get ((l.setAll m).set e.1 e.2) k = (get ((setAll [] m).set e.1 e.2) k).or (l.get k)
    rw [get_set, get_set, hi]
    split <;> rfl

theorem get_setAll_nodup (hd : (m.map Prod.fst).Nodup) (l : Entries α) (k : Str) :
    (l.setAll m).get k = (get m k).or (l.get k) := by
  induction m generalizing l
  case nil         => rfl
  case cons e m hi =>
    have ⟨hn, hd⟩ := List.nodup_cons.mp hd
    have hs : l.setAll (e :: m) = (l.set e.1 e.2).setAll m := rfl
    rw [hs, hi hd, get_cons, get_set]
    by_cases he : e.1 = k
    case neg => simp [he, Ne.symm he]
    case pos =>
      have hg : get m k = none := by
        cases hg : get m k
        case none   => rfl
        case some a => exact absurd (he ▸ List.mem_map_of_mem (mem_of_get hg)) hn
      simp [he, hg]

theorem get_setAll (hm : Sorted m) (l : Entries α) (k : Str) :
    (l.setAll m).get k = (m.get k).or (l.get k) :=
  get_setAll_nodup hm.keys_nodup l k

end Entries

-- A map that does not change.
structure Dict (α : Type) where
  entries : Entries α
  sorted  : entries.Sorted

namespace Dict

variable {α : Type}

def get (d : Dict α) (k : Str) : Option α :=
  d.entries.get k

def empty : Dict α where
  entries := []
  sorted  := .nil

def set (d : Dict α) (k : Str) (a : α) : Dict α where
  entries := d.entries.set k a
  sorted  := d.sorted.set k a

@[simp]
theorem get_empty (k : Str) : (empty : Dict α).get k = none :=
  rfl

theorem get_set (d : Dict α) (k : Str) (a : α) (k' : Str) :
    (d.set k a).get k' = if k' = k then some a else d.get k' :=
  Entries.get_set ..

@[ext]
theorem ext {d d' : Dict α} (h : ∀ k, d.get k = d'.get k) : d = d' := by
  cases d
  cases d'
  simp only [mk.injEq]
  exact Entries.Sorted.ext ‹_› ‹_› h

end Dict

-- An order in which `range` visits the entries of a map.
structure Visit {α : Type} (m : Dict α) where
  entries : Entries α
  perm    : entries.Perm m.entries

namespace Visit

variable {α β : Type} {m : Dict α} {k : Str} {a : α} {p : Str × α → Bool}

theorem perm_self (m : Dict α) : m.entries.Perm m.entries :=
  .refl _

def inOrder (m : Dict α) : Visit m :=
  ⟨m.entries, perm_self m⟩

theorem mem_iff (v : Visit m) : (k, a) ∈ v.entries ↔ m.get k = some a :=
  v.perm.mem_iff.trans m.sorted.get_eq_some_iff.symm

theorem eq_of_key {e e' : Str × α} (v : Visit m) (he : e ∈ v.entries) (he' : e' ∈ v.entries) (hk : e.1 = e'.1) :
    e = e' := by
  have h := v.mem_iff.mp he
  rw [hk, v.mem_iff.mp he'] at h
  exact Prod.ext hk (Option.some.inj h).symm

-- A loop whose steps commute for different keys does the same in every order.
theorem foldl_eq {f : β → Str × α → β} (h : ∀ b e e', e.1 ≠ e'.1 → f (f b e) e' = f (f b e') e) (v : Visit m)
    (b : β) : v.entries.foldl f b = m.entries.foldl f b := by
  apply v.perm.foldl_eq'
  intro e he e' he' b
  by_cases hk : e.1 = e'.1
  case pos => rw [v.eq_of_key he he' hk]
  case neg => exact h b e e' hk

-- Copying a map gives the map.
theorem foldl_set (v : Visit m) : v.entries.foldl (fun d e => d.set e.1 e.2) Dict.empty = m := by
  have hc : ∀ (d : Dict α) (e e' : Str × α), e.1 ≠ e'.1 →
      (d.set e.1 e.2).set e'.1 e'.2 = (d.set e'.1 e'.2).set e.1 e.2 := by
    intro d e e' hk
    ext k : 1
    simp only [Dict.get_set]
    split
    case isTrue h  => simp [h, Ne.symm hk]
    case isFalse h => rfl
  have he : ∀ (l : Entries α) (d : Dict α), (l.foldl (fun d e => d.set e.1 e.2) d).entries = d.entries.setAll l := by
    intro l
    induction l
    case nil         => exact fun _ => rfl
    case cons e l hi => exact fun d => hi (d.set e.1 e.2)
  rw [v.foldl_eq hc]
  ext k : 1
  rw [Dict.get, he, Entries.get_setAll m.sorted]
  simp [Dict.get, Dict.empty]

-- Any entry may be the first one that is looked for.
theorem exists_find (hm : m.get k = some a) (hp : p (k, a)) : ∃ v : Visit m, v.entries.find? p = some (k, a) := by
  obtain ⟨l, l', hl⟩ := List.append_of_mem (m.sorted.get_eq_some_iff.mp hm)
  have hv : ((k, a) :: (l ++ l')).Perm m.entries := by
    rw [hl]
    exact List.perm_middle.symm
  exact ⟨⟨_, hv⟩, List.find?_cons_of_pos hp⟩

theorem find_eq_none (v : Visit m) : v.entries.find? p = none ↔ ∀ k a, m.get k = some a → p (k, a) = false := by
  constructor
  case mp =>
    intro h k a hm
    simpa using List.find?_eq_none.mp h (k, a) (v.mem_iff.mpr hm)
  case mpr =>
    intro h
    apply List.find?_eq_none.mpr
    rintro ⟨k, a⟩ hm
    simp [h k a (v.mem_iff.mp hm)]

theorem of_find (v : Visit m) {e : Str × α} (h : v.entries.find? p = some e) : m.get e.1 = some e.2 ∧ p e :=
  ⟨v.mem_iff.mp (List.mem_of_find?_eq_some h), List.find?_some h⟩

-- What comes of the first entry found is the same in every order if and only if it is for all that are looked for.
theorem find_const_iff {f : Option (Str × α) → β} :
    (∀ v v' : Visit m, f (v.entries.find? p) = f (v'.entries.find? p)) ↔
      ∀ k a k' a', m.get k = some a → m.get k' = some a' → p (k, a) → p (k', a') →
        f (some (k, a)) = f (some (k', a')) := by
  constructor
  case mp =>
    intro h k a k' a' hm hm' hp hp'
    obtain ⟨v, hv⟩ := exists_find hm hp
    obtain ⟨v', hv'⟩ := exists_find hm' hp'
    rw [← hv, ← hv']
    exact h v v'
  case mpr =>
    intro h v v'
    cases hv : v.entries.find? p
    case none =>
      have hv' := v'.find_eq_none.mpr (v.find_eq_none.mp hv)
      rw [hv']
    case some e =>
      cases hv' : v'.entries.find? p
      case none =>
        rw [v.find_eq_none.mpr (v'.find_eq_none.mp hv')] at hv
        cases hv
      case some e' =>
        obtain ⟨hm, hp⟩ := v.of_find hv
        obtain ⟨hm', hp'⟩ := v'.of_find hv'
        exact h _ _ _ _ hm hm' hp hp'

end Visit
end Go
