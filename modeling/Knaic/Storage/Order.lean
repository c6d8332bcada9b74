import Knaic.Go.Strconv
import Knaic.Storage.Store

open Go Effects

namespace Storage

-- What a client keeps of the targets that are not built in, who hears every answer.
def note (l : List Target) : (op : ops.Op) → ops.Res op → List Target
  | .create _, .ok t   => l ++ [t]
  | .patch id _, .ok t => l.map fun u => if u.id = id then t else u
  | .delete id, .ok () => l.filter fun u => u.id ≠ id
  | _, _               => l

def noted : Machine ops Str (Store × List Target) :=
  machine.logged note

namespace Store

-- What was noted is what there is.
structure Kept (s : Store) (l : List Target) : Prop where
  mem   : ∀ t, t ∈ l ↔ s.Open t.id t
  nodup : (l.map (·.id)).Nodup

-- A new target finds only such numbers before it that are at most what the first digits of its own
-- number make, as many as they have themselves.
def Sortable (op : Op) (_ : Str) (s : Store) : Prop :=
  ∀ input, op = .create input → s.Accepts input → ∀ m t, s.Open (idFor m) t →
    m ≤ (s.nextID + 1) / 10 ^ ((decimal (s.nextID + 1)).length - (decimal m).length)

section Steps

variable {init s : Store} {l : List Target} {t u : Target} {input : CreateInput} {p : PatchInput} {id now : Str}

theorem Kept.create (h : Kept s l) (hn : s.Numbered) :
    Kept ⟨s.targets.insert (idFor (s.nextID + 1)) (s.made input now), s.nextID + 1⟩ (l ++ [s.made input now]) where
  mem   := by
    intro t
    rw [List.mem_append, List.mem_singleton, h.mem]
    constructor
    case mp  =>
      rintro (ho | rfl)
      case inl => exact ⟨Map.lookup_insert_fresh hn.fresh ho.left, ho.right⟩
      case inr => exact ⟨Finmap.lookup_insert .., rfl⟩
    case mpr =>
      rintro ⟨hl, hb⟩
      obtain ⟨-, rfl⟩ | hl := Map.lookup_insert_some hl
      case inl => exact .inr rfl
      case inr => exact .inl ⟨hl, hb⟩
  nodup := by
    rw [List.map_append, List.nodup_append]
    refine ⟨h.nodup, List.nodup_singleton _, ?_⟩
    rintro _ hm _ hs rfl
    obtain ⟨t, ht, he⟩ := List.mem_map.mp hm
    have ho := ((h.mem t).mp ht).left
    rw [he, List.mem_singleton.mp hs] at ho
    cases hn.fresh.symm.trans ho

theorem patched_ids (hn : s.Numbered) (ho : s.Open id t) (l : List Target) :
    (l.map fun u => if u.id = id then p.apply t else u).map (·.id) = l.map (·.id) := by
  rw [List.map_map]
  refine List.map_congr_left fun u _ => ?_
  simp only [Function.comp_apply]
  split
  case isTrue he => exact (hn id t ho.left).left.trans he.symm
  case isFalse   => rfl

theorem Kept.patch (h : Kept s l) (hn : s.Numbered) (ho : s.Open id t) :
    Kept { s with targets := s.targets.insert id (p.apply t) } (l.map fun u => if u.id = id then p.apply t else u) where
  mem   := by
    intro u
    rw [List.mem_map]
    constructor
    case mp  =>
      rintro ⟨u, hu, rfl⟩
      split
      case isTrue he  =>
        have hi : (p.apply t).id = id := (hn id t ho.left).left
        exact ⟨by rw [hi]; exact Finmap.lookup_insert .., ho.right⟩
      case isFalse he => 
        obtain ⟨hl, hb⟩ := (h.mem u).mp hu
        exact ⟨by rwa [Finmap.lookup_insert_of_ne _ he], hb⟩
    case mpr =>
      rintro ⟨hl, hb⟩
      by_cases he : u.id = id
      case pos =>
        rw [he, Finmap.lookup_insert] at hl
        refine ⟨t, (h.mem t).mpr ?_, ?_⟩
        case refine_1 => rwa [(hn id t ho.left).left]
        case refine_2 => rw [if_pos (hn id t ho.left).left, Option.some.inj hl]
      case neg =>
        rw [Finmap.lookup_insert_of_ne _ he] at hl
        exact ⟨u, (h.mem u).mpr ⟨hl, hb⟩, if_neg he⟩
  nodup := by
    rw [patched_ids hn ho]
    exact h.nodup

theorem Kept.delete (h : Kept s l) : Kept { s with targets := s.targets.erase id } (l.filter fun u => u.id ≠ id) where
  mem   := by
    intro u
    simp only [List.mem_filter, decide_eq_true_eq, h.mem, Open]
    by_cases he : u.id = id
    case pos =>
      subst he
      simp [Finmap.lookup_erase]
    case neg => simp [he, Finmap.lookup_erase_ne he]
  nodup := h.nodup.sublist (List.filter_sublist.map _)

theorem Kept.answer (h : Kept s l) (hn : s.Numbered) (op : ops.Op) (now : Str) :
    Kept (machine.answer op now s).2 (note l op (machine.answer op now s).1) := by
  have ho := outcome s op now
  generalize machine.answer op now s = r at ho ⊢
  cases ho
  case get id     => cases s.get id <;> exact h
  case created    => exact h.create hn
  case patched ht => exact h.patch hn ht
  case deleted    => exact h.delete
  all_goals exact h

end Steps

section List

variable {init s : Store} {l : List Target} {t : Target}

def rank (t : Target) : Bool ×ₗ Str :=
  toLex (!t.builtin, t.id)

theorem less_iff (a b : Target) : less a b ↔ rank a < rank b :=
  flagged_iff Target.builtin Target.id a b

theorem mem_list : t ∈ s.list ↔ ∃ id, s.targets.lookup id = some t := by
  simp [list, Map.mem_sorted]

theorem list_perm (s : Store) : s.list.Perm s.targets.values := by
  rw [list, Map.sorted, List.filter_true]
  exact List.perm_insertionSort ..

theorem list_pairwise (s : Store) : s.list.Pairwise fun t u => rank t ≤ rank u := by
  have := total_of_rank less_iff
  have := trans_of_rank less_iff
  exact (List.pairwise_insertionSort ..).imp fun h => (not_less_iff less_iff _ _).mp h

theorem values_ids (hn : s.Numbered) : s.targets.values.map (·.id) = s.targets.keyList := by
  rw [Map.values, List.map_filterMap]
  refine (List.filterMap_congr fun k hk => ?_).trans List.filterMap_some
  obtain ⟨t, ht⟩ := Option.isSome_iff_exists.mp (Map.mem_keyList.mp hk)
  rw [ht, Option.map_some, (hn k t ht).left]

theorem list_nodup (hn : s.Numbered) : (s.list.map (·.id)).Nodup := by
  rw [((list_perm s).map _).nodup_iff, values_ids hn]
  exact Map.nodup_keyList _

-- What is built in comes first, and then the others come as they were noted, if and only if these
-- are in the order of their ids.
theorem list_iff (hb : BuiltinsOf init s) (hi : ∀ id t, init.targets.lookup id = some t → t.builtin)
    (hni : init.Numbered) (hn : s.Numbered) (hk : Kept s l) :
    s.list = init.list ++ l ↔ l.Pairwise fun t u => t.id < u.id := by
  have hbuiltin : ∀ t ∈ init.list, t.builtin = true := by
    intro t ht
    obtain ⟨id, hl⟩ := mem_list.mp ht
    exact hi id t hl
  have hcustom : ∀ t ∈ l, t.builtin = false := fun t ht => ((hk.mem t).mp ht).right
  constructor
  case mp  =>
    intro he
    have hp := list_pairwise s
    rw [he] at hp
    have hd : l.Pairwise fun t u => t.id ≠ u.id := List.pairwise_map.mp hk.nodup
    refine ((List.pairwise_append.mp hp).right.left.and hd).imp_of_mem fun ht hu h => ?_
    have hle : rank _ ≤ rank _ := h.left
    rw [rank, rank, hcustom _ ht, hcustom _ hu, Prod.Lex.toLex_le_toLex] at hle
    exact lt_of_le_of_ne (hle.resolve_left (lt_irrefl _)).right h.right
  case mpr =>
    intro hp
    have hmem : ∀ t, t ∈ init.list ++ l ↔ t ∈ s.targets.values := by
      intro t
      rw [List.mem_append, mem_list, hk.mem, Map.mem_values]
      constructor
      case mp  =>
        rintro (⟨id, hl⟩ | ho)
        case inl => exact ⟨id, (hb.lookup (hi id t hl)).mpr hl⟩
        case inr => exact ⟨t.id, ho.left⟩
      case mpr =>
        rintro ⟨id, hl⟩
        by_cases ht : t.builtin
        case pos => exact .inl ⟨id, (hb.lookup ht).mp hl⟩
        case neg =>
          have hid := (hn id t hl).left
          exact .inr ⟨by rwa [hid], by simpa using ht⟩
    have hnd : (init.list ++ l).Nodup := by
      refine List.nodup_append.mpr ⟨(list_nodup hni).of_map _, hk.nodup.of_map _, ?_⟩
      rintro t ht u hu rfl
      cases (hbuiltin t ht).symm.trans (hcustom t hu)
    have hv : s.targets.values.Nodup := by
      refine List.Nodup.of_map (·.id) ?_
      rw [values_ids hn]
      exact Map.nodup_keyList _
    refine (Map.sorted_unique rank less_iff ?_ ?_ ?_).symm
    case refine_1 =>
      intro k k' t u ht hu hr
      have he : t.id = u.id := congrArg (fun r => (ofLex r).2) hr
      rw [(hn k t ht).left, (hn k' u hu).left] at he
      subst he
      exact Option.some.inj (ht.symm.trans hu)
    case refine_2 =>
      rw [List.filter_true]
      exact (List.perm_ext_iff_of_nodup hnd hv).mpr hmem
    case refine_3 =>
      refine List.Pairwise.imp (fun h => (not_less_iff less_iff _ _).mpr h) (List.pairwise_append.mpr
        ⟨list_pairwise init, hp.imp_of_mem fun ht hu h => ?_, fun t ht u hu => ?_⟩)
      case refine_1 =>
        rw [rank, rank, hcustom _ ht, hcustom _ hu, Prod.Lex.toLex_le_toLex]
        exact .inr ⟨rfl, h.le⟩
      case refine_2 =>
        rw [rank, rank, hbuiltin t ht, hcustom u hu, Prod.Lex.toLex_le_toLex]
        exact .inl (show false < true by decide)

end List

-- The targets that are not built in and are left of a run, in the order in which they were created.
def remaining (s : Store) (steps : List (ops.Op × Str)) : List Target :=
  (noted.run (s, []) steps).2

section Runs

variable {init s : Store} {l : List Target} {now : Str}

-- What holds of a store and what was noted beside it.
structure Tracked (init : Store) (c : Store × List Target) : Prop where
  numbered : c.1.Numbered
  builtins : BuiltinsOf init c.1
  kept     : Kept c.1 c.2

theorem Tracked.answer (h : Tracked init (s, l)) (op : ops.Op) (now : Str) :
    Tracked init (noted.answer op now (s, l)).2 :=
  ⟨h.numbered.answer op now, h.builtins.answer h.numbered op now, h.kept.answer h.numbered op now⟩

theorem idFor_lt_iff {m n : Nat} : idFor m < idFor n ↔ decimal m < decimal n := by
  have hs : str "st-" = [115, 116, 45] := by decide
  simp [idFor, hs]

-- The number of a target that is left tells whether a new one comes after it.
theorem before_created (h : Kept s l) (hn : s.Numbered) : (∀ t ∈ l, t.id < idFor (s.nextID + 1)) ↔
    ∀ m t, s.Open (idFor m) t → m ≤ (s.nextID + 1) / 10 ^ ((decimal (s.nextID + 1)).length - (decimal m).length) := by
  have hlt : ∀ m t, s.targets.lookup (idFor m) = some t → m < s.nextID + 1 := by
    intro m t hl
    obtain ⟨-, k, hk, he⟩ := hn _ _ hl
    rw [idFor_inj.mp he]
    exact Nat.lt_succ_of_le hk
  constructor
  case mp  =>
    intro hb m t ho
    have hid := (hn _ t ho.left).left
    have ht := hb t ((h.mem t).mpr (by rwa [hid]))
    rwa [hid, idFor_lt_iff, Strconv.decimal_lt_iff (hlt m t ho.left)] at ht
  case mpr =>
    intro hb t ht
    have ho := (h.mem t).mp ht
    obtain ⟨-, m, -, he⟩ := hn _ t ho.left
    rw [he] at ho ⊢
    rw [idFor_lt_iff, Strconv.decimal_lt_iff (hlt m t ho.left)]
    exact hb m t ho

theorem ordered_answer_iff (h : Tracked init (s, l)) (ho : (l.map (·.id)).Pairwise (· < ·)) (op : ops.Op) (now : Str) :
    ((note l op (machine.answer op now s).1).map (·.id)).Pairwise (· < ·) ↔ Sortable op now s := by
  have hq : (∀ input, op = .create input → ¬s.Accepts input) → Sortable op now s :=
    fun hne input he ha => absurd ha (hne input he)
  have hr := outcome s op now
  generalize machine.answer op now s = r at hr ⊢
  cases hr
  case list       => exact iff_of_true ho (hq (by simp))
  case get id     =>
    refine iff_of_true ?_ (hq (by simp))
    cases s.get id <;> exact ho
  case created input ha =>
    have hs : Sortable (.create input) now s ↔ ∀ t ∈ l, t.id < idFor (s.nextID + 1) := by
      rw [before_created h.kept h.numbered]
      constructor
      case mp  => exact fun hs => hs input rfl ha
      case mpr => exact fun hs _ _ _ => hs
    rw [hs]
    simp [note, List.pairwise_append, ho, made]
  case refused ha => exact iff_of_true ho (hq fun input' hi => by cases hi; exact ha)
  case patched ht =>
    refine iff_of_true ?_ (hq (by simp))
    rw [note, patched_ids h.numbered ht]
    exact ho
  case unpatched  => exact iff_of_true ho (hq (by simp))
  case deleted    => exact iff_of_true (ho.sublist (List.filter_sublist.map _)) (hq (by simp))
  case undeleted  => exact iff_of_true ho (hq (by simp))

-- What is built in comes first and then the others in the order of their creation, if and only if
-- every new target finds only such numbers before it that sort before its own as texts.
theorem list_in_order_iff (registryEndpoint now : Str) (steps : List (ops.Op × Str)) :
    (∀ pre, pre <+: steps → (machine.run (new registryEndpoint now) pre).list =
      (new registryEndpoint now).list ++ remaining (new registryEndpoint now) pre) ↔
      machine.Throughout Sortable (new registryEndpoint now) steps := by
  have hni := new_numbered registryEndpoint now
  have hi : ∀ id t, (new registryEndpoint now).targets.lookup id = some t → t.builtin := by
    intro id t hl
    obtain ⟨rfl, rfl⟩ | hl := Map.lookup_insert_some hl
    case inl => rfl
    case inr =>
      obtain ⟨rfl, rfl⟩ | hl := Map.lookup_insert_some hl
      case inl => rfl
      case inr => cases hl
  have hj : Tracked (new registryEndpoint now) (new registryEndpoint now, []) := by
    refine ⟨hni, fun _ => rfl, ⟨fun t => ?_, List.nodup_nil⟩⟩
    refine iff_of_false (List.not_mem_nil) fun ho => ?_
    cases (hi _ t ho.left).symm.trans ho.right
  have hr : ∀ pre, Tracked (new registryEndpoint now) (noted.run (new registryEndpoint now, []) pre) :=
    noted.invariant_run hj fun op now c h => h.answer op now
  -- The store beside the notes goes as it goes alone.
  have hl : ∀ pre, (noted.run (new registryEndpoint now, []) pre).1 = machine.run (new registryEndpoint now) pre :=
    Machine.logged_run_fst
  have hs : ∀ pre, (machine.run (new registryEndpoint now) pre).list =
        (new registryEndpoint now).list ++ remaining (new registryEndpoint now) pre ↔
      ((noted.run (new registryEndpoint now, []) pre).2.map (·.id)).Pairwise (· < ·) := by
    intro pre
    rw [← hl, List.pairwise_map]
    exact list_iff (hr pre).builtins hi hni (hr pre).numbered (hr pre).kept
  calc
    _ ↔ ∀ pre, pre <+: steps → ((noted.run (new registryEndpoint now, []) pre).2.map (·.id)).Pairwise (· < ·) :=
      forall_congr' fun pre => imp_congr_right fun _ => hs pre
    _ ↔ noted.Throughout (fun op now c => Sortable op now c.1) (new registryEndpoint now, []) steps :=
      Machine.invariant_iff (I := fun c => (c.2.map (·.id)).Pairwise (· < ·)) hj List.Pairwise.nil
        (fun op now c h => h.answer op now) (fun op now c h ho => ordered_answer_iff h ho op now) steps
    _ ↔ machine.Throughout Sortable (new registryEndpoint now) steps := Machine.logged_throughout steps

section Example

-- Eight claims, with the numbers from 3 to 10.
def eightClaims : List (ops.Op × Str) :=
  (List.range 8).map fun n =>
    (.create ⟨str "claim-" ++ decimal n, .kindPVC, [], [], []⟩, str "2024-01-01T00:00:00Z")

theorem tenth_before_third : ¬∀ (registryEndpoint now : Str) (steps : List (ops.Op × Str)) (pre : List (ops.Op × Str)),
    pre <+: steps → (machine.run (new registryEndpoint now) pre).list =
      (new registryEndpoint now).list ++ remaining (new registryEndpoint now) pre := by
  intro h
  have he := congrArg (List.map (·.id)) (h [] [] eightClaims eightClaims (List.prefix_refl _))
  revert he
  decide +kernel

end Example
end Runs
end Store
end Storage
