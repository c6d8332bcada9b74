import Mathlib.Data.List.Dedup
import Mathlib.Data.List.Induction

-- Flat texts that are shown as a hierarchy, in which a delimiter ends the name of a folder.
namespace Delimited

variable {α : Type} [DecidableEq α]

-- What stands before the first delimiter, with the delimiter.
def head (d : α) : List α → Option (List α)
  | []     => none
  | a :: s => if a = d then some [a] else (head d s).map (a :: ·)

-- The folder in `p` that a text is in.
def folder (d : α) (p k : List α) : Option (List α) :=
  if p.isPrefixOf k then (head d (k.drop p.length)).map (p ++ ·) else none

def folders (d : α) (p : List α) (ks : List (List α)) : List (List α) :=
  (ks.filterMap (folder d p)).dedup

-- The texts that are in `p` and in no folder of it.
def files (d : α) (p : List α) (ks : List (List α)) : List (List α) :=
  ks.filter fun k => p.isPrefixOf k && (head d (k.drop p.length)).isNone

-- The folders that one goes through from `p` on, by what follows `p`.
def path (d : α) (p : List α) : List α → List (List α)
  | []     => []
  | a :: s => if a = d then (p ++ [a]) :: path d (p ++ [a]) s else path d (p ++ [a]) s

-- Where one is after some folders, each of which stands in the one before.
def enter (d : α) (ks : List (List α)) (p : List α) : List (List α) → Option (List α)
  | []      => some p
  | f :: fs => if f ∈ folders d p ks then enter d ks f fs else none

-- The folder that a text stands in.
def parent (d : α) (k : List α) : List α :=
  (k.reverse.dropWhile (· ≠ d)).reverse

-- The root, and what ends in a delimiter.
def IsFolder (d : α) (p : List α) : Prop :=
  p = [] ∨ ∃ u, p = u ++ [d]

def join (d : α) (ws : List (List α)) : List α :=
  ws.flatMap (· ++ [d])

-- The names in a text, without those that are empty.
def names (d : α) (s : List α) : List (List α) :=
  (s.splitOn d).filter (· ≠ [])

variable {d : α} {k p f s u t : List α} {ks fs ws : List (List α)}

omit [DecidableEq α] in
theorem join_cons (d : α) (w : List α) (ws : List (List α)) : join d (w :: ws) = w ++ d :: join d ws := by
  simp [join]

theorem head_none (h : d ∉ s) : head d s = none := by
  induction s
  case nil         => rfl
  case cons a s hi =>
    rw [List.mem_cons, not_or] at h
    rw [head, if_neg (Ne.symm h.left), hi h.right, Option.map_none]

theorem head_some (h : d ∉ u) : head d (u ++ d :: t) = some (u ++ [d]) := by
  induction u
  case nil         => simp [head]
  case cons a u hi =>
    rw [List.mem_cons, not_or] at h
    rw [List.cons_append, head, if_neg (Ne.symm h.left), hi h.right, Option.map_some, List.cons_append]

theorem path_nil (h : d ∉ s) : path d p s = [] := by
  induction s generalizing p
  case nil         => rfl
  case cons a s hi =>
    rw [List.mem_cons, not_or] at h
    rw [path, if_neg (Ne.symm h.left), hi h.right]

theorem path_cons (h : d ∉ u) : path d p (u ++ d :: t) = (p ++ u ++ [d]) :: path d (p ++ u ++ [d]) t := by
  induction u generalizing p
  case nil         => simp [path]
  case cons a u hi =>
    rw [List.mem_cons, not_or] at h
    rw [List.cons_append, path, if_neg (Ne.symm h.left), hi h.right, List.append_assoc p [a], List.singleton_append]

-- A text goes on in a folder, or it ends with a name.
theorem name_or_folder (d : α) (s : List α) : d ∉ s ∨ ∃ u t, d ∉ u ∧ s = u ++ d :: t := by
  by_cases h : d ∈ s
  case neg => exact .inl h
  case pos =>
    have ⟨u, t, hs, hu⟩ := List.eq_append_cons_of_mem h
    exact .inr ⟨u, t, hu, hs⟩

theorem folder_iff : folder d p k = some f ↔ ∃ u t, d ∉ u ∧ f = p ++ u ++ [d] ∧ k = f ++ t := by
  constructor
  case mp =>
    intro h
    unfold folder at h
    split at h
    case isFalse   => cases h
    case isTrue hp =>
      have ⟨s, hs⟩ := List.isPrefixOf_iff_prefix.mp hp
      subst hs
      rw [List.drop_left] at h
      rcases name_or_folder d s with hd | ⟨u, t, hu, rfl⟩
      · rw [head_none hd] at h
        cases h
      · rw [head_some hu, Option.map_some, Option.some.injEq] at h
        exact ⟨u, t, hu, by rw [← h, List.append_assoc], by simp [← h]⟩
  case mpr =>
    rintro ⟨u, t, hu, rfl, rfl⟩
    have hk : p ++ u ++ [d] ++ t = p ++ (u ++ d :: t) := by simp
    rw [folder, hk, if_pos (List.isPrefixOf_iff_prefix.mpr (List.prefix_append ..)), List.drop_left, head_some hu,
      Option.map_some, List.append_assoc]

theorem mem_folders : f ∈ folders d p ks ↔ ∃ u t, d ∉ u ∧ f = p ++ u ++ [d] ∧ f ++ t ∈ ks := by
  simp only [folders, List.mem_dedup, List.mem_filterMap, folder_iff]
  constructor
  case mp  => exact fun ⟨k, hk, u, t, hu, hf, he⟩ => ⟨u, t, hu, hf, he ▸ hk⟩
  case mpr => exact fun ⟨u, t, hu, hf, hk⟩ => ⟨f ++ t, hk, u, t, hu, hf, rfl⟩

theorem mem_files : k ∈ files d p ks ↔ k ∈ ks ∧ ∃ s, d ∉ s ∧ k = p ++ s := by
  simp only [files, List.mem_filter, Bool.and_eq_true, List.isPrefixOf_iff_prefix]
  refine and_congr_right fun _ => ?_
  constructor
  case mp =>
    rintro ⟨⟨s, rfl⟩, hn⟩
    rw [List.drop_left] at hn
    rcases name_or_folder d s with hd | ⟨u, t, hu, rfl⟩
    · exact ⟨s, hd, rfl⟩
    · rw [head_some hu] at hn
      cases hn
  case mpr =>
    rintro ⟨s, hs, rfl⟩
    rw [List.drop_left, head_none hs]
    exact ⟨List.prefix_append .., rfl⟩

theorem folders_nodup (d : α) (p : List α) (ks : List (List α)) : (folders d p ks).Nodup :=
  List.nodup_dedup _

-- No text is shown both as a folder and as a file.
theorem folders_files_disjoint (hf : f ∈ folders d p ks) : f ∉ files d p ks := by
  intro h
  have ⟨u, _, _, he, _⟩ := mem_folders.mp hf
  have ⟨_, s, hs, he'⟩ := mem_files.mp h
  rw [he, List.append_assoc] at he'
  exact hs (List.append_cancel_left he' ▸ List.mem_append_right _ (List.mem_singleton_self d))

-- From anywhere there is one way to a text, and it goes through the folders that the text names.
theorem enter_iff : (∃ q, enter d ks p fs = some q ∧ k ∈ files d q ks) ↔ k ∈ ks ∧ ∃ s, k = p ++ s ∧ fs = path d p s := by
  induction fs generalizing p
  case nil =>
    simp only [enter, Option.some.injEq, exists_eq_left', mem_files]
    refine and_congr_right fun _ => exists_congr fun s => ?_
    rw [and_comm]
    refine and_congr_right fun _ => ?_
    rcases name_or_folder d s with hd | ⟨u, t, hu, rfl⟩
    · simp [hd, path_nil hd]
    · simp [path_cons hu]
  case cons f fs hi =>
    rw [enter]
    constructor
    case mp =>
      rintro ⟨q, hq, hk⟩
      split at hq
      case isFalse    => cases hq
      case isTrue hf =>
        have ⟨u, t, hu, hfe, _⟩ := mem_folders.mp hf
        have ⟨hks, s, hs, hfs⟩ := hi.mp ⟨q, hq, hk⟩
        refine ⟨hks, u ++ d :: s, by rw [hs, hfe]; simp, ?_⟩
        rw [path_cons hu, ← hfe, hfs]
    case mpr =>
      rintro ⟨hk, s, hs, hfs⟩
      rcases name_or_folder d s with hd | ⟨u, t, hu, rfl⟩
      · rw [path_nil hd] at hfs
        cases hfs
      · rw [path_cons hu] at hfs
        obtain ⟨rfl, rfl⟩ := List.cons.inj hfs
        have hks : k = p ++ u ++ [d] ++ t := by rw [hs]; simp
        rw [if_pos (mem_folders.mpr ⟨u, t, hu, rfl, hks ▸ hk⟩)]
        exact hi.mpr ⟨hk, t, hks, rfl⟩

-- The folders that were entered are told by where one is.
theorem path_of_enter {q : List α} (h : enter d ks p fs = some q) :
    ∃ ws, (∀ w ∈ ws, d ∉ w) ∧ q = p ++ join d ws ∧ fs = path d p (join d ws) := by
  induction fs generalizing p
  case nil =>
    cases h
    exact ⟨[], by simp, by simp [join], rfl⟩
  case cons f fs hi =>
    rw [enter] at h
    split at h
    case isFalse   => cases h
    case isTrue hf =>
      have ⟨u, t, hu, hfe, _⟩ := mem_folders.mp hf
      have ⟨ws, hws, hq, hfs⟩ := hi h
      refine ⟨u :: ws, List.forall_mem_cons.mpr ⟨hu, hws⟩, ?_, ?_⟩
      · rw [join_cons, hq, hfe]
        simp
      · rw [join_cons, path_cons hu, ← hfe, hfs]

theorem path_join (hw : ∀ w ∈ ws, d ∉ w) : path d p (join d ws) =
    (List.range ws.length).map fun i => p ++ join d (ws.take (i + 1)) := by
  induction ws generalizing p
  case nil          => rfl
  case cons w ws hi =>
    rw [List.forall_mem_cons] at hw
    rw [join_cons, path_cons hw.left, hi hw.right, List.length_cons, List.range_succ_eq_map, List.map_cons, List.map_map]
    congr 1
    · simp [join]
    · refine List.map_congr_left fun i _ => ?_
      simp [join]

theorem parent_append (hs : d ∉ s) (hp : IsFolder d p) : parent d (p ++ s) = p := by
  have hd : ∀ a ∈ s.reverse, decide (a ≠ d) = true := by
    intro a ha
    exact decide_eq_true fun he => hs (List.mem_reverse.mp (he ▸ ha))
  rw [parent, List.reverse_append, List.dropWhile_append_of_pos hd]
  rcases hp with rfl | ⟨u, rfl⟩
  · rfl
  · simp

theorem parent_spec (d : α) (k : List α) : IsFolder d (parent d k) ∧ ∃ s, d ∉ s ∧ k = parent d k ++ s := by
  have ⟨p, s, hp, hs, hk⟩ : ∃ p s, IsFolder d p ∧ d ∉ s ∧ k = p ++ s := by
    by_cases h : d ∈ k.reverse
    case neg => exact ⟨[], k, .inl rfl, fun hk => h (List.mem_reverse.mpr hk), rfl⟩
    case pos =>
      have ⟨s, u, hu, hs⟩ := List.eq_append_cons_of_mem h
      refine ⟨u.reverse ++ [d], s.reverse, .inr ⟨u.reverse, rfl⟩, fun hm => hs (List.mem_reverse.mp hm), ?_⟩
      rw [← List.reverse_inj, hu]
      simp
  have he : parent d k = p := hk ▸ parent_append hs hp
  rw [he]
  exact ⟨hp, s, hs, hk⟩

-- In a folder stand the texts whose folder it is.
theorem mem_files_iff (hp : IsFolder d p) : k ∈ files d p ks ↔ k ∈ ks ∧ parent d k = p := by
  rw [mem_files]
  refine and_congr_right fun _ => ?_
  constructor
  case mp =>
    rintro ⟨s, hs, rfl⟩
    exact parent_append hs hp
  case mpr =>
    rintro rfl
    exact (parent_spec d k).right

theorem names_append (d : α) (s t : List α) : names d (s ++ d :: t) = names d s ++ names d t := by
  rw [names, List.splitOn_append_cons_self, List.filter_append]
  rfl

theorem names_join (hw : ∀ w ∈ ws, d ∉ w) : names d (join d ws) = ws.filter (· ≠ []) := by
  induction ws
  case nil          => rfl
  case cons w ws hi =>
    rw [List.forall_mem_cons] at hw
    rw [join_cons, names_append, hi hw.right, names, List.splitOn_eq_singleton hw.left, ← List.filter_append]
    rfl

theorem names_dropWhile (d : α) (s : List α) : names d (s.dropWhile (· == d)) = names d s := by
  induction s
  case nil         => rfl
  case cons a s hi =>
    by_cases h : a = d
    case neg => rw [List.dropWhile_cons_of_neg (by simpa using h)]
    case pos =>
      subst h
      rw [List.dropWhile_cons_of_pos (p := (· == a)) (beq_self_eq_true a), hi]
      exact (names_append a [] s).symm

theorem names_dropWhile_reverse (d : α) (s : List α) :
    names d (s.reverse.dropWhile (· == d)).reverse = names d s := by
  induction s using List.reverseRecOn
  case nil                      => rfl
  case append_singleton s a hi =>
    rw [List.reverse_append, List.reverse_singleton, List.singleton_append]
    by_cases h : a = d
    case neg => rw [List.dropWhile_cons_of_neg (by simpa using h), List.reverse_cons, List.reverse_reverse]
    case pos =>
      subst h
      rw [List.dropWhile_cons_of_pos (p := (· == a)) (beq_self_eq_true a), hi, names_append]
      exact (List.append_nil _).symm

-- Joined with delimiters between them, and one behind.
omit [DecidableEq α] in
theorem join_eq (h : ws ≠ []) : [d].intercalate ws ++ [d] = join d ws := by
  induction ws
  case nil          => cases h rfl
  case cons w ws hi =>
    cases ws
    case nil        => simp [join]
    case cons v ws' =>
      rw [join_cons, ← hi (by simp)]
      simp [List.intercalate]

-- A name is empty where two delimiters follow each other.
omit [DecidableEq α] in
theorem doubled_iff (hw : ∀ w ∈ ws, d ∉ w) : [d, d] <:+: d :: join d ws ↔ [] ∈ ws := by
  induction ws
  case nil          => simp [join, List.infix_cons_iff]
  case cons w ws hi =>
    rw [List.forall_mem_cons] at hw
    have hi := hi hw.right
    rw [join_cons, List.mem_cons]
    cases w
    case nil      => simp [List.infix_cons_iff, List.prefix_cons_iff]
    case cons a w =>
      have hp : ∀ u : List α, d ∉ u → ([d, d] <:+: u ++ d :: join d ws ↔ [d, d] <:+: d :: join d ws) := by
        intro u hu
        induction u
        case nil          => rfl
        case cons b u hiu =>
          rw [List.mem_cons, not_or] at hu
          rw [List.cons_append, List.infix_cons_iff, hiu hu.right, or_iff_right]
          exact fun h => hu.left (List.cons_prefix_cons.mp h).left
      have ha : d ≠ a := fun he => hw.left (he ▸ List.mem_cons_self ..)
      rw [List.infix_cons_iff, hp _ hw.left, hi]
      simp [List.cons_prefix_cons, ha]

end Delimited
