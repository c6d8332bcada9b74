import Knaic.Go.Url

-- Paths as the packages path and path/filepath treat them where the separator is a slash.
namespace Go.Path

def dot : Str :=
  str "."

def dotdot : Str :=
  str ".."

-- The elements of a path that `Clean` looks at.
def elements (p : Str) : List Str :=
  (Url.segments p).filter fun w => w ≠ [] ∧ w ≠ dot

-- The elements so far, the last of them in front, and one more.
def push (rooted : Bool) (stack : List Str) (w : Str) : List Str :=
  if w = dotdot then
    match stack with
    | []     => if rooted then [] else [dotdot]
    | t :: s => if t = dotdot then dotdot :: stack else s
  else
    w :: stack

def reduce (rooted : Bool) (ws : List Str) : List Str :=
  (ws.foldl (push rooted) []).reverse

def isRooted (p : Str) : Bool :=
  p.head? = some Url.slash

def spell (rooted : Bool) (ws : List Str) : Str :=
  if rooted then Url.slash :: Url.join ws else if ws = [] then dot else Url.join ws

def clean (p : Str) : Str :=
  spell (isRooted p) (reduce (isRooted p) (elements p))

-- `filepath.Join` of two paths.
def join (a b : Str) : Str :=
  if a ≠ [] then clean (a ++ Url.slash :: b) else if b ≠ [] then clean b else []

-- `filepath.Split`.
def split (p : Str) : Str × Str :=
  ((p.reverse.dropWhile (· ≠ Url.slash)).reverse, (p.reverse.takeWhile (· ≠ Url.slash)).reverse)

-- What is left of two lists without what they begin with in common.
def apart : List Str → List Str → List Str × List Str
  | b :: bs, t :: ts => if b = t then apart bs ts else (b :: bs, t :: ts)
  | bs, ts           => (bs, ts)

-- `filepath.Rel`, where an error is none.
def rel (base targ : Str) : Option Str :=
  let base := clean base
  let targ := clean targ
  if targ = base then
    some dot
  else if isRooted base ≠ isRooted targ then
    none
  else
    match apart (elements base) ((Url.segments targ).filter (· ≠ [])) with
    | ([], ts)      => some (Url.join ts)
    | (b :: bs, ts) => if b = dotdot then none else some (Url.join ((b :: bs).map (fun _ => dotdot) ++ ts))

-- An element that stands for something below.
structure Name (w : Str) : Prop where
  nonempty : w ≠ []
  whole    : Url.slash ∉ w
  notHere  : w ≠ dot
  notUp    : w ≠ dotdot

-- The elements of a clean path: all ways up are in front, and there is none from the root.
def Reduced (rooted : Bool) (ws : List Str) : Prop :=
  ∃ n names, ws = List.replicate n dotdot ++ names ∧ (∀ w ∈ names, Name w) ∧ (rooted → n = 0)

variable {rooted : Bool} {ws vs : List Str} {w p a : Str}

section Elements

-- What `Clean` looks at.
structure Element (w : Str) : Prop where
  nonempty : w ≠ []
  whole    : Url.slash ∉ w
  notHere  : w ≠ dot

theorem Name.element (h : Name w) : Element w :=
  ⟨h.nonempty, h.whole, h.notHere⟩

theorem element_dotdot : Element dotdot :=
  ⟨by decide, by decide, by decide⟩

theorem element_of_mem (h : w ∈ elements p) : Element w := by
  have ⟨hm, hf⟩ := List.mem_filter.mp h
  have ⟨hn, hd⟩ := of_decide_eq_true hf
  exact ⟨hn, Url.slash_not_mem_segments hm, hd⟩

theorem elements_append_slash (p q : Str) : elements (p ++ Url.slash :: q) = elements p ++ elements q := by
  rw [elements, Url.segments_append_slash, List.filter_append, elements, elements]

theorem elements_nil : elements [] = [] := by
  decide

theorem elements_slash (p : Str) : elements (Url.slash :: p) = elements p := by
  have h := elements_append_slash [] p
  rwa [elements_nil] at h

theorem elements_join (h : ∀ w ∈ ws, Element w) : elements (Url.join ws) = ws := by
  cases ws
  case nil       => exact elements_nil
  case cons w ws =>
    rw [elements, Url.segments_join (fun w hw => (h w hw).whole) (List.cons_ne_nil _ _)]
    refine List.filter_eq_self.mpr fun w hw => ?_
    simpa using ⟨(h w hw).nonempty, (h w hw).notHere⟩

theorem elements_spell (h : ∀ w ∈ ws, Element w) : elements (spell rooted ws) = ws := by
  cases rooted
  case true  => exact (elements_slash _).trans (elements_join h)
  case false =>
    cases ws
    case nil  => decide
    case cons => exact elements_join h

theorem isRooted_join (h : ∀ w ∈ ws, Element w) : isRooted (Url.join ws) = false := by
  cases ws
  case nil       => rfl
  case cons w ws =>
    have hw := h w (.head _)
    cases w
    case nil      => exact absurd rfl hw.nonempty
    case cons b w =>
      have hb : Url.slash ≠ b := fun he => hw.whole (he ▸ .head _)
      cases ws <;> simp [isRooted, Url.join, List.intercalate, List.intersperse, hb.symm]

theorem isRooted_spell (h : ∀ w ∈ ws, Element w) : isRooted (spell rooted ws) = rooted := by
  cases rooted
  case true  => rfl
  case false =>
    cases ws
    case nil  => decide
    case cons => exact isRooted_join h

end Elements

section Reduce

theorem Reduced.element (h : Reduced rooted ws) : ∀ w ∈ ws, Element w := by
  obtain ⟨n, names, rfl, hn, _⟩ := h
  refine List.forall_mem_append.mpr ⟨fun w hw => ?_, fun w hw => (hn w hw).element⟩
  exact List.eq_of_mem_replicate hw ▸ element_dotdot

theorem Reduced.append (h : Reduced rooted ws) (hv : ∀ v ∈ vs, Name v) : Reduced rooted (ws ++ vs) := by
  obtain ⟨n, names, rfl, hn, hr⟩ := h
  exact ⟨n, names ++ vs, List.append_assoc .., List.forall_mem_append.mpr ⟨hn, hv⟩, hr⟩

-- The elements in front of the stack.
theorem push_names (h : ∀ w ∈ vs, Name w) (stack : List Str) : vs.foldl (push rooted) stack = vs.reverse ++ stack := by
  induction vs generalizing stack
  case nil          => rfl
  case cons v vs hi =>
    have hp : push rooted stack v = v :: stack := if_neg (h v (.head _)).notUp
    rw [List.foldl_cons, hp, hi fun w hw => h w (.tail _ hw), List.reverse_cons, List.append_assoc, List.singleton_append]

theorem push_up (n : Nat) : push rooted (List.replicate (n + 1) dotdot) dotdot = List.replicate (n + 2) dotdot := by
  simp only [push, List.replicate_succ, if_true]

theorem push_ups (n : Nat) (hr : rooted → n = 0) : (List.replicate n dotdot).foldl (push rooted) [] = List.replicate n dotdot := by
  cases rooted
  case true  => rw [hr rfl, List.replicate_zero, List.foldl_nil]
  case false =>
    induction n
    case zero      => rfl
    case succ n hi =>
      rw [List.replicate_succ', List.foldl_append, hi (fun h => by cases h), List.foldl_cons, List.foldl_nil,
        ← List.replicate_succ']
      cases n
      case zero   => rfl
      case succ n => exact push_up n

theorem reduce_append (h : ∀ w ∈ vs, Name w) : reduce rooted (ws ++ vs) = reduce rooted ws ++ vs := by
  rw [reduce, List.foldl_append, push_names h, List.reverse_append, List.reverse_reverse, reduce]

theorem Reduced.reduce (h : Reduced rooted ws) : reduce rooted ws = ws := by
  obtain ⟨n, names, rfl, hn, hr⟩ := h
  rw [reduce_append hn, Path.reduce, push_ups n hr, List.reverse_replicate]

-- One more element leaves the stack as that of a clean path.
theorem Reduced.push {stack : List Str} (h : Reduced rooted stack.reverse) (hw : Element w) :
    Reduced rooted (push rooted stack w).reverse := by
  obtain ⟨n, names, he, hn, hr⟩ := h
  by_cases hu : w = dotdot
  case neg =>
    have hp : Path.push rooted stack w = w :: stack := if_neg hu
    refine ⟨n, names ++ [w], ?_, ?_, hr⟩
    · rw [hp, List.reverse_cons, he, List.append_assoc]
    · exact List.forall_mem_append.mpr ⟨hn, List.forall_mem_singleton.mpr ⟨hw.nonempty, hw.whole, hw.notHere, hu⟩⟩
  case pos =>
    subst hu
    have hs : stack = names.reverse ++ List.replicate n dotdot := by
      rw [← List.reverse_reverse stack, he, List.reverse_append, List.reverse_replicate]
    rcases names.eq_nil_or_concat with rfl | ⟨init, t, rfl⟩
    case inl =>
      cases n
      case zero   =>
        cases rooted
        case true  => exact ⟨0, [], by subst hs; rfl, List.forall_mem_nil _, fun _ => rfl⟩
        case false => exact ⟨1, [], by subst hs; rfl, List.forall_mem_nil _, fun h => by cases h⟩
      case succ n =>
        refine ⟨n + 2, [], ?_, List.forall_mem_nil _, fun h => absurd (hr h) (Nat.succ_ne_zero n)⟩
        rw [hs, List.reverse_nil, List.nil_append, push_up, List.reverse_replicate, List.append_nil]
    case inr =>
      have ht : t ≠ dotdot := (hn t (by simp)).notUp
      refine ⟨n, init, ?_, fun w hw => hn w (by simp [hw]), hr⟩
      subst hs
      simp [Path.push, ht]

theorem reduced_reduce (h : ∀ w ∈ ws, Element w) : Reduced rooted (reduce rooted ws) := by
  have run (stack : List Str) (hs : Reduced rooted stack.reverse) : Reduced rooted (ws.foldl (push rooted) stack).reverse := by
    induction ws generalizing stack
    case nil          => exact hs
    case cons w ws hi => exact hi (fun v hv => h v (.tail _ hv)) _ (hs.push (h w (.head _)))
  exact run [] ⟨0, [], rfl, List.forall_mem_nil _, fun _ => rfl⟩

end Reduce

section Clean

theorem reduced_clean (p : Str) : Reduced (isRooted p) (reduce (isRooted p) (elements p)) :=
  reduced_reduce fun _ hw => element_of_mem hw

theorem clean_spell (h : Reduced rooted ws) : clean (spell rooted ws) = spell rooted ws := by
  rw [clean, isRooted_spell h.element, elements_spell h.element, h.reduce]

theorem join_elements (ha : a ≠ []) (b : Str) :
    join a b = spell (isRooted a) (reduce (isRooted a) (elements a ++ elements b)) := by
  have hr : isRooted (a ++ Url.slash :: b) = isRooted a := by
    cases a
    case nil  => exact absurd rfl ha
    case cons => rfl
  rw [join, if_pos ha, clean, hr, elements_append_slash]

-- Names that are joined to a path are below it.
theorem join_names (ha : a ≠ []) (h : ∀ w ∈ vs, Name w) :
    join a (Url.join vs) = spell (isRooted a) (reduce (isRooted a) (elements a) ++ vs) := by
  rw [join_elements ha, elements_join fun w hw => (h w hw).element, reduce_append h]

theorem clean_rooted (p : Str) : clean (Url.slash :: p) = Url.slash :: Url.join (reduce true (elements p)) := by
  have hr : isRooted (Url.slash :: p) = true := rfl
  rw [clean, hr, elements_slash]
  rfl

theorem clean_slash_join (h : ∀ w ∈ ws, Name w) : clean (Url.slash :: Url.join ws) = Url.slash :: Url.join ws := by
  have hr : Reduced true ws := ⟨0, ws, rfl, h, fun _ => rfl⟩
  exact clean_spell hr

-- From the root there is nowhere to go but down.
theorem names_rooted (p : Str) : ∀ w ∈ reduce true (elements p), Name w := by
  obtain ⟨n, names, he, hn, hr⟩ : Reduced true (reduce true (elements p)) := reduced_reduce fun _ hw => element_of_mem hw
  rw [hr rfl] at he
  exact he ▸ hn

end Clean

section Split

-- A directory may be given by nothing at all.
theorem join_dir (d b : Str) : join (if d = [] then dot else d) b =
    spell (isRooted d) (reduce (isRooted d) (elements d ++ elements b)) := by
  by_cases hd : d = []
  case neg => rw [if_neg hd, join_elements hd]
  case pos =>
    have he : elements dot = elements d := by
      subst hd
      decide
    have hr : isRooted dot = isRooted d := by
      subst hd
      decide
    rw [if_pos hd, join_elements (by decide), he, hr]

theorem split_slash (d : Str) (hw : Url.slash ∉ w) : split (d ++ Url.slash :: w) = (d ++ [Url.slash], w) := by
  have hp : ∀ b ∈ w.reverse, (decide (b ≠ Url.slash)) = true := by
    intro b hb
    exact decide_eq_true fun he => hw (he ▸ List.mem_reverse.mp hb)
  have hr : (d ++ Url.slash :: w).reverse = w.reverse ++ Url.slash :: d.reverse := by simp
  rw [split, hr, List.takeWhile_append_of_pos hp, List.dropWhile_append_of_pos hp]
  simp

theorem split_whole (hw : Url.slash ∉ w) : split w = ([], w) := by
  have hp : ∀ b ∈ w.reverse, (decide (b ≠ Url.slash)) = true := by
    intro b hb
    exact decide_eq_true fun he => hw (he ▸ List.mem_reverse.mp hb)
  rw [split, ← List.append_nil w.reverse, List.takeWhile_append_of_pos hp, List.dropWhile_append_of_pos hp]
  simp

theorem join_singleton (w : Str) : Url.join [w] = w :=
  List.intercalate_singleton

theorem join_cons_cons (v u : Str) (ws : List Str) :
    Url.join (v :: u :: ws) = v ++ Url.slash :: Url.join (u :: ws) := by
  rw [Url.join, List.intercalate_cons_cons, List.append_assoc]
  rfl

theorem join_concat (hn : ws ≠ []) (w : Str) : Url.join (ws ++ [w]) = Url.join ws ++ Url.slash :: w := by
  induction ws
  case nil          => exact absurd rfl hn
  case cons v ws hi =>
    cases ws
    case nil       =>
      rw [List.singleton_append, join_cons_cons, join_singleton, join_singleton]
    case cons u us =>
      have hu := hi (List.cons_ne_nil u us)
      rw [List.cons_append, List.cons_append, join_cons_cons, join_cons_cons, List.append_assoc, ← List.cons_append, hu]
      rfl

theorem slash_join_concat (ws : List Str) (w : Str) :
    ∃ d, Url.slash :: Url.join (ws ++ [w]) = d ++ Url.slash :: w := by
  by_cases hn : ws = []
  case pos =>
    subst hn
    exact ⟨[], congrArg (Url.slash :: ·) (join_singleton w)⟩
  case neg => exact ⟨Url.slash :: Url.join ws, congrArg (Url.slash :: ·) (join_concat hn w)⟩

-- The directory of a clean path has all elements but the last.
theorem split_spell (h : ∀ w ∈ ws, Element w) (hw : Element w) : (split (spell rooted (ws ++ [w]))).2 = w ∧
    elements (split (spell rooted (ws ++ [w]))).1 = ws ∧ isRooted (split (spell rooted (ws ++ [w]))).1 = rooted := by
  have hv : ∀ v ∈ ws ++ [w], Element v := List.forall_mem_append.mpr ⟨h, List.forall_mem_singleton.mpr hw⟩
  have hs : (∃ d, spell rooted (ws ++ [w]) = d ++ Url.slash :: w) ∨ spell rooted (ws ++ [w]) = w ∧ ws = [] ∧ rooted = false := by
    cases rooted
    case true  => exact .inl (slash_join_concat ws w)
    case false =>
      by_cases hn : ws = []
      case pos =>
        subst hn
        exact .inr ⟨join_singleton w, rfl, rfl⟩
      case neg =>
        have hc : ws ++ [w] ≠ [] := by simp
        exact .inl ⟨Url.join ws, (if_neg hc).trans (join_concat hn w)⟩
  have he : elements (spell rooted (ws ++ [w])) = ws ++ [w] := elements_spell hv
  have hr : isRooted (spell rooted (ws ++ [w])) = rooted := isRooted_spell hv
  obtain ⟨d, hd⟩ | ⟨hd, rfl, rfl⟩ := hs
  case inr =>
    rw [hd, split_whole hw.whole]
    exact ⟨rfl, elements_nil, rfl⟩
  case inl =>
    have hj : elements w = [w] := by
      have hj := elements_join (List.forall_mem_singleton.mpr hw)
      rwa [join_singleton] at hj
    rw [hd, elements_append_slash, hj] at he
    rw [hd] at hr
    rw [hd, split_slash d hw.whole]
    refine ⟨rfl, ?_, ?_⟩
    · rw [elements_append_slash, elements_nil, List.append_nil]
      exact List.append_cancel_right he
    · cases d
      case nil  => exact hr
      case cons => exact hr

-- What a path ends in after its last slash.
theorem hasSuffix_slash_join (h : ∀ v ∈ ws, Element v) (hn : ws ≠ []) (hw : Url.slash ∉ w) :
    Str.hasSuffix (Url.slash :: Url.join ws) (Url.slash :: w) ↔ ws.getLast hn = w := by
  rw [Str.hasSuffix, List.isSuffixOf_iff_suffix]
  constructor
  case mp =>
    intro ⟨d, hd⟩
    have hs : (split (spell true (ws.dropLast ++ [ws.getLast hn]))).2 = ws.getLast hn :=
      (split_spell (fun v hv => h v (List.dropLast_subset _ hv)) (h _ (List.getLast_mem hn))).left
    rw [List.dropLast_concat_getLast hn, spell, if_pos rfl, ← hd, split_slash d hw] at hs
    exact hs.symm
  case mpr =>
    intro hl
    obtain ⟨d, hd⟩ := slash_join_concat ws.dropLast (ws.getLast hn)
    rw [List.dropLast_concat_getLast hn, hl] at hd
    exact ⟨d, hd.symm⟩

end Split

section Rel

theorem apart_append (ws vs : List Str) : apart ws (ws ++ vs) = ([], vs) := by
  induction ws
  case nil          => cases vs <;> rfl
  case cons w ws hi =>
    rw [List.cons_append, apart, if_pos rfl]
    exact hi

theorem segments_spell (h : ∀ w ∈ ws, Element w) (hn : ws ≠ []) : (Url.segments (spell rooted ws)).filter (· ≠ []) = ws := by
  have hs : (Url.segments (Url.join ws)).filter (· ≠ []) = ws := by
    rw [Url.segments_join (fun w hw => (h w hw).whole) hn]
    exact List.filter_eq_self.mpr fun w hw => decide_eq_true (h w hw).nonempty
  cases rooted
  case true  =>
    rw [spell, if_pos rfl, Url.segments_slash]
    exact hs
  case false =>
    rw [spell, if_neg Bool.false_ne_true, if_neg hn]
    exact hs

-- The way back from what is joined is what was joined.
theorem rel_join (ha : a ≠ []) (h : ∀ w ∈ vs, Name w) :
    rel a (join a (Url.join vs)) = some (if vs = [] then dot else Url.join vs) := by
  have hb : Reduced (isRooted a) (reduce (isRooted a) (elements a)) := reduced_clean a
  have hv : Reduced (isRooted a) (reduce (isRooted a) (elements a) ++ vs) := hb.append h
  rw [join_names ha h, rel, clean_spell hv]
  cases vs
  case nil       =>
    rw [List.append_nil]
    exact if_pos rfl
  case cons v vs =>
    have hn : spell (isRooted a) (reduce (isRooted a) (elements a) ++ v :: vs) ≠ clean a := by
      intro he
      have he := congrArg elements he
      rw [clean, elements_spell hv.element, elements_spell hb.element] at he
      exact List.cons_ne_nil v vs (List.self_eq_append_right.mp he.symm)
    have hr : ¬isRooted (clean a) ≠ isRooted (spell (isRooted a) (reduce (isRooted a) (elements a) ++ v :: vs)) := by
      rw [isRooted_spell hv.element, clean, isRooted_spell hb.element]
      exact fun h => h rfl
    simp only [if_neg hn, if_neg hr]
    rw [segments_spell hv.element (by simp), clean, elements_spell hb.element, apart_append]
    exact congrArg some (if_neg (List.cons_ne_nil v vs)).symm

end Rel

end Go.Path
