import Mathlib.Data.Finmap
import Mathlib.Data.List.DropRight

namespace Js

-- A JavaScript string is a sequence of UTF-16 code units.
abbrev Str :=
  List UInt16

-- The code units of a literal without characters outside the basic plane.
def str (s : String) : Str :=
  s.toList.map fun c => UInt16.ofNat c.toNat

-- An object used as a map from names to values.
abbrev Record (α : Type) :=
  Finmap fun _ : Str => α

-- White space and line terminators, which are also what `\s` matches.
def isSpace (c : UInt16) : Bool :=
  9 ≤ c && c ≤ 13 || c == 32 || c == 160 || c == 0x1680 || 0x2000 ≤ c && c ≤ 0x200A ||
  c == 0x2028 || c == 0x2029 || c == 0x202F || c == 0x205F || c == 0x3000 || c == 0xFEFF

def newline : UInt16 :=
  10

def blank : UInt16 :=
  32

namespace Str

def trim (s : Str) : Str :=
  (s.dropWhile isSpace).rdropWhile isSpace

def join (l : List Str) (sep : UInt16) : Str :=
  [sep].intercalate l

-- `split` at a single character.
def split (s : Str) (sep : UInt16) : List Str :=
  s.splitOn sep

-- `split(/\s+/)`: what lies between the runs of white space. `inRun` tells whether the character
-- before `s` belongs to such a run.
def splitSpacesFrom (inRun : Bool) : Str → List Str
  | []     => [[]]
  | c :: s =>
    if isSpace c then
      if inRun then splitSpacesFrom true s else [] :: splitSpacesFrom true s
    else
      (splitSpacesFrom false s).modifyHead (c :: ·)

def splitSpaces (s : Str) : List Str :=
  splitSpacesFrom false s

-- `split('\n').map(s => s.trim()).filter(Boolean)`
def lines (s : Str) : List Str :=
  ((s.split newline).map trim).filter (· ≠ [])

-- `split(/\s+/).filter(Boolean)`
def words (s : Str) : List Str :=
  s.splitSpaces.filter (· ≠ [])

end Str

-- The lines and the words that survive being joined and split again.
def IsLine (s : Str) : Prop :=
  s ≠ [] ∧ s.trim = s ∧ newline ∉ s

def IsWord (s : Str) : Prop :=
  s ≠ [] ∧ ∀ c ∈ s, isSpace c = false

instance (s : Str) : Decidable (IsLine s) :=
  inferInstanceAs (Decidable (_ ∧ _))

instance (s : Str) : Decidable (IsWord s) :=
  inferInstanceAs (Decidable (_ ∧ _))

section Pieces

variable {α : Type} {p : α → Bool} {s w : List α}

-- No piece of a split has a separator in it.
theorem mem_splitOnP (h : w ∈ s.splitOnP p) : ∀ c ∈ w, p c = false := by
  induction s generalizing w
  case nil => simp_all [List.splitOnP_nil]
  case cons x s hi =>
    rw [List.splitOnP_cons_eq_if_modifyHead] at h
    split at h
    case isTrue =>
      cases List.mem_cons.mp h
      case inl he => simp [he]
      case inr hm => exact hi hm
    case isFalse hx =>
      have ⟨r, rs, hr⟩ := List.exists_cons_of_ne_nil (List.splitOnP_ne_nil p s)
      rw [hr, List.modifyHead_cons] at h
      rw [hr] at hi
      cases List.mem_cons.mp h
      case inr hm => exact hi (.tail _ hm)
      case inl he =>
        subst he
        intro c hc
        cases List.mem_cons.mp hc
        case inl he => simpa [he] using hx
        case inr hm => exact hi (.head _) c hm

-- What reads two texts around a separator one after the other reads joined texts one by one.
theorem join_pieces {β : Type} {f : List α → List β} {sep : α} (hn : f [] = [])
    (ha : ∀ x y, f (x ++ sep :: y) = f x ++ f y) (l : List (List α)) :
    f ([sep].intercalate l) = l.flatMap f := by
  induction l
  case nil => simpa using hn
  case cons x l hi =>
    cases l
    case nil    => simp
    case cons y l =>
      rw [List.intercalate_cons_cons, List.append_assoc, List.singleton_append, ha, hi]
      simp

-- Reading joined texts gives them back if each of them reads as itself.
theorem flatMap_self {f : List α → List (List α)} {l : List (List α)} (h : ∀ w ∈ l, f w = [w]) :
    l.flatMap f = l := by
  induction l
  case nil          => rfl
  case cons x l hi  =>
    rw [List.flatMap_cons, h x (.head _), hi fun w hw => h w (.tail _ hw)]
    rfl

end Pieces

section Lines

variable {a s : Str}

-- A prefix of a text that does not begin with white space does not either.
theorem dropWhile_prefix {t u : Str} (h : u <+: t) (ht : t.dropWhile isSpace = t) :
    u.dropWhile isSpace = u := by
  cases u
  case nil      => rfl
  case cons c u =>
    have ⟨v, hv⟩ := h
    subst hv
    have hc : ¬isSpace c := by
      intro hc
      rw [List.cons_append, List.dropWhile_cons_of_pos hc] at ht
      have hl := (List.dropWhile_sublist isSpace (l := u ++ v)).length_le
      rw [ht] at hl
      simp only [List.length_cons, List.length_append] at hl
      omega
    exact List.dropWhile_cons_of_neg hc

theorem trim_trim (s : Str) : (Str.trim s).trim = s.trim := by
  have hd : (Str.trim s).dropWhile isSpace = s.trim :=
    dropWhile_prefix (List.rdropWhile_prefix ..) (List.dropWhile_idempotent ..)
  have hr := congrArg (List.rdropWhile isSpace) hd
  exact hr.trans (List.rdropWhile_idempotent ..)

theorem trim_subset (s : Str) : Str.trim s ⊆ s :=
  ((List.rdropWhile_prefix ..).sublist.trans (List.dropWhile_sublist _)).subset

theorem lines_append (x y : Str) : Str.lines (x ++ newline :: y) = x.lines ++ y.lines := by
  simp [Str.lines, Str.split, List.splitOn_append_cons_self]

theorem isLine_of_mem (h : a ∈ s.lines) : IsLine a := by
  simp only [Str.lines, Str.split, List.mem_filter, List.mem_map, decide_eq_true_eq] at h
  have ⟨⟨w, hw, he⟩, hn⟩ := h
  refine ⟨hn, by rw [← he, trim_trim], fun hm => ?_⟩
  have hf := mem_splitOnP hw newline (trim_subset w (he ▸ hm))
  simp at hf

theorem lines_of_isLine (h : IsLine a) : a.lines = [a] := by
  have ⟨hn, ht, hm⟩ := h
  simp [Str.lines, Str.split, List.splitOn_eq_singleton hm, ht, hn]

theorem lines_join_iff (l : List Str) : (Str.join l newline).lines = l ↔ ∀ a ∈ l, IsLine a := by
  have hj : (Str.join l newline).lines = l.flatMap Str.lines :=
    join_pieces (by decide) lines_append l
  constructor
  case mp  => exact fun h a ha => isLine_of_mem (s := Str.join l newline) (by rwa [h])
  case mpr => exact fun h => hj.trans (flatMap_self fun a ha => lines_of_isLine (h a ha))

end Lines

section Words

variable {w s : Str}

-- Whether the runs of white space are split as one or at each character makes no difference to the
-- words. Outside of a run the first piece is the same, too.
theorem splitSpacesFrom_pieces (s : Str) :
    (∃ r rs rs', Str.splitSpacesFrom false s = r :: rs ∧ s.splitOnP isSpace = r :: rs' ∧
      rs.filter (· ≠ []) = rs'.filter (· ≠ [])) ∧
    (Str.splitSpacesFrom true s).filter (· ≠ []) = (s.splitOnP isSpace).filter (· ≠ []) := by
  induction s
  case nil         => exact ⟨⟨[], [], [], rfl, List.splitOnP_nil, rfl⟩, by simp [Str.splitSpacesFrom, List.splitOnP_nil]⟩
  case cons c s hi =>
    have ⟨⟨r, rs, rs', hr, hr', hf⟩, ht⟩ := hi
    rw [List.splitOnP_cons_eq_if_modifyHead]
    by_cases hc : isSpace c
    case pos =>
      simp only [Str.splitSpacesFrom, hc, if_true]
      exact ⟨⟨[], _, _, rfl, rfl, ht⟩, by simpa using ht⟩
    case neg =>
      simp only [Str.splitSpacesFrom, hc, hr, hr', List.modifyHead_cons]
      exact ⟨⟨c :: r, rs, rs', rfl, rfl, hf⟩, by simpa using hf⟩

theorem words_eq (s : Str) : s.words = (s.splitOnP isSpace).filter (· ≠ []) := by
  have ⟨⟨r, rs, rs', hr, hr', hf⟩, _⟩ := splitSpacesFrom_pieces s
  rw [Str.words, Str.splitSpaces, hr, hr', List.filter_cons, List.filter_cons, hf]

theorem words_append (x y : Str) : Str.words (x ++ blank :: y) = x.words ++ y.words := by
  simp only [words_eq, List.splitOnP_append_cons x y (show isSpace blank by decide),
    List.filter_append]

theorem isWord_of_mem (h : w ∈ s.words) : IsWord w := by
  rw [words_eq, List.mem_filter] at h
  exact ⟨by simpa using h.right, mem_splitOnP h.left⟩

theorem words_of_isWord (h : IsWord w) : w.words = [w] := by
  rw [words_eq, List.splitOnP_eq_singleton h.right]
  simp [h.left]

theorem words_join_iff (l : List Str) : (Str.join l blank).words = l ↔ ∀ w ∈ l, IsWord w := by
  have hj : (Str.join l blank).words = l.flatMap Str.words :=
    join_pieces (by decide) words_append l
  constructor
  case mp  => exact fun h w hw => isWord_of_mem (s := Str.join l blank) (by rwa [h])
  case mpr => exact fun h => hj.trans (flatMap_self fun w hw => words_of_isWord (h w hw))

end Words

theorem join_eq_nil {l : List Str} {sep : UInt16} (h : Str.join l sep = []) : l = [] ∨ l = [[]] := by
  match l with
  | []          => exact .inl rfl
  | [a]         => exact .inr (by simpa [Str.join] using h)
  | a :: b :: l => simp [Str.join, List.intercalate_cons_cons] at h

end Js
