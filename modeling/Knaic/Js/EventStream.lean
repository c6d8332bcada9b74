import Mathlib.Data.List.Chain
import Knaic.Js.Cut
import Knaic.Js.TextDecoder

-- The pieces of a text that arrives bit by bit, each of them closed by a separator.
namespace Js

section Frames

variable {α : Type} [BEq α] {sep p q : List α} {r : List α × List α}

-- The pieces that are complete, and what is left of the text.
def frames (hs : sep ≠ []) (buf : List α) : List (List α) × List α :=
  match _h : cut sep buf with
  | none   => ([], buf)
  | some r =>
    let q := frames hs r.2
    (r.1 :: q.1, q.2)
termination_by buf.length
decreasing_by exact cut_length _h hs

theorem frames_none {hs : sep ≠ []} (h : cut sep p = none) : frames hs p = ([], p) := by
  rw [frames]
  split
  case h_1    => rfl
  case h_2 he => simp [h] at he

theorem frames_some {hs : sep ≠ []} (h : cut sep p = some r) :
    frames hs p = (r.1 :: (frames hs r.2).1, (frames hs r.2).2) := by
  rw [frames]
  split
  case h_1 he => simp [h] at he
  case h_2 he =>
    cases Option.some.inj (h.symm.trans he)
    rfl

theorem frames_rest (hs : sep ≠ []) (p : List α) :
    frames hs (frames hs p).2 = ([], (frames hs p).2) := by
  induction p using frames.induct hs
  case case1 p h      => rw [frames_none h, frames_none h]
  case case2 p r h hi => rw [frames_some h, hi]

variable [LawfulBEq α]

-- What comes later does not change the first cut.
theorem cut_more (h : cut sep p = some r) (q : List α) : cut sep (p ++ q) = some (r.1, r.2 ++ q) := by
  induction p generalizing r
  case nil => cases h
  case cons c p hi =>
    rw [cut] at h
    rw [List.cons_append, cut]
    split at h
    case isTrue hp =>
      have hp : sep <+: c :: p := by simpa using hp
      have hpq : sep <+: c :: (p ++ q) := hp.trans (List.prefix_append (c :: p) q)
      cases h
      rw [if_pos (by simpa using hpq), ← List.cons_append,
        List.drop_append_of_le_length hp.length_le]
    case isFalse hp =>
      obtain ⟨r', hr, he⟩ := Option.map_eq_some_iff.mp h
      have hin : sep <:+: p := by
        by_contra hn
        have hne : sep ≠ [] := fun he => hn (he ▸ List.nil_infix)
        rw [(cut_eq_none hne).mpr hn] at hr
        cases hr
      have hpq : ¬sep <+: c :: (p ++ q) := by
        intro hpq
        have hle : sep.length ≤ (c :: p).length := Nat.le_succ_of_le hin.length_le
        have hp' := List.prefix_of_prefix_length_le hpq (List.prefix_append (c :: p) q) hle
        exact hp (by simpa using hp')
      cases he
      rw [if_neg (by simpa using hpq), hi hr]
      rfl

theorem frames_append (hs : sep ≠ []) (p q : List α) :
    frames hs (p ++ q) = ((frames hs p).1 ++ (frames hs ((frames hs p).2 ++ q)).1,
      (frames hs ((frames hs p).2 ++ q)).2) := by
  induction p using frames.induct hs
  case case1 p h   => simp [frames_none h]
  case case2 p r h hi => simp [frames_some h, frames_some (cut_more h q), hi]

end Frames

section Lines

variable {α ℓ : Type} {x : α} {raw : ℓ → List α}

-- The lines of a text with their ends.
def unlines (x : α) (raw : ℓ → List α) (ls : List ℓ) : List α :=
  ls.flatMap fun l => raw l ++ [x]

-- The blocks of lines that an empty line closes, and the lines after them. An empty line with nothing
-- before it closes nothing.
def blocks (raw : ℓ → List α) (acc : List ℓ) : List ℓ → List (List ℓ) × List ℓ
  | []      => ([], acc)
  | l :: ls =>
    if raw l = [] ∧ acc ≠ [] then
      let q := blocks raw [] ls
      (acc :: q.1, q.2)
    else
      blocks raw (acc ++ [l]) ls

-- What is read of lines, where an empty line makes no difference, is read of the blocks.
theorem blocks_flatMap {β : Type} {f : List ℓ → List β}
    (hf : ∀ p l s, raw l = [] → f (p ++ l :: s) = f p ++ f s) (acc ls : List ℓ) :
    f (acc ++ ls) = (blocks raw acc ls).1.flatMap f ++ f (blocks raw acc ls).2 := by
  induction ls generalizing acc
  case nil => simp [blocks]
  case cons l ls hi =>
    rw [blocks]
    split
    case isTrue h =>
      have hi := hi []
      rw [List.nil_append] at hi
      rw [hf acc l ls h.left, hi, List.flatMap_cons, List.append_assoc]
    case isFalse => rw [← hi, List.append_assoc, List.singleton_append]

theorem blocks_mem {acc ls : List ℓ} {b : List ℓ} (h : b ∈ (blocks raw acc ls).1) :
    b ≠ [] ∧ ∀ l ∈ b, l ∈ acc ++ ls := by
  induction ls generalizing acc
  case nil => cases h
  case cons m ls hi =>
    rw [blocks] at h
    split at h
    case isTrue hm =>
      cases List.mem_cons.mp h
      case inl he =>
        rw [he]
        exact ⟨hm.right, fun l hl => List.mem_append_left _ hl⟩
      case inr hb =>
        obtain ⟨hn, hl⟩ := hi hb
        exact ⟨hn, fun l hm => List.mem_append_right _ (.tail _ (hl l hm))⟩
    case isFalse =>
      obtain ⟨hn, hl⟩ := hi h
      exact ⟨hn, fun l hm => by simpa using hl l hm⟩

theorem flatMap_length_le {β γ : Type} {f g : β → List γ} {l : List β}
    (h : ∀ x ∈ l, (g x).length ≤ (f x).length) : (l.flatMap g).length ≤ (l.flatMap f).length := by
  induction l
  case nil => exact Nat.le_refl _
  case cons x l hi =>
    rw [List.flatMap_cons, List.flatMap_cons, List.length_append, List.length_append]
    exact Nat.add_le_add (h x (.head _)) (hi fun y hy => h y (.tail _ hy))

-- If never more is read than there is, all of it is read only if all of each part is.
theorem flatMap_eq_iff {β γ : Type} {f g : β → List γ} {l : List β} {t : List γ}
    (h : ∀ x ∈ l, (g x).length ≤ (f x).length) :
    l.flatMap g = l.flatMap f ++ t ↔ (∀ x ∈ l, g x = f x) ∧ t = [] := by
  induction l
  case nil => simp [eq_comm]
  case cons x l hi =>
    have hx := h x (.head _)
    have hi := hi fun y hy => h y (.tail _ hy)
    rw [List.flatMap_cons, List.flatMap_cons, List.append_assoc, List.forall_mem_cons, and_assoc, ← hi]
    constructor
    case mpr =>
      intro he
      rw [he.left, he.right]
    case mp =>
      intro he
      have hle : (l.flatMap g).length ≤ (l.flatMap f ++ t).length := by
        rw [List.length_append]
        exact Nat.le_add_right_of_le (flatMap_length_le fun y hy => h y (.tail _ hy))
      have hlen := congrArg List.length he
      rw [List.length_append, List.length_append] at hlen
      exact List.append_inj he (by omega)

-- No end of a line right after another.
def Apart (x : α) : List α → Prop :=
  List.IsChain fun a b => ¬(a = x ∧ b = x)

theorem Apart.not_infix {s : List α} (h : Apart x s) : ¬[x, x] <:+: s := by
  intro hi
  have hc := h.infix hi
  simp at hc

theorem apart_of_not_mem {s : List α} (h : x ∉ s) : Apart x s := by
  apply List.Pairwise.isChain
  apply List.pairwise_of_forall_mem_list
  exact fun a ha b _ hab => h (hab.left ▸ ha)

theorem apart_line {s : List α} (h : x ∉ s) : Apart x (s ++ [x]) := by
  refine (List.isChain_append ..).mpr ⟨apart_of_not_mem h, List.isChain_singleton _, ?_⟩
  intro a ha b _ hab
  exact h (hab.left ▸ List.mem_of_getLast? ha)

theorem Apart.line {s t : List α} (hs : Apart x s) (ht : x ∉ t) (hn : t ≠ []) :
    Apart x (s ++ (t ++ [x])) := by
  refine (List.isChain_append ..).mpr ⟨hs, apart_line ht, ?_⟩
  intro a _ b hb hab
  cases t
  case nil      => exact hn rfl
  case cons c t =>
    cases hb
    exact ht (hab.right ▸ .head _)

theorem unlines_append (ls ms : List ℓ) :
    unlines x raw (ls ++ ms) = unlines x raw ls ++ unlines x raw ms :=
  List.flatMap_append ..

theorem unlines_eq {ls : List ℓ} (h : ls ≠ []) :
    unlines x raw ls = [x].intercalate (ls.map raw) ++ [x] := by
  induction ls
  case nil => exact absurd rfl h
  case cons l ls hi =>
    cases ls
    case nil       => simp [unlines]
    case cons m ls =>
      have hc : unlines x raw (l :: m :: ls) = raw l ++ [x] ++ unlines x raw (m :: ls) := by
        simp [unlines]
      rw [hc, hi (by simp), List.map_cons, List.map_cons, List.map_cons, List.intercalate_cons_cons]
      simp

-- The pieces at blank lines are the blocks of lines.
theorem frames_unlines [BEq α] [LawfulBEq α] (hs : [x, x] ≠ []) {ls acc : List ℓ}
    (hl : ∀ l ∈ ls, x ∉ raw l) (ha : Apart x (unlines x raw acc)) :
    (frames hs (unlines x raw (acc ++ ls))).1 =
      (blocks raw acc ls).1.map fun b => [x].intercalate (b.map raw) := by
  induction ls generalizing acc
  case nil =>
    rw [List.append_nil, frames_none ((cut_eq_none hs).mpr ha.not_infix)]
    rfl
  case cons l ls hi =>
    have hls : ∀ m ∈ ls, x ∉ raw m := fun m hm => hl m (.tail _ hm)
    rw [blocks]
    split
    case isTrue h =>
      have hf : ¬[x, x] <:+: [x].intercalate (acc.map raw) ++ [x, x].dropLast := by
        have hn := ha.not_infix
        rwa [unlines_eq h.right] at hn
      have ht : unlines x raw (acc ++ l :: ls) =
          [x].intercalate (acc.map raw) ++ [x, x] ++ unlines x raw ls := by
        have hu : unlines x raw (l :: ls) = [x] ++ unlines x raw ls := by simp [unlines, h.left]
        rw [unlines_append, hu, unlines_eq h.right]
        simp
      have he : Apart x (unlines x raw []) := List.isChain_nil
      have hi := hi hls he
      rw [List.nil_append] at hi
      rw [ht, frames_some (cut_append hs hf _), hi]
      rfl
    case isFalse h =>
      have ha' : Apart x (unlines x raw (acc ++ [l])) := by
        have hu : unlines x raw [l] = raw l ++ [x] := by simp [unlines]
        rw [unlines_append, hu]
        by_cases hr : raw l = []
        case pos =>
          have he : acc = [] := Classical.byContradiction fun hn => h ⟨hr, hn⟩
          rw [he]
          exact apart_line (hl l (.head _))
        case neg => exact ha.line (hl l (.head _)) hr
      have hi := hi hls ha'
      rwa [List.append_assoc, List.singleton_append] at hi

end Lines

end Js

-- Server-sent events: the lines of a stream and what they say.
namespace Js.EventStream

def carriageReturn : UInt16 :=
  13

structure Line where
  text : Str
  crlf : Bool

namespace Line

-- The line up to its line feed.
def raw (l : Line) : Str :=
  if l.crlf then l.text ++ [carriageReturn] else l.text

-- The value of the field `data`. A blank after the colon is not a part of it.
def data? (l : Line) : Option Str :=
  if (str "data:").isPrefixOf l.text then
    if (str "data: ").isPrefixOf l.text then some (l.text.drop 6) else some (l.text.drop 5)
  else if l.text = str "data" then
    some []
  else
    none

end Line

-- The data lines of each event. What follows the last blank line is an event, too.
def events (acc : List Str) : List Line → List (List Str)
  | []      => [acc]
  | l :: ls => if l.text = [] then acc :: events [] ls else events (acc ++ l.data?.toList) ls

def eventData (vs : List Str) : Str :=
  Str.join vs newline

end Js.EventStream

namespace Js

structure EventStream where
  lines   : List EventStream.Line
  breaks  : ∀ l ∈ lines, newline ∉ l.text ∧ EventStream.carriageReturn ∉ l.text
  spelled : ∀ l ∈ lines, ∃ t, l.text = utf16 t

namespace EventStream

variable {s : EventStream}

def text (s : EventStream) : Str :=
  unlines newline Line.raw s.lines

-- The bytes that are the text, with a byte order mark or without.
def SentAs (s : EventStream) (bytes : Go.Str) : Prop :=
  (TextDecoder.new.decode bytes).2 = s.text

-- The blocks of lines between empty lines, and those after the last one.
def framed (s : EventStream) : List (List Line) :=
  (blocks Line.raw [] s.lines).1

def unframed (s : EventStream) : List Line :=
  (blocks Line.raw [] s.lines).2

theorem raw_eq_nil {l : Line} (h : l.raw = []) : l.text = [] := by
  rw [Line.raw] at h
  split at h
  case isTrue  => simp at h
  case isFalse => exact h

theorem newline_raw {l : Line} (h : newline ∉ l.text) : newline ∉ l.raw := by
  rw [Line.raw]
  split
  case isFalse => exact h
  case isTrue  =>
    rw [List.mem_append, not_or]
    exact ⟨h, by decide⟩

theorem events_append {l : Line} (h : l.text = []) (acc : List Str) (p ls : List Line) :
    events acc (p ++ l :: ls) = events acc p ++ events [] ls := by
  induction p generalizing acc
  case nil => simp [events, h]
  case cons m p hi =>
    rw [List.cons_append, events, events]
    split
    case isTrue  => rw [hi, List.cons_append]
    case isFalse => rw [hi]

-- The data lines, without the events that they belong to.
theorem events_flatten (acc : List Str) (ls : List Line) :
    (events acc ls).flatten = acc ++ ls.flatMap fun l => l.data?.toList := by
  induction ls generalizing acc
  case nil => simp [events]
  case cons l ls hi =>
    rw [events]
    split
    case isTrue h =>
      have hd : l.data? = none := by
        rw [Line.data?, h]
        decide
      simp [hi, hd]
    case isFalse => simp [hi]

theorem exists_spelled {ls : List Line} (h : ∀ l ∈ ls, ∃ t, l.text = utf16 t) :
    ∃ t, unlines newline Line.raw ls = utf16 t := by
  induction ls
  case nil => exact ⟨[], rfl⟩
  case cons l ls hi =>
    obtain ⟨t, ht⟩ := h l (.head _)
    obtain ⟨u, hu⟩ := hi fun m hm => h m (.tail _ hm)
    have he : utf16 ['\r'] = [carriageReturn] ∧ utf16 ['\n'] = [newline] := by decide
    have hr : ∃ r, l.raw = utf16 r := by
      rw [Line.raw]
      split
      case isTrue  => exact ⟨t ++ ['\r'], by rw [utf16_append, he.left, ht]⟩
      case isFalse => exact ⟨t, ht⟩
    obtain ⟨r, hr⟩ := hr
    refine ⟨r ++ ['\n'] ++ u, ?_⟩
    rw [utf16_append, utf16_append, he.right, ← hr, ← hu]
    rfl

-- Every stream can be sent.
theorem exists_sentAs (s : EventStream) : ∃ bytes, s.SentAs bytes := by
  obtain ⟨t, ht⟩ := exists_spelled s.spelled
  exact ⟨_, (TextDecoder.decode_mark t).trans ht.symm⟩

end EventStream
end Js
