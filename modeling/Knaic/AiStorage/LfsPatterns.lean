import Knaic.AiStorage.GitAttributes
import Knaic.Go.Fields

open Go Effects

namespace AiStorage.LfsPatterns

open GitLab GitAttributes

-- What a line has the listing know as LFS.
def lfsPattern (line : Str) : Option Str :=
  let line := Utf8.trimSpace line
  if line = [] ∨ line.hasPrefix (str "#") then none
  else if line.hasInfix (str "filter=lfs") then (Utf8.fields line).head?
  else none

def lfsPatterns (b : Str) : List Str :=
  (b.splitOn 10).filterMap lfsPattern

def refQuery (ref : Str) : Str :=
  Url.encodeValues [(str "ref", if ref = [] then str "HEAD" else ref)]

-- A failure leaves no patterns. A body that breaks off behind the limit has been read by then.
def fetchLFSPatterns (ref : Str) : Prog ops (List Str) := do
  let resp ← (rawFile attributes (refQuery ref) : Prog ops (Except Error RawFile))
  match resp with
  | .error _ => return []
  | .ok f    =>
    if f.body.err.isSome ∧ f.body.bytes.length < attributesLimit then return []
    else return lfsPatterns (f.body.bytes.take attributesLimit)

def matchLFSPattern (pattern path : Str) : Bool :=
  if pattern = path then
    true
  else if pattern.hasPrefix (str "*.") then
    path.hasSuffix (pattern.drop 1)
  else if pattern.hasSuffix (str "/*") then
    let dir := pattern.trimSuffix (str "/*")
    path.hasPrefix (dir ++ str "/") && !Str.hasInfix (path.drop (dir.length + 1)) (str "/")
  else
    false

-- What the line for a path says behind the path.
def mark : Str :=
  str " filter=lfs diff=lfs merge=lfs -text\n"

-- As much as the listing reads of the line for a path, behind the attributes that are there.
def ownText (b path : Str) : Str :=
  (path ++ mark).take (attributesLimit - (withNewline b).length)

-- A path that is one field, and no comment.
structure Plain (path : Str) : Prop where
  nonempty : path ≠ []
  spaces   : ∀ p ∈ Utf8.pieces path, p.isSpace = false
  comment  : path.hasPrefix (str "#") = false

-- The line for the path is read as far as it says that the path is kept with LFS.
structure Fits (b path : Str) : Prop where
  length : path.length ≤ attributesLimit - (withNewline b).length
  filter : (ownText b path).hasInfix (str "filter=lfs")

instance (b path : Str) : Decidable (Fits b path) :=
  decidable_of_iff (path.length ≤ attributesLimit - (withNewline b).length ∧
    (ownText b path).hasInfix (str "filter=lfs")) ⟨fun h => ⟨h.left, h.right⟩, fun h => ⟨h.length, h.filter⟩⟩

-- One of the patterns of a text is the path, or stands for it.
def Covered (b path : Str) : Prop :=
  ∃ p ∈ lfsPatterns b, matchLFSPattern p path

-- A piece of the path's own line is a pattern that happens to stand for the path.
def Accidental (b path : Str) : Prop :=
  ∃ p ∈ lfsPatterns (ownText b path), p ≠ path ∧ matchLFSPattern p path

-- Nothing is written, and the attributes on the branch cover the path, or those that were read do, or the
-- line that is written is as good as it was meant to be.
def Recognisable (refOf : Str → Option Str) (w : World) (branch path : Str) (d : Draw) : Prop :=
  (Found refOf w branch path d ∧ ∃ b ∈ existing w branch, Covered (b.take attributesLimit) path) ∨
    (¬Found refOf w branch path d ∧
      let b := (arrived refOf w branch d).getD []
      Covered b path ∨ (Plain path ∧ Fits b path) ∨ Accidental b path)

-- The path is marked in a listing.
def Recognised (refOf : Str → Option Str) (w : World) (ref path : Str) (e : Draw) : Prop :=
  ∃ p ∈ ((fetchLFSPatterns ref).play (answer refOf) (fun _ => e) w).1, matchLFSPattern p path

section Text

theorem patterns_append (a b : Str) : lfsPatterns (a ++ 10 :: b) = lfsPatterns a ++ lfsPatterns b := by
  simp only [lfsPatterns, List.splitOn_append_cons_self, List.filterMap_append]

theorem patterns_nil : lfsPatterns [] = [] :=
  rfl

theorem updated_eq (b path : Str) : updated b path = withNewline b ++ (path ++ mark) :=
  List.append_assoc ..

-- The lines that were there are read as before, and the new one as far as there is room.
theorem patterns_updated {b path : Str} (hb : b.length ≤ attributesLimit) :
    lfsPatterns ((updated b path).take attributesLimit) = lfsPatterns b ++ lfsPatterns (ownText b path) := by
  have behind (a : Str) (ha : (a ++ [10]).length ≤ attributesLimit) :
      lfsPatterns ((a ++ [10] ++ (path ++ mark)).take attributesLimit) =
        lfsPatterns a ++ lfsPatterns ((path ++ mark).take (attributesLimit - (a ++ [10]).length)) := by
    rw [List.take_append, List.take_of_length_le ha, List.append_assoc, List.singleton_append, patterns_append]
  rw [updated_eq]
  unfold ownText withNewline
  by_cases hn : b = []
  case pos =>
    subst hn
    rfl
  case neg =>
    by_cases hl : b.getLast? = some 10
    case pos =>
      obtain ⟨a, rfl⟩ := List.getLast?_eq_some_iff.mp hl
      rw [if_neg fun h => h.right hl, behind a hb, patterns_append, patterns_nil, List.append_nil]
    case neg =>
      rw [if_pos ⟨hn, hl⟩]
      by_cases hf : (b ++ [10]).length ≤ attributesLimit
      case pos => exact behind b hf
      case neg =>
        have he : b.length = attributesLimit := by simp at hf; omega
        have hz : attributesLimit - (b ++ [10]).length = 0 := by omega
        rw [hz, List.take_zero, patterns_nil, List.append_nil, List.append_assoc, ← he, List.take_left]

theorem filter_bytes : ∀ b ∈ str "filter=lfs", b < 0x80 ∧ Utf8.isSpace b.toNat = false := by
  decide +kernel

theorem mark_eq : mark = str " filter=lfs diff=lfs merge=lfs -text" ++ [10] := by
  decide +kernel

theorem lfsPattern_eq_some {line p : Str} : lfsPattern line = some p ↔
    Utf8.trimSpace line ≠ [] ∧ (Utf8.trimSpace line).hasPrefix (str "#") = false ∧
      str "filter=lfs" <:+: line ∧ (Utf8.fields (Utf8.trimSpace line)).head? = some p := by
  have hi := Str.hasInfix_iff (s := Utf8.trimSpace line) (p := str "filter=lfs")
  rw [Utf8.trimSpace_infix filter_bytes] at hi
  rw [← hi]
  unfold lfsPattern
  dsimp only
  split
  case isTrue h =>
    refine ⟨fun h => (by cases h), fun ⟨hn, hc, _⟩ => ?_⟩
    simp [hn, hc] at h
  case isFalse h =>
    rw [not_or, Bool.not_eq_true] at h
    split
    case isTrue hf  => simp [h.left, h.right, hf]
    case isFalse hf => simp [hf]

-- The pattern of a line is a word of it, and it is what the line begins with but for spaces.
theorem plain_of_pattern {line path : Str} (h : lfsPattern line = some path) :
    Plain path ∧ path <:+: line ∧ str "filter=lfs" <:+: line := by
  obtain ⟨-, hc, hi, hf⟩ := lfsPattern_eq_some.mp h
  have ⟨hn, hs, hp⟩ := Utf8.mem_fields (List.mem_of_head? hf)
  have hw := Utf8.fields_prefix (Utf8.trimSpace_front line) hf
  obtain ⟨l, r, he, -, -⟩ := Utf8.trimSpace_pieces line
  refine ⟨⟨hn, hs, ?_⟩, hp.trans ?_, hi⟩
  · rw [Bool.eq_false_iff, ne_eq, Str.hasPrefix_iff] at hc ⊢
    exact fun h => hc (h.trans hw)
  · have hb := congrArg (List.flatMap Utf8.Piece.bytes) he
    rw [List.flatMap_append, List.flatMap_append, Utf8.pieces_bytes, Utf8.pieces_bytes] at hb
    exact ⟨_, _, (List.append_assoc ..).trans hb.symm⟩

-- A word is the pattern of the line that it begins, if the line says so.
theorem pattern_of_plain {path t : Str} (hp : Plain path) (ht : ∀ b ∈ t.head?, b = 32)
    (hf : str "filter=lfs" <:+: path ++ t) : lfsPattern (path ++ t) = some path := by
  have hn : Utf8.pieces path ≠ [] := by
    intro hn
    have hb := Utf8.pieces_bytes path
    rw [hn] at hb
    exact hp.nonempty hb.symm
  have hq : ∃ qs, Utf8.pieces (path ++ t) = Utf8.pieces path ++ qs ∧ ∀ q ∈ qs.head?, q.isSpace := by
    cases t
    case nil      => exact ⟨[], by simp, by simp⟩
    case cons b t =>
      cases ht b rfl
      refine ⟨_, Utf8.pieces_append_ascii (by decide) path t, ?_⟩
      intro q hq
      cases hq
      rfl
  obtain ⟨qs, he, hq⟩ := hq
  obtain ⟨x, hx, hxq⟩ := Utf8.trimSpace_word he hn hp.spaces
  have hxs : ∀ q ∈ x.head?, q.isSpace := by
    obtain ⟨r, rfl⟩ := hxq
    cases x
    case nil  => simp
    case cons => exact hq
  have hb : Utf8.trimSpace (path ++ t) = path ++ x.flatMap Utf8.Piece.bytes := by
    have hb := congrArg (List.flatMap Utf8.Piece.bytes) hx
    rwa [List.flatMap_append, Utf8.pieces_bytes, Utf8.pieces_bytes] at hb
  refine lfsPattern_eq_some.mpr ⟨?_, ?_, hf, ?_⟩
  · rw [hb]
    simp [hp.nonempty]
  · have hc := hp.comment
    rw [hb]
    cases path
    case nil  => exact absurd rfl hp.nonempty
    case cons => simpa [Str.hasPrefix, str, String.utf8EncodeChar, List.isPrefixOf] using hc
  · rw [Utf8.fields_head hx hn hp.spaces hxs, Utf8.pieces_bytes]

theorem newline_notMem {path : Str} (h : ∀ p ∈ Utf8.pieces path, p.isSpace = false) : 10 ∉ path := by
  intro hm
  obtain ⟨a, b, rfl⟩ := List.append_of_mem hm
  have hp : .rune [10] ∈ Utf8.pieces (a ++ 10 :: b) := by
    rw [Utf8.pieces_append_ascii (by decide)]
    exact List.mem_append_right _ (.head _)
  cases h _ hp

-- The path is the pattern of its own line if and only if it is one word, no comment, and there is room.
theorem own_iff {b path : Str} : path ∈ lfsPatterns (ownText b path) ↔ Plain path ∧ Fits b path := by
  constructor
  case mp =>
    intro h
    obtain ⟨line, hl, hp⟩ := List.mem_filterMap.mp h
    have ⟨hplain, hpath, hf⟩ := plain_of_pattern hp
    rw [List.splitOn_eq_splitOnP] at hl
    have hi := (Utf8.mem_splitOnP hl).left
    have hlen := (hpath.trans hi).length_le
    refine ⟨hplain, ?_, Str.hasInfix_iff.mpr (hf.trans hi)⟩
    rw [ownText, List.length_take] at hlen
    omega
  case mpr =>
    rintro ⟨hp, hl, hf⟩
    rw [Str.hasInfix_iff] at hf
    have ht : ownText b path = path ++ mark.take (attributesLimit - (withNewline b).length - path.length) := by
      rw [ownText, List.take_append, List.take_of_length_le hl]
    rw [mark_eq, List.take_append] at ht
    generalize attributesLimit - (withNewline b).length - path.length = k at ht
    rw [ht] at hf ⊢
    have hm : 10 ∉ path ++ (str " filter=lfs diff=lfs merge=lfs -text").take k := by
      have hn : 10 ∉ str " filter=lfs diff=lfs merge=lfs -text" := by decide +kernel
      exact fun h => (List.mem_append.mp h).elim (newline_notMem hp.spaces) fun h => hn (List.mem_of_mem_take h)
    have hh : ∀ c ∈ ((str " filter=lfs diff=lfs merge=lfs -text").take k).head?, c = 32 := by
      cases k
      case zero => simp
      case succ => intro c hc; exact (Option.some.inj hc).symm
    rw [← List.append_assoc] at hf ⊢
    generalize k - (str " filter=lfs diff=lfs merge=lfs -text").length = j at hf ⊢
    cases j
    case zero   =>
      rw [List.take_zero, List.append_nil] at hf ⊢
      rw [lfsPatterns, List.splitOn_eq_singleton hm]
      exact List.mem_filterMap.mpr ⟨_, .head _, pattern_of_plain hp hh hf⟩
    case succ j =>
      have hone : ([10] : Str).take (j + 1) = [10] := by simp
      rw [hone] at hf ⊢
      rw [patterns_append, patterns_nil, List.append_nil, lfsPatterns, List.splitOn_eq_singleton hm]
      refine List.mem_filterMap.mpr ⟨_, .head _, pattern_of_plain hp hh (Utf8.infix_left ?_ hf)⟩
      decide +kernel

theorem covered_updated {b path : Str} (hb : b.length ≤ attributesLimit) :
    Covered ((updated b path).take attributesLimit) path ↔
      Covered b path ∨ (Plain path ∧ Fits b path) ∨ Accidental b path := by
  rw [← own_iff]
  simp only [Covered, Accidental, patterns_updated hb, List.mem_append]
  constructor
  case mp =>
    rintro ⟨p, hb | ho, hm⟩
    · exact .inl ⟨p, hb, hm⟩
    · by_cases hp : p = path
      case pos => exact .inr (.inl (hp ▸ ho))
      case neg => exact .inr (.inr ⟨p, ho, hp, hm⟩)
  case mpr =>
    rintro (⟨p, hb, hm⟩ | ho | ⟨p, ho, -, hm⟩)
    · exact ⟨p, .inl hb, hm⟩
    · exact ⟨path, .inr ho, by simp [matchLFSPattern]⟩
    · exact ⟨p, .inr ho, hm⟩

-- A line that is there for the path covers it, if the path is no comment.
theorem covered_of_tracked {b path : Str} (hc : path.hasPrefix (str "#") = false) (h : tracked path b) :
    Covered b path := by
  obtain ⟨line, hl, ht⟩ := List.any_eq_true.mp h
  simp only [tracks, Bool.and_eq_true, decide_eq_true_eq, Str.hasInfix_iff] at ht
  have hw := Utf8.fields_prefix (Utf8.trimSpace_front line) ht.left
  have hn := (Utf8.mem_fields (List.mem_of_head? ht.left)).left
  have hp : lfsPattern line = some path := by
    refine lfsPattern_eq_some.mpr ⟨?_, ?_, ht.right, ht.left⟩
    · exact fun he => hn (List.prefix_nil.mp (he ▸ hw))
    · obtain ⟨r, hr⟩ := hw
      rw [← hr]
      cases path
      case nil  => exact absurd rfl hn
      case cons => simpa [Str.hasPrefix, str, String.utf8EncodeChar, List.isPrefixOf] using hc
  exact ⟨path, List.mem_filterMap.mpr ⟨line, hl, hp⟩, by simp [matchLFSPattern]⟩

end Text
section Play

variable {refOf : Str → Option Str} {w : World} {branch path ref : Str} {d : Nat → Draw} {e : Draw}

theorem fetchLFSPatterns_eq : fetchLFSPatterns ref =
    .call (.rawFile attributes (refQuery ref)) fun
      | .error _ => .ret []
      | .ok f    =>
        if f.body.err.isSome ∧ f.body.bytes.length < attributesLimit then .ret []
        else .ret (lfsPatterns (f.body.bytes.take attributesLimit)) := by
  refine congrArg (Prog.call _) (funext fun resp => ?_)
  cases resp <;> rfl

-- A branch that is read shows what its attributes cover.
theorem recognised_of_read (hr : refOf (refQuery ref) = some (Utf8.toValid branch)) (hf : e.failure = none)
    (hc : e.cut = none) : Recognised refOf w ref path e ↔
      ∃ b ∈ existing w branch, Covered (b.take attributesLimit) path := by
  rw [Recognised, fetchLFSPatterns_eq]
  simp only [Prog.play, answer, hf, hr, existing]
  cases w.files (Utf8.toValid branch) attributes
  case none   => simp [Prog.play]
  case some b => simp [Draw.stream, hc, Covered, Prog.play]

theorem arrived_length {b : Str} (h : b ∈ arrived refOf w branch e) : b.length ≤ attributesLimit := by
  rw [arrived_eq] at h
  split at h
  case isFalse => cases h
  case isTrue  =>
    obtain ⟨f, -, rfl⟩ := Option.map_eq_some_iff.mp h
    exact List.length_take_le ..

theorem ensured_found (h : Found refOf w branch path (d 0)) :
    ((ensureLFSPattern branch path).play (answer refOf) d w).2 = w := by
  obtain ⟨b, ha, ht⟩ := (found_iff _).mp h
  rw [ensureLFSPattern_play, Option.mem_def.mp ha]
  simp [ht]

theorem ensured_written (h : ¬Found refOf w branch path (d 0))
    (hok : ((ensureLFSPattern branch path).play (answer refOf) d w).1 = .ok ()) :
    existing ((ensureLFSPattern branch path).play (answer refOf) d w).2 branch =
      some (updated ((arrived refOf w branch (d 0)).getD []) path) := by
  rw [found_iff] at h
  rw [ensureLFSPattern_play] at hok ⊢
  cases ha : arrived refOf w branch (d 0)
  case none   =>
    rw [ha] at hok
    exact commitFile_ok hok
  case some b =>
    have ht : ¬tracked path b := fun ht => h ⟨b, ha, ht⟩
    simp only [ha, if_neg ht] at hok ⊢
    exact commitFile_ok hok

-- A path of one word is shown if all attributes were read and have its line, or room for it.
theorem recognised_of_plain (hok : ((ensureLFSPattern branch path).play (answer refOf) d w).1 = .ok ())
    (hr : refOf (refQuery ref) = some (Utf8.toValid branch)) (hf : e.failure = none) (hc : e.cut = none)
    (hw : ReadWhole refOf w branch (d 0)) (hp : Plain path)
    (hl : Found refOf w branch path (d 0) ∨ Fits ((existing w branch).getD []) path) :
    Recognised refOf ((ensureLFSPattern branch path).play (answer refOf) d w).2 ref path e := by
  have ha := arrived_whole hw
  apply (recognised_of_read hr hf hc).mpr
  by_cases h : Found refOf w branch path (d 0)
  case pos =>
    obtain ⟨b, hb, ht⟩ := (found_iff _).mp h
    have hlen := arrived_length hb
    rw [ha] at hb
    refine ⟨b, by rwa [ensured_found h], ?_⟩
    rw [List.take_of_length_le hlen]
    exact covered_of_tracked hp.comment ht
  case neg =>
    refine ⟨_, ensured_written h hok, ?_⟩
    rw [ha]
    have hlen : ((existing w branch).getD []).length ≤ attributesLimit := by
      cases hx : existing w branch
      case none   => exact Nat.zero_le _
      case some b => exact arrived_length (ha.trans hx)
    exact (covered_updated hlen).mpr (.inr (.inl ⟨hp, hl.resolve_left h⟩))

end Play

-- Once the attributes are ensured, the path is shown as LFS if and only if they were good for it before,
-- or the line that is written for it can be read back.
theorem recognised_iff (refOf : Str → Option Str) (w : World) (branch path ref : Str) (d : Nat → Draw) (e : Draw)
    (hok : ((ensureLFSPattern branch path).play (answer refOf) d w).1 = .ok ())
    (hr : refOf (refQuery ref) = some (Utf8.toValid branch)) (hf : e.failure = none) (hc : e.cut = none) :
    Recognised refOf ((ensureLFSPattern branch path).play (answer refOf) d w).2 ref path e ↔
      Recognisable refOf w branch path (d 0) := by
  rw [recognised_of_read hr hf hc, Recognisable]
  by_cases h : Found refOf w branch path (d 0)
  case pos => simp [h, ensured_found h]
  case neg =>
    have hl : ((arrived refOf w branch (d 0)).getD []).length ≤ attributesLimit := by
      cases ha : arrived refOf w branch (d 0)
      case none => exact Nat.zero_le _
      case some => exact arrived_length ha
    simp [h, ensured_written h hok, covered_updated hl]

-- A file in a directory has its path on a line of its own.
section Listed

def listed : Str :=
  str "weights/model.gguf"

theorem listed_recognised : Recognisable refOfQuery project (str "main") listed fine :=
  (recognised_iff refOfQuery project (str "main") listed (str "main") (fun _ => fine) fine
    (by decide +kernel) (by decide +kernel) rfl rfl).mp (by unfold Recognised; decide +kernel)

end Listed

-- The line for a path with a space marks what is in front of the space.
section Spaced

def spaced : Str :=
  str "my model.gguf"

theorem spaced_unrecognised : ¬∀ refOf w branch path ref d e,
    ((ensureLFSPattern branch path).play (answer refOf) d w).1 = .ok () →
      refOf (refQuery ref) = some (Utf8.toValid branch) → e.failure = none → e.cut = none →
        Recognised refOf ((ensureLFSPattern branch path).play (answer refOf) d w).2 ref path e := by
  intro h
  have hr := h refOfQuery project (str "main") spaced (str "main") (fun _ => fine) fine (by decide +kernel)
    (by decide +kernel) rfl rfl
  exact absurd hr (by unfold Recognised; decide +kernel)

end Spaced
end AiStorage.LfsPatterns
