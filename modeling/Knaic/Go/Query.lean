import Mathlib.Data.List.TakeWhile
import Knaic.Go.Dict
import Knaic.Go.Url

namespace Go.Url

def amp : UInt8 :=
  38

def equals : UInt8 :=
  61

def question : UInt8 :=
  63

def hash : UInt8 :=
  35

-- `shouldEscape` of net/url in its modes for a segment of a path and for a part of a query.
def escapesInSegment (b : UInt8) : Bool :=
  !(isAlnum b || (str "-_.~$&+:=@").contains b)

def escapesInQuery (b : UInt8) : Bool :=
  !(isAlnum b || (str "-_.~").contains b)

def percentEncode (b : UInt8) : Str :=
  [percent, upperHex (b / 16), upperHex (b % 16)]

def pathEscape (s : Str) : Str :=
  s.flatMap fun b => if escapesInSegment b then percentEncode b else [b]

-- A space becomes a plus.
def queryEscape (s : Str) : Str :=
  s.flatMap fun b => if b = 32 then [43] else if escapesInQuery b then percentEncode b else [b]

def queryUnescape (s : Str) : Option Str :=
  unescape (s.map fun b => if b = 43 then 32 else b)

-- The entry of a query that a part of it is.
def parseEntry (part : Str) : Option (Str × Str) :=
  if part = [] ∨ 59 ∈ part then
    none
  else do
    let key ← queryUnescape (part.takeWhile (· ≠ equals))
    let value ← queryUnescape ((part.dropWhile (· ≠ equals)).tail)
    return (key, value)

-- The entries that `ParseQuery` finds.
def parseQuery (s : Str) : List (Str × Str) :=
  (s.splitOn amp).filterMap parseEntry

def encodeEntry (e : Str × Str) : Str :=
  queryEscape e.1 ++ equals :: queryEscape e.2

-- `Values.Encode` where every key has one value.
def encodeValues (values : Entries Str) : Str :=
  [amp].intercalate (values.map encodeEntry)

def isControl (b : UInt8) : Bool :=
  b < 0x20 || b = 0x7f

-- The path and the query in the request for what stands behind the host in a URL.
def target (s : Str) : Option (Str × Str) :=
  if s.any isControl then
    none
  else
    let s := s.takeWhile (· ≠ hash)
    (URL.setPath (s.takeWhile (· ≠ question))).map fun u =>
      (u.requestURI, (s.dropWhile (· ≠ question)).tail)

-- The same with the bytes by their numbers, which is quicker to evaluate.
theorem escapesInSegment_eq (b : UInt8) : escapesInSegment b =
    !(isAlnum b || ([45, 95, 46, 126, 36, 38, 43, 58, 61, 64] : Str).contains b) := by
  have h : str "-_.~$&+:=@" = [45, 95, 46, 126, 36, 38, 43, 58, 61, 64] := by decide
  rw [escapesInSegment, h]

theorem escapesInQuery_eq (b : UInt8) : escapesInQuery b =
    !(isAlnum b || ([45, 95, 46, 126] : Str).contains b) := by
  have h : str "-_.~" = [45, 95, 46, 126] := by decide
  rw [escapesInQuery, h]

theorem shouldEscape_of_segment {b : UInt8} (h : escapesInSegment b = false) : shouldEscape b = false := by
  have hs : str "-_.~$&+,/:;=@" = [45, 95, 46, 126, 36, 38, 43, 44, 47, 58, 59, 61, 64] := by decide
  rw [escapesInSegment_eq] at h
  rw [shouldEscape, hs]
  revert b
  decide +kernel

theorem upperHex_kept : ∀ n : UInt8, n < 16 →
    (escapesInSegment (upperHex n) = false ∧ escapesInQuery (upperHex n) = false) ∧ upperHex n ≠ 43 := by
  simp only [escapesInSegment_eq, escapesInQuery_eq]
  decide +kernel

-- What an escape consists of.
theorem percentEncode_plain {b c : UInt8} (h : c ∈ percentEncode b) :
    (c = percent ∨ escapesInSegment c = false ∧ escapesInQuery c = false) ∧ c ≠ 43 := by
  simp only [percentEncode, List.mem_cons, List.not_mem_nil, or_false] at h
  rcases h with rfl | rfl | rfl
  · exact ⟨.inl rfl, by decide⟩
  · exact (upperHex_kept _ (div_lt b)).imp_left .inr
  · exact (upperHex_kept _ (mod_lt b)).imp_left .inr

theorem unescape_percentEncode (b : UInt8) (s : Str) :
    unescape (percentEncode b ++ s) = (unescape s).map (b :: ·) := by
  have hd := unhex_upperHex _ (div_lt b)
  have hm := unhex_upperHex _ (mod_lt b)
  cases hs : unescape s <;> simp [percentEncode, unescape, hd, hm, div_mul_add_mod, hs]

theorem unescape_pathEscape_append (s t : Str) :
    unescape (pathEscape s ++ t) = (unescape t).map (s ++ ·) := by
  induction s
  case nil         => simp [pathEscape]
  case cons b s hi =>
    have hc : pathEscape (b :: s) =
        (if escapesInSegment b then percentEncode b else [b]) ++ pathEscape s := rfl
    rw [hc, List.append_assoc]
    split
    case isTrue    => rw [unescape_percentEncode, hi, Option.map_map]; rfl
    case isFalse h =>
      have hb : b ≠ percent := by
        rintro rfl
        exact h (by decide)
      rw [List.singleton_append, unescape_cons hb, hi, Option.map_map]
      rfl

-- What is said of every byte of an escaped segment.
theorem pathEscape_bytes {P : UInt8 → Prop} (hp : P percent) (h : ∀ b, escapesInSegment b = false → P b)
    (s : Str) : ∀ b ∈ pathEscape s, P b := by
  intro b hb
  have ⟨c, _, hc⟩ := List.mem_flatMap.mp hb
  split at hc
  case isTrue =>
    cases (percentEncode_plain hc).left
    case inl he => exact he ▸ hp
    case inr he => exact h b he.left
  case isFalse hn =>
    cases List.mem_singleton.mp hc
    exact h b (by simpa using hn)

theorem queryEscape_cons (b : UInt8) (s : Str) : queryEscape (b :: s) =
    (if b = 32 then [43] else if escapesInQuery b then percentEncode b else [b]) ++ queryEscape s :=
  rfl

theorem queryEscape_bytes {P : UInt8 → Prop} (hp : P percent) (hs : P 43)
    (h : ∀ b, escapesInQuery b = false → P b) (s : Str) : ∀ b ∈ queryEscape s, P b := by
  intro b hb
  have ⟨c, _, hc⟩ := List.mem_flatMap.mp hb
  split at hc
  case isTrue => exact List.mem_singleton.mp hc ▸ hs
  case isFalse =>
    split at hc
    case isTrue =>
      cases (percentEncode_plain hc).left
      case inl he => exact he ▸ hp
      case inr he => exact h b he.right
    case isFalse hn =>
      cases List.mem_singleton.mp hc
      exact h b (by simpa using hn)

theorem queryUnescape_queryEscape (s : Str) : queryUnescape (queryEscape s) = some s := by
  induction s
  case nil          => rfl
  case cons b s hi =>
    rw [queryUnescape] at hi ⊢
    rw [queryEscape_cons, List.map_append]
    split
    case isTrue hb =>
      rw [List.map_singleton, if_pos rfl, List.singleton_append, unescape_cons (by decide), hi, hb]
      rfl
    case isFalse hb =>
      split
      case isTrue =>
        have hm : (percentEncode b).map (fun c => if c = 43 then 32 else c) = percentEncode b :=
          (List.map_congr_left fun c hc => if_neg (percentEncode_plain hc).right).trans (List.map_id _)
        rw [hm, unescape_percentEncode, hi]
        rfl
      case isFalse h =>
        have hp : b ≠ percent := by
          rintro rfl
          exact h (by decide)
        have hs : b ≠ 43 := by
          rintro rfl
          exact h (by decide)
        rw [List.map_singleton, if_neg hs, List.singleton_append, unescape_cons hp, hi]
        rfl

theorem all_ne {a : Str} {c : UInt8} (h : c ∉ a) : ∀ d ∈ a, decide (d ≠ c) = true := by
  intro d hd
  have hn : d ≠ c := by
    rintro rfl
    exact h hd
  simpa using hn

-- A cut at the first of a byte.
theorem cut_at {a : Str} {c : UInt8} (h : c ∉ a) (b : Str) :
    (a ++ c :: b).takeWhile (· ≠ c) = a ∧ (a ++ c :: b).dropWhile (· ≠ c) = c :: b := by
  rw [List.takeWhile_append_of_pos (all_ne h), List.dropWhile_append_of_pos (all_ne h)]
  simp

theorem cut_none {a : Str} {c : UInt8} (h : c ∉ a) :
    a.takeWhile (· ≠ c) = a ∧ a.dropWhile (· ≠ c) = [] :=
  ⟨List.takeWhile_eq_self_iff.mpr (all_ne h), List.dropWhile_eq_nil_iff.mpr (all_ne h)⟩

-- What has a meaning in a query is not in its escaped parts.
theorem queryEscape_plain (s : Str) : ∀ b ∈ queryEscape s,
    (b ≠ amp ∧ b ≠ equals ∧ b ≠ 59) ∧ b ≠ hash ∧ isControl b = false :=
  queryEscape_bytes (P := fun b => (b ≠ amp ∧ b ≠ equals ∧ b ≠ 59) ∧ b ≠ hash ∧ isControl b = false)
    (by decide) (by decide) (by simp only [escapesInQuery_eq]; decide +kernel) s

theorem encodeEntry_plain (e : Str × Str) : ∀ b ∈ encodeEntry e,
    (b ≠ amp ∧ b ≠ 59) ∧ b ≠ hash ∧ isControl b = false := by
  intro b hb
  rcases List.mem_append.mp hb with hk | hv
  · exact ⟨⟨(queryEscape_plain _ b hk).left.left, (queryEscape_plain _ b hk).left.right.right⟩,
      (queryEscape_plain _ b hk).right⟩
  · rcases List.mem_cons.mp hv with rfl | hv
    · decide
    · exact ⟨⟨(queryEscape_plain _ b hv).left.left, (queryEscape_plain _ b hv).left.right.right⟩,
        (queryEscape_plain _ b hv).right⟩

theorem entry_encode (e : Str × Str) : parseEntry (encodeEntry e) = some e := by
  have hq : equals ∉ queryEscape e.1 := fun h => (queryEscape_plain e.1 equals h).left.right.left rfl
  have hk : 59 ∉ encodeEntry e := fun h => (encodeEntry_plain e 59 h).left.right rfl
  have ⟨ht, hd⟩ := cut_at hq (queryEscape e.2)
  have hn : encodeEntry e ≠ [] := by simp [encodeEntry]
  rw [parseEntry, if_neg (not_or.mpr ⟨hn, hk⟩), encodeEntry, ht, hd, List.tail_cons, queryUnescape_queryEscape,
    queryUnescape_queryEscape]
  rfl

-- What is encoded is read back.
theorem parseQuery_encodeValues (values : Entries Str) : parseQuery (encodeValues values) = values := by
  cases values
  case nil            => rfl
  case cons e values  =>
    have hm : ∀ part ∈ (e :: values).map encodeEntry, amp ∉ part := by
      intro part hp h
      have ⟨e, _, he⟩ := List.mem_map.mp hp
      exact (encodeEntry_plain e amp (he ▸ h)).left.left rfl
    rw [parseQuery, encodeValues, List.splitOn_intercalate amp hm (by simp), List.filterMap_map]
    refine (List.filterMap_congr fun e _ => entry_encode e).trans ?_
    simp

theorem encodeValues_plain (values : Entries Str) : ∀ b ∈ encodeValues values,
    b ≠ hash ∧ isControl b = false := by
  have plain (e : Str × Str) : ∀ b ∈ encodeEntry e, b ≠ hash ∧ isControl b = false :=
    fun b hb => (encodeEntry_plain e b hb).right
  induction values
  case nil              => exact nofun
  case cons e values hi =>
    cases values
    case nil           => simpa [encodeValues, List.intercalate] using plain e
    case cons f values =>
      have hc : encodeValues (e :: f :: values) = encodeEntry e ++ amp :: encodeValues (f :: values) := by
        simp [encodeValues, List.intercalate]
      simp only [hc, List.forall_mem_append, List.forall_mem_cons]
      exact ⟨plain e, by decide, hi⟩

theorem requestURI_setPath {path p : Str} (hu : unescape path = some p) (hv : URL.validEncoded path)
    (hs : path.head? = some slash) : (URL.setPath path).map URL.requestURI = some path := by
  have hn : path ≠ [] := by
    rintro rfl
    cases hs
  have he : URL.escapedPath ⟨p, if path = escape p then [] else path⟩ = path := by
    unfold URL.escapedPath
    by_cases hp : path = escape p
    case neg => simp [hp, hn, hv, hu]
    case pos =>
      have hstar : p ≠ str "*" := by
        rintro rfl
        rw [hp] at hs
        exact absurd hs (by decide)
      rw [if_pos hp, if_neg (fun h => h.left rfl), if_neg hstar, hp]
  simp [URL.setPath, hu, URL.requestURI, he, hn]

-- A path is sent as it is written, with or without a query.
section Target

variable {path p query : Str} (hu : unescape path = some p) (hv : URL.validEncoded path)
  (hs : path.head? = some slash)
  (hp : ∀ b ∈ path, b ≠ hash ∧ b ≠ question ∧ isControl b = false)

include hu hv hs hp

theorem target_path : target path = some (path, []) := by
  have hc : path.any isControl = false := by
    simpa using fun b hb => (hp b hb).right.right
  have hh := (cut_none fun h => (hp hash h).left rfl).left
  have ⟨ht, hd⟩ := cut_none fun h => (hp question h).right.left rfl
  have ⟨u, hu, he⟩ := Option.map_eq_some_iff.mp (requestURI_setPath hu hv hs)
  rw [target, hc, if_neg (by decide)]
  simp only [hh, ht, hd, hu, Option.map_some, he, List.tail_nil]

theorem target_query (hq : ∀ b ∈ query, b ≠ hash ∧ isControl b = false) :
    target (path ++ question :: query) = some (path, query) := by
  have hc : (path ++ question :: query).any isControl = false := by
    rw [List.any_eq_false]
    simp only [List.forall_mem_append, List.forall_mem_cons, Bool.not_eq_true]
    exact ⟨fun b hb => (hp b hb).right.right, by decide, fun b hb => (hq b hb).right⟩
  have hh : hash ∉ path ++ question :: query := by
    intro h
    rcases List.mem_append.mp h with h | h
    · exact (hp hash h).left rfl
    · rcases List.mem_cons.mp h with h | h
      · exact absurd h (by decide)
      · exact (hq hash h).left rfl
  have ⟨ht, hd⟩ := cut_at (fun h => (hp question h).right.left rfl) query
  have ⟨u, hu, he⟩ := Option.map_eq_some_iff.mp (requestURI_setPath hu hv hs)
  rw [target, hc, if_neg (by decide)]
  simp only [(cut_none hh).left, ht, hd, hu, Option.map_some, he, List.tail_cons]

end Target

-- A path by the words between its slashes.
def pathOf (ws : List Str) : Str :=
  ws.flatMap fun w => slash :: pathEscape w

section PathOf

variable {ws : List Str}

theorem pathOf_cons (w : Str) (ws : List Str) : pathOf (w :: ws) = slash :: (pathEscape w ++ pathOf ws) :=
  rfl

theorem pathEscape_plain (w : Str) : ∀ b ∈ pathEscape w,
    (b ≠ hash ∧ b ≠ question ∧ isControl b = false) ∧ b ≠ slash :=
  pathEscape_bytes (P := fun b => (b ≠ hash ∧ b ≠ question ∧ isControl b = false) ∧ b ≠ slash)
    (by decide) (by simp only [escapesInSegment_eq]; decide +kernel) w

-- The check of net/url for one byte.
theorem pathEscape_valid (w : Str) : URL.validEncoded (pathEscape w) :=
  List.all_eq_true.mpr <| pathEscape_bytes
    (P := fun b => ((str "!$&'()*+,;=:@[]%").contains b || !shouldEscape b) = true) (by decide)
    (fun b hb => by simp [shouldEscape_of_segment hb]) w

theorem pathOf_plain (ws : List Str) : ∀ b ∈ pathOf ws,
    b ≠ hash ∧ b ≠ question ∧ isControl b = false := by
  intro b hb
  have ⟨w, _, hb⟩ := List.mem_flatMap.mp hb
  rcases List.mem_cons.mp hb with rfl | hb
  · decide
  · exact (pathEscape_plain w b hb).left

theorem pathOf_valid (ws : List Str) : URL.validEncoded (pathOf ws) := by
  refine List.all_eq_true.mpr fun b hb => ?_
  have ⟨w, _, hb⟩ := List.mem_flatMap.mp hb
  rcases List.mem_cons.mp hb with rfl | hb
  · decide
  · exact List.all_eq_true.mp (pathEscape_valid w) b hb

theorem unescape_pathOf (ws : List Str) : unescape (pathOf ws) = some (ws.flatMap (slash :: ·)) := by
  induction ws
  case nil          => rfl
  case cons w ws hi =>
    rw [pathOf, List.flatMap_cons, List.cons_append, unescape_cons (by decide), unescape_pathEscape_append]
    rw [pathOf] at hi
    rw [hi]
    rfl

-- Every word is one segment of the path.
theorem segments_pathOf (ws : List Str) : segments (pathOf ws) = [] :: ws.map pathEscape := by
  induction ws
  case nil          => rfl
  case cons w ws hi =>
    have hs : slash ∉ pathEscape w := fun h => (pathEscape_plain w slash h).right rfl
    rw [pathOf_cons, segments_slash, segments_append hs, hi]
    simp

theorem pathOf_head (h : ws ≠ []) : (pathOf ws).head? = some slash := by
  cases ws
  case nil  => exact absurd rfl h
  case cons => rfl

theorem target_pathOf (h : ws ≠ []) : target (pathOf ws) = some (pathOf ws, []) :=
  target_path (unescape_pathOf ws) (pathOf_valid ws) (pathOf_head h) (pathOf_plain ws)

theorem target_pathOf_query (h : ws ≠ []) (values : Entries Str) :
    target (pathOf ws ++ question :: encodeValues values) = some (pathOf ws, encodeValues values) :=
  target_query (unescape_pathOf ws) (pathOf_valid ws) (pathOf_head h) (pathOf_plain ws)
    (encodeValues_plain values)

end PathOf
end Go.Url
