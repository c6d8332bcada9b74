import Knaic.Go.Query

-- Forms: `url.Values`, and how a browser writes one.
namespace Go.Url

abbrev Values :=
  Entries (List Str)

namespace Values

def add (m : Values) (e : Str × Str) : Values :=
  m.set e.1 ((m.get e.1).getD [] ++ [e.2])

def ofEntries (l : List (Str × Str)) : Values :=
  l.foldl add []

def entries (m : Values) : List (Str × Str) :=
  m.flatMap fun e => e.2.map (e.1, ·)

def encode (m : Values) : Str :=
  encodeValues m.entries

end Values

-- `url.ParseQuery`, without an error.
def parseValues (s : Str) : Option Values :=
  if (s.splitOn amp).all fun part => part = [] || (parseEntry part).isSome then
    some (Values.ofEntries (parseQuery s))
  else
    none

-- The bytes that `URLSearchParams` escapes.
def escapesInForm (b : UInt8) : Bool :=
  !(isAlnum b || (str "*-._").contains b)

def formEscape (escapes : UInt8 → Bool) (s : Str) : Str :=
  s.flatMap fun b => if b = 32 then [43] else if escapes b then percentEncode b else [b]

def formEntry (escapes : UInt8 → Bool) (e : Str × Str) : Str :=
  formEscape escapes e.1 ++ equals :: formEscape escapes e.2

-- `URLSearchParams.toString`, for texts in UTF-8.
def searchParams (l : List (Str × Str)) : Str :=
  [amp].intercalate (l.map (formEntry escapesInForm))

-- What a key stands for among some entries.
def valuesOf (l : List (Str × Str)) (k : Str) : List Str :=
  (l.filter fun e => e.1 = k).map Prod.snd

section Values

variable {l : List (Str × Str)} {m : Values} {k : Str}

theorem valuesOf_cons (e : Str × Str) (l : List (Str × Str)) (k : Str) :
    valuesOf (e :: l) k = if e.1 = k then e.2 :: valuesOf l k else valuesOf l k := by
  by_cases h : e.1 = k <;> simp [valuesOf, h]

theorem valuesOf_append (l l' : List (Str × Str)) (k : Str) : valuesOf (l ++ l') k = valuesOf l k ++ valuesOf l' k := by
  simp [valuesOf]

-- No key has no value.
structure Values.Ok (m : Values) : Prop where
  sorted : m.Sorted
  filled : ∀ k, m.get k ≠ some []

theorem get_foldl_add (l : List (Str × Str)) (m : Values) (k : Str) : ((l.foldl Values.add m).get k).getD [] =
    (m.get k).getD [] ++ valuesOf l k := by
  induction l generalizing m
  case nil         => simp [valuesOf]
  case cons e l hi =>
    rw [List.foldl_cons, hi, Values.add, Entries.get_set, valuesOf_cons]
    by_cases h : k = e.1
    case pos => rw [if_pos h, if_pos h.symm, Option.getD_some, h, List.append_assoc, List.singleton_append]
    case neg => rw [if_neg h, if_neg (Ne.symm h)]

theorem Values.Ok.nil : Values.Ok [] :=
  ⟨.nil, fun _ => nofun⟩

theorem Values.Ok.set (h : m.Ok) (k : Str) {vs : List Str} (hv : vs ≠ []) : Values.Ok (m.set k vs) := by
  refine ⟨h.sorted.set k vs, fun k' => ?_⟩
  rw [Entries.get_set]
  split
  case isTrue  => simpa using hv
  case isFalse => exact h.filled k'

theorem Values.Ok.foldl_add (h : m.Ok) (l : List (Str × Str)) : Values.Ok (l.foldl Values.add m) := by
  induction l generalizing m
  case nil         => exact h
  case cons e l hi => exact hi (h.set e.1 (List.append_ne_nil_of_right_ne_nil _ (List.cons_ne_nil _ _)))

theorem ofEntries_ok (l : List (Str × Str)) : (Values.ofEntries l).Ok :=
  Values.Ok.nil.foldl_add l

theorem valuesOf_ofEntries (l : List (Str × Str)) (k : Str) : ((Values.ofEntries l).get k).getD [] = valuesOf l k := by
  rw [Values.ofEntries, get_foldl_add]
  rfl

-- A form is told by what its keys stand for.
theorem Values.Ok.ext {m' : Values} (h : m.Ok) (h' : m'.Ok) (hg : ∀ k, (m.get k).getD [] = (m'.get k).getD []) : m = m' := by
  refine h.sorted.ext h'.sorted fun k => ?_
  have hk := hg k
  have hf := h.filled k
  have hf' := h'.filled k
  cases hm : m.get k <;> cases hm' : m'.get k <;> simp_all

theorem valuesOf_entries (h : m.Sorted) (k : Str) : valuesOf m.entries k = (m.get k).getD [] := by
  have own (k' : Str) (vs : List Str) : valuesOf (vs.map (k', ·)) k = if k' = k then vs else [] := by
    by_cases hk : k' = k <;> simp [valuesOf, hk, List.filter_map, Function.comp_def]
  induction m
  case nil         => rfl
  case cons e m hi =>
    have hm := hi (List.Pairwise.of_cons h)
    have hc : Values.entries (e :: m) = e.2.map (e.1, ·) ++ Values.entries m := rfl
    rw [hc, valuesOf_append, own, hm, Entries.get_cons]
    split
    case isTrue hk  =>
      have ht : Entries.get m k = none := hk ▸ h.get_tail
      rw [ht]
      exact List.append_nil _
    case isFalse hk => rfl

theorem ofEntries_entries (h : m.Ok) : Values.ofEntries m.entries = m :=
  (ofEntries_ok _).ext h fun k => by rw [valuesOf_ofEntries, valuesOf_entries h.sorted]

end Values

section Escape

variable {escapes : UInt8 → Bool} {l : List (Str × Str)}

theorem formEscape_cons (b : UInt8) (s : Str) : formEscape escapes (b :: s) =
    (if b = 32 then [43] else if escapes b then percentEncode b else [b]) ++ formEscape escapes s :=
  rfl

theorem queryUnescape_formEscape (he : escapes percent ∧ escapes 43) (s : Str) :
    queryUnescape (formEscape escapes s) = some s := by
  induction s
  case nil         => rfl
  case cons b s hi =>
    rw [queryUnescape] at hi ⊢
    rw [formEscape_cons, List.map_append]
    split
    case isTrue hb  =>
      rw [List.map_singleton, if_pos rfl, List.singleton_append, unescape_cons (by decide), hi, hb]
      rfl
    split
    case isTrue     =>
      have hm : (percentEncode b).map (fun c => if c = 43 then 32 else c) = percentEncode b :=
        (List.map_congr_left fun c hc => if_neg (percentEncode_plain hc).right).trans (List.map_id _)
      rw [hm, unescape_percentEncode, hi]
      rfl
    case isFalse hb =>
      have hp : b ≠ percent := fun h => hb (h ▸ he.left)
      have hs : b ≠ 43 := fun h => hb (h ▸ he.right)
      rw [List.map_singleton, if_neg hs, List.singleton_append, unescape_cons hp, hi]
      rfl

-- What has a meaning in a form is not in its escaped parts.
def Separates (escapes : UInt8 → Bool) : Prop :=
  (escapes percent ∧ escapes 43) ∧ escapes amp ∧ escapes equals ∧ escapes 59

theorem formEscape_plain (he : Separates escapes) (s : Str) : ∀ b ∈ formEscape escapes s, b ≠ amp ∧ b ≠ equals ∧ b ≠ 59 := by
  have digit : ∀ b, escapesInQuery b = false → b ≠ amp ∧ b ≠ equals ∧ b ≠ 59 := by
    simp only [escapesInQuery_eq]
    decide +kernel
  intro b hb
  obtain ⟨c, _, hc⟩ := List.mem_flatMap.mp hb
  split at hc
  case isTrue => exact List.mem_singleton.mp hc ▸ by decide
  split at hc
  case isTrue =>
    cases (percentEncode_plain hc).left
    case inl hp => exact hp ▸ by decide
    case inr hd => exact digit b hd.right
  case isFalse hn =>
    cases List.mem_singleton.mp hc
    exact ⟨fun h => hn (h ▸ he.right.left), fun h => hn (h ▸ he.right.right.left), fun h => hn (h ▸ he.right.right.right)⟩

theorem parseEntry_formEntry (he : Separates escapes) (e : Str × Str) :
    parseEntry (formEntry escapes e) = some e ∧ amp ∉ formEntry escapes e := by
  have hk := formEscape_plain he e.1
  have hv := formEscape_plain he e.2
  have hm : ∀ b ∈ formEntry escapes e, b ≠ amp ∧ b ≠ 59 :=
    List.forall_mem_append.mpr ⟨fun b hb => ⟨(hk b hb).left, (hk b hb).right.right⟩,
      List.forall_mem_cons.mpr ⟨by decide, fun b hb => ⟨(hv b hb).left, (hv b hb).right.right⟩⟩⟩
  have ⟨ht, hd⟩ := cut_at (fun h => (hk equals h).right.left rfl : equals ∉ formEscape escapes e.1) (formEscape escapes e.2)
  have hn : formEntry escapes e ≠ [] := by simp [formEntry]
  refine ⟨?_, fun h => (hm amp h).left rfl⟩
  rw [parseEntry, if_neg (not_or.mpr ⟨hn, fun h => (hm 59 h).right rfl⟩), formEntry, ht, hd, List.tail_cons,
    queryUnescape_formEscape he.left, queryUnescape_formEscape he.left]
  rfl

-- Entries that are written with any such escapes are read back.
theorem parseValues_join (he : Separates escapes) (l : List (Str × Str)) :
    parseValues ([amp].intercalate (l.map (formEntry escapes))) = some (Values.ofEntries l) := by
  cases l
  case nil      => rfl
  case cons e l =>
    have hp (part : Str) (h : part ∈ (e :: l).map (formEntry escapes)) : amp ∉ part ∧ (parseEntry part).isSome := by
      obtain ⟨f, _, rfl⟩ := List.mem_map.mp h
      exact ⟨(parseEntry_formEntry he f).right, Option.isSome_of_mem (parseEntry_formEntry he f).left⟩
    have hs : ([amp].intercalate ((e :: l).map (formEntry escapes))).splitOn amp = (e :: l).map (formEntry escapes) :=
      List.splitOn_intercalate amp (fun part h => (hp part h).left) (by simp)
    have hq : parseQuery ([amp].intercalate ((e :: l).map (formEntry escapes))) = e :: l := by
      rw [parseQuery, hs, List.filterMap_map]
      exact (List.filterMap_congr fun f _ => (parseEntry_formEntry he f).left).trans (by simp)
    rw [parseValues, hs, hq, if_pos]
    exact List.all_eq_true.mpr fun part h => by simp [(hp part h).right]

theorem separates_query : Separates escapesInQuery := by
  simp only [Separates, escapesInQuery_eq]
  decide

theorem separates_form : Separates escapesInForm := by
  have h : str "*-._" = [42, 45, 46, 95] := by decide
  simp only [Separates, escapesInForm, h]
  decide

theorem parseValues_some {s : Str} (h : parseValues s = some m) : m = .ofEntries (parseQuery s) := by
  unfold parseValues at h
  split at h
  case isTrue  => exact (Option.some.inj h).symm
  case isFalse => cases h

theorem parseValues_encode {m : Values} (h : m.Ok) : parseValues m.encode = some m :=
  (parseValues_join separates_query m.entries).trans (congrArg some (ofEntries_entries h))

theorem parseValues_searchParams (l : List (Str × Str)) : parseValues (searchParams l) = some (Values.ofEntries l) :=
  parseValues_join separates_form l

end Escape
end Go.Url
