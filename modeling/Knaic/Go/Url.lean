import Knaic.Go.Basic

namespace Go.Url

def slash : UInt8 :=
  47

def percent : UInt8 :=
  37

def isAlnum (b : UInt8) : Bool :=
  (48 ≤ b && b ≤ 57) || (65 ≤ b && b ≤ 90) || (97 ≤ b && b ≤ 122)

-- `shouldEscape` of net/url in its mode for paths.
def shouldEscape (b : UInt8) : Bool :=
  !(isAlnum b || (str "-_.~$&+,/:;=@").contains b)

def upperHex (n : UInt8) : UInt8 :=
  if n < 10 then 48 + n else 55 + n

def escapeByte (b : UInt8) : Str :=
  if shouldEscape b then [percent, upperHex (b / 16), upperHex (b % 16)] else [b]

def escape (s : Str) : Str :=
  s.flatMap escapeByte

def unhex (b : UInt8) : Option UInt8 :=
  if 48 ≤ b && b ≤ 57 then some (b - 48)
  else if 97 ≤ b && b ≤ 102 then some (b - 87)
  else if 65 ≤ b && b ≤ 70 then some (b - 55)
  else none

def unescape : Str → Option Str
  | []     => some []
  | b :: s =>
    if b = percent then
      match s with
      | x :: y :: s => do
        let h ← unhex x
        let l ← unhex y
        let s ← unescape s
        return (h * 16 + l) :: s
      | _ => none
    else do
      let s ← unescape s
      return b :: s

-- A path in its two forms. The raw one is only kept when it says more than the other.
structure URL where
  path    : Str
  rawPath : Str := []
deriving DecidableEq

namespace URL

def setPath (p : Str) : Option URL := do
  let path ← unescape p
  return { path, rawPath := if p = escape path then [] else p }

-- `validEncoded` of net/url in its mode for paths.
def validEncoded (s : Str) : Bool :=
  s.all fun b => (str "!$&'()*+,;=:@[]%").contains b || !shouldEscape b

def escapedPath (u : URL) : Str :=
  if u.rawPath ≠ [] ∧ validEncoded u.rawPath ∧ unescape u.rawPath = some u.path then
    u.rawPath
  else if u.path = str "*" then
    str "*"
  else
    escape u.path

-- The path as the client of net/http writes it into the request.
def requestURI (u : URL) : Str :=
  if u.escapedPath = [] then [slash] else u.escapedPath

end URL

def singleJoiningSlash (a b : Str) : Str :=
  match a.hasSuffix [slash], b.hasPrefix [slash] with
  | true, true   => a ++ b.tail
  | false, false => a ++ slash :: b
  | _, _         => a ++ b

def joinURLPath (a b : URL) : URL :=
  if a.rawPath = [] ∧ b.rawPath = [] then
    { path := singleJoiningSlash a.path b.path }
  else
    match a.escapedPath.hasSuffix [slash], b.escapedPath.hasPrefix [slash] with
    | true, true   => ⟨a.path ++ b.path.tail, a.escapedPath ++ b.escapedPath.tail⟩
    | false, false => ⟨a.path ++ slash :: b.path, a.escapedPath ++ slash :: b.escapedPath⟩
    | _, _         => ⟨a.path ++ b.path, a.escapedPath ++ b.escapedPath⟩

-- What the director of `httputil.NewSingleHostReverseProxy` does to the path.
def director (target req : URL) : URL :=
  joinURLPath target req

-- The parts of a path between slashes.
def segments (s : Str) : List Str :=
  s.splitOn slash

-- The parts as the other end reads them.
def decodedSegments (s : Str) : List (Option Str) :=
  (segments s).map unescape

-- What the digits of an escape are, digit by digit.
theorem upperHex_digit : ∀ n : UInt8, n < 16 →
    unhex (upperHex n) = some n ∧ shouldEscape (upperHex n) = false ∧ upperHex n ≠ slash := by
  decide +kernel

theorem unhex_upperHex (n : UInt8) (h : n < 16) : unhex (upperHex n) = some n :=
  (upperHex_digit n h).left

theorem div_mul_add_mod (b : UInt8) : b / 16 * 16 + b % 16 = b := by
  rw [← UInt8.toNat_inj, UInt8.toNat_add, UInt8.toNat_mul, UInt8.toNat_div, UInt8.toNat_mod]
  have h := b.toNat_lt
  simp only [UInt8.reduceToNat]
  omega

theorem div_lt (b : UInt8) : b / 16 < 16 := by
  rw [UInt8.lt_iff_toNat_lt, UInt8.toNat_div]
  have h := b.toNat_lt
  simp only [UInt8.reduceToNat]
  omega

theorem mod_lt (b : UInt8) : b % 16 < 16 := by
  rw [UInt8.lt_iff_toNat_lt, UInt8.toNat_mod]
  exact Nat.mod_lt _ (by decide)

theorem unhex_slash : unhex slash = none := by
  decide

theorem unhex_percent : unhex percent = none := by
  decide

theorem unhex_ne {x v : UInt8} (h : unhex x = some v) : x ≠ slash ∧ x ≠ percent := by
  constructor
  all_goals
    rintro rfl
    simp [unhex_slash, unhex_percent] at h

theorem upperHex_plain (n : UInt8) (h : n < 16) : shouldEscape (upperHex n) = false :=
  (upperHex_digit n h).right.left

theorem upperHex_ne_slash (n : UInt8) (h : n < 16) : upperHex n ≠ slash :=
  (upperHex_digit n h).right.right

theorem percent_escaped : shouldEscape percent := by
  decide

theorem slash_not_mem_escapeByte {b : UInt8} (h : b ≠ slash) : slash ∉ escapeByte b := by
  have hd := upperHex_ne_slash _ (div_lt b)
  have hm := upperHex_ne_slash _ (mod_lt b)
  have hp : slash ≠ percent := by decide
  simp only [escapeByte]
  split <;> simp [hp, hd.symm, hm.symm, h.symm]

@[simp]
theorem escape_nil : escape [] = [] :=
  rfl

@[simp]
theorem escape_cons (b : UInt8) (s : Str) : escape (b :: s) = escapeByte b ++ escape s :=
  rfl

@[simp]
theorem escape_append (s t : Str) : escape (s ++ t) = escape s ++ escape t :=
  List.flatMap_append

@[simp]
theorem escapeByte_slash : escapeByte slash = [slash] := by
  decide

theorem validEncoded_escape (s : Str) : URL.validEncoded (escape s) := by
  induction s
  case nil => rfl
  case cons b s hi =>
    have hd := upperHex_plain _ (div_lt b)
    have hm := upperHex_plain _ (mod_lt b)
    have hp : percent ∈ str "!$&'()*+,;=:@[]%" := by decide
    simp only [URL.validEncoded, escape_cons, List.all_append, Bool.and_eq_true] at hi ⊢
    refine ⟨?_, hi⟩
    simp only [escapeByte]
    split <;> simp_all

theorem unescape_cons {b : UInt8} (h : b ≠ percent) (s : Str) :
    unescape (b :: s) = (unescape s).map (b :: ·) := by
  rw [unescape.eq_def]
  cases hs : unescape s <;> simp [h, hs]

theorem unescape_escapeByte (b : UInt8) (s : Str) :
    unescape (escapeByte b ++ s) = (unescape s).map (b :: ·) := by
  simp only [escapeByte]
  split
  case isTrue =>
    have hd := unhex_upperHex _ (div_lt b)
    have hm := unhex_upperHex _ (mod_lt b)
    cases hs : unescape s <;> simp [unescape, hd, hm, div_mul_add_mod, hs]
  case isFalse h =>
    apply unescape_cons
    rintro rfl
    exact h percent_escaped

theorem unescape_escape (s : Str) : unescape (escape s) = some s := by
  induction s
  case nil => rfl
  case cons hi => simp [unescape_escapeByte, hi]

theorem escape_inj {s t : Str} : escape s = escape t ↔ s = t := by
  constructor
  · intro h
    have hs := congrArg unescape h
    simpa [unescape_escape] using hs
  · exact congrArg escape

-- An escape of three bytes becomes one byte, and no other byte changes.
-- The rule for what unescapes: byte by byte, where two digits after a percent sign stand for one.
theorem unescape_rule {P : Str → Str → Prop} (hn : P [] [])
    (he : ∀ {x y h l s t}, unhex x = some h → unhex y = some l → unescape s = some t → P s t →
      P (percent :: x :: y :: s) ((h * 16 + l) :: t))
    (hb : ∀ {b s t}, b ≠ percent → unescape s = some t → P s t → P (b :: s) (b :: t)) {s t : Str}
    (h : unescape s = some t) : P s t := by
  fun_induction unescape s generalizing t
  case case1 =>
    cases h
    exact hn
  case case2 x y s hi =>
    simp only [Option.bind_eq_bind, Option.bind_eq_some_iff, Option.pure_def] at h
    have ⟨v, hx, w, hy, u, hs, h⟩ := h
    cases h
    exact he hx hy hs (hi hs)
  case case3 => cases h
  case case4 b s hp hi =>
    simp only [Option.bind_eq_bind, Option.bind_eq_some_iff, Option.pure_def] at h
    have ⟨u, hs, h⟩ := h
    cases h
    exact hb hp hs (hi hs)

theorem unescape_length {s t : Str} (h : unescape s = some t) :
    t.length + 2 * s.count percent = s.length := by
  refine unescape_rule (P := fun s t => t.length + 2 * s.count percent = s.length) rfl ?_ ?_ h
  case refine_1 =>
    intro x y v w s t hx hy _ hi
    have hx := (unhex_ne hx).right
    have hy := (unhex_ne hy).right
    simp [hx, hy]
    omega
  case refine_2 =>
    intro b s t hp _ hi
    simp [hp]
    omega

theorem unescape_count_slash {s t : Str} (h : unescape s = some t) :
    s.count slash ≤ t.count slash := by
  refine unescape_rule (P := fun s t => s.count slash ≤ t.count slash) (Nat.le_refl _) ?_ ?_ h
  case refine_1 =>
    intro x y v w s t hx hy _ hi
    have hx := (unhex_ne hx).left
    have hy := (unhex_ne hy).left
    have hp : percent ≠ slash := by decide
    simp [List.count_cons, hx, hy, hp]
    omega
  case refine_2 =>
    intro b s t _ _ hi
    simp [List.count_cons]
    omega

theorem unescape_of_no_percent {s : Str} (h : percent ∉ s) : unescape s = some s := by
  induction s
  case nil => rfl
  case cons b s hi =>
    simp only [List.mem_cons, not_or] at h
    simp [unescape_cons (Ne.symm h.left), hi h.right]

theorem unescape_self_iff {s : Str} : unescape s = some s ↔ percent ∉ s := by
  constructor
  · intro h
    have hl := unescape_length h
    have hc : s.count percent = 0 := by omega
    exact List.count_eq_zero.mp hc
  · exact unescape_of_no_percent

theorem segments_ne_nil (s : Str) : segments s ≠ [] :=
  List.splitOn_ne_nil slash s

@[simp]
theorem segments_append_slash (s t : Str) :
    segments (s ++ slash :: t) = segments s ++ segments t :=
  List.splitOn_append_cons_self ..

@[simp]
theorem segments_slash (s : Str) : segments (slash :: s) = [] :: segments s :=
  segments_append_slash [] s

theorem segments_append {w : Str} (h : slash ∉ w) (s : Str) :
    segments (w ++ s) = (segments s).modifyHead (w ++ ·) := by
  have ⟨r, rs, hr⟩ := List.exists_cons_of_ne_nil (segments_ne_nil s)
  induction w
  case nil => simp [hr]
  case cons b w hi =>
    simp only [List.mem_cons, not_or] at h
    have hb : (b == slash) = false := by simpa using Ne.symm h.left
    have hw := hi h.right
    simp only [segments, List.cons_append] at hw ⊢
    simp [List.splitOn_cons_eq_if_modifyHead, hb, hw, Function.comp_def]

theorem segments_escape (s : Str) : segments (escape s) = (segments s).map escape := by
  induction s
  case nil => rfl
  case cons b s hi =>
    by_cases hb : b = slash
    case pos => simp [hb, hi]
    case neg =>
      have hs := segments_append (w := [b]) (by simpa using Ne.symm hb) s
      have he := segments_append (slash_not_mem_escapeByte hb) (escape s)
      have ⟨r, rs, hr⟩ := List.exists_cons_of_ne_nil (segments_ne_nil s)
      simp_all

theorem segments_length (s : Str) : (segments s).length = s.count slash + 1 := by
  induction s
  case nil => rfl
  case cons b s hi =>
    by_cases hb : b = slash
    case pos => simp [hb, hi]
    case neg =>
      have hs := segments_append (w := [b]) (by simpa using Ne.symm hb) s
      simp_all

theorem mem_segments_iff {b : UInt8} (hb : b ≠ slash) (s : Str) :
    (∃ w ∈ segments s, b ∈ w) ↔ b ∈ s := by
  induction s
  case nil => simp [segments]
  case cons c s hi =>
    by_cases hc : c = slash
    case pos => simp_all
    case neg =>
      have hs := segments_append (w := [c]) (by simpa using Ne.symm hc) s
      have ⟨r, rs, hr⟩ := List.exists_cons_of_ne_nil (segments_ne_nil s)
      simp_all
      grind

theorem slash_not_mem_segments {s w : Str} (h : w ∈ segments s) : slash ∉ w := by
  induction s generalizing w
  case nil => simp_all [segments]
  case cons c s hi =>
    by_cases hc : c = slash
    case pos =>
      simp only [hc, segments_slash, List.mem_cons] at h
      cases h
      case inl h => simp [h]
      case inr h => exact hi h
    case neg =>
      have hs := segments_append (w := [c]) (by simpa using Ne.symm hc) s
      have ⟨r, rs, hr⟩ := List.exists_cons_of_ne_nil (segments_ne_nil s)
      simp_all
      grind

def join (ws : List Str) : Str :=
  [slash].intercalate ws

theorem segments_join {ws : List Str} (h : ∀ w ∈ ws, slash ∉ w) (hn : ws ≠ []) :
    segments (join ws) = ws :=
  List.splitOn_intercalate slash h hn

theorem segments_inj {s t : Str} (h : segments s = segments t) : s = t := by
  have hj (s : Str) : join (segments s) = s := List.intercalate_splitOn slash
  calc
    s = join (segments s) := (hj s).symm
    _ = join (segments t) := by rw [h]
    _ = t                 := hj t

theorem slash_not_mem_escape {s : Str} (h : slash ∉ s) : slash ∉ escape s := by
  induction s
  case nil => simp
  case cons b s hi =>
    simp only [List.mem_cons, not_or] at h
    have hb := slash_not_mem_escapeByte (Ne.symm h.left)
    simp [hb, hi h.right]

theorem join_escape {ws : List Str} (h : ∀ w ∈ ws, slash ∉ w) :
    join (ws.map escape) = escape (join ws) := by
  by_cases hn : ws = []
  case pos => simp [hn, join]
  case neg =>
    have he : ∀ w ∈ ws.map escape, slash ∉ w := by
      simp only [List.mem_map, forall_exists_index, and_imp, forall_apply_eq_imp_iff₂]
      exact fun w hw => slash_not_mem_escape (h w hw)
    apply segments_inj
    rw [segments_join he (by simpa using hn), segments_escape, segments_join h hn]

theorem escape_eq_nil {s : Str} : escape s = [] ↔ s = [] :=
  escape_inj (t := [])

-- Escaping once more is lost at the other end only where there was nothing to escape.
theorem decodedSegments_escape_iff (s : Str) :
    decodedSegments (escape s) = decodedSegments s ↔ percent ∉ s := by
  have hp : percent ≠ slash := by decide
  rw [← mem_segments_iff hp]
  simp only [decodedSegments, segments_escape, List.map_map, List.map_inj_left,
    Function.comp_apply, unescape_escape, eq_comm (a := some _), unescape_self_iff]
  simp

namespace URL

-- A path that the client wrote as `escape` writes it, so that no raw form is kept.
def DefaultEncoded (p : Str) : Prop :=
  (unescape p).map escape = some p

instance (p : Str) : Decidable (DefaultEncoded p) :=
  inferInstanceAs (Decidable (_ = _))

theorem setPath_default {p : Str} {u : URL} (h : setPath p = some u) (hd : DefaultEncoded p) :
    p = escape u.path ∧ u.rawPath = [] := by
  cases hp : unescape p <;> simp [setPath, DefaultEncoded, hp] at h hd
  simp [← h, hd]

theorem setPath_raw {p : Str} {u : URL} (h : setPath p = some u) (hd : ¬DefaultEncoded p) :
    unescape p = some u.path ∧ u.rawPath = p := by
  cases hp : unescape p <;> simp [setPath, DefaultEncoded, hp] at h hd
  simp [← h, Ne.symm hd]

theorem escapedPath_of_path {u : URL} (h : u.rawPath = [] ∨ unescape u.rawPath ≠ some u.path)
    {s : Str} (hs : u.path = slash :: s) : u.escapedPath = slash :: escape s := by
  have hn : ¬(u.rawPath ≠ [] ∧ validEncoded u.rawPath ∧ unescape u.rawPath = some u.path) := by
    grind
  have hp : slash :: s ≠ str "*" := by
    intro h
    simp [slash, str, String.utf8EncodeChar] at h
  rw [escapedPath, if_neg hn, hs, if_neg hp]
  simp

theorem escapedPath_of_escape (s : Str) :
    escapedPath ⟨slash :: s, slash :: escape s⟩ = slash :: escape s := by
  have hv := validEncoded_escape (slash :: s)
  have hu := unescape_escape (slash :: s)
  simp only [escape_cons, escapeByte_slash, List.cons_append, List.nil_append] at hv hu
  simp [escapedPath, hv, hu]

theorem requestURI_path (s : Str) : requestURI { path := slash :: s } = slash :: escape s := by
  have he := escapedPath_of_path (u := { path := slash :: s }) (.inl rfl) rfl
  simp [requestURI, he]

theorem hasSuffix_slash_nil : Str.hasSuffix [] [slash] = false :=
  rfl

theorem hasPrefix_cons (b : UInt8) (s : Str) : Str.hasPrefix (b :: s) [slash] = (slash == b) := by
  simp [Str.hasPrefix, List.isPrefixOf]

theorem hasPrefix_slash_cons (s : Str) : Str.hasPrefix (slash :: s) [slash] = true := by
  simp [hasPrefix_cons]

-- A raw form that does not belong to the path is thrown away on the way.
theorem requestURI_director {u : URL} {s : Str} (hs : u.path = slash :: s)
    (h : u.rawPath = [] ∨ unescape u.rawPath ≠ some u.path) :
    (director { path := [] } u).requestURI = slash :: escape s := by
  have he := escapedPath_of_path h hs
  by_cases hr : u.rawPath = []
  case pos =>
    have hj : director { path := [] } u = { path := slash :: s } := by
      simp [director, joinURLPath, hr, hs, singleJoiningSlash, hasSuffix_slash_nil,
        hasPrefix_slash_cons]
    rw [hj, requestURI_path]
  case neg =>
    have hn : escapedPath { path := [] } = [] := by decide
    have hj : director { path := [] } u = ⟨slash :: s, slash :: escape s⟩ := by
      simp [director, joinURLPath, hr, he, hs, hn, hasSuffix_slash_nil, hasPrefix_slash_cons]
    simp [hj, requestURI, escapedPath_of_escape]

end URL

end Go.Url
