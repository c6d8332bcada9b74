import Knaic.Go.Query

namespace Go.Url

def colon : UInt8 :=
  58

def at' : UInt8 :=
  64

-- `shouldEscape` of net/url in its modes for a host, for a user with a password and for a fragment.
def escapesInHost (b : UInt8) : Bool :=
  !(isAlnum b || (str "!$&'()*+,;=:[]<>\"-_.~").contains b)

def escapesInUser (b : UInt8) : Bool :=
  !(isAlnum b || (str "-_.~$&+,;=").contains b)

def escapesInFragment (b : UInt8) : Bool :=
  !(isAlnum b || (str "-_.~$&+,/:;=?@!()*").contains b)

def escapeWith (escapes : UInt8 → Bool) (s : Str) : Str :=
  s.flatMap fun b => if escapes b then percentEncode b else [b]

-- `unescape` in the modes that only take some bytes, as they are or escaped.
def unescapeWhere (plain coded : UInt8 → Bool) : Str → Option Str
  | []     => some []
  | b :: s =>
    if b = percent then
      match s with
      | x :: y :: s => do
        let h ← unhex x
        let l ← unhex y
        if coded (h * 16 + l) then
          let s ← unescapeWhere plain coded s
          return (h * 16 + l) :: s
        else none
      | _ => none
    else if plain b then do
      let s ← unescapeWhere plain coded s
      return b :: s
    else none

def plainInHost (b : UInt8) : Bool :=
  0x80 ≤ b || !escapesInHost b

-- A host is only escaped where its bytes are not ASCII, and a zone where they could stand as they are.
def unescapeHost : Str → Option Str :=
  unescapeWhere plainInHost fun v => 0x80 ≤ v || v = percent

def unescapeZone : Str → Option Str :=
  unescapeWhere plainInHost fun v => v = percent || v = 32 || !escapesInHost v

def isLetter (b : UInt8) : Bool :=
  (65 ≤ b && b ≤ 90) || (97 ≤ b && b ≤ 122)

def isSchemeByte (b : UInt8) : Bool :=
  isAlnum b || (str "+-.").contains b

def getScheme (rawURL : Str) : Option (Str × Str) :=
  match rawURL.takeWhile isSchemeByte, rawURL.dropWhile isSchemeByte with
  | [], 58 :: _         => none
  | b :: scheme, 58 :: rest => some (if isLetter b then (b :: scheme, rest) else ([], rawURL))
  | _, _                => some ([], rawURL)

def validOptionalPort : Str → Bool
  | []        => true
  | b :: port => b = colon && port.all fun b => 48 ≤ b && b ≤ 57

-- What stands before the last of a byte, and from it on.
def beforeLast (s : Str) (c : UInt8) : Str :=
  (s.reverse.dropWhile (· ≠ c)).tail.reverse

def fromLast (s : Str) (c : UInt8) : Str :=
  c :: (s.reverse.takeWhile (· ≠ c)).reverse

-- What stands before the first of a text.
def beforeFirst (t : Str) : Str → Str
  | []     => []
  | b :: s => if t.isPrefixOf (b :: s) then [] else b :: beforeFirst t s

def parseHost (host : Str) : Option Str :=
  if host.hasPrefix (str "[") then
    if 93 ∉ host ∨ ¬validOptionalPort (fromLast host 93).tail then
      none
    else
      let address := beforeLast host 93
      if address.hasInfix (str "%25") then do
        let front := beforeFirst (str "%25") address
        let host1 ← unescapeHost front
        let host2 ← unescapeZone (address.drop front.length)
        let host3 ← unescapeHost (fromLast host 93)
        return host1 ++ host2 ++ host3
      else
        unescapeHost host
  else if colon ∈ host ∧ ¬validOptionalPort (fromLast host colon) then
    none
  else
    unescapeHost host

structure Userinfo where
  username : Str
  password : Option Str
deriving DecidableEq

def validUserinfo (s : Str) : Bool :=
  s.all fun b => isAlnum b || (str "-._:~!$&'()*+,;=%@").contains b

def parseUserinfo (userinfo : Str) : Option Userinfo := do
  let username ← unescape (userinfo.takeWhile (· ≠ colon))
  if colon ∈ userinfo then
    let password ← unescape (userinfo.dropWhile (· ≠ colon)).tail
    return ⟨username, some password⟩
  else
    return ⟨username, none⟩

def parseAuthority (authority : Str) : Option (Option Userinfo × Str) :=
  if at' ∈ authority then do
    let host ← parseHost (fromLast authority at').tail
    let userinfo := beforeLast authority at'
    if validUserinfo userinfo then
      let user ← parseUserinfo userinfo
      return (some user, host)
    else none
  else do
    let host ← parseHost authority
    return (none, host)

-- A `URL` of net/url with all of its parts. `rootless` is its `Opaque`.
structure Reference extends URL where
  scheme      : Str := []
  rootless    : Str := []
  user        : Option Userinfo := none
  host        : Str := []
  omitHost    : Bool := false
  forceQuery  : Bool := false
  rawQuery    : Str := []
  fragment    : Str := []
  rawFragment : Str := []
deriving DecidableEq

namespace Reference

def isAbs (u : Reference) : Bool :=
  u.scheme ≠ []

def setFragment (u : Reference) (f : Str) : Option Reference := do
  let fragment ← unescape f
  return { u with fragment, rawFragment := if f = escapeWith escapesInFragment fragment then [] else f }

-- `validEncoded` of net/url in its mode for fragments.
def validFragment (s : Str) : Bool :=
  s.all fun b => (str "!$&'()*+,;=:@[]%").contains b || !escapesInFragment b

def escapedFragment (u : Reference) : Str :=
  if u.rawFragment ≠ [] ∧ validFragment u.rawFragment ∧ unescape u.rawFragment = some u.fragment then
    u.rawFragment
  else
    escapeWith escapesInFragment u.fragment

end Reference

def Userinfo.string (u : Userinfo) : Str :=
  escapeWith escapesInUser u.username ++
  (u.password.map fun password => colon :: escapeWith escapesInUser password).getD []

namespace Reference

-- The part of the text between the scheme and the path.
def authority (u : Reference) : Str :=
  if (u.scheme = [] ∧ u.host = [] ∧ u.user = none) ∨ (u.omitHost ∧ u.host = [] ∧ u.user = none) then
    []
  else
    (if u.host ≠ [] ∨ u.path ≠ [] ∨ u.user ≠ none then str "//" else []) ++
    (u.user.map fun user => user.string ++ [at']).getD [] ++
    escapeWith escapesInHost u.host

-- `URL.String`
def string (u : Reference) : Str :=
  let scheme := if u.scheme = [] then [] else u.scheme ++ [colon]
  let query := if u.forceQuery ∨ u.rawQuery ≠ [] then question :: u.rawQuery else []
  let fragment := if u.fragment = [] then [] else hash :: u.escapedFragment
  if u.rootless ≠ [] then
    scheme ++ u.rootless ++ query ++ fragment
  else
    let path := u.escapedPath
    let path := if path ≠ [] ∧ path.head? ≠ some slash ∧ u.host ≠ [] then slash :: path else path
    let dot :=
      if scheme ++ u.authority = [] ∧ path.head? ≠ some slash ∧ colon ∈ path.takeWhile (· ≠ slash) then
        str "./"
      else []
    scheme ++ u.authority ++ dot ++ path ++ query ++ fragment

end Reference

def splitQuery (rest : Str) : Str × Str × Bool :=
  if rest.hasSuffix [question] ∧ rest.count question = 1 then
    (rest.dropLast, [], true)
  else
    (rest.takeWhile (· ≠ question), (rest.dropWhile (· ≠ question)).tail, false)

-- What `parse` does with what stands between the scheme and the query.
def parseRest (scheme rest : Str) : Option Reference :=
  if rest.hasPrefix [slash] = false ∧ scheme ≠ [] then
    some { path := [], scheme, rootless := rest }
  else if rest.hasPrefix [slash] = false ∧ colon ∈ rest.takeWhile (· ≠ slash) then
    none
  else if (scheme ≠ [] ∨ ¬rest.hasPrefix (str "///")) ∧ rest.hasPrefix (str "//") then do
    let (user, host) ← parseAuthority ((rest.drop 2).takeWhile (· ≠ slash))
    let u ← URL.setPath ((rest.drop 2).dropWhile (· ≠ slash))
    return { u with scheme, user, host }
  else do
    let u ← URL.setPath rest
    return { u with scheme, omitHost := scheme ≠ [] && rest.hasPrefix [slash] }

-- `parse`, which is given what stands before the fragment.
def parseFront (rawURL : Str) : Option Reference :=
  if rawURL.any isControl then
    none
  else if rawURL = str "*" then
    some { path := str "*" }
  else do
    let (scheme, rest) ← getScheme rawURL
    let (rest, rawQuery, forceQuery) := splitQuery rest
    let u ← parseRest scheme.toLower rest
    return { u with rawQuery, forceQuery }

-- `Parse`
def parse (rawURL : Str) : Option Reference := do
  let u ← parseFront (rawURL.takeWhile (· ≠ hash))
  let frag := (rawURL.dropWhile (· ≠ hash)).tail
  if frag = [] then return u else u.setFragment frag

theorem unescape_append {w : Str} (h : percent ∉ w) (s : Str) :
    unescape (w ++ s) = (unescape s).map (w ++ ·) := by
  induction w
  case nil         => simp
  case cons b w hi =>
    rw [List.mem_cons, not_or] at h
    rw [List.cons_append, unescape_cons (Ne.symm h.left), hi h.right, Option.map_map]
    rfl

-- What a text has to be to stand before the colon.
def IsScheme (s : Str) : Prop :=
  (∃ b ∈ s.head?, isLetter b) ∧ ∀ b ∈ s, isSchemeByte b

-- The path in what stands between the scheme and the query.
def pathText (rest : Str) : Str :=
  if rest.hasPrefix (str "//") then (rest.drop 2).dropWhile (· ≠ slash) else rest

-- What stands before the query and the fragment.
def front (s : Str) : Str :=
  (s.takeWhile (· ≠ hash)).takeWhile (· ≠ question)

theorem splitQuery_path (rest : Str) : (splitQuery rest).1 = rest.takeWhile (· ≠ question) := by
  unfold splitQuery
  split
  case isFalse => rfl
  case isTrue h =>
    have ⟨p, hp⟩ := List.isSuffixOf_iff_suffix.mp h.left
    have hn : question ∉ p := by
      have hc := h.right
      rw [← hp, List.count_append, List.count_singleton_self] at hc
      exact List.count_eq_zero.mp (by omega)
    rw [← hp, List.dropLast_concat, (cut_at hn []).left]

theorem splitQuery_query (rest : Str) : ∀ b ∈ (splitQuery rest).2.1, b ∈ rest := by
  intro b hb
  unfold splitQuery at hb
  split at hb
  case isTrue  => cases hb
  case isFalse => exact (List.dropWhile_suffix _).subset (List.mem_of_mem_tail hb)

theorem getScheme_append {scheme : Str} (h : IsScheme scheme) (rest : Str) :
    getScheme (scheme ++ colon :: rest) = some (scheme, rest) := by
  have ht : (scheme ++ colon :: rest).takeWhile isSchemeByte = scheme := by
    rw [List.takeWhile_append_of_pos h.right, List.takeWhile_cons_of_neg (by decide), List.append_nil]
  have hd : (scheme ++ colon :: rest).dropWhile isSchemeByte = colon :: rest := by
    rw [List.dropWhile_append_of_pos h.right, List.dropWhile_cons_of_neg (by decide)]
  rw [getScheme, ht, hd]
  have ⟨⟨b, hb, hl⟩, _⟩ := h
  cases scheme
  case nil  => cases hb
  case cons =>
    cases hb
    exact congrArg some (if_pos hl)

theorem getScheme_some {rawURL scheme rest : Str} (h : getScheme rawURL = some (scheme, rest)) :
    (scheme = [] ∨ IsScheme scheme) ∧ rest <:+ rawURL := by
  have hd : rawURL.dropWhile isSchemeByte <:+ rawURL := List.dropWhile_suffix _
  unfold getScheme at h
  split at h
  case h_1 => cases h
  case h_2 b w r ht hr =>
    rw [hr] at hd
    split at h
    case isTrue hl =>
      cases h
      refine ⟨.inr ⟨⟨b, rfl, hl⟩, fun c hc => ?_⟩, (List.suffix_cons ..).trans hd⟩
      exact List.mem_takeWhile_imp (ht ▸ hc)
    case isFalse =>
      cases h
      exact ⟨.inl rfl, List.suffix_refl _⟩
  case h_3 =>
    cases h
    exact ⟨.inl rfl, List.suffix_refl _⟩

theorem lower_scheme : ∀ b : UInt8,
    (isLetter b → isLetter (if 65 ≤ b ∧ b ≤ 90 then b + 32 else b)) ∧
    (isSchemeByte b → isSchemeByte (if 65 ≤ b ∧ b ≤ 90 then b + 32 else b)) := by
  have h : str "+-." = [43, 45, 46] := by decide
  simp only [isSchemeByte, h]
  decide +kernel

theorem IsScheme.toLower {scheme : Str} (h : IsScheme scheme) : IsScheme scheme.toLower := by
  have ⟨⟨b, hb, hl⟩, hs⟩ := h
  refine ⟨⟨_, ?_, (lower_scheme b).left hl⟩, fun c hc => ?_⟩
  · rw [Str.toLower, List.head?_map, hb]
    rfl
  · have ⟨d, hd, he⟩ := List.mem_map.mp hc
    exact he ▸ (lower_scheme d).right (hs d hd)

theorem IsScheme.ne_nil {scheme : Str} (h : IsScheme scheme) : scheme ≠ [] := by
  rintro rfl
  have ⟨_, hb, _⟩ := h.left
  cases hb

-- The parts that only `parseRest` and what comes before it see.
theorem parseFront_some {rawURL : Str} {u : Reference} (h : parseFront rawURL = some u) :
    rawURL.any isControl = false ∧ (rawURL = str "*" ∧ u = { path := str "*" } ∨
      ∃ scheme rest, getScheme rawURL = some (scheme, rest) ∧
        ∃ v, parseRest scheme.toLower (splitQuery rest).1 = some v ∧
          u = { v with rawQuery := (splitQuery rest).2.1, forceQuery := (splitQuery rest).2.2 }) := by
  unfold parseFront at h
  split at h
  case isTrue => cases h
  case isFalse hc =>
    refine ⟨by simpa using hc, ?_⟩
    split at h
    case isTrue hs =>
      cases h
      exact .inl ⟨hs, rfl⟩
    case isFalse =>
      have ⟨(scheme, rest), hs, h⟩ := Option.bind_eq_some_iff.mp h
      have ⟨v, hv, h⟩ := Option.bind_eq_some_iff.mp h
      cases h
      exact .inr ⟨scheme, rest, hs, v, hv, rfl⟩

theorem parse_some {rawURL : Str} {u : Reference} (h : parse rawURL = some u) :
    ∃ v fragment rawFragment, parseFront (rawURL.takeWhile (· ≠ hash)) = some v ∧
      u = { v with fragment, rawFragment } := by
  have ⟨v, hv, h⟩ := Option.bind_eq_some_iff.mp h
  simp only at h
  split at h
  case isTrue =>
    cases h
    exact ⟨u, _, _, hv, rfl⟩
  case isFalse =>
    have ⟨f, _, h⟩ := Option.bind_eq_some_iff.mp h
    cases h
    exact ⟨v, _, _, hv, rfl⟩

theorem setPath_some {p : Str} {u : URL} (h : URL.setPath p = some u) :
    unescape p = some u.path ∧ (u.rawPath = [] ∨ u.rawPath = p) := by
  have ⟨path, hp, h⟩ := Option.bind_eq_some_iff.mp h
  cases h
  refine ⟨hp, ?_⟩
  show (if _ then _ else _) = _ ∨ (if _ then _ else _) = _
  split
  case isTrue  => exact .inl rfl
  case isFalse => exact .inr rfl

-- What `parseRest` leaves where there is a path from a slash on.
theorem parseRest_slash {scheme rest : Str} {u : Reference} (hs : scheme ≠ []) (hr : rest.hasPrefix [slash])
    (h : parseRest scheme rest = some u) :
    ∃ v, URL.setPath (pathText rest) = some v ∧ u.toURL = v ∧ u.scheme = scheme ∧ u.rootless = [] := by
  unfold parseRest at h
  rw [if_neg (by simp [hr]), if_neg (by simp [hr])] at h
  unfold pathText
  split at h
  case isTrue hh =>
    have ⟨(user, host), _, h⟩ := Option.bind_eq_some_iff.mp h
    have ⟨v, hv, h⟩ := Option.bind_eq_some_iff.mp h
    cases h
    rw [if_pos hh.right]
    exact ⟨v, hv, rfl, rfl, rfl⟩
  case isFalse hh =>
    have ⟨v, hv, h⟩ := Option.bind_eq_some_iff.mp h
    cases h
    rw [if_neg fun hp => hh ⟨.inl hs, hp⟩]
    exact ⟨v, hv, rfl, rfl, rfl⟩

theorem scheme_ne_star (scheme rest : Str) : scheme ++ colon :: rest ≠ str "*" := by
  intro he
  have hm : colon ∈ str "*" := he ▸ List.mem_append_right _ List.mem_cons_self
  exact absurd hm (by decide)

-- A URL with a scheme, from what `parseRest` makes of it, and back.
section Scheme

variable {scheme rest : Str} {u : Reference} (hs : IsScheme scheme)

include hs

theorem takeWhile_scheme : (scheme ++ colon :: rest).takeWhile (· ≠ hash) =
    scheme ++ colon :: rest.takeWhile (· ≠ hash) := by
  rw [List.takeWhile_append_of_pos, List.takeWhile_cons_of_pos (by decide)]
  intro b hb
  have hn : b ≠ hash := by
    rintro rfl
    exact absurd (hs.right _ hb) (by decide)
  simpa using hn

theorem parse_scheme (h : parse (scheme ++ colon :: rest) = some u) :
    (scheme ++ colon :: rest.takeWhile (· ≠ hash)).any isControl = false ∧
    ∃ w, parseRest scheme.toLower (front rest) = some w ∧ u.toURL = w.toURL ∧ u.host = w.host := by
  have ⟨v, _, _, hv, hu⟩ := parse_some h
  rw [takeWhile_scheme hs] at hv
  have ⟨hc, hv⟩ := parseFront_some hv
  refine ⟨hc, ?_⟩
  rcases hv with ⟨he, _⟩ | ⟨_, _, hg, w, hw, rfl⟩
  · exact absurd he (scheme_ne_star _ _)
  · rw [getScheme_append hs] at hg
    cases hg
    rw [splitQuery_path] at hw
    exact ⟨w, hw, by rw [hu], by rw [hu]⟩

theorem parse_scheme_path (hr : rest.head? = some slash) (h : parse (scheme ++ colon :: rest) = some u) :
    unescape (pathText (front rest)) = some u.path := by
  have ⟨_, w, hw, he, _⟩ := parse_scheme hs h
  have hp : (front rest).hasPrefix [slash] := by
    cases rest
    case nil      => cases hr
    case cons b r =>
      cases hr
      rfl
  have ⟨x, hx, hwx, _⟩ := parseRest_slash hs.toLower.ne_nil hp hw
  rw [(setPath_some hx).left, he, hwx]

theorem parse_of_rest {w : Reference} (hh : hash ∉ rest)
    (hc : (scheme ++ colon :: rest).any isControl = false) (hw : parseRest scheme.toLower (front rest) = some w) :
    ∃ u, parse (scheme ++ colon :: rest) = some u ∧ u.toURL = w.toURL ∧ u.host = w.host := by
  have ⟨ht, hd⟩ := cut_none hh
  have hf : parseFront (scheme ++ colon :: rest) = some
      { w with rawQuery := (splitQuery rest).2.1, forceQuery := (splitQuery rest).2.2 } := by
    rw [front, ht] at hw
    rw [parseFront, hc, if_neg (by decide), if_neg (scheme_ne_star _ _), getScheme_append hs]
    simp only [Option.bind_eq_bind, Option.bind_some, splitQuery_path, hw]
    rfl
  have hn : hash ∉ scheme ++ colon :: rest := by
    intro hm
    rcases List.mem_append.mp hm with hm | hm
    · exact absurd (hs.right _ hm) (by decide)
    · rcases List.mem_cons.mp hm with hm | hm
      · exact absurd hm (by decide)
      · exact hh hm
  refine ⟨{ w with rawQuery := (splitQuery rest).2.1, forceQuery := (splitQuery rest).2.2 }, ?_, rfl, rfl⟩
  rw [parse, (cut_none hn).left, hf, (cut_none hn).right]
  rfl

end Scheme

theorem parseRest_authority {scheme auth host t : Str} {user : Option Userinfo} (hs : scheme ≠ [])
    (ha : slash ∉ auth) (hp : parseAuthority auth = some (user, host)) :
    parseRest scheme (str "//" ++ (auth ++ slash :: t)) =
      (URL.setPath (slash :: t)).map fun u => { u with scheme, user, host } := by
  have hh : (str "//" ++ (auth ++ slash :: t)).hasPrefix [slash] := rfl
  have hd : (str "//" ++ (auth ++ slash :: t)).drop 2 = auth ++ slash :: t := rfl
  have ⟨ht, hw⟩ := cut_at ha t
  rw [parseRest, if_neg (by simp [hh]), if_neg (by simp [hh]), if_pos ⟨.inl hs, Str.hasPrefix_append ..⟩, hd,
    ht, hw, hp, Option.bind_eq_bind, Option.bind_some, Option.map_eq_bind]
  rfl

-- What holds of the parts of a URL that was read.
structure Reference.Read (u : Reference) : Prop where
  scheme   : u.scheme = [] ∨ IsScheme u.scheme
  rawPath  : u.rawPath = [] ∨ unescape u.rawPath = some u.path
  query    : hash ∉ u.rawQuery
  rootless : u.rootless = [] ∨ u.path = []

theorem parseRest_read {scheme rest : Str} {u : Reference} (h : parseRest scheme rest = some u) :
    u.scheme = scheme ∧ u.rawQuery = [] ∧ (u.rawPath = [] ∨ unescape u.rawPath = some u.path) ∧
    (u.rootless = [] ∨ u.path = []) := by
  have read {p : Str} {v : URL} (hv : URL.setPath p = some v) :
      v.rawPath = [] ∨ unescape v.rawPath = some v.path :=
    (setPath_some hv).right.imp_right fun he => (congrArg unescape he).trans (setPath_some hv).left
  unfold parseRest at h
  split at h
  case isTrue =>
    cases h
    exact ⟨rfl, rfl, .inl rfl, .inr rfl⟩
  case isFalse =>
    split at h
    case isTrue  => cases h
    case isFalse =>
      split at h
      case isTrue =>
        have ⟨_, _, h⟩ := Option.bind_eq_some_iff.mp h
        have ⟨v, hv, h⟩ := Option.bind_eq_some_iff.mp h
        cases h
        exact ⟨rfl, rfl, read hv, .inl rfl⟩
      case isFalse =>
        have ⟨v, hv, h⟩ := Option.bind_eq_some_iff.mp h
        cases h
        exact ⟨rfl, rfl, read hv, .inl rfl⟩

theorem parse_read {rawURL : Str} {u : Reference} (h : parse rawURL = some u) : u.Read := by
  have ⟨v, _, _, hv, hu⟩ := parse_some h
  rcases (parseFront_some hv).right with ⟨_, rfl⟩ | ⟨scheme, rest, hg, w, hw, rfl⟩
  · rw [hu]
    exact ⟨.inl rfl, .inl rfl, nofun, .inl rfl⟩
  · have ⟨hs, _, hr, ho⟩ := parseRest_read hw
    have ⟨hn, hf⟩ := getScheme_some hg
    rw [hu]
    refine ⟨?_, hr, fun hq => ?_, ho⟩
    · show w.scheme = [] ∨ IsScheme w.scheme
      rw [hs]
      rcases hn with rfl | hn
      · exact .inl rfl
      · exact .inr hn.toLower
    · have hm := List.mem_takeWhile_imp (hf.subset (splitQuery_query _ _ hq))
      exact absurd hm (by decide)

-- What is said of every byte of an escaped part of a URL.
theorem escapeWith_bytes {P : UInt8 → Prop} {escapes : UInt8 → Bool} (hp : P percent)
    (hs : ∀ b, escapesInSegment b = false → P b) (h : ∀ b, escapes b = false → P b) (s : Str) :
    ∀ b ∈ escapeWith escapes s, P b := by
  intro b hb
  have ⟨c, _, hc⟩ := List.mem_flatMap.mp hb
  split at hc
  case isTrue =>
    rcases (percentEncode_plain hc).left with he | he
    · exact he ▸ hp
    · exact hs b he.left
  case isFalse hn =>
    cases List.mem_singleton.mp hc
    exact h b (by simpa using hn)

-- The bytes that end a part of a URL.
def Ends (b : UInt8) : Prop :=
  b = question ∨ b = hash

theorem segment_kept {b : UInt8} (h : escapesInSegment b = false) : b ≠ slash ∧ ¬Ends b := by
  refine ⟨?_, ?_⟩
  · rintro rfl
    exact absurd h (by decide)
  · rintro (rfl | rfl) <;> exact absurd h (by decide)

theorem escape_kept (s : Str) : ∀ b ∈ escape s, ¬Ends b := by
  have he : escape s = escapeWith shouldEscape s := rfl
  rw [he]
  refine escapeWith_bytes (P := fun b => ¬Ends b) (by rintro (h | h) <;> cases h)
    (fun b hb => (segment_kept hb).right) (fun b hb => ?_) s
  rintro (rfl | rfl) <;> exact absurd hb (by decide)

theorem part_kept {escapes : UInt8 → Bool} (h : escapes slash ∧ escapes question ∧ escapes hash) (s : Str) :
    ∀ b ∈ escapeWith escapes s, b ≠ slash ∧ ¬Ends b := by
  have ⟨hs, hq, hh⟩ := h
  refine escapeWith_bytes (P := fun b => b ≠ slash ∧ ¬Ends b) ⟨by decide, ?_⟩ (fun b => segment_kept)
    (fun b hb => ⟨?_, ?_⟩) s
  · rintro (h | h) <;> cases h
  · rintro rfl
    simp [hs] at hb
  · rintro (rfl | rfl)
    · simp [hq] at hb
    · simp [hh] at hb

namespace Reference

variable {u v : Reference}

theorem authority_kept (hp : u.path ≠ []) :
    u.authority = [] ∨ ∃ a, u.authority = str "//" ++ a ∧ ∀ b ∈ a, b ≠ slash ∧ ¬Ends b := by
  unfold authority
  split
  case isTrue  => exact .inl rfl
  case isFalse =>
    rw [if_pos (.inr (.inl hp)), List.append_assoc]
    refine .inr ⟨_, rfl, fun b hb => ?_⟩
    have colon_kept : colon ≠ slash ∧ ¬Ends colon := ⟨by decide, by rintro (h | h) <;> cases h⟩
    have at_kept : at' ≠ slash ∧ ¬Ends at' := ⟨by decide, by rintro (h | h) <;> cases h⟩
    have user (s : Str) : ∀ b ∈ escapeWith escapesInUser s, b ≠ slash ∧ ¬Ends b := part_kept (by decide) s
    rcases List.mem_append.mp hb with hb | hb
    case inr => exact part_kept (by decide) u.host b hb
    case inl =>
      cases hu : u.user
      case none      => simp [hu] at hb
      case some user' =>
        simp only [hu, Option.map_some, Option.getD_some, Userinfo.string, List.mem_append,
          List.mem_singleton] at hb
        rcases hb with (hb | hb) | rfl
        · exact user _ b hb
        · cases hw : user'.password
          case none   => simp [hw] at hb
          case some w =>
            simp only [hw, Option.map_some, Option.getD_some, List.mem_cons] at hb
            rcases hb with rfl | hb
            · exact colon_kept
            · exact user w b hb
        · exact at_kept

theorem cut_part {a t : Str} {c : UInt8} (h : c ∉ a) (ht : t = [] ∨ t.head? = some c) :
    (a ++ t).takeWhile (· ≠ c) = a := by
  rcases ht with rfl | ht
  · rw [List.append_nil, (cut_none h).left]
  · cases t
    case nil  => cases ht
    case cons =>
      cases ht
      exact (cut_at h _).left

theorem unescape_escapedPath (u : URL) : unescape u.escapedPath = some u.path := by
  unfold URL.escapedPath
  split
  case isTrue h => exact h.right.right
  case isFalse  =>
    split
    case isTrue h => rw [h]; decide
    case isFalse  => exact unescape_escape u.path

theorem escapedPath_kept (u : URL) : ∀ b ∈ u.escapedPath, ¬Ends b := by
  unfold URL.escapedPath
  split
  case isTrue h =>
    intro b hb
    have hv := List.all_eq_true.mp h.right.left b hb
    rintro (rfl | rfl) <;> exact absurd hv (by decide)
  case isFalse =>
    split
    case isTrue  =>
      intro b hb
      cases List.mem_singleton.mp hb
      rintro (h | h) <;> exact absurd h (by decide)
    case isFalse => exact escape_kept u.path

-- A path is read back as it was written, where its second byte is no slash too.
section String

variable {c : UInt8} {e : Str} (he : u.escapedPath = slash :: c :: e) (hc : c ≠ slash)

include he

theorem path_ne_nil : u.path ≠ [] := by
  intro hn
  have hu := unescape_escapedPath u.toURL
  rw [he, unescape_cons (by decide), hn] at hu
  have ⟨_, _, h⟩ := Option.map_eq_some_iff.mp hu
  cases h

theorem string_eq (hs : u.scheme ≠ []) (hr : u.rootless = []) : u.string =
    u.scheme ++ colon :: (u.authority ++ u.escapedPath ++
      (if u.forceQuery ∨ u.rawQuery ≠ [] then question :: u.rawQuery else []) ++
      (if u.fragment = [] then [] else hash :: u.escapedFragment)) := by
  simp [string, hr, he, hs]

include hc

theorem pathText_authority : pathText (u.authority ++ u.escapedPath) = u.escapedPath := by
  rcases authority_kept (path_ne_nil he) with ha | ⟨a, ha, hk⟩
  · have hd : u.escapedPath.hasPrefix (str "//") = false := by
      have hl : str "//" = [slash, slash] := by decide
      simp [he, hl, Str.hasPrefix, List.isPrefixOf, Ne.symm hc]
    rw [ha, List.nil_append, pathText, if_neg (by simp [hd])]
  · have hl : (str "//" ++ (a ++ u.escapedPath)).drop 2 = a ++ u.escapedPath := rfl
    have hs : slash ∉ a := fun h => (hk slash h).left rfl
    rw [ha, List.append_assoc, pathText, if_pos (Str.hasPrefix_append ..), hl, he, (cut_at hs _).right]

theorem parse_string (hs : IsScheme u.scheme) (hr : u.rootless = []) (hq : hash ∉ u.rawQuery)
    (h : parse u.string = some v) : v.path = u.path := by
  have hkept : ∀ b ∈ u.authority ++ u.escapedPath, ¬Ends b := by
    intro b hb
    rcases List.mem_append.mp hb with hb | hb
    case inr => exact escapedPath_kept _ b hb
    case inl =>
      rcases authority_kept (path_ne_nil he) with ha | ⟨a, ha, hk⟩
      · simp [ha] at hb
      · rw [ha] at hb
        rcases List.mem_append.mp hb with hb | hb
        · have hl : str "//" = [slash, slash] := by decide
          simp only [hl, List.mem_cons, List.not_mem_nil, or_false, or_self] at hb
          rintro (h | h) <;> exact absurd (hb.symm.trans h) (by decide)
        · exact (hk b hb).right
  rw [string_eq he hs.ne_nil hr] at h
  have hfront : front (u.authority ++ u.escapedPath ++
      (if u.forceQuery ∨ u.rawQuery ≠ [] then question :: u.rawQuery else []) ++
      (if u.fragment = [] then [] else hash :: u.escapedFragment)) = u.authority ++ u.escapedPath := by
    rw [front, cut_part, cut_part]
    · exact fun h => hkept question h (.inl rfl)
    · split <;> simp
    · rw [List.mem_append, not_or]
      refine ⟨fun h => hkept hash h (.inr rfl), ?_⟩
      split
      case isTrue  => simpa using ⟨by decide, hq⟩
      case isFalse => simp
    · split <;> simp
  have hslash : (u.authority ++ u.escapedPath ++
      (if u.forceQuery ∨ u.rawQuery ≠ [] then question :: u.rawQuery else []) ++
      (if u.fragment = [] then [] else hash :: u.escapedFragment)).head? = some slash := by
    rcases authority_kept (path_ne_nil he) with ha | ⟨a, ha, _⟩
    · simp [ha, he]
    · rw [ha]
      rfl
  have hv := parse_scheme_path hs hslash h
  rw [hfront, pathText_authority he hc, unescape_escapedPath] at hv
  exact (Option.some.inj hv).symm

end String
end Reference
end Go.Url
