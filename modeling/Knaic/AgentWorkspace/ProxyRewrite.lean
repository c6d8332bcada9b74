import Knaic.Go.Http
import Knaic.Go.Replacer
import Knaic.Go.UrlParse
import Knaic.Go.Utf8

open Go

namespace AgentWorkspace

open Go.Http Go.Url

def proxyPrefix : Str :=
  str "/api/v1/me/workspace/proxy"

-- The response of the workspace, with what reading and closing its body gives, and the URL of the
-- request it is for.
structure Response where
  header        : Header
  request       : Option Reference
  body          : Except Error Str
  closeErr      : Option Error
  contentLength : Int

namespace Response

def location (resp : Response) : Str :=
  resp.header.get (str "Location")

def contentType (resp : Response) : Str :=
  resp.header.get (str "Content-Type")

end Response

-- A URL after the assignment to its path. How the path was escaped stays in the other field.
def mounted (pre : Str) (u : Reference) : Reference :=
  { u with path := pre ++ u.path }

-- The value that `rewriteProxyLocation` sets, if it sets one.
def newLocation (pre : Str) (request : Option Reference) (location : Str) : Option Str :=
  if location = [] then
    none
  else if location.hasPrefix [slash] ∧ ¬location.hasPrefix (pre ++ [slash]) then
    some (pre ++ location)
  else
    match Url.parse location, request with
    | some parsed, some url =>
      if ¬parsed.isAbs ∨ parsed.host ≠ url.host then
        none
      else if parsed.path.hasPrefix [slash] ∧ ¬parsed.path.hasPrefix (pre ++ [slash]) then
        some (mounted pre parsed).string
      else
        none
    | _, _ => none

def rewriteProxyLocation (resp : Response) (pre : Str) : Response :=
  match newLocation pre resp.request resp.location with
  | some location => { resp with header := resp.header.set (str "Location") location }
  | none          => resp

def shouldRewriteProxyBody (lower : Str → Str) (contentType : Str) : Bool :=
  let media := Utf8.toLower lower (Utf8.trimSpace (contentType.takeWhile (· ≠ 59)))
  media == str "text/html" || media == str "text/css" ||
  media == str "application/javascript" || media == str "text/javascript"

-- What stands before the place of the prefix in each text that is replaced, and what stands behind it.
def workspacePatterns : List (Str × Str) := [
  (str "href=\"", str "/"),
  (str "src=\"", str "/"),
  (str "action=\"", str "/"),
  (str "content=\"", str "/"),
  (str "url(", str "/"),
  (str "href=\\\"", str "/"),
  (str "src=\\\"", str "/"),
  (str "action=\\\"", str "/"),
  (str "content=\\\"", str "/"),
  (str "\\\"", str "/_next/"),
  (str "\\\"", str "/api/"),
  (str "\"", str "/_next/"),
  (str "\"", str "/api/"),
  (str "'", str "/_next/"),
  (str "'", str "/api/")
]

-- What is put in begins with a text that is replaced again.
theorem pattern_again : ∀ w ∈ workspacePatterns, w.1 ++ w.2 ≠ [] ∧
    ∃ v ∈ workspacePatterns, (v.1 ++ v.2).isPrefixOf (w.1 ++ proxyPrefix ++ w.2) := by
  decide +kernel

def proxyReplacer (pre : Str) : Replacer where
  pairs  := workspacePatterns.map fun w => (w.1 ++ w.2, w.1 ++ pre ++ w.2)
  ne_nil := by
    intro p hp
    have ⟨w, hw, he⟩ := List.mem_map.mp hp
    exact he ▸ (pattern_again w hw).left

def rewriteWorkspaceProxyBody (body pre : Str) : Str :=
  (proxyReplacer pre).replace body

-- `ModifyResponse` of the proxy.
def modifyResponse (lower : Str → Str) (resp : Response) : Except Error Response :=
  let resp := rewriteProxyLocation resp proxyPrefix
  if ¬shouldRewriteProxyBody lower resp.contentType then
    .ok resp
  else do
    let raw ← resp.body
    match resp.closeErr with
    | some err => throw err
    | none     =>
      let rewritten := rewriteWorkspaceProxyBody raw proxyPrefix
      return { resp with
        body          := .ok rewritten
        contentLength := rewritten.length
        header        :=
          (resp.header.set (str "Content-Length") (decimal rewritten.length)).del (str "Content-Encoding")
      }

-- What the rewriting is for: a reference to an absolute path of the same origin gets the prefix, unless
-- it has it.

def defaultPort (scheme : Str) : Str :=
  if scheme = str "http" then str ":80"
  else if scheme = str "https" then str ":443"
  else []

def origin (u : Reference) : Str × Str :=
  (u.scheme, (u.host.toLower.trimSuffix (defaultPort u.scheme)).trimSuffix [colon])

-- Whether a path is the prefix or has it in front of a slash.
def below (pre path : Str) : Bool :=
  path = pre || path.hasPrefix (pre ++ [slash])

-- A URL with its path behind another one, which is escaped as it was.
def prefixed (pre : Str) (u : Reference) : Reference :=
  { u with path := pre ++ u.path, rawPath := if u.rawPath = [] then [] else pre ++ u.rawPath }

def wantedLocation (pre : Str) (request : Option Reference) (location : Str) : Str :=
  if location.hasPrefix (str "//") then
    location
  else if location.hasPrefix [slash] then
    if below pre (front location) then location else pre ++ location
  else
    match Url.parse location, request with
    | some u, some r =>
      if u.isAbs ∧ u.path.hasPrefix [slash] ∧ origin u = origin r ∧ ¬below pre u.path then
        (prefixed pre u).string
      else
        location
    | _, _ => location

-- The byte that ends a reference, by what is in front of it.
def closing (opening : Str) : UInt8 :=
  if opening.hasSuffix (str "\\\"") then 92
  else if opening.hasSuffix (str "(") then 41
  else opening.getLastD 0

-- The reference at the front of a text that begins as `old` does.
def reference (old t : Str) : Str :=
  let opening := old.takeWhile (· ≠ slash)
  (t.drop opening.length).takeWhile (· ≠ closing opening)

def kept (pre old t : Str) : Bool :=
  (reference old t).hasPrefix (str "//") || below pre (front (reference old t))

def wantedBody (pre body : Str) : Str :=
  (proxyReplacer pre).replaceBy (fun p t => if kept pre p.1 t then p.1 else p.2) body

-- What a header of a response is after the writes of another one.
section Header

variable {h : Header} {key key' v : Str}

theorem get_set (h : Header) (key v : Str) : (h.set key v).get key = v := by
  rw [Header.get, Header.values, lookup_set]
  rfl

theorem get_set_ne (hk : canonicalHeaderKey key' ≠ canonicalHeaderKey key) :
    (h.set key v).get key' = h.get key' := by
  rw [Header.get, Header.get, Header.values, Header.values, lookup_set_ne hk]

theorem get_del_ne (hk : canonicalHeaderKey key' ≠ canonicalHeaderKey key) :
    (h.del key).get key' = h.get key' := by
  have hl : (h.del key).lookup (canonicalHeaderKey key') = h.lookup (canonicalHeaderKey key') :=
    Finmap.lookup_erase_ne hk
  rw [Header.get, Header.get, Header.values, Header.values, hl]

end Header

section Location

variable {request : Option Reference} {location : Str} {u : Reference}

-- The prefix is a path that is written as it is.
structure WrittenPrefix : Prop where
  escape  : escape proxyPrefix = proxyPrefix
  valid   : URL.validEncoded proxyPrefix
  percent : percent ∉ proxyPrefix
  kept    : ∀ b ∈ proxyPrefix ++ [slash], b ≠ question ∧ b ≠ hash

theorem proxyPrefix_written : WrittenPrefix := by
  have h : escape proxyPrefix = proxyPrefix ∧ URL.validEncoded proxyPrefix ∧ percent ∉ proxyPrefix ∧
      ∀ b ∈ proxyPrefix ++ [slash], b ≠ question ∧ b ≠ hash := by
    decide +kernel
  exact ⟨h.left, h.right.left, h.right.right.left, h.right.right.right⟩

theorem prefix_longer : 0 < proxyPrefix.length := by
  decide

theorem prefix_append_ne (s : Str) : proxyPrefix ++ s ≠ s := by
  intro h
  have hl := congrArg List.length h
  have hp := prefix_longer
  rw [List.length_append] at hl
  omega

theorem below_iff {path : Str} :
    below proxyPrefix path ↔ path = proxyPrefix ∨ proxyPrefix ++ [slash] <+: path := by
  simp [below, Str.hasPrefix_iff]

theorem front_append {a : Str} (ha : ∀ b ∈ a, b ≠ question ∧ b ≠ hash) (t : Str) :
    front (a ++ t) = a ++ front t := by
  have hh : ∀ b ∈ a, decide (b ≠ hash) = true := fun b hb => by simpa using (ha b hb).right
  have hq : ∀ b ∈ a, decide (b ≠ question) = true := fun b hb => by simpa using (ha b hb).left
  rw [front, List.takeWhile_append_of_pos hh, List.takeWhile_append_of_pos hq, front]

theorem prefix_front : proxyPrefix ++ [slash] <+: front location ↔ proxyPrefix ++ [slash] <+: location := by
  have hf : front location <+: location := (List.takeWhile_prefix _).trans (List.takeWhile_prefix _)
  refine ⟨fun h => h.trans hf, fun ⟨t, ht⟩ => ?_⟩
  rw [← ht, front_append proxyPrefix_written.kept]
  exact List.prefix_append ..

theorem parse_slash (hs : location.hasPrefix [slash]) (h : parse location = some u) : u.isAbs = false := by
  have ⟨t, ht⟩ := Str.hasPrefix_iff.mp hs
  have ⟨v, _, _, hv, hu⟩ := parse_some h
  have hw : (slash :: t).takeWhile (· ≠ hash) = slash :: t.takeWhile (· ≠ hash) := rfl
  rw [← ht, List.singleton_append, hw] at hv
  rcases (parseFront_some hv).right with ⟨_, rfl⟩ | ⟨scheme, rest, hg, w, hp, rfl⟩
  · rw [hu]
    rfl
  · have he : getScheme (slash :: t.takeWhile (· ≠ hash)) = some ([], slash :: t.takeWhile (· ≠ hash)) := rfl
    cases he.symm.trans hg
    have hn := (parseRest_read hp).left
    rw [hu, Reference.isAbs]
    simpa [Str.toLower] using hn

-- A URL of which the path begins with a slash, as it was read.
structure Rooted (u : Reference) : Prop extends u.Read where
  abs  : u.isAbs
  root : u.path.hasPrefix [slash]

namespace Rooted

variable (hu : Rooted u)

include hu

theorem isScheme : IsScheme u.scheme :=
  hu.scheme.resolve_left (by simpa [Reference.isAbs] using hu.abs)

theorem path_cons : ∃ p, u.path = slash :: p := by
  have ⟨p, hp⟩ := Str.hasPrefix_iff.mp hu.root
  exact ⟨p, hp.symm⟩

theorem no_rootless : u.rootless = [] := by
  have ⟨p, hp⟩ := hu.path_cons
  exact hu.rootless.resolve_right (by simp [hp])

theorem mounted_escapedPath : (mounted proxyPrefix u).escapedPath = proxyPrefix ++ escape u.path := by
  have hn : ¬(u.rawPath ≠ [] ∧ URL.validEncoded u.rawPath ∧
      unescape u.rawPath = some (proxyPrefix ++ u.path)) := by
    intro ⟨hne, _, h⟩
    have he := (hu.rawPath.resolve_left hne).symm.trans h
    exact prefix_append_ne _ (Option.some.inj he).symm
  have hs : proxyPrefix ++ u.path ≠ str "*" := fun h => nomatch congrArg List.head? h
  rw [URL.escapedPath, mounted]
  dsimp only
  rw [if_neg hn, if_neg hs, escape_append, proxyPrefix_written.escape]

theorem prefixed_escapedPath : (prefixed proxyPrefix u).escapedPath = proxyPrefix ++ u.escapedPath := by
  have ⟨p, hp⟩ := hu.path_cons
  have hs : proxyPrefix ++ u.path ≠ str "*" := fun h => nomatch congrArg List.head? h
  have hn : u.path ≠ str "*" := by
    rw [hp]
    exact fun h => nomatch congrArg List.head? h
  unfold URL.escapedPath prefixed
  dsimp only
  by_cases hr : u.rawPath = []
  case pos =>
    simp only [hr, if_true, ne_eq, not_true, false_and, if_false, if_neg hs, if_neg hn, escape_append,
      proxyPrefix_written.escape]
  case neg =>
    have hv : URL.validEncoded (proxyPrefix ++ u.rawPath) ↔ URL.validEncoded u.rawPath := by
      have hx := proxyPrefix_written.valid
      unfold URL.validEncoded at hx ⊢
      rw [List.all_append, hx, Bool.true_and]
    have hd : unescape (proxyPrefix ++ u.rawPath) = some (proxyPrefix ++ u.path) ↔
        unescape u.rawPath = some u.path := by
      rw [unescape_append proxyPrefix_written.percent, Option.map_eq_some_iff]
      simp
    have hne : proxyPrefix ++ u.rawPath ≠ [] := by simp [hr]
    have hraw : (if u.rawPath = [] then [] else proxyPrefix ++ u.rawPath) = proxyPrefix ++ u.rawPath :=
      if_neg hr
    rw [hraw]
    by_cases hx : URL.validEncoded u.rawPath ∧ unescape u.rawPath = some u.path
    case pos => rw [if_pos ⟨hne, hv.mpr hx.left, hd.mpr hx.right⟩, if_pos ⟨hr, hx⟩]
    case neg =>
      rw [if_neg fun h => hx ⟨hv.mp h.right.left, hd.mp h.right.right⟩, if_neg hs, if_neg fun h => hx h.right,
        if_neg hn, escape_append, proxyPrefix_written.escape]

-- A URL that only differs in its path.
structure Moved (u w : Reference) : Prop where
  scheme      : w.scheme = u.scheme
  rootless    : w.rootless = u.rootless
  rawQuery    : w.rawQuery = u.rawQuery
  path        : w.path = proxyPrefix ++ u.path
  escapedPath : ∃ e, w.escapedPath = proxyPrefix ++ e

theorem mounted_moved : Moved u (mounted proxyPrefix u) :=
  ⟨rfl, rfl, rfl, rfl, _, hu.mounted_escapedPath⟩

theorem prefixed_moved : Moved u (prefixed proxyPrefix u) :=
  ⟨rfl, rfl, rfl, rfl, _, hu.prefixed_escapedPath⟩

theorem Moved.parse {w v : Reference} (h : Moved u w) (hv : Url.parse w.string = some v) :
    v.path = proxyPrefix ++ u.path := by
  have ⟨e, he⟩ := h.escapedPath
  have hw : w.escapedPath = slash :: 97 :: (proxyPrefix.drop 2 ++ e) := he
  exact (Reference.parse_string hw (by decide) (h.scheme ▸ hu.isScheme) (h.rootless.trans hu.no_rootless)
    (h.rawQuery ▸ hu.query) hv).trans h.path

theorem Moved.string_ne {w : Reference} (h : Moved u w) (hl : Url.parse location = some u) :
    w.string ≠ location := by
  intro he
  exact prefix_append_ne _ (h.parse hu (he ▸ hl)).symm

theorem mounted_eq_prefixed : (mounted proxyPrefix u).string = (prefixed proxyPrefix u).string ↔
    u.escapedPath = escape u.path := by
  have hm : (mounted proxyPrefix u).escapedPath = slash :: 97 :: (proxyPrefix.drop 2 ++ escape u.path) :=
    hu.mounted_escapedPath
  have hp : (prefixed proxyPrefix u).escapedPath = slash :: 97 :: (proxyPrefix.drop 2 ++ u.escapedPath) :=
    hu.prefixed_escapedPath
  rw [Reference.string_eq hm hu.isScheme.ne_nil hu.no_rootless,
    Reference.string_eq hp hu.isScheme.ne_nil hu.no_rootless, hu.mounted_escapedPath, hu.prefixed_escapedPath]
  have ha : (prefixed proxyPrefix u).authority = (mounted proxyPrefix u).authority := rfl
  rw [ha]
  constructor
  · intro h
    have h := List.cons_inj_right colon |>.mp (List.append_cancel_left h)
    have h := List.append_cancel_right (List.append_cancel_right h)
    have h := List.append_cancel_left (List.append_cancel_left h)
    exact h.symm
  · intro h
    rw [h]
    rfl

end Rooted

-- Where the value of a location is what it has to be.
def LocationFits (request : Option Reference) (location : Str) : Prop :=
  if location.hasPrefix [slash] then
    ¬location.hasPrefix (str "//") ∧ front location ≠ proxyPrefix
  else
    ∀ u r, Url.parse location = some u → request = some r → u.isAbs → u.path.hasPrefix [slash] →
      ¬u.path.hasPrefix (proxyPrefix ++ [slash]) →
      (u.host = r.host ↔ origin u = origin r ∧ u.path ≠ proxyPrefix) ∧
      (u.host = r.host → u.escapedPath = escape u.path)

theorem newLocation_prefixed (h : proxyPrefix ++ [slash] <+: location) :
    newLocation proxyPrefix request location = none := by
  have ⟨t, ht⟩ := h
  have hs : location.hasPrefix [slash] := ht ▸ rfl
  unfold newLocation
  split
  case isTrue  => rfl
  case isFalse =>
    rw [if_neg fun hn => hn.right (Str.hasPrefix_iff.mpr h)]
    split
    case h_1 _ _ u _ hu => rw [if_pos (.inl (by simp [parse_slash hs hu]))]
    case h_2 => rfl

theorem slash_location_iff (hs : location.hasPrefix [slash]) :
    (newLocation proxyPrefix request location).getD location = wantedLocation proxyPrefix request location ↔
      LocationFits request location := by
  have ⟨t, ht⟩ := Str.hasPrefix_iff.mp hs
  have hn : location ≠ [] := by simp [← ht]
  have hlen := prefix_append_ne location
  rw [LocationFits, if_pos hs]
  by_cases hp : proxyPrefix ++ [slash] <+: location
  case pos =>
    have hd : location.hasPrefix (str "//") = false := by
      have ⟨t, ht⟩ := hp
      rw [← ht]
      rfl
    have hb : below proxyPrefix (front location) := below_iff.mpr (.inr (prefix_front.mpr hp))
    have hf : front location ≠ proxyPrefix := by
      intro h
      have hl := (prefix_front.mpr hp).length_le
      rw [h, List.length_append] at hl
      exact absurd hl (by decide)
    unfold wantedLocation
    rw [newLocation_prefixed hp, if_neg (by simp [hd]), if_pos hs, if_pos hb]
    simp [hd, hf]
  case neg =>
    have hb : below proxyPrefix (front location) ↔ front location = proxyPrefix := by
      rw [below_iff, prefix_front]
      simp [hp]
    unfold newLocation wantedLocation
    rw [if_neg hn, if_pos ⟨hs, fun h => hp (Str.hasPrefix_iff.mp h)⟩, Option.getD_some, if_pos hs]
    split
    case isTrue hd  => exact iff_of_false hlen fun h => h.left hd
    case isFalse hd =>
      split
      case isTrue h  => exact iff_of_false hlen fun hn => hn.right (hb.mp h)
      case isFalse h => exact iff_of_true rfl ⟨hd, fun he => h (hb.mpr he)⟩

-- A value that may be set and one that may be wanted, both of which are new, agree.
theorem getD_eq_iff {p q : Prop} [Decidable p] [Decidable q] {x y : Str} (hx : x ≠ location) (hy : y ≠ location) :
    (if p then some x else none).getD location = (if q then y else location) ↔ (p ↔ q) ∧ (p → x = y) := by
  by_cases hp : p
  all_goals by_cases hq : q
  · simp [hp, hq]
  · simp [hp, hq, hx]
  · simp [hp, hq, hy.symm]
  · simp [hp, hq]

-- Any other location is one that is not changed, or a URL with a path from the root on.
section Absolute

variable (hs : ¬location.hasPrefix [slash])

include hs

theorem newLocation_other (h : ∀ u r, Url.parse location = some u → request = some r → ¬Rooted u) :
    newLocation proxyPrefix request location = none := by
  unfold newLocation
  split
  case isTrue  => rfl
  case isFalse =>
    rw [if_neg fun h => hs h.left]
    split
    case h_2            => rfl
    case h_1 u r hu     =>
      split
      case isTrue  => rfl
      case isFalse ha =>
        refine if_neg fun hp => h u r hu rfl ⟨parse_read hu, ?_, hp.left⟩
        simpa using (not_or.mp ha).left

theorem wantedLocation_other (h : ∀ u r, Url.parse location = some u → request = some r → ¬Rooted u) :
    wantedLocation proxyPrefix request location = location := by
  unfold wantedLocation
  split
  case isTrue  => rfl
  case isFalse =>
    split
    case h_2        => rfl
    case h_1 u r hu => exact if_neg fun hp => h u r hu rfl ⟨parse_read hu, hp.left, hp.right.left⟩

variable {r : Reference} (hl : Url.parse location = some u) (hu : Rooted u)

include hl hu

theorem newLocation_rooted : newLocation proxyPrefix (some r) location =
    if u.host = r.host ∧ ¬proxyPrefix ++ [slash] <+: u.path then
      some (mounted proxyPrefix u).string
    else none := by
  have hn : location ≠ [] := by
    rintro rfl
    have he : Url.parse [] = some { path := [] } := rfl
    cases he.symm.trans hl
    cases hu.abs
  unfold newLocation
  rw [if_neg hn, if_neg fun h => hs h.left, hl]
  simp only [hu.abs, hu.root, Str.hasPrefix_iff]
  by_cases hh : u.host = r.host <;> simp [hh]

theorem wantedLocation_rooted : wantedLocation proxyPrefix (some r) location =
    if origin u = origin r ∧ u.path ≠ proxyPrefix ∧ ¬proxyPrefix ++ [slash] <+: u.path then
      (prefixed proxyPrefix u).string
    else location := by
  have hd : ¬location.hasPrefix (str "//") := by
    intro h
    have ⟨t, ht⟩ := Str.hasPrefix_iff.mp h
    exact hs (ht ▸ rfl)
  unfold wantedLocation
  rw [if_neg hd, if_neg hs, hl]
  simp [hu.abs, hu.root, below, Str.hasPrefix_iff, not_or]

theorem rooted_location_iff :
    (newLocation proxyPrefix (some r) location).getD location = wantedLocation proxyPrefix (some r) location ↔
      LocationFits (some r) location := by
  have hf : LocationFits (some r) location ↔ (¬proxyPrefix ++ [slash] <+: u.path →
      (u.host = r.host ↔ origin u = origin r ∧ u.path ≠ proxyPrefix) ∧
      (u.host = r.host → u.escapedPath = escape u.path)) := by
    rw [LocationFits, if_neg hs, hl, ← Str.hasPrefix_iff]
    constructor
    · exact fun h => h u r rfl rfl hu.abs hu.root
    · intro h v w hv hw _ _
      cases hv
      cases hw
      exact h
  have hm := hu.mounted_moved.string_ne hu hl
  have hp := hu.prefixed_moved.string_ne hu hl
  rw [hf, newLocation_rooted hs hl hu, wantedLocation_rooted hs hl hu, getD_eq_iff hm hp, hu.mounted_eq_prefixed]
  by_cases hb : proxyPrefix ++ [slash] <+: u.path
  case pos => simp [hb]
  case neg => simp [hb]

end Absolute

theorem location_exact_iff (request : Option Reference) (location : Str) :
    (newLocation proxyPrefix request location).getD location = wantedLocation proxyPrefix request location ↔
      LocationFits request location := by
  by_cases hs : location.hasPrefix [slash]
  case pos => exact slash_location_iff hs
  case neg =>
    by_cases hr : ∃ u r, Url.parse location = some u ∧ request = some r ∧ Rooted u
    case pos =>
      obtain ⟨u, r, hl, rfl, hu⟩ := hr
      exact rooted_location_iff hs hl hu
    case neg =>
      have hn : ∀ u r, Url.parse location = some u → request = some r → ¬Rooted u :=
        fun u r hu hq h => hr ⟨u, r, hu, hq, h⟩
      rw [newLocation_other hs hn, wantedLocation_other hs hn, LocationFits, if_neg hs]
      exact iff_of_true rfl fun u r hu hq ha hp => absurd ⟨parse_read hu, ha, hp⟩ (hn u r hu hq)

-- A value that was set is under the prefix, so nothing is set in its place.
theorem mounted_location (hu : Rooted u) :
    newLocation proxyPrefix request (mounted proxyPrefix u).string = none := by
  have hm : (mounted proxyPrefix u).escapedPath = slash :: 97 :: (proxyPrefix.drop 2 ++ escape u.path) :=
    hu.mounted_escapedPath
  have hs : ¬(mounted proxyPrefix u).string.hasPrefix [slash] := by
    have ⟨⟨b, hb, hl⟩, _⟩ := hu.isScheme
    obtain ⟨w, hw⟩ : ∃ w, u.scheme = b :: w := List.head?_eq_some_iff.mp hb
    have hsch : (mounted proxyPrefix u).scheme = b :: w := hw
    rw [Reference.string_eq hm hu.isScheme.ne_nil hu.no_rootless, hsch, Str.hasPrefix_iff, List.cons_append,
      List.cons_prefix_cons]
    rintro ⟨rfl, _⟩
    exact absurd hl (by decide)
  by_cases hr : ∃ v r, Url.parse (mounted proxyPrefix u).string = some v ∧ request = some r ∧ Rooted v
  case neg => exact newLocation_other hs fun v r hv hq h => hr ⟨v, r, hv, hq, h⟩
  case pos =>
    obtain ⟨v, r, hv, rfl, hr⟩ := hr
    have ⟨p, hp⟩ := hu.path_cons
    have hb : proxyPrefix ++ [slash] <+: v.path := by
      rw [hu.mounted_moved.parse hu hv, hp]
      exact ⟨p, List.append_assoc ..⟩
    rw [newLocation_rooted hs hv hr, if_neg fun h => h.right hb]

theorem location_twice (request : Option Reference) (location : Str) :
    newLocation proxyPrefix request ((newLocation proxyPrefix request location).getD location) = none := by
  cases hl : newLocation proxyPrefix request location
  case none => exact hl
  case some l =>
    by_cases hs : location.hasPrefix [slash]
    case pos =>
      have ⟨t, ht⟩ := Str.hasPrefix_iff.mp hs
      have hn : location ≠ [] := by simp [← ht]
      by_cases hp : proxyPrefix ++ [slash] <+: location
      case pos =>
        rw [newLocation_prefixed hp] at hl
        cases hl
      case neg =>
        unfold newLocation at hl
        rw [if_neg hn, if_pos ⟨hs, fun h => hp (Str.hasPrefix_iff.mp h)⟩] at hl
        cases hl
        refine newLocation_prefixed ⟨t, ?_⟩
        rw [List.append_assoc, ht]
        rfl
    case neg =>
      by_cases hr : ∃ u r, Url.parse location = some u ∧ request = some r ∧ Rooted u
      case neg =>
        rw [newLocation_other hs fun u r hu hq h => hr ⟨u, r, hu, hq, h⟩] at hl
        cases hl
      case pos =>
        obtain ⟨u, r, hu, rfl, hr⟩ := hr
        rw [newLocation_rooted hs hu hr] at hl
        split at hl
        case isFalse => cases hl
        case isTrue  =>
          cases hl
          exact mounted_location hr

end Location

section Body

theorem workspace_feeds : (proxyReplacer proxyPrefix).Feeds := by
  constructor
  case longer =>
    intro p hp
    have ⟨w, _, he⟩ := List.mem_map.mp hp
    have hl := prefix_longer
    rw [← he]
    simp only [List.length_append]
    omega
  case again =>
    intro p hp
    have ⟨w, hw, he⟩ := List.mem_map.mp hp
    have ⟨v, hv, hi⟩ := (pattern_again w hw).right
    exact ⟨_, List.mem_map_of_mem hv, he ▸ (List.isPrefixOf_iff_prefix.mp hi).isInfix⟩

theorem body_exact_iff (body : Str) :
    rewriteWorkspaceProxyBody body proxyPrefix = wantedBody proxyPrefix body ↔
      ∀ e ∈ (proxyReplacer proxyPrefix).hits body, kept proxyPrefix e.1.1 e.2 = false := by
  have hw : ∀ p ∈ (proxyReplacer proxyPrefix).pairs, ∀ t : Str,
      (if kept proxyPrefix p.1 t then p.1 else p.2) = p.2 ∨
      (if kept proxyPrefix p.1 t then p.1 else p.2).length < p.2.length := by
    intro p hp t
    have hl := workspace_feeds.longer p hp
    split
    case isTrue  => exact .inr hl
    case isFalse => exact .inl rfl
  have hc := Replacer.replaceFrom_eq_iff hw 0 body
  rw [rewriteWorkspaceProxyBody, eq_comm]
  refine hc.trans (forall₂_congr fun e he => ?_)
  have hl := workspace_feeds.longer e.1 (Replacer.hits_mem he).left
  cases kept proxyPrefix e.1.1 e.2
  case false => simp
  case true  =>
    have hn : e.1.1 ≠ e.1.2 := fun h => Nat.ne_of_lt hl (congrArg List.length h)
    simp [hn]

theorem body_twice_iff (body : Str) :
    rewriteWorkspaceProxyBody (rewriteWorkspaceProxyBody body proxyPrefix) proxyPrefix =
      rewriteWorkspaceProxyBody body proxyPrefix ↔ ∀ w ∈ workspacePatterns, ¬w.1 ++ w.2 <:+: body := by
  refine (workspace_feeds.replace_twice_iff body).trans (Replacer.hits_eq_nil_iff.trans ?_)
  exact List.forall_mem_map

end Body

section Response

variable {lower : Str → Str} {resp resp' : Response}

-- The text of a body that is to be rewritten.
def Response.markup (lower : Str → Str) (resp : Response) : Option Str :=
  if shouldRewriteProxyBody lower resp.contentType then resp.body.toOption else none

theorem rewriteProxyLocation_location (resp : Response) : (rewriteProxyLocation resp proxyPrefix).location =
    (newLocation proxyPrefix resp.request resp.location).getD resp.location := by
  unfold rewriteProxyLocation
  cases newLocation proxyPrefix resp.request resp.location
  case none   => rfl
  case some l => exact get_set ..

theorem rewriteProxyLocation_frame (resp : Response) :
    (rewriteProxyLocation resp proxyPrefix).contentType = resp.contentType ∧
    (rewriteProxyLocation resp proxyPrefix).request = resp.request ∧
    (rewriteProxyLocation resp proxyPrefix).body = resp.body ∧
    (rewriteProxyLocation resp proxyPrefix).closeErr = resp.closeErr := by
  unfold rewriteProxyLocation
  cases newLocation proxyPrefix resp.request resp.location
  case none   => exact ⟨rfl, rfl, rfl, rfl⟩
  case some l => exact ⟨get_set_ne (by decide), rfl, rfl, rfl⟩

theorem markup_of {contentType : Str} (hc : resp.contentType = contentType)
    (h : shouldRewriteProxyBody lower contentType) : resp.markup lower = resp.body.toOption :=
  if_pos (hc ▸ h)

-- The headers that go with the new body are not those that are read.
theorem read_ne_written : ∀ key ∈ [str "Location", str "Content-Type"],
    canonicalHeaderKey key ≠ canonicalHeaderKey (str "Content-Length") ∧
    canonicalHeaderKey key ≠ canonicalHeaderKey (str "Content-Encoding") := by
  decide

section Sized

variable (h : Header) (n : Nat)

theorem sized_location :
    ((h.set (str "Content-Length") (decimal n)).del (str "Content-Encoding")).get (str "Location") =
      h.get (str "Location") := by
  have ⟨hl, he⟩ := read_ne_written _ (.head _)
  rw [get_del_ne he, get_set_ne hl]

theorem sized_contentType :
    ((h.set (str "Content-Length") (decimal n)).del (str "Content-Encoding")).get (str "Content-Type") =
      h.get (str "Content-Type") := by
  have ⟨hl, he⟩ := read_ne_written _ (.tail _ (.head _))
  rw [get_del_ne he, get_set_ne hl]

end Sized

-- What is in a response that the proxy passes on.
structure Passed (lower : Str → Str) (resp resp' : Response) : Prop where
  location    : resp'.location = (newLocation proxyPrefix resp.request resp.location).getD resp.location
  contentType : resp'.contentType = resp.contentType
  request     : resp'.request = resp.request
  markup      : resp'.markup lower = (resp.markup lower).map (rewriteWorkspaceProxyBody · proxyPrefix)
  closed      : shouldRewriteProxyBody lower resp.contentType →
    (∃ body, resp'.body = .ok body) ∧ resp'.closeErr = none
  body        : ¬shouldRewriteProxyBody lower resp.contentType → resp'.body = resp.body

theorem modifyResponse_passed (h : modifyResponse lower resp = .ok resp') : Passed lower resp resp' := by
  have hl := rewriteProxyLocation_location resp
  have ⟨hc, hr, hb, he⟩ := rewriteProxyLocation_frame resp
  unfold modifyResponse at h
  dsimp only at h
  rw [hc, hb, he] at h
  split at h
  case isTrue hn =>
    cases h
    refine ⟨hl, hc, hr, ?_, fun hs => absurd hs hn, fun _ => hb⟩
    rw [Response.markup, Response.markup, hc, if_neg hn, if_neg hn]
    rfl
  case isFalse hs =>
    rw [not_not] at hs
    cases hbody : resp.body
    case error e =>
      rw [hbody] at h
      cases h
    case ok raw =>
      cases hclose : resp.closeErr
      case some e =>
        rw [hbody, hclose] at h
        cases h
      case none =>
        rw [hbody, hclose] at h
        have he := Except.ok.inj h
        have hct : resp'.contentType = resp.contentType := by
          rw [← he]
          exact (sized_contentType ..).trans hc
        have hbody' : resp'.body = .ok (rewriteWorkspaceProxyBody raw proxyPrefix) := by
          rw [← he]
        refine ⟨?_, hct, ?_, ?_, fun _ => ⟨⟨_, hbody'⟩, by rw [← he]⟩, fun hn => absurd hs hn⟩
        · rw [← he]
          exact (sized_location ..).trans hl
        · rw [← he]
          exact hr
        · rw [markup_of hct hs, markup_of rfl hs, hbody, hbody']
          rfl

theorem modifyResponse_again (h : Passed lower resp resp') :
    ∃ resp'', modifyResponse lower resp' = .ok resp'' := by
  have hc := (rewriteProxyLocation_frame resp').left.trans h.contentType
  have ⟨_, _, hb, he⟩ := rewriteProxyLocation_frame resp'
  unfold modifyResponse
  dsimp only
  rw [hc, hb, he]
  split
  case isTrue   => exact ⟨_, rfl⟩
  case isFalse hs =>
    have ⟨⟨body, hbody⟩, hn⟩ := h.closed (not_not.mp hs)
    rw [hbody, hn]
    exact ⟨_, rfl⟩

-- A location is rewritten as it has to be where it fits, a body where no reference that is found is of
-- another host or under the prefix, and what was rewritten stays as it is only where nothing was found.
theorem proxy_rewriting_iff (h : modifyResponse lower resp = .ok resp') :
    (resp'.location = wantedLocation proxyPrefix resp.request resp.location ↔
      LocationFits resp.request resp.location) ∧
    (resp'.markup lower = (resp.markup lower).map (wantedBody proxyPrefix) ↔
      ∀ body ∈ resp.markup lower, ∀ e ∈ (proxyReplacer proxyPrefix).hits body,
        kept proxyPrefix e.1.1 e.2 = false) ∧
    ((∃ resp'', modifyResponse lower resp' = .ok resp'' ∧ resp''.location = resp'.location ∧
        resp''.body = resp'.body) ↔
      ∀ body ∈ resp.markup lower, ∀ w ∈ workspacePatterns, ¬w.1 ++ w.2 <:+: body) := by
  have hp := modifyResponse_passed h
  refine ⟨?_, ?_, ?_⟩
  · rw [hp.location]
    exact location_exact_iff ..
  · rw [hp.markup]
    cases resp.markup lower
    case none      => simp
    case some body => simpa using body_exact_iff body
  · have ⟨resp'', h'⟩ := modifyResponse_again hp
    have hp' := modifyResponse_passed h'
    have hl : resp''.location = resp'.location := by
      rw [hp'.location, hp.location, hp.request, location_twice]
      rfl
    have hb : resp''.body = resp'.body ↔ resp''.markup lower = resp'.markup lower := by
      by_cases hs : shouldRewriteProxyBody lower resp.contentType
      case neg =>
        have hs' : ¬shouldRewriteProxyBody lower resp'.contentType := hp.contentType ▸ hs
        rw [hp'.body hs', hp'.markup, Response.markup, if_neg hs']
        simp
      case pos =>
        have hs' : shouldRewriteProxyBody lower resp'.contentType := hp.contentType ▸ hs
        have ⟨body, hbody⟩ := (hp.closed hs).left
        have ⟨body', hbody'⟩ := (hp'.closed hs').left
        rw [markup_of hp'.contentType hs', markup_of rfl hs', hbody, hbody']
        simp [Except.toOption]
    have he : (∃ r, modifyResponse lower resp' = .ok r ∧ r.location = resp'.location ∧ r.body = resp'.body) ↔
        resp''.body = resp'.body := by
      rw [h']
      simp [hl]
    rw [he, hb, hp'.markup, hp.markup]
    cases resp.markup lower
    case none      => simp
    case some body => simpa using body_twice_iff body

-- A page with a link, which redirects to another place of the same server.
def page : Response where
  header        := .ofList [(str "Content-Type", [str "text/html"]), (str "Location", [str "/y"])]
  request       := none
  body          := .ok (str "<a href=\"/x\">")
  closeErr      := none
  contentLength := 13

theorem proxy_rewriting_page : ∃ resp', modifyResponse id page = .ok resp' ∧
    (resp'.location = wantedLocation proxyPrefix page.request page.location ↔
      LocationFits page.request page.location) ∧
    (resp'.markup id = (page.markup id).map (wantedBody proxyPrefix) ↔
      ∀ body ∈ page.markup id, ∀ e ∈ (proxyReplacer proxyPrefix).hits body,
        kept proxyPrefix e.1.1 e.2 = false) ∧
    ((∃ resp'', modifyResponse id resp' = .ok resp'' ∧ resp''.location = resp'.location ∧
        resp''.body = resp'.body) ↔
      ∀ body ∈ page.markup id, ∀ w ∈ workspacePatterns, ¬w.1 ++ w.2 <:+: body) := by
  have ⟨resp', h⟩ : ∃ resp', modifyResponse id page = .ok resp' := by
    have ⟨hc, _, hb, he⟩ := rewriteProxyLocation_frame page
    unfold modifyResponse
    dsimp only
    rw [hc, hb, he]
    split
    case isTrue  => exact ⟨_, rfl⟩
    case isFalse => exact ⟨_, rfl⟩
  exact ⟨resp', h, proxy_rewriting_iff h⟩

-- A reference to another host is taken for one to the same, and what has the prefix gets it again.
theorem prefix_added_again :
    newLocation proxyPrefix none (str "//cdn.example/x") =
      some (str "/api/v1/me/workspace/proxy//cdn.example/x") ∧
    rewriteWorkspaceProxyBody (str "<a href=\"//cdn.example/x\">") proxyPrefix =
      str "<a href=\"/api/v1/me/workspace/proxy//cdn.example/x\">" ∧
    rewriteWorkspaceProxyBody (rewriteWorkspaceProxyBody (str "<a href=\"/x\">") proxyPrefix) proxyPrefix =
      str "<a href=\"/api/v1/me/workspace/proxy/api/v1/me/workspace/proxy/x\">" := by
  decide +kernel

end Response
end AgentWorkspace
