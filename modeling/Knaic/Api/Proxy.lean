import Knaic.Api.Route

open Go Go.Url

namespace Api

-- The URL of a GitLab as a secret's annotation has it, from the end of the host on.
structure BasePath where
  path   : Str
  rooted : path = [] ∨ path.hasPrefix [slash]

theorem rooted_nil : ([] : Str) = [] ∨ Str.hasPrefix [] [slash] :=
  .inl rfl

-- `gitlabClient` cuts the slashes at the end before it hands the URL out.
def BasePath.upstream (b : BasePath) : Str :=
  b.path.trimRight slash

inductive Proxy
  | gitlabAPIProxy (base : BasePath)
  | pvcViewerProxy
  | agentWorkspaceProxy

def apiV1 : List Part :=
  [.lit (str "api"), .lit (str "v1")]

def aistorage : List Part :=
  apiV1 ++ [.lit (str "namespaces"), .param, .lit (str "aistorage")]

def workspace : List Part :=
  apiV1 ++ [.lit (str "me"), .lit (str "workspace")]

-- What the director of the proxy makes of the URL of the request.
def gitlabAPIProxy (base : BasePath) (rest : Str) (r : URL) : Option URL := do
  let target ← URL.setPath base.upstream
  let req := director target r
  return { req with path := str "/api/" ++ rest, rawPath := [] }

def pvcViewerProxy (rest : Str) (r : URL) : URL :=
  let r2 := { r with path := slash :: rest }
  director { path := [] } r2

def agentWorkspaceProxy (rest : Str) (r : URL) : URL :=
  let r := { r with path := slash :: rest.trimPrefix [slash], rawPath := [] }
  director { path := [] } r

namespace Proxy

def routes : Proxy → List Route
  | gitlabAPIProxy _    =>
    [⟨aistorage ++ [.lit (str "gitlab"), .lit (str "configs"), .param, .lit (str "api")], true⟩]
  | pvcViewerProxy      => [⟨aistorage ++ [.lit (str "pvc"), .param, .lit (str "viewer")], true⟩]
  | agentWorkspaceProxy =>
    [⟨workspace ++ [.lit (str "proxy")], false⟩, ⟨workspace ++ [.lit (str "proxy")], true⟩]

def find (x : Proxy) (path : Str) : Option Match :=
  x.routes.findSome? (·.find path)

def rewrite (rest : Str) (r : URL) : Proxy → Option URL
  | gitlabAPIProxy base => Api.gitlabAPIProxy base rest r
  | pvcViewerProxy      => some (Api.pvcViewerProxy rest r)
  | agentWorkspaceProxy => some (Api.agentWorkspaceProxy rest r)

-- The path in the request that the proxy sends, for the path in the request that it serves.
def forward (x : Proxy) (p : Str) : Option Str := do
  let r ← URL.setPath p
  let m ← x.find (routePath r)
  let out ← x.rewrite m.rest r
  return out.requestURI

-- What follows the prefix of the proxy in the path, as the client wrote it.
def remainder (x : Proxy) (p : Str) : Option Str :=
  (x.find p).map Match.rest

-- Where the remainder is to be found upstream.
def root : Proxy → Str
  | gitlabAPIProxy base => base.upstream ++ str "/api/"
  | _                   => [slash]

-- No escape is in what is taken from the raw path, the base URL has no path of its own, and the
-- remainder has no slash in front for the workspace's proxy to take away.
def Keeps (p r : Str) : Proxy → Prop
  | gitlabAPIProxy base => base.upstream = [] ∧ (URL.DefaultEncoded p ∨ percent ∉ r)
  | pvcViewerProxy      => URL.DefaultEncoded p ∨ percent ∉ r
  | agentWorkspaceProxy => ¬r.hasPrefix [slash] ∧ (URL.DefaultEncoded p ∨ percent ∉ r)

theorem routes_plain (x : Proxy) : ∀ r ∈ x.routes, r.Plain := by
  cases x <;> (simp only [routes]; decide)

theorem find_escape (x : Proxy) (p : Str) : x.find (escape p) = (x.find p).map Match.escape := by
  have hp := x.routes_plain
  simp only [find]
  generalize x.routes = rs at hp
  induction rs
  case nil => rfl
  case cons r rs hi =>
    have hr := Api.find_escape (hp r (by simp)) p
    have hi := hi (fun r h => hp r (List.mem_cons_of_mem _ h))
    cases hf : r.find p <;> simp_all

theorem forward_spec {x : Proxy} {p wire : Str} (h : x.forward p = some wire) :
    ∃ r m out, URL.setPath p = some r ∧ x.find (routePath r) = some m ∧
      x.rewrite m.rest r = some out ∧ wire = out.requestURI := by
  simp only [forward, Option.bind_eq_bind, Option.bind_eq_some_iff, Option.pure_def,
    Option.some.injEq] at h
  have ⟨r, hr, m, hm, out, ho, hw⟩ := h
  exact ⟨r, m, out, hr, hm, ho, hw.symm⟩

-- The remainder `rest` as the proxy has it is the client's one, decoded where no raw path is kept.
def Split (p r rest : Str) : Prop :=
  URL.DefaultEncoded p ∧ r = escape rest ∨ ¬URL.DefaultEncoded p ∧ r = rest

theorem remainder_spec {x : Proxy} {p : Str} {u : URL} {m : Match} (hu : URL.setPath p = some u)
    (hm : x.find (routePath u) = some m) : ∃ r, x.remainder p = some r ∧ Split p r m.rest := by
  by_cases hd : URL.DefaultEncoded p
  case pos =>
    obtain ⟨hp, hr⟩ := URL.setPath_default hu hd
    have hf : x.find p = some m.escape := by
      rw [hp, find_escape]
      simp_all [routePath]
    exact ⟨_, by simp [remainder, hf, Match.escape], .inl ⟨hd, rfl⟩⟩
  case neg =>
    obtain ⟨hp, hr⟩ := URL.setPath_raw hu hd
    have hn : p ≠ [] := by
      rintro rfl
      exact hd rfl
    have hf : x.find p = some m := by simpa [routePath, hr, hn] using hm
    exact ⟨_, by simp [remainder, hf], .inr ⟨hd, rfl⟩⟩

end Proxy

theorem requestURI_gitlabAPIProxy {base : BasePath} {rest : Str} {r out : URL}
    (h : gitlabAPIProxy base rest r = some out) :
    out.requestURI = str "/api" ++ slash :: escape rest := by
  simp only [gitlabAPIProxy, Option.bind_eq_bind, Option.bind_eq_some_iff, Option.pure_def,
    Option.some.injEq] at h
  have ⟨_, _, ho⟩ := h
  have he : escape (str "api/") = str "api/" := by decide
  calc
    out.requestURI = URL.requestURI { path := slash :: (str "api/" ++ rest) } := by rw [← ho]; rfl
    _              = slash :: (str "api/" ++ escape rest) := by simp [URL.requestURI_path, he]
    _              = str "/api" ++ slash :: escape rest := rfl

-- The raw path is the one the request came with. It has more slashes than what is left of it, so
-- it does not decode to that.
theorem requestURI_pvcViewerProxy {p : Str} {u : URL} {m : Match} (hu : URL.setPath p = some u)
    (hm : Proxy.pvcViewerProxy.find (routePath u) = some m) :
    (pvcViewerProxy m.rest u).requestURI = slash :: escape m.rest := by
  apply URL.requestURI_director rfl
  by_cases hd : URL.DefaultEncoded p
  case pos => exact .inl (URL.setPath_default hu hd).right
  case neg =>
    right
    have ⟨hp, hr⟩ := URL.setPath_raw hu hd
    have hn : u.rawPath ≠ [] := by
      rintro hn
      exact hd (hr ▸ hn ▸ rfl)
    intro h
    have hc := unescape_count_slash h
    have hu : routePath u = u.rawPath := if_pos hn
    simp only [Proxy.find, Proxy.routes, List.findSome?_singleton, hu] at hm
    have hk := find_count hm rfl
    simp [aistorage, apiV1] at hk hc
    omega

theorem requestURI_agentWorkspaceProxy (rest : Str) (r : URL) :
    (agentWorkspaceProxy rest r).requestURI = slash :: escape (rest.trimPrefix [slash]) :=
  URL.requestURI_director rfl (.inl rfl)

theorem decodedSegments_append_slash (s t : Str) :
    decodedSegments (s ++ slash :: t) = decodedSegments s ++ decodedSegments t := by
  simp [decodedSegments]

theorem decodedSegments_slash (s : Str) :
    decodedSegments (slash :: s) = some [] :: decodedSegments s :=
  decodedSegments_append_slash [] s

theorem decodedSegments_length (s : Str) : (decodedSegments s).length = s.count slash + 1 := by
  simp [decodedSegments, segments_length]

theorem escape_count_slash (s : Str) : (escape s).count slash = s.count slash := by
  have hl := segments_length (escape s)
  have hs := segments_length s
  rw [segments_escape, List.length_map] at hl
  omega

theorem BasePath.upstream_rooted (b : BasePath) (h : b.upstream ≠ []) :
    ∃ s, b.upstream = slash :: s := by
  have hs := b.path.reverse.dropWhile_suffix (· == slash)
  have hp : b.upstream <+: b.path := by
    simpa [upstream, Str.trimRight] using List.reverse_prefix.mpr hs
  have ⟨c, s, hc⟩ := List.exists_cons_of_ne_nil h
  have ⟨t, ht⟩ := hp
  have hr := b.rooted
  simp only [Str.hasPrefix_iff] at hr
  simp_all
  grind

namespace Proxy

variable {p r : Str} {m : Match}

theorem Split.count {rest : Str} (h : Split p r rest) : r.count slash = rest.count slash := by
  cases h
  case inl h => rw [h.right, escape_count_slash]
  case inr h => rw [h.right]

theorem Split.length {rest : Str} (h : Split p r rest) :
    (decodedSegments (escape rest)).length = (decodedSegments r).length := by
  rw [decodedSegments_length, decodedSegments_length, escape_count_slash, h.count]

theorem Split.same_iff {rest : Str} (h : Split p r rest) :
    decodedSegments (escape rest) = decodedSegments r ↔ URL.DefaultEncoded p ∨ percent ∉ r := by
  cases h
  case inl h => simp [h]
  case inr h => simp [h, decodedSegments_escape_iff]

theorem Split.hasPrefix {rest : Str} (h : Split p r rest) :
    r.hasPrefix [slash] = rest.hasPrefix [slash] := by
  cases h
  case inl h =>
    rw [h.right]
    cases rest
    case nil => rfl
    case cons b rest =>
      by_cases hb : b = slash
      case pos => simp [hb, Str.hasPrefix]
      case neg =>
        have hn := slash_not_mem_escapeByte hb
        obtain ⟨c, cs, hc⟩ : ∃ c cs, escapeByte b = c :: cs := by
          simp only [escapeByte]
          split <;> simp
        have hs : (slash == c) = false := by
          simp only [beq_eq_false_iff_ne]
          rintro rfl
          simp [hc] at hn
        have hb : (slash == b) = false := by simpa using Ne.symm hb
        simp [hc, URL.hasPrefix_cons, hs, hb]
  case inr h => rw [h.right]

-- A slash in front of the remainder is an empty segment, which is lost with it.
theorem Split.trimPrefix_iff {rest : Str} (h : Split p r rest) :
    decodedSegments (escape (rest.trimPrefix [slash])) = decodedSegments r ↔
      ¬r.hasPrefix [slash] ∧ (URL.DefaultEncoded p ∨ percent ∉ r) := by
  rw [h.hasPrefix]
  by_cases hr : rest.hasPrefix [slash]
  case pos =>
    have ⟨t, ht⟩ : ∃ t, rest = slash :: t := by
      have ⟨t, ht⟩ := Str.hasPrefix_iff.mp hr
      exact ⟨t, ht.symm⟩
    have hc := h.count
    have hx : rest.trimPrefix [slash] = t := by
      simp [ht, Str.trimPrefix, URL.hasPrefix_slash_cons]
    have hn : decodedSegments (escape (rest.trimPrefix [slash])) ≠ decodedSegments r := by
      intro he
      have hl := congrArg List.length he
      rw [hx, decodedSegments_length, decodedSegments_length, escape_count_slash, hc, ht] at hl
      simp at hl
    simp [hr, hn]
  case neg => simp [hr, Str.trimPrefix, h.same_iff]

theorem gitlab_same_iff {base : BasePath} {rest : Str} (h : Split p r rest) :
    decodedSegments (str "/api" ++ slash :: escape rest) =
      decodedSegments (base.upstream ++ str "/api/" ++ r) ↔
    base.upstream = [] ∧ (URL.DefaultEncoded p ∨ percent ∉ r) := by
  have hs : base.upstream ++ str "/api/" ++ r = (base.upstream ++ str "/api") ++ slash :: r := by
    have ha : str "/api/" = str "/api" ++ [slash] := rfl
    simp [ha]
  rw [hs, decodedSegments_append_slash, decodedSegments_append_slash, ← h.same_iff]
  by_cases hb : base.upstream = []
  case pos => simp [hb]
  case neg =>
    have ⟨t, ht⟩ := base.upstream_rooted hb
    have ha : str "/api" = slash :: str "api" := rfl
    have hn : decodedSegments (str "/api") ++ decodedSegments (escape rest) ≠
        decodedSegments (base.upstream ++ str "/api") ++ decodedSegments r := by
      intro he
      have hl := congrArg List.length he
      simp [h.length, decodedSegments_length, ht, ha] at hl
      omega
    simp [hb, hn]

-- Every proxied request has a remainder, and the path that is sent upstream is read there as the
-- one of the base URL and then the remainder, segment by segment, under the condition of `Keeps`
-- and not otherwise.
theorem forwarded_iff {x : Proxy} {wire : Str} (h : x.forward p = some wire) :
    ∃ r, x.remainder p = some r ∧
      (decodedSegments wire = decodedSegments (x.root ++ r) ↔ x.Keeps p r) := by
  have ⟨u, m, out, hu, hm, ho, hw⟩ := forward_spec h
  have ⟨r, hr, hs⟩ := remainder_spec hu hm
  refine ⟨r, hr, ?_⟩
  rw [hw]
  cases x
  case gitlabAPIProxy base =>
    rw [requestURI_gitlabAPIProxy (r := u) ho]
    exact gitlab_same_iff hs
  case pvcViewerProxy =>
    cases ho
    rw [requestURI_pvcViewerProxy hu hm]
    simp [root, Keeps, decodedSegments_slash, hs.same_iff]
  case agentWorkspaceProxy =>
    cases ho
    rw [requestURI_agentWorkspaceProxy]
    simp [root, Keeps, decodedSegments_slash, hs.trimPrefix_iff]

-- A request for a project by its path.
def projectPath : Str :=
  str "/api/v1/namespaces/ml/aistorage/gitlab/configs/hub/api/v4/projects/group%2Fproject"

def hub : BasePath :=
  ⟨[], rooted_nil⟩

theorem forwarded_project :
    ∃ r, (gitlabAPIProxy hub).remainder projectPath = some r ∧
      (decodedSegments (str "/api/v4/projects/group%252Fproject") =
        decodedSegments ((gitlabAPIProxy hub).root ++ r) ↔ (gitlabAPIProxy hub).Keeps projectPath r) :=
  forwarded_iff (by decide +kernel)

-- The slash that the client had escaped is escaped twice upstream.
theorem project_escaped_twice :
    ∃ wire r, (gitlabAPIProxy hub).forward projectPath = some wire ∧
      (gitlabAPIProxy hub).remainder projectPath = some r ∧
      decodedSegments wire ≠ decodedSegments ((gitlabAPIProxy hub).root ++ r) :=
  ⟨str "/api/v4/projects/group%252Fproject", str "v4/projects/group%2Fproject",
    by decide +kernel, by decide +kernel, by decide +kernel⟩

end Proxy

end Api
