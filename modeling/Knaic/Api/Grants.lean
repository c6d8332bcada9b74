import Knaic.Api.Proxy
import Knaic.Auth.Grant
import Knaic.Effects.Events
import Knaic.Go.Query
import Knaic.Go.UrlParse

open Go Go.Url Go.Http Auth Effects

namespace Api

-- What a grant is for. A viewer, a secret and a project are within a namespace.
inductive Granted
  | viewer (ns pvc : Str)
  | secret (ns name : Str)
  | project (ns name pid : Str)
  | workspace
deriving DecidableEq

namespace Granted

-- The part of the tree below which everything is about the same thing.
def root : Granted → Str
  | viewer ns pvc       => str "/api/v1/namespaces/" ++ ns ++ str "/aistorage/pvc/" ++ pvc
  | secret ns name      => str "/api/v1/namespaces/" ++ ns ++ str "/aistorage/s3/secrets/" ++ name
  | project ns name pid =>
    str "/api/v1/namespaces/" ++ ns ++ str "/aistorage/gitlab/configs/" ++ name ++ str "/projects/" ++ pid
  | workspace           => str "/api/v1/me/workspace"

def below : Granted → Str
  | viewer ..  => str "/viewer/"
  | secret ..  => str "/objects/raw"
  | project .. => str "/file/raw"
  | workspace  => str "/proxy/"

def scope (x : Granted) : Str :=
  x.root ++ x.below

-- Where something about this is.
def On (x : Granted) (path : Str) : Prop :=
  path = x.root ∨ x.root ++ [slash] <+: path

def names : Granted → List Str
  | viewer ns pvc       => [ns, pvc]
  | secret ns name      => [ns, name]
  | project ns name pid => [ns, name, pid]
  | workspace           => []

def words : Granted → List Str
  | viewer ns pvc       => [[], str "api", str "v1", str "namespaces", ns, str "aistorage", str "pvc", pvc]
  | secret ns name      => [[], str "api", str "v1", str "namespaces", ns, str "aistorage", str "s3", str "secrets", name]
  | project ns name pid =>
    [[], str "api", str "v1", str "namespaces", ns, str "aistorage", str "gitlab", str "configs", name, str "projects", pid]
  | workspace           => [[], str "api", str "v1", str "me", str "workspace"]

def literals : List Str :=
  [[], str "api", str "v1", str "namespaces", str "aistorage", str "pvc", str "s3", str "secrets", str "gitlab",
    str "configs", str "projects", str "me", str "workspace"]

variable {x y : Granted} {path : Str}

theorem root_eq (x : Granted) : x.root = join x.words := by
  cases x
  all_goals
    simp only [root, words, join, List.append_assoc, List.intercalate_cons_cons, List.intercalate_singleton]
    rfl

theorem forall_words {P : Str → Prop} (hl : ∀ w ∈ literals, P w) (h : ∀ w ∈ x.names, P w) : ∀ w ∈ x.words, P w := by
  have hm : ∀ w ∈ x.words, w ∈ literals ++ x.names := by cases x <;> simp [words, names, literals]
  exact fun w hw => List.forall_mem_append.mpr ⟨hl, h⟩ w (hm w hw)

theorem segments_root (h : ∀ w ∈ x.names, slash ∉ w) : segments x.root = x.words := by
  rw [root_eq, segments_join (forall_words (by decide) h)]
  cases x <;> exact List.cons_ne_nil _ _

theorem On.words (h : x.On path) (hx : ∀ w ∈ x.names, slash ∉ w) : x.words <+: segments path := by
  rcases h with rfl | ⟨t, rfl⟩
  case inl => rw [segments_root hx]
  case inr =>
    rw [List.append_assoc, List.singleton_append, segments_append_slash, segments_root hx]
    exact List.prefix_append ..

theorem on_of_scope (h : x.scope <+: path) : x.On path := by
  have hb : [slash] <+: x.below := by cases x <;> exact List.isPrefixOf_iff_prefix.mp rfl
  exact .inr (((List.prefix_append_right_inj _).mpr hb).trans h)

theorem On.ne_nil (h : x.On path) : path ≠ [] := by
  have hr : x.root ≠ [] := by cases x <;> simp [root, str]
  rcases h with rfl | ⟨t, rfl⟩
  case inl => exact hr
  case inr => simp

-- Nothing is about two of them.
theorem On.unique (h : x.On path) (h' : y.On path) (hx : ∀ w ∈ x.names, slash ∉ w) (hy : ∀ w ∈ y.names, slash ∉ w) :
    x = y := by
  have hw := List.prefix_or_prefix_of_prefix (h.words hx) (h'.words hy)
  have hn : str "namespaces" ≠ str "me" ∧ str "pvc" ≠ str "s3" ∧ str "pvc" ≠ str "gitlab" ∧ str "s3" ≠ str "gitlab" := by
    decide
  cases x <;> cases y
  all_goals
    simp only [Granted.words, List.cons_prefix_cons] at hw
    grind

theorem names_words (x : Granted) : ∀ w ∈ x.names, w ∈ x.words := by
  cases x <;> simp [names, words]

theorem On.of_segments {v : Str} {vs : List Str} (h : segments path = x.words ++ v :: vs) : x.On path := by
  have hs : ∀ w ∈ x.words ++ v :: vs, slash ∉ w := fun w hw => slash_not_mem_segments (h ▸ hw)
  have hr := segments_root fun w hw => hs w (List.mem_append_left _ (x.names_words w hw))
  have hv : segments (join (v :: vs)) = v :: vs :=
    segments_join (fun w hw => hs w (List.mem_append_right _ hw)) (List.cons_ne_nil _ _)
  have he : x.root ++ slash :: join (v :: vs) = path := segments_inj (by rw [segments_append_slash, hr, hv, h])
  exact .inr ⟨join (v :: vs), by rw [List.append_assoc]; exact he⟩

-- What the escaped form of a path is about is what the path is about, unless an escape is in a name.
theorem On.unescape {raw : Str} (h : x.On raw) (hs : ∀ w ∈ x.names, slash ∉ w) (hp : ∀ w ∈ x.names, percent ∉ w)
    (hu : unescape raw = some path) : x.On path := by
  have hr : percent ∉ x.root := by
    rw [← mem_segments_iff (by decide), segments_root hs]
    rintro ⟨w, hw, hb⟩
    exact forall_words (by decide) hp w hw hb
  rcases h with rfl | ⟨t, rfl⟩
  case inl =>
    rw [unescape_of_no_percent hr] at hu
    exact .inl (Option.some.inj hu).symm
  case inr =>
    have hs : percent ∉ x.root ++ [slash] := by simpa [percent, slash] using hr
    rw [unescape_append hs] at hu
    obtain ⟨t, _, rfl⟩ := Option.map_eq_some_iff.mp hu
    exact .inr (List.prefix_append ..)

-- What comes back of the names.
def valid : Granted → Granted
  | viewer ns pvc       => viewer (Utf8.toValid ns) (Utf8.toValid pvc)
  | secret ns name      => secret (Utf8.toValid ns) (Utf8.toValid name)
  | project ns name pid => project (Utf8.toValid ns) (Utf8.toValid name) (Utf8.toValid pid)
  | workspace           => workspace

theorem names_valid (x : Granted) : x.valid.names = x.names.map Utf8.toValid := by
  cases x <;> rfl

theorem valid_of_names (h : ∀ w ∈ x.names, Utf8.toValid w = w) : x.valid = x := by
  cases x
  all_goals
    simp only [names, List.forall_mem_cons] at h
    grind [valid]

theorem toValid_scope (x : Granted) : Utf8.toValid x.scope = x.valid.scope := by
  have ascii {l : String} (h : (str l).all (· < 0x80)) : ∀ b ∈ str l, b < 0x80 := by
    simpa using h
  have done {l : String} (hn : str l ≠ []) (hl : (str l).all (· < 0x80)) (w : Str) :
      Utf8.toValid (w ++ str l) = Utf8.toValid w ++ str l := by
    have hd := JsonText.toValid_before hn (ascii hl) w []
    have hv : Utf8.toValid [] = [] := rfl
    rwa [hv, List.append_nil] at hd
  cases x
  case workspace =>
    rw [scope, root, below]
    exact done (by decide) (by decide) _
  case viewer ns pvc =>
    simp only [scope, root, below, valid, List.append_assoc]
    rw [JsonText.toValid_ascii (ascii (by decide)), JsonText.toValid_before (by decide) (ascii (by decide)),
      done (by decide) (by decide)]
  case secret ns name =>
    simp only [scope, root, below, valid, List.append_assoc]
    rw [JsonText.toValid_ascii (ascii (by decide)), JsonText.toValid_before (by decide) (ascii (by decide)),
      done (by decide) (by decide)]
  case project ns name pid =>
    simp only [scope, root, below, valid, List.append_assoc]
    rw [JsonText.toValid_ascii (ascii (by decide)), JsonText.toValid_before (by decide) (ascii (by decide)),
      JsonText.toValid_before (by decide) (ascii (by decide)), done (by decide) (by decide)]

end Granted

-- The handlers that mint.
inductive GrantHandler
  | pvcViewerGrant | s3DownloadGrant | gitlabDownloadGrant | agentWorkspaceGrant

namespace GrantHandler

def route : GrantHandler → Route
  | pvcViewerGrant      =>
    { parts := aistorage ++ [.lit (str "pvc"), .param, .lit (str "viewer"), .lit (str "grant")] }
  | s3DownloadGrant     =>
    { parts := aistorage ++ [.lit (str "s3"), .lit (str "secrets"), .param, .lit (str "objects"), .lit (str "grant")] }
  | gitlabDownloadGrant =>
    { parts := aistorage ++ [.lit (str "gitlab"), .lit (str "configs"), .param, .lit (str "projects"), .param,
        .lit (str "file"), .lit (str "grant")] }
  | agentWorkspaceGrant => { parts := workspace ++ [.lit (str "grant")] }

def granted (params : List Str) : GrantHandler → Granted
  | pvcViewerGrant      => .viewer (params.getD 0 []) (params.getD 1 [])
  | s3DownloadGrant     => .secret (params.getD 0 []) (params.getD 1 [])
  | gitlabDownloadGrant => .project (params.getD 0 []) (params.getD 1 []) (params.getD 2 [])
  | agentWorkspaceGrant => .workspace

def all : List GrantHandler :=
  [pvcViewerGrant, s3DownloadGrant, gitlabDownloadGrant, agentWorkspaceGrant]

end GrantHandler

def grantTTL : Duration :=
  10 * minute

def alice : User where
  subject         := str "alice"
  email           := str "alice@knaic.local"
  name            := str "Alice"
  groups          := [str "team"]
  isPlatformAdmin := false

-- So many seconds after a noon in 2024.
def noon (s : Int64) : Time :=
  ⟨63850000000 + s, 0⟩

def data : Granted :=
  .viewer (str "team") (str "data")

-- The end of what is signed stands for its checksum.
def checked : GrantStore where
  mac raw := raw.reverse

-- What a request asks a grant for.
def asked (r : Request) : Option Granted :=
  if r.method = str "POST" then
    GrantHandler.all.findSome? fun h => (h.route.find (routePath r.url)).map fun m => h.granted m.params
  else
    none

-- The segments that a pattern takes.
def Part.fill : List Part → List Str → List Str
  | [], _                => []
  | .lit s :: ps, vs     => s :: fill ps vs
  | .param :: ps, v :: vs => v :: fill ps vs
  | .param :: _, []      => []

theorem take_fill {ps : List Part} {ws vs rest : List Str} (h : Part.take ps ws = some (vs, rest)) :
    ws = Part.fill ps vs ++ rest ∧ vs.length = ps.count .param := by
  fun_induction Part.take ps ws generalizing vs rest
  case case1       =>
    cases h
    exact ⟨rfl, rfl⟩
  case case2       => cases h
  case case3 hi    =>
    have hi := hi h
    exact ⟨congrArg (_ :: ·) hi.left, by simpa using hi.right⟩
  case case4       => cases h
  case case5 hi    =>
    obtain ⟨⟨vs, rest⟩, ht, he⟩ := Option.map_eq_some_iff.mp h
    cases he
    have hi := hi ht
    exact ⟨congrArg (_ :: ·) hi.left, by simpa using hi.right⟩

-- A request asks for what its path is about.
theorem asked_on {r : Request} {x : Granted} (h : asked r = some x) :
    x.On (routePath r.url) ∧ ∀ w ∈ x.names, slash ∉ w := by
  have hf : ∃ v vs, segments (routePath r.url) = x.words ++ v :: vs := by
    simp only [asked] at h
    split at h
    case isFalse => cases h
    case isTrue  =>
      obtain ⟨f, _, hf⟩ := List.exists_of_findSome?_eq_some h
      obtain ⟨m, hm, rfl⟩ := Option.map_eq_some_iff.mp hf
      obtain ⟨ws, rest, hs, ht, _, _⟩ := find_spec hm
      obtain ⟨rfl, hl⟩ := take_fill ht
      rw [hs]
      cases f
      case pvcViewerGrant      =>
        obtain ⟨a, b, he⟩ := List.length_eq_two.mp hl
        rw [he]
        exact ⟨_, _, rfl⟩
      case s3DownloadGrant     =>
        obtain ⟨a, b, he⟩ := List.length_eq_two.mp hl
        rw [he]
        exact ⟨_, _, rfl⟩
      case gitlabDownloadGrant =>
        obtain ⟨a, b, c, he⟩ := List.length_eq_three.mp hl
        rw [he]
        exact ⟨_, _, rfl⟩
      case agentWorkspaceGrant =>
        rw [List.eq_nil_of_length_eq_zero hl]
        exact ⟨_, _, rfl⟩
  obtain ⟨v, vs, hs⟩ := hf
  refine ⟨.of_segments hs, fun w hw => slash_not_mem_segments (s := routePath r.url) ?_⟩
  rw [hs]
  exact List.mem_append_left _ (x.names_words w hw)

-- What a browser keeps of the cookie.
structure GrantCookie where
  name    : Str
  value   : Str
  path    : Str
  expires : Time
  maxAge  : Int

def mintGrantCookie (g : GrantStore) (now : Time) (u : User) (scope : Str) : Except Error GrantCookie := do
  let (token, exp) ← g.mint now (some u) scope grantTTL
  return { name := grantCookieName, value := token, path := scope, expires := exp, maxAge := 600 }

-- `oidc` is what the verifier makes of a bearer token.
structure Server where
  adminGroup : Str
  oidc       : Str → Option User
  store      : GrantStore

-- A request, the time when the middleware looks at it, and the time when the handler does.
structure Visit where
  request : Request
  arrived : Time
  handled : Time

namespace Server

variable (srv : Server)

def verifier (now : Time) : Verifier where
  disabled   := false
  adminGroup := srv.adminGroup
  verify     := srv.oidc
  grants     := some fun token path => (srv.store.verify now token path).toOption

-- The user that the middleware accepts the request of.
def accept (e : Visit) : Option User :=
  (srv.verifier e.arrived).middleware e.request

def serve (e : Visit) : Option GrantCookie := do
  let u ← srv.accept e
  let x ← asked e.request
  (mintGrantCookie srv.store e.handled u x.scope).toOption

-- The cookie holds what the store of the server minted.
def Minted (u : User) (x : Granted) (c : GrantCookie) : Prop :=
  c.name = grantCookieName ∧ ∃ now, srv.store.mint now (some u) x.scope grantTTL = .ok (c.value, c.expires)

variable {srv} {e : Visit} {u : User} {x : Granted} {c : GrantCookie}

theorem scope_ne_nil (x : Granted) : x.scope ≠ [] := by
  cases x <;> simp [Granted.scope, Granted.below, str]

-- A request that is accepted and asks for a grant gets one.
theorem serve_of (ha : srv.accept e = some u) (hx : asked e.request = some x) :
    ∃ c, srv.serve e = some c ∧ srv.Minted u x c ∧ c.expires = e.handled.add grantTTL := by
  have hm : ∃ token, srv.store.mint e.handled (some u) x.scope grantTTL = .ok (token, e.handled.add grantTTL) :=
    ⟨_, if_neg (scope_ne_nil x)⟩
  obtain ⟨token, hm⟩ := hm
  refine ⟨⟨grantCookieName, token, x.scope, e.handled.add grantTTL, 600⟩, ?_, ⟨rfl, _, hm⟩, rfl⟩
  simp only [serve, ha, hx, mintGrantCookie, hm, Option.bind_eq_bind, Option.bind_some]
  rfl

theorem of_serve (h : srv.serve e = some c) : ∃ u x, srv.accept e = some u ∧ asked e.request = some x ∧
    srv.Minted u x c ∧ c.expires = e.handled.add grantTTL := by
  obtain ⟨u, ha, h⟩ := Option.bind_eq_some_iff.mp h
  obtain ⟨x, hx, h⟩ := Option.bind_eq_some_iff.mp h
  obtain ⟨c', hc, hm⟩ := serve_of ha hx
  have he : srv.serve e = some c := by
    simp only [serve, ha, hx, Option.bind_eq_bind, Option.bind_some]
    exact h
  rw [hc] at he
  cases he
  exact ⟨u, x, ha, hx, hm⟩

theorem Minted.accepted (h : srv.Minted u x c) (hp : e.request.url.path ≠ []) (v : User) :
    (srv.store.verify e.arrived c.value e.request.url.path).toOption = some v ↔
      v = u.valid ∧ ¬(wholeSeconds c.expires).before e.arrived ∧ x.valid.scope <+: e.request.url.path := by
  obtain ⟨_, now, hm⟩ := h
  rw [← Granted.toValid_scope, ← GrantStore.verify_ok_iff hm hp]
  cases srv.store.verify e.arrived c.value e.request.url.path <;> simp [Except.toOption]

end Server

-- Who holds the cookies that came back, and the requests that were accepted, with the users that they were taken for.
structure Holder where
  cookies  : List GrantCookie
  accepted : List (Visit × User)

namespace Holder

def step (srv : Server) (s : Holder) (e : Visit) : Holder where
  cookies  := s.cookies ++ (srv.serve e).toList
  accepted := s.accepted ++ ((srv.accept e).map fun u => (e, u)).toList

-- The request is authenticated by nothing but a cookie that came back.
def Own (s : Holder) (e : Visit) : Prop :=
  bearer e.request.header = [] ∧
    ∀ token ∈ cookie e.request.header grantCookieName, ∃ c ∈ s.cookies, c.value = token

-- The router takes the request behind the middleware.
def Routed (e : Visit) : Prop :=
  (∃ p, URL.setPath p = some e.request.url) ∧ str "/api/v1/" <+: routePath e.request.url

-- Nothing was accepted after `exp`, and no grant goes on for longer.
def Dies (exp : Time) (s : Holder) : Prop :=
  (∀ a ∈ s.accepted, ¬exp.before a.1.arrived) ∧ ∀ c ∈ s.cookies, ¬exp.before c.expires

-- An accepted request asks for a grant at a time when it goes on for longer.
def Renews (srv : Server) (exp : Time) (e : Visit) : Prop :=
  (srv.accept e).isSome ∧ (asked e.request).isSome ∧ exp.before (e.handled.add grantTTL)

variable {srv : Server} {s : Holder} {e : Visit} {exp : Time} {u : User} {x : Granted} {c : GrantCookie}

theorem accept_own (ho : Own s e) (ha : srv.accept e = some u) : ∃ c ∈ s.cookies,
    (srv.store.verify e.arrived c.value e.request.url.path).toOption = some u := by
  have hb : srv.accept e = (cookie e.request.header grantCookieName).bind fun token =>
      (srv.store.verify e.arrived token e.request.url.path).toOption := by
    simp only [Server.accept, Verifier.middleware, Server.verifier, ho.left]
    rfl
  rw [hb] at ha
  obtain ⟨token, ht, hv⟩ := Option.bind_eq_some_iff.mp ha
  obtain ⟨c, hc, rfl⟩ := ho.right token ht
  exact ⟨c, hc, hv⟩

section Time

theorem not_before_trans {t u v : Time} (h : ¬t.before u) (h' : ¬(wholeSeconds u).before v) : ¬t.before v := by
  have hs : (wholeSeconds u).rank ≤ u.rank := by
    refine Prod.Lex.toLex_le_toLex.mpr (.inr ⟨rfl, ?_⟩)
    simp [wholeSeconds]
  rw [Time.before_iff, not_lt] at h h' ⊢
  exact (h'.trans hs).trans h

structure Inv (srv : Server) (exp : Time) (s : Holder) : Prop where
  dies   : Dies exp s
  minted : ∀ c ∈ s.cookies, ∃ u x, srv.Minted u x c

theorem Inv.step (h : Inv srv exp s) (ho : Own s e) (hr : ¬Renews srv exp e) : Inv srv exp (step srv s e) := by
  have hc : ∀ c ∈ (srv.serve e).toList, (∃ u x, srv.Minted u x c) ∧ ¬exp.before c.expires := by
    intro c hm
    obtain ⟨u, x, ha, hx, hm, he⟩ := Server.of_serve (Option.mem_toList.mp hm)
    exact ⟨⟨u, x, hm⟩, fun hb => hr ⟨Option.isSome_of_mem ha, Option.isSome_of_mem hx, he ▸ hb⟩⟩
  have ht : ∀ a ∈ ((srv.accept e).map fun u => (e, u)).toList, ¬exp.before a.1.arrived := by
    intro a hm
    obtain ⟨u, ha, rfl⟩ := Option.map_eq_some_iff.mp (Option.mem_toList.mp hm)
    obtain ⟨c, hc, hv⟩ := accept_own ho ha
    obtain ⟨v, x, _, now, hc'⟩ := h.minted c hc
    refine not_before_trans (h.dies.right c hc) fun hx => ?_
    rw [GrantStore.verify_minted hc', if_pos hx] at hv
    cases hv
  constructor
  case minted => exact List.forall_mem_append.mpr ⟨h.minted, fun c hm => (hc c hm).left⟩
  case dies   =>
    exact ⟨List.forall_mem_append.mpr ⟨h.dies.left, ht⟩,
      List.forall_mem_append.mpr ⟨h.dies.right, fun c hm => (hc c hm).right⟩⟩

theorem not_dies_of_renews (hr : Renews srv exp e) : ¬Dies exp (step srv s e) := by
  intro h
  obtain ⟨u, ha⟩ := Option.isSome_iff_exists.mp hr.left
  obtain ⟨x, hx⟩ := Option.isSome_iff_exists.mp hr.right.left
  obtain ⟨c, hc, _, he⟩ := Server.serve_of ha hx
  have hm : c ∈ (step srv s e).cookies := List.mem_append_right _ (Option.mem_toList.mpr hc)
  exact h.right c hm (he ▸ hr.right.right)

end Time

section Scope

-- A request was accepted as the user that the first grant was minted for, on a path below its scope, or below a scope
-- with an escape in one of its names.
def Within (u : User) (x : Granted) (a : Visit × User) : Prop :=
  a.2 = u.valid ∧ ∃ y : Granted, (∀ w ∈ y.names, slash ∉ w) ∧ y.scope <+: a.1.request.url.path ∧
    (y = x.valid ∨ ∃ w ∈ y.names, percent ∈ w)

-- A cookie holds a grant of this kind.
def Of (srv : Server) (u : User) (x : Granted) (c : GrantCookie) : Prop :=
  ∃ v y, srv.Minted v y c ∧ v.valid = u.valid ∧ (∀ w ∈ y.names, slash ∉ w) ∧
    (y.valid = x.valid ∨ ∃ w ∈ y.names, percent ∈ w)

theorem user_valid_valid (u : User) : u.valid.valid = u.valid := by
  have hg : Utf8.toValid ∘ Utf8.toValid = Utf8.toValid := funext JsonText.toValid_toValid
  simp only [User.valid, JsonText.toValid_toValid, List.map_map, hg]

theorem granted_valid_valid (x : Granted) : x.valid.valid = x.valid :=
  Granted.valid_of_names (by simp [Granted.names_valid, JsonText.toValid_toValid])

theorem path_ne_nil (hr : Routed e) : e.request.url.path ≠ [] ∧
    (routePath e.request.url = e.request.url.path ∨ unescape (routePath e.request.url) = some e.request.url.path) := by
  obtain ⟨⟨p, hp⟩, t, ht⟩ := hr
  by_cases hw : e.request.url.rawPath = []
  case pos =>
    have he : routePath e.request.url = e.request.url.path := if_neg (not_not.mpr hw)
    rw [he] at ht
    exact ⟨by simp [← ht, str], .inl he⟩
  case neg =>
    have he : routePath e.request.url = e.request.url.rawPath := if_pos hw
    obtain ⟨hu, h0 | hq⟩ := setPath_some hp
    case inl => exact absurd h0 hw
    case inr =>
      rw [he, hq] at ht ⊢
      refine ⟨?_, .inr hu⟩
      rw [← ht, unescape_append (by decide)] at hu
      obtain ⟨t, _, hu⟩ := Option.map_eq_some_iff.mp hu
      simp [← hu, str]

theorem Of.accepted (h : Of srv u x c) (hp : e.request.url.path ≠ []) {v : User}
    (hv : (srv.store.verify e.arrived c.value e.request.url.path).toOption = some v) : Within u x (e, v) := by
  obtain ⟨w, y, hm, hw, hs, hy⟩ := h
  obtain ⟨rfl, _, hb⟩ := (hm.accepted hp v).mp hv
  have slashes : ∀ n ∈ y.valid.names, slash ∉ n := by
    rw [Granted.names_valid]
    exact List.forall_mem_map.mpr fun n hn => (JsonText.mem_toValid (by decide)).not.mpr (hs n hn)
  refine ⟨hw, y.valid, slashes, hb, hy.imp_right ?_⟩
  rintro ⟨n, hn, hc⟩
  rw [Granted.names_valid]
  exact ⟨_, List.mem_map_of_mem hn, (JsonText.mem_toValid (by decide)).mpr hc⟩

-- What such a request asks for is the same thing, unless there is an escape in a name.
theorem Within.asked {v : User} {z : Granted} (h : Within u x (e, v)) (hr : Routed e) (hz : asked e.request = some z) :
    z = x.valid ∨ ∃ w ∈ z.names, percent ∈ w := by
  obtain ⟨_, y, hs, hb, hy⟩ := h
  obtain ⟨ho, hn⟩ := asked_on hz
  by_cases hc : ∃ w ∈ z.names, percent ∈ w
  case pos => exact .inr hc
  case neg =>
    have hp : ∀ w ∈ z.names, percent ∉ w := by simpa using hc
    have ho : z.On e.request.url.path := by
      obtain he | hu := (path_ne_nil hr).right
      case inl => exact he ▸ ho
      case inr => exact ho.unescape hn hp hu
    have he : z = y := ho.unique (Granted.on_of_scope hb) hn hs
    exact he ▸ hy

structure Kept (srv : Server) (u : User) (x : Granted) (s : Holder) : Prop where
  cookies  : ∀ c ∈ s.cookies, Of srv u x c
  accepted : ∀ a ∈ s.accepted, Within u x a

theorem Kept.step (h : Kept srv u x s) (ho : Own s e) (hr : Routed e) : Kept srv u x (step srv s e) := by
  have hw {v : User} (ha : srv.accept e = some v) : Within u x (e, v) := by
    obtain ⟨c, hc, hv⟩ := accept_own ho ha
    exact (h.cookies c hc).accepted (path_ne_nil hr).left hv
  constructor
  case accepted =>
    refine List.forall_mem_append.mpr ⟨h.accepted, fun a hm => ?_⟩
    obtain ⟨v, ha, rfl⟩ := Option.map_eq_some_iff.mp (Option.mem_toList.mp hm)
    exact hw ha
  case cookies  =>
    refine List.forall_mem_append.mpr ⟨h.cookies, fun c hm => ?_⟩
    obtain ⟨v, z, ha, hz, hm, _⟩ := Server.of_serve (Option.mem_toList.mp hm)
    have hv : v = u.valid := (hw ha).left
    refine ⟨v, z, hm, hv ▸ user_valid_valid u, (asked_on hz).right, ((hw ha).asked hr hz).imp_left ?_⟩
    rintro rfl
    exact granted_valid_valid x

-- Whatever is asked for with grants that come of one grant, no request is accepted as another user, and none is accepted
-- that is about something else, unless there is an escape in a name of that.
theorem grant_stays_within (srv : Server) (first : Visit) (c : GrantCookie) (hc : srv.serve first = some c)
    (es : List Visit) (ho : Events.Taken (step srv) (fun s e => Own s e ∧ Routed e) ⟨[c], []⟩ es) :
    ∃ u x, srv.accept first = some u ∧ asked first.request = some x ∧
      Events.Reached (step srv) (fun s => ∀ a ∈ s.accepted, Within u x a ∧ ∀ z : Granted,
        z.On a.1.request.url.path → (∀ w ∈ z.names, slash ∉ w ∧ percent ∉ w) → z = x.valid) ⟨[c], []⟩ es := by
  obtain ⟨u, x, ha, hx, hm, _⟩ := Server.of_serve hc
  have hi : Kept srv u x ⟨[c], []⟩ :=
    ⟨List.forall_mem_singleton.mpr ⟨u, x, hm, rfl, (asked_on hx).right, .inl rfl⟩, List.forall_mem_nil _⟩
  refine ⟨u, x, ha, hx, (ho.reached hi fun s e h hb => h.step hb.left hb.right).mono fun s h a hm => ?_⟩
  have hw := h.accepted a hm
  refine ⟨hw, fun z hz hn => ?_⟩
  obtain ⟨_, y, hs, hb, hy⟩ := hw
  have he : z = y := hz.unique (Granted.on_of_scope hb) (fun w hw => (hn w hw).left) hs
  subst he
  exact hy.resolve_right fun ⟨w, hw, hp⟩ => (hn w hw).right hp

end Scope

section Fixtures

def server : Server where
  adminGroup := str "admins"
  oidc       := fun token => if token = str "alice" then some alice else none
  store      := checked

def visit (method : String) (url : URL) (h : Header) (s : Int64) : Visit where
  request :=
    { method     := str method
      scheme     := []
      urlHost    := []
      url        := url
      rawQuery   := []
      host       := []
      header     := h
      body       := []
      remoteAddr := [] }
  arrived := noon s
  handled := noon s

def byToken : Header :=
  Header.set ∅ (str "Authorization") (str "Bearer alice")

def byCookie (c : GrantCookie) : Header :=
  Header.set ∅ (str "Cookie") (grantCookieName ++ str "=" ++ c.value)

def viewerURL : URL where
  path := data.scope

def grantURL : URL where
  path := data.scope ++ str "grant"

variable {method : String} {url : URL} {t : Int64}

theorem accept_byToken : server.accept (visit method url byToken t) = some alice := by
  have hb : bearer byToken = str "alice" := by decide
  have hn : str "alice" ≠ [] := by decide
  simp only [Server.accept, Verifier.middleware, Server.verifier, visit, hb, server, hn, if_false, if_true]
  rfl

theorem bearer_byCookie (c : GrantCookie) : bearer (byCookie c) = [] := by
  have hn : canonicalHeaderKey (str "Authorization") ≠ canonicalHeaderKey (str "Cookie") := by decide
  have hg : (byCookie c).get (str "Authorization") = [] := by
    rw [Header.get, Header.values, byCookie, Header.set, Finmap.lookup_insert_of_ne _ hn]
    rfl
  rw [bearer, hg]
  rfl

theorem cookie_byCookie (hm : server.Minted u x c) : cookie (byCookie c) grantCookieName = some c.value := by
  obtain ⟨_, now, hm⟩ := hm
  exact GrantStore.cookie_plain (GrantStore.plain_mint hm)

theorem own_byCookie (hm : server.Minted u x c) (hc : c ∈ s.cookies) : Own s (visit method url (byCookie c) t) := by
  refine ⟨bearer_byCookie c, fun token ht => ⟨c, hc, ?_⟩⟩
  have hv := cookie_byCookie hm
  exact Option.some.inj (hv.symm.trans ht)

theorem accept_byCookie (hm : server.Minted u x c) (hp : url.path ≠ []) (v : User) :
    server.accept (visit method url (byCookie c) t) = some v ↔
      v = u.valid ∧ ¬(wholeSeconds c.expires).before (noon t) ∧ x.valid.scope <+: url.path := by
  have ha := hm.accepted (e := visit method url (byCookie c) t) hp v
  refine Iff.trans ?_ ha
  have hv := cookie_byCookie hm
  simp only [Server.accept, Verifier.middleware, Server.verifier, visit, bearer_byCookie, if_true, fromRequest, hv]
  rfl

theorem asked_visit (url : URL) (h : Header) (t : Int64) :
    asked (visit method url h t).request = asked (visit method url ∅ 0).request :=
  rfl

theorem not_renews (h : Header) (t : Int64) : ¬Renews server exp (visit "GET" url h t) := by
  have hg : str "GET" ≠ str "POST" := by decide
  have hn : asked (visit "GET" url h t).request = none := if_neg hg
  rintro ⟨_, hs, _⟩
  rw [hn] at hs
  cases hs

def wider : Granted :=
  .viewer (str "team") (str "data%2Fviewer%2Fx")

def escapedURL : URL where
  path    := data.scope ++ str "x/viewer/grant"
  rawPath := wider.scope ++ str "grant"

def widerURL : URL where
  path := wider.scope

theorem setPath_escape (p : Str) : URL.setPath (escape p) = some { path := p } := by
  simp [URL.setPath, unescape_escape]

theorem setPath_escapedURL : URL.setPath escapedURL.rawPath = some escapedURL := by
  have hn : str "data%2Fviewer%2Fx" = pathEscape (str "data/viewer/x") := by decide
  have hu : unescape escapedURL.rawPath = some escapedURL.path := by
    simp only [escapedURL, wider, Granted.scope, Granted.root, Granted.below, hn, List.append_assoc]
    rw [unescape_append (by decide), unescape_append (by decide), unescape_append (by decide),
      unescape_pathEscape_append, unescape_of_no_percent (by decide)]
    decide
  have hr : escapedURL.rawPath ≠ escape escapedURL.path := by decide
  simp only [URL.setPath, hu, Option.bind_eq_bind, Option.bind_some, if_neg hr]
  rfl

-- The grant is asked for below the viewer, but in the name of a claim that no cluster has.
theorem grant_widened : ∃ c c', server.serve (visit "POST" grantURL byToken 0) = some c ∧
    server.serve (visit "POST" escapedURL (byCookie c) 60) = some c' ∧
    server.accept (visit "GET" widerURL (byCookie c') 120) = some alice ∧ ¬data.scope <+: widerURL.path ∧
    Events.Reached (step server) (fun s => ∀ a ∈ s.accepted, Within alice data a ∧ ∀ z : Granted,
      z.On a.1.request.url.path → (∀ w ∈ z.names, slash ∉ w ∧ percent ∉ w) → z = data.valid) ⟨[c], []⟩
      [visit "POST" escapedURL (byCookie c) 60, visit "GET" widerURL (byCookie c') 120] := by
  have hx (h : Header) (t : Int64) : asked (visit "POST" grantURL h t).request = some data := by
    rw [asked_visit]
    decide
  have hw (h : Header) (t : Int64) : asked (visit "POST" escapedURL h t).request = some wider := by
    rw [asked_visit]
    decide
  obtain ⟨c, hc, hm, he⟩ := Server.serve_of accept_byToken (hx byToken 0)
  have he : c.expires = noon 600 := he.trans (show (noon 0).add grantTTL = _ by decide)
  have ha : server.accept (visit "POST" escapedURL (byCookie c) 60) = some alice := by
    rw [accept_byCookie hm (by decide), he]
    decide
  obtain ⟨c', hc', hm', he'⟩ := Server.serve_of ha (hw (byCookie c) 60)
  have he' : c'.expires = noon 660 := he'.trans (show (noon 60).add grantTTL = _ by decide)
  have ha' : server.accept (visit "GET" widerURL (byCookie c') 120) = some alice := by
    rw [accept_byCookie hm' (by decide), he']
    decide
  have h₁ : c ∈ (⟨[c], []⟩ : Holder).cookies := .head _
  have h₂ : c' ∈ (step server ⟨[c], []⟩ (visit "POST" escapedURL (byCookie c) 60)).cookies :=
    List.mem_append_right _ (Option.mem_toList.mpr hc')
  have he : Routed (visit "POST" escapedURL (byCookie c) 60) :=
    ⟨⟨_, setPath_escapedURL⟩, show _ <+: routePath escapedURL by decide⟩
  have hr : Routed (visit "GET" widerURL (byCookie c') 120) :=
    ⟨⟨_, setPath_escape wider.scope⟩, show _ <+: routePath widerURL by decide⟩
  have ho : Events.Taken (step server) (fun s e => Own s e ∧ Routed e) ⟨[c], []⟩
      [visit "POST" escapedURL (byCookie c) 60, visit "GET" widerURL (byCookie c') 120] :=
    ⟨⟨own_byCookie hm h₁, he⟩, ⟨own_byCookie hm' h₂, hr⟩, trivial⟩
  obtain ⟨u, x, hu, hy, hs⟩ := grant_stays_within server _ c hc _ ho
  cases accept_byToken.symm.trans hu
  cases (hx byToken 0).symm.trans hy
  exact ⟨c, c', hc, hc', ha', by decide, hs⟩

end Fixtures

end Holder
end Api
