import Knaic.Api.Forwarding

open Go Go.Http

namespace Api

open Auth

-- Two requests that differ in headers under keys of `D` only.
structure DifferIn (D : Set Str) (r₁ r₂ : Request) : Prop where
  same   : { r₁ with header := r₂.header } = r₂
  header : diff r₁.header r₂.header ⊆ D

section GitLab

-- What a caller has of its own.
def isCallers (k : Str) : Bool :=
  [str "Authorization", str "Private-Token", str "Cookie"].contains k ||
  k.hasPrefix (str "X-Gitlab-") || k.hasPrefix (str "X-Forwarded-")

def Callers : Set Str :=
  { k | isCallers k }

-- What the director does not take away of it.
def Passed : Set Str :=
  { k | k ∈ Callers ∧ k ∉ stripped.map canonicalHeaderKey }

-- The token of the secret is the only one in the message.
def CarriesOnly (token : Str) (o : Message) : Prop :=
  (∀ v ∈ o.header.values (str "Private-Token"), v = token) ∧
  o.header.lookup (str "Authorization") = none ∧ o.header.lookup (str "Cookie") = none

theorem canonical_token : canonicalHeaderKey (str "PRIVATE-TOKEN") = str "Private-Token" := by
  decide

theorem canonical_agent : canonicalHeaderKey (str "User-Agent") = str "User-Agent" := by
  decide

-- The keys that the director writes to.
def Written (k : Str) : Prop :=
  k ∈ stripped.map canonicalHeaderKey ∨ k = str "Private-Token" ∨ k = str "User-Agent"

variable {token : Str} {h h₁ h₂ : Header} {k : Str}

theorem lookup_gitlabHeader (hk : ¬Written k) : (gitlabHeader token h).lookup k = h.lookup k := by
  simp only [Written, not_or] at hk
  have ⟨hs, ht, ha⟩ := hk
  rw [← canonical_token] at ht
  rw [← canonical_agent] at ha
  exact (lookup_set_ne ha).trans ((lookup_set_ne ht).trans (lookup_delAll_ne hs))

theorem diff_gitlabHeader :
    diff (gitlabHeader token h₁) (gitlabHeader token h₂) = { k | k ∈ diff h₁ h₂ ∧ ¬Written k } := by
  simp only [gitlabHeader, diff_set, diff_delAll, canonical_agent, canonical_token]
  ext k
  simp only [Written, Set.mem_sdiff, Set.mem_ofPred_eq, Set.mem_singleton_iff]
  tauto

-- Nothing that the proxy goes by is the caller's own, except for the keys that are written over.
theorem callers_apart : ∀ k ∈ [str "Te", str "Connection", str "Upgrade", str "User-Agent"],
    isCallers k = false := by
  decide

theorem hop_apart : ∀ k ∈ hopHeaders.map canonicalHeaderKey, isCallers k = false := by
  decide

theorem written_iff (hk : k ∈ Callers) : ¬Written k ↔ k ∈ Passed := by
  have ha : k ≠ str "User-Agent" := by
    rintro rfl
    exact absurd hk (by rw [Callers, Set.mem_ofPred_eq, callers_apart _ (by simp)]; simp)
  have ht : str "Private-Token" ∈ stripped.map canonicalHeaderKey := by decide
  constructor
  case mp  => exact fun hw => ⟨hk, fun hs => hw (.inl hs)⟩
  case mpr =>
    rintro ⟨_, hs⟩ (hw | rfl | hw)
    · exact hs hw
    · exact hs ht
    · exact ha hw

theorem notMem_diff (hd : diff h₁ h₂ ⊆ Callers) (hk : isCallers k = false) : k ∉ diff h₁ h₂ := by
  intro hm
  have hc : isCallers k = true := hd hm
  cases hk.symm.trans hc

-- The names in Connection are read after the director, which does not write to it.
theorem named_gitlabHeader (token : Str) (h : Header) : Named (gitlabHeader token h) = Named h := by
  have hk : ¬Written (str "Connection") := by
    simp only [Written]
    decide
  simp only [Named, connectionNames, Header.values, lookup_gitlabHeader hk]

-- No forwarding header of the caller is left when the library adds its own.
theorem forwardedFor_gone (token : Str) (h : Header) (trailers : Bool) (up : Str) :
    (restoreUpgrade trailers up (removeHopByHopHeaders (gitlabHeader token h))).lookup
      (str "X-Forwarded-For") = none := by
  have hs : (h.delAll stripped).lookup (str "X-Forwarded-For") = none := lookup_delAll (by decide)
  have hg : (gitlabHeader token h).lookup (str "X-Forwarded-For") = none := by
    have ha : str "X-Forwarded-For" ≠ canonicalHeaderKey (str "User-Agent") := by decide
    have ht : str "X-Forwarded-For" ≠ canonicalHeaderKey (str "PRIVATE-TOKEN") := by decide
    exact (lookup_set_ne ha).trans ((lookup_set_ne ht).trans hs)
  refine (lookup_restoreUpgrade (by decide)).trans ?_
  exact lookup_delAll_none _ (lookup_delAll_none _ hg)

theorem gitlab_header_iff (token : Str) (req₁ req₂ : Request)
    (hd : diff req₁.header req₂.header ⊆ Callers) :
    outgoingHeader req₁ (gitlabHeader token req₁.header) =
      outgoingHeader req₂ (gitlabHeader token req₂.header) ↔
    (∀ k ∈ Passed, k ∉ Named req₁.header → req₁.header.lookup k = req₂.header.lookup k) ∧
    clientIP req₁.remoteAddr = clientIP req₂.remoteAddr := by
  have hnot k (hk : isCallers k = false) : k ∉ diff (gitlabHeader token req₁.header)
      (gitlabHeader token req₂.header) := by
    rw [diff_gitlabHeader]
    exact fun hm => notMem_diff hd hk hm.left
  have hte := hnot (str "Te") (callers_apart _ (by simp))
  have hco := hnot (str "Connection") (callers_apart _ (by simp))
  have hup := hnot (str "Upgrade") (callers_apart _ (by simp))
  have hua := hnot (str "User-Agent") (callers_apart _ (by simp))
  have ht := values_congr (notMem_diff hd (callers_apart (str "Te") (by simp)))
  have hut := upgradeType_congr hco (canonical_self (str "Upgrade") (by simp) ▸ hup)
  have hf := diff_passedOn (headerValuesContainsToken (req₂.header.values (str "Te")) (str "trailers"))
    (upgradeType (gitlabHeader token req₂.header)) hte hco hup
  have hx₁ := forwardedFor_gone token req₁.header
    (headerValuesContainsToken (req₂.header.values (str "Te")) (str "trailers"))
    (upgradeType (gitlabHeader token req₂.header))
  have hx₂ := forwardedFor_gone token req₂.header
    (headerValuesContainsToken (req₂.header.values (str "Te")) (str "trailers"))
    (upgradeType (gitlabHeader token req₂.header))
  simp only [outgoingHeader, ht, hut]
  generalize restoreUpgrade _ _ (removeHopByHopHeaders (gitlabHeader token req₁.header)) = f₁ at *
  generalize restoreUpgrade _ _ (removeHopByHopHeaders (gitlabHeader token req₂.header)) = f₂ at *
  have hue : str "User-Agent" ∉ diff (addForwardedFor req₁.remoteAddr f₁)
      (addForwardedFor req₂.remoteAddr f₂) := by
    have hk : str "User-Agent" ≠ str "X-Forwarded-For" := by decide
    have huf : str "User-Agent" ∉ diff f₁ f₂ := hf ▸ fun hm => hua hm.left
    have he : f₁.lookup (str "User-Agent") = f₂.lookup (str "User-Agent") := not_not.mp huf
    refine not_not.mpr ?_
    rw [lookup_addForwardedFor_ne hk, lookup_addForwardedFor_ne hk, he]
  rw [defaultAgent_inj hue, forwarded_eq_iff hx₁ hx₂, ← diff_eq_empty, hf, diff_gitlabHeader]
  refine and_congr_left fun _ => ?_
  rw [Set.eq_empty_iff_forall_notMem]
  have hn := named_gitlabHeader token req₁.header
  constructor
  case mp =>
    intro hall k hk hnk
    by_contra hne
    refine hall k ⟨⟨hne, (written_iff hk.left).mpr hk⟩, fun hdr => ?_⟩
    cases hdr
    case inl hm => rw [hn] at hm; exact hnk hm
    case inr hm =>
      have hc : isCallers k = true := hk.left
      cases (hop_apart k hm).symm.trans hc
  case mpr =>
    rintro hall k ⟨⟨hne, hw⟩, hdr⟩
    have hp := (written_iff (hd hne)).mp hw
    refine hne (hall k hp fun hnk => hdr (.inl ?_))
    rw [hn]
    exact hnk

theorem ok_of_toOption {r : Except Error α} {a : α} (h : r.toOption = some a) : r = .ok a := by
  cases r <;> cases h
  rfl

theorem gitLabUpstream_token {sec : Secret} {base token : Str}
    (h : gitLabUpstream sec = .ok (base, token)) : token = sec.token := by
  simp only [gitLabUpstream] at h
  split at h
  case isTrue => cases h
  case isFalse =>
    split at h
    case isTrue => cases h
    case isFalse =>
      split at h
      case isTrue  => cases h
      case isFalse => cases h; rfl

theorem getSecret_some {p : Platform} {u : User} {ns name : Str} {sec : Secret}
    (h : (p.getSecret u ns name).toOption = some sec) : p.secrets ns name = some sec := by
  simp only [Platform.getSecret] at h
  cases hr : p.mayRead u ns
  case error => rw [hr] at h; cases h
  case ok    =>
    rw [hr] at h
    cases hs : p.secrets ns name
    case none   => rw [hs] at h; cases h
    case some _ => rw [hs] at h; cases h; rfl

theorem serveHTTP_some {director : Message → Message} {req : Request} {o : Message}
    (h : serveHTTP director req = some o) : o = { director req.toMessage with
      header := outgoingHeader req (director req.toMessage).header } := by
  simp only [serveHTTP] at h
  split at h
  case isTrue  => exact (Option.some.inj h).symm
  case isFalse => cases h

-- What a request was sent for, and how.
theorem gitlab_sent {p : Platform} {r : Request} {o : Message} (hs : p.gitlab r = some o) :
    ∃ m ns name sec base target, (Proxy.gitlabAPIProxy ⟨[], .inl rfl⟩).find (routePath r.url) = some m ∧
      m.params = [ns, name] ∧ p.secrets ns name = some sec ∧ gitLabUpstream sec = .ok (base, sec.token) ∧
      p.parseURL base = .ok target ∧
      o = { gitlabDirector target sec.token m.rest r.rawQuery r.toMessage with
        header := outgoingHeader (p.received r) (gitlabHeader sec.token r.header) } := by
  simp only [Platform.gitlab, Option.bind_eq_bind, Option.bind_eq_some_iff] at hs
  obtain ⟨u, _, m, hm, hs⟩ := hs
  split at hs
  case h_2 => cases hs
  case h_1 ns name hp =>
    simp only [Platform.gitlabAPIProxy, Option.bind_eq_bind, Option.bind_eq_some_iff] at hs
    obtain ⟨sec, hsec, ⟨base, token⟩, hup, target, ht, ho⟩ := hs
    have hup := ok_of_toOption hup
    obtain rfl := gitLabUpstream_token hup
    exact ⟨m, ns, name, sec, base, target, hm, hp, getSecret_some hsec, hup,
      ok_of_toOption ht, serveHTTP_some ho⟩

theorem gitlabHeader_token (token : Str) (h : Header) :
    (gitlabHeader token h).lookup (str "Private-Token") = some [token] := by
  have ha : str "Private-Token" ≠ canonicalHeaderKey (str "User-Agent") := by decide
  refine (lookup_set_ne ha).trans ?_
  rw [← canonical_token]
  exact lookup_set ..

theorem gitlabHeader_stripped (token : Str) (h : Header)
    (hk : k ∈ [str "Authorization", str "Cookie"]) : (gitlabHeader token h).lookup k = none := by
  have hw : ∀ k ∈ [str "Authorization", str "Cookie"],
      k ∈ stripped.map canonicalHeaderKey ∧ k ≠ str "User-Agent" ∧ k ≠ str "Private-Token" := by decide
  have ⟨hs, ha, ht⟩ := hw k hk
  rw [← canonical_token] at ht
  rw [← canonical_agent] at ha
  exact (lookup_set_ne ha).trans ((lookup_set_ne ht).trans (lookup_delAll hs))

theorem carriesOnly (token : Str) (req : Request) (h : Header) (o : Message) :
    CarriesOnly token { o with header := outgoingHeader req (gitlabHeader token h) } := by
  refine ⟨?_, ?_, ?_⟩
  case refine_1 =>
    intro v hv
    have hl := lookup_outgoing (k := str "Private-Token") req (gitlabHeader token h) (by decide)
      (by decide) (by decide)
    simp only [Header.values] at hv
    cases hl
    case inl hl => rw [hl] at hv; cases hv
    case inr hl => rw [hl, gitlabHeader_token] at hv; exact List.mem_singleton.mp hv
  case refine_2 =>
    have hl := lookup_outgoing (k := str "Authorization") req (gitlabHeader token h) (by decide)
      (by decide) (by decide)
    rwa [gitlabHeader_stripped token h (by simp), or_self] at hl
  case refine_3 =>
    have hl := lookup_outgoing (k := str "Cookie") req (gitlabHeader token h) (by decide)
      (by decide) (by decide)
    rwa [gitlabHeader_stripped token h (by simp), or_self] at hl

theorem gitlab_upstream_iff (p : Platform) {r₁ r₂ : Request} {o₁ o₂ : Message}
    (hd : DifferIn Callers r₁ r₂) (h₁ : p.gitlab r₁ = some o₁) (h₂ : p.gitlab r₂ = some o₂) :
    (o₁ = o₂ ∧ ∃ m ns name sec,
      (Proxy.gitlabAPIProxy ⟨[], .inl rfl⟩).find (routePath r₁.url) = some m ∧
      m.params = [ns, name] ∧ p.secrets ns name = some sec ∧ CarriesOnly sec.token o₁) ↔
    (∀ k ∈ Passed, k ∉ Named r₁.header → r₁.header.lookup k = r₂.header.lookup k) ∧
    clientIP (p.received r₁).remoteAddr = clientIP (p.received r₂).remoteAddr := by
  obtain ⟨m, ns, name, sec, base, target, hm, hp, hsec, hup, ht, rfl⟩ := gitlab_sent h₁
  obtain ⟨m', ns', name', sec', base', target', hm', hp', hsec', hup', ht', rfl⟩ := gitlab_sent h₂
  have hsub := hd.header
  have hr := hd.same.symm
  generalize r₂.header = header at hr
  subst hr
  cases hm.symm.trans hm'
  cases hp.symm.trans hp'
  cases hsec.symm.trans hsec'
  cases hup.symm.trans hup'
  cases ht.symm.trans ht'
  refine Iff.trans ?_ (gitlab_header_iff sec.token (p.received r₁) (p.received { r₁ with header }) hsub)
  constructor
  case mp  => exact fun h => congrArg Message.header h.left
  case mpr =>
    -- The two messages agree in everything but their headers.
    intro he
    refine ⟨?_, m, ns, name, sec, hm, hp, hsec, carriesOnly ..⟩
    exact congrArg (fun x =>
      { gitlabDirector target sec.token m.rest r₁.rawQuery r₁.toMessage with header := x }) he

section Fixtures

-- A platform in development mode with one GitLab secret. No address is taken from a header.
def glab : Secret where
  labels      := .ofList [(AiStorage.labelComponent, AiStorage.componentValue), (labelKind, str "gitlab")]
  annotations := .ofList [(annGitLabURL, str "https://gitlab.example.com")]
  data        := .ofList [(str "GITLAB_TOKEN", str "stored")]

def gitlabTarget : Target where
  scheme   := str "https"
  host     := str "gitlab.example.com"
  url      := { path := [] }
  rawQuery := []

def platform : Platform where
  verifier  := ⟨true, str "admins", fun _ => none, none⟩
  realIP    := fun _ _ _ => none
  parseURL  := fun _ => .ok gitlabTarget
  secrets   := fun ns name => if ns = str "team" ∧ name = str "lab" then some glab else none
  mayRead   := fun _ _ => .ok ()
  workspace := fun _ => .ok ()
  ns        := str "knaic"

-- A request whose one header has this value.
def request (path key value : Str) : Request where
  method     := str "GET"
  scheme     := []
  urlHost    := []
  url        := { path }
  rawQuery   := []
  host       := str "knaic.example.com"
  header     := Header.set ∅ key value
  body       := []
  remoteAddr := str "10.0.0.1:4711"

def labPath : Str :=
  str "/api/v1/namespaces/team/aistorage/gitlab/configs/lab/api/v4/user"

end Fixtures

theorem differIn_request {D : Set Str} {path key v w : Str} (h : canonicalHeaderKey key ∈ D) :
    DifferIn D (request path key v) (request path key w) where
  same   := rfl
  header := (diff_set_subset ∅ key v w).trans (Set.singleton_subset_iff.mpr h)

theorem gitlab_upstream_bearer : ∃ o,
    platform.gitlab (request labPath (str "Authorization") (str "Bearer a")) = some o ∧
    platform.gitlab (request labPath (str "Authorization") (str "Bearer b")) = some o := by
  obtain ⟨o₁, h₁⟩ := Option.isSome_iff_exists.mp (by decide : (platform.gitlab
    (request labPath (str "Authorization") (str "Bearer a"))).isSome)
  obtain ⟨o₂, h₂⟩ := Option.isSome_iff_exists.mp (by decide : (platform.gitlab
    (request labPath (str "Authorization") (str "Bearer b"))).isSome)
  have hk : isCallers (canonicalHeaderKey (str "Authorization")) := by decide
  have hs : canonicalHeaderKey (str "Authorization") ∈ stripped.map canonicalHeaderKey := by decide
  have hp : ∀ k ∈ Passed, k ∉ Named (request labPath (str "Authorization") (str "Bearer a")).header →
      (request labPath (str "Authorization") (str "Bearer a")).header.lookup k =
        (request labPath (str "Authorization") (str "Bearer b")).header.lookup k := by
    intro k hp _
    by_contra hne
    have he := diff_set_subset ∅ _ _ _ hne
    rw [Set.mem_singleton_iff] at he
    rw [← he] at hs
    exact hp.right hs
  have ha : clientIP (platform.received (request labPath (str "Authorization") (str "Bearer a"))).remoteAddr =
      clientIP (platform.received (request labPath (str "Authorization") (str "Bearer b"))).remoteAddr := by
    simp only [Platform.received, platform, Option.getD_none, request]
  have ho := ((gitlab_upstream_iff platform (differIn_request hk) h₁ h₂).mpr ⟨hp, ha⟩).left
  rw [← ho] at h₂
  exact ⟨o₁, h₁, h₂⟩

theorem gitlab_header_leaked :
    DifferIn Callers (request labPath (str "X-Gitlab-Token") (str "a"))
      (request labPath (str "X-Gitlab-Token") (str "b")) ∧
    (platform.gitlab (request labPath (str "X-Gitlab-Token") (str "a"))).isSome ∧
    (platform.gitlab (request labPath (str "X-Gitlab-Token") (str "b"))).isSome ∧
    platform.gitlab (request labPath (str "X-Gitlab-Token") (str "a")) ≠
      platform.gitlab (request labPath (str "X-Gitlab-Token") (str "b")) := by
  have hk : isCallers (canonicalHeaderKey (str "X-Gitlab-Token")) := by decide
  refine ⟨differIn_request hk, by decide, by decide, fun he => ?_⟩
  have hv := congrArg (·.map fun o => o.header.lookup (str "X-Gitlab-Token")) he
  exact absurd hv (by decide)

end GitLab
section Apps

-- The apps that the browser embeds.
inductive App
  | pvcViewer
  | workspace

def Platform.app (p : Platform) : App → Request → Option Message
  | .pvcViewer => p.viewer
  | .workspace => p.workspaceApp

def isCredentials (k : Str) : Bool :=
  [str "Authorization", str "Cookie"].contains k

def Credentials : Set Str :=
  { k | isCredentials k }

-- The cookies that are not knaic's.
def otherCookies (h : Header) : List Str :=
  (cookieParts (h.values (str "Cookie"))).filter fun part => cookieName part ≠ grantCookieName

-- Two requests that differ in the bearer token and the grant cookie only.
structure SameButCredentials (r₁ r₂ : Request) : Prop where
  differ  : DifferIn Credentials r₁ r₂
  cookies : otherCookies r₁.header = otherCookies r₂.header

variable {h₁ h₂ : Header} {k : Str}

theorem credentials_apart : ∀ k ∈ [str "Te", str "Connection", str "Upgrade", str "X-Forwarded-For",
    str "User-Agent", str "True-Client-Ip", str "X-Real-Ip"], isCredentials k = false := by
  decide

theorem hop_credentials : ∀ k ∈ hopHeaders.map canonicalHeaderKey, isCredentials k = false := by
  decide

theorem notMem_credentials (hd : diff h₁ h₂ ⊆ Credentials) (hk : isCredentials k = false) :
    k ∉ diff h₁ h₂ := by
  intro hm
  have hc : isCredentials k = true := hd hm
  cases hk.symm.trans hc

-- What is not sent on of one header, or is the same in the other.
def Hidden (h₁ h₂ : Header) : Prop :=
  ∀ k ∈ Credentials, k ∈ Named h₁ ∨ h₁.lookup k = h₂.lookup k

theorem outgoing_iff (req₁ req₂ : Request) (haddr : req₁.remoteAddr = req₂.remoteAddr)
    (hd : diff req₁.header req₂.header ⊆ Credentials) :
    outgoingHeader req₁ req₁.header = outgoingHeader req₂ req₂.header ↔
    Hidden req₁.header req₂.header := by
  have hn k (hk : k ∈ _) := notMem_credentials hd (credentials_apart k hk)
  have ht := hn (str "Te") (by simp)
  rw [← diff_eq_empty, diff_outgoing haddr (values_congr ht) ht (hn (str "Connection") (by simp))
    (hn (str "Upgrade") (by simp)) (hn (str "X-Forwarded-For") (by simp))
    (hn (str "User-Agent") (by simp)), Set.eq_empty_iff_forall_notMem]
  constructor
  case mp =>
    intro hall k hk
    by_contra hne
    rw [not_or] at hne
    refine hall k ⟨hne.right, fun hdr => ?_⟩
    cases hdr
    case inl hm => exact hne.left hm
    case inr hm =>
      have hc : isCredentials k = true := hk
      cases (hop_credentials k hm).symm.trans hc
  case mpr =>
    rintro hall k ⟨hne, hdr⟩
    cases hall k (hd hne)
    case inl hm => exact hdr (.inl hm)
    case inr he => exact hne he

-- A director that does not look at the headers.
def Blind (director : Message → Message) : Prop :=
  ∀ m h, director { m with header := h } = { director m with header := h }

theorem serveHTTP_iff {director : Message → Message} {req : Request} {header : Header} {o : Message}
    (hdir : Blind director) (hd : diff req.header header ⊆ Credentials)
    (h : serveHTTP director req = some o) :
    serveHTTP director { req with header } = some o ↔ Hidden req.header header := by
  have hn k (hk : k ∈ _) := notMem_credentials hd (credentials_apart k hk)
  have hcanon := canonical_self (str "Upgrade") (by simp)
  have hup := upgradeType_congr (hn (str "Connection") (by simp))
    (hcanon.symm ▸ hn (str "Upgrade") (by simp))
  have hh : (director req.toMessage).header = req.header := by
    have he := congrArg Message.header (hdir req.toMessage req.header)
    exact he
  have hd' : director { req with header }.toMessage = { director req.toMessage with header } :=
    hdir req.toMessage header
  rw [← outgoing_iff req { req with header } rfl hd]
  simp only [serveHTTP, hd', hh] at h ⊢
  rw [hup] at h
  split at h
  case isFalse => cases h
  case isTrue hp =>
    obtain rfl := Option.some.inj h
    rw [if_pos hp, Option.some.injEq]
    constructor
    case mp  => exact fun he => (congrArg Message.header he).symm
    case mpr => exact fun he => by rw [he]

theorem blind_singleHost (target : Target) : Blind (singleHostDirector target) :=
  fun _ _ => rfl

-- What the handlers do to the headers of a request on the way.
section Edits

variable {key v : Str}

theorem ne_of_credentials (hk : isCredentials (canonicalHeaderKey key) = false) (h : k ∈ Credentials) :
    k ≠ canonicalHeaderKey key := by
  rintro rfl
  have hc : isCredentials _ = true := h
  cases hk.symm.trans hc

theorem hidden_congr {h₁' h₂' : Header} (hn : h₁'.values (str "Connection") = h₁.values (str "Connection"))
    (h : ∀ k ∈ Credentials, h₁'.lookup k = h₁.lookup k ∧ h₂'.lookup k = h₂.lookup k) :
    Hidden h₁' h₂' ↔ Hidden h₁ h₂ := by
  have hd : Named h₁' = Named h₁ := by simp only [Named, connectionNames, hn]
  unfold Hidden
  refine forall₂_congr fun k hk => ?_
  rw [hd, (h k hk).left, (h k hk).right]

theorem hidden_set (hc : str "Connection" ≠ canonicalHeaderKey key)
    (hk : isCredentials (canonicalHeaderKey key) = false) :
    Hidden (h₁.set key v) (h₂.set key v) ↔ Hidden h₁ h₂ := by
  refine hidden_congr (by simp only [Header.values, lookup_set_ne hc]) fun k h => ?_
  have hne := ne_of_credentials hk h
  exact ⟨lookup_set_ne hne, lookup_set_ne hne⟩

theorem hidden_del (hc : str "Connection" ≠ canonicalHeaderKey key)
    (hk : isCredentials (canonicalHeaderKey key) = false) :
    Hidden (h₁.del key) (h₂.del key) ↔ Hidden h₁ h₂ := by
  refine hidden_congr (by simp only [Header.values, Header.del, Finmap.lookup_erase_ne hc]) fun k h => ?_
  have hne := ne_of_credentials hk h
  exact ⟨Finmap.lookup_erase_ne hne, Finmap.lookup_erase_ne hne⟩

end Edits

theorem pvcViewerProxy_iff {ns pvc rest : Str} {r : Request} {header : Header} {o : Message}
    (hd : diff r.header header ⊆ Credentials) (h : Platform.pvcViewerProxy ns pvc rest r = some o) :
    Platform.pvcViewerProxy ns pvc rest { r with header } = some o ↔ Hidden r.header header := by
  have hs : diff (r.header.set (str "X-Forwarded-Prefix") (AiStorage.viewerPath ns pvc))
      (header.set (str "X-Forwarded-Prefix") (AiStorage.viewerPath ns pvc)) ⊆ Credentials := by
    rw [diff_set]
    exact fun k hk => hd hk.left
  simp only [Platform.pvcViewerProxy] at h ⊢
  exact (serveHTTP_iff (fun _ _ => rfl) hs h).trans (hidden_set (by decide) (by decide))

theorem agentWorkspaceProxy_iff {p : Platform} {u : User} {rest : Str} {r : Request} {header : Header}
    {o : Message} (hd : diff r.header header ⊆ Credentials)
    (h : p.agentWorkspaceProxy u rest r = some o) :
    p.agentWorkspaceProxy u rest { r with header } = some o ↔ Hidden r.header header := by
  have hs : diff (r.header.del (str "Accept-Encoding")) (header.del (str "Accept-Encoding")) ⊆
      Credentials := by
    rw [diff_del]
    exact fun k hk => hd hk.left
  simp only [Platform.agentWorkspaceProxy] at h ⊢
  split at h
  case isTrue => cases h
  case isFalse hu =>
    rw [if_neg hu]
    simp only [Option.bind_eq_bind, Option.bind_eq_some_iff] at h
    obtain ⟨_, hw, target, ht, h⟩ := h
    simp only [hw, ht, Option.bind_eq_bind, Option.bind_some]
    exact (serveHTTP_iff (blind_singleHost target) hs h).trans (hidden_del (by decide) (by decide))

theorem received_header (p : Platform) {r : Request} {header : Header}
    (hd : diff r.header header ⊆ Credentials) :
    p.received { r with header } = { p.received r with header } := by
  have hn k (hk : isCredentials (canonicalHeaderKey k) = false) : header.get k = r.header.get k :=
    (get_congr (notMem_credentials hd hk)).symm
  simp only [Platform.received, hn (str "True-Client-IP") (by decide), hn (str "X-Real-IP") (by decide),
    hn (str "X-Forwarded-For") (by decide)]

theorem app_forwarded_iff (p : Platform) (x : App) {r₁ r₂ : Request} {u : User} {o : Message}
    (hd : SameButCredentials r₁ r₂) (hu₁ : p.verifier.middleware (p.received r₁) = some u)
    (hu₂ : p.verifier.middleware (p.received r₂) = some u) (h : p.app x r₁ = some o) :
    p.app x r₂ = some o ↔ Hidden r₁.header r₂.header := by
  have hsub := hd.differ.header
  have hr := hd.differ.same.symm
  generalize r₂.header = header at hr hsub ⊢
  subst hr
  rw [received_header p hsub] at hu₂
  cases x
  case pvcViewer =>
    simp only [Platform.app, Platform.viewer, received_header p hsub, hu₁, hu₂, Option.bind_eq_bind,
      Option.bind_some] at h ⊢
    cases hf : Proxy.pvcViewerProxy.find (routePath (p.received r₁).url)
    case none => rw [hf] at h; cases h
    case some m =>
      simp only [hf, Option.bind_some] at h ⊢
      split at h
      case h_2 => cases h
      case h_1 ns pvc hp =>
        exact pvcViewerProxy_iff (r := p.received r₁) hsub h
  case workspace =>
    simp only [Platform.app, Platform.workspaceApp, received_header p hsub, hu₁, hu₂,
      Option.bind_eq_bind, Option.bind_some] at h ⊢
    cases hf : Proxy.agentWorkspaceProxy.find (routePath (p.received r₁).url)
    case none => rw [hf] at h; cases h
    case some m =>
      simp only [hf, Option.bind_some] at h ⊢
      exact agentWorkspaceProxy_iff (r := p.received r₁) hsub h

section Fixtures

def viewerPath : Str :=
  str "/api/v1/namespaces/team/aistorage/pvc/data/viewer/files"

-- A request with a bearer token, which it asks the next hop to drop if `hide` is the header's name.
def bearerRequest (hide token : Str) : Request :=
  { request viewerPath (str "Connection") hide with
    header := (Header.set ∅ (str "Connection") hide).set (str "Authorization") token }

theorem bearerRequest_same (hide v w : Str) :
    SameButCredentials (bearerRequest hide v) (bearerRequest hide w) where
  differ := {
    same   := rfl
    header := by
      refine (diff_set_subset _ _ _ _).trans (Set.singleton_subset_iff.mpr ?_)
      have hk : isCredentials (canonicalHeaderKey (str "Authorization")) := by decide
      exact hk
  }
  cookies := by
    have hc : str "Cookie" ≠ canonicalHeaderKey (str "Authorization") := by decide
    simp only [otherCookies, Header.values, bearerRequest, lookup_set_ne hc]

theorem platform_lets_in (r : Request) :
    platform.verifier.middleware (platform.received r) = some (devUser (str "admins")) := by
  simp [Verifier.middleware, platform]

end Fixtures

theorem app_forwarded_hidden : ∃ o,
    platform.app .pvcViewer (bearerRequest (str "authorization") (str "Bearer a")) = some o ∧
    platform.app .pvcViewer (bearerRequest (str "authorization") (str "Bearer b")) = some o := by
  obtain ⟨o, h⟩ := Option.isSome_iff_exists.mp (by decide : (platform.app .pvcViewer
    (bearerRequest (str "authorization") (str "Bearer a"))).isSome)
  have hn : Hidden (bearerRequest (str "authorization") (str "Bearer a")).header
      (bearerRequest (str "authorization") (str "Bearer b")).header := by
    have hm : canonicalHeaderKey (str "Authorization") ∈
        (connectionNames (bearerRequest (str "authorization") (str "Bearer a")).header).map
          canonicalHeaderKey := by decide
    intro k _
    by_contra hk
    rw [not_or] at hk
    have he := diff_set_subset _ _ _ _ hk.right
    rw [Set.mem_singleton_iff] at he
    rw [← he] at hm
    exact hk.left hm
  exact ⟨o, h, (app_forwarded_iff platform .pvcViewer (bearerRequest_same ..) (platform_lets_in _)
    (platform_lets_in _) h).mpr hn⟩

theorem bearer_forwarded :
    SameButCredentials (bearerRequest (str "close") (str "Bearer a"))
      (bearerRequest (str "close") (str "Bearer b")) ∧
    (∀ r, platform.verifier.middleware (platform.received r) = some (devUser (str "admins"))) ∧
    (platform.app .pvcViewer (bearerRequest (str "close") (str "Bearer a"))).isSome ∧
    (platform.app .pvcViewer (bearerRequest (str "close") (str "Bearer b"))).isSome ∧
    platform.app .pvcViewer (bearerRequest (str "close") (str "Bearer a")) ≠
      platform.app .pvcViewer (bearerRequest (str "close") (str "Bearer b")) := by
  refine ⟨bearerRequest_same .., platform_lets_in, by decide, by decide, fun he => ?_⟩
  have hv := congrArg (·.map fun o => o.header.lookup (str "Authorization")) he
  exact absurd hv (by decide)

end Apps
end Api
