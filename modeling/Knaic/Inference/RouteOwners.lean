import Knaic.Inference.GatewayWrites
import Knaic.Inference.RouteStatus

open Go Kube.Dynamic Effects
open Kube (Fields mapOf)

namespace Inference

-- What the status says of an object does not depend on the object's version.
section View

variable (s : Stored)

@[simp]
theorem view_spec_slice (k : String) :
    sliceAt s.view ["spec", k] = sliceAt s.content ["spec", k] := by
  simp only [sliceAt, Fields.nestedSlice, List.map_cons, s.view_nested _ (by decide : str "spec" ≠ _)]

@[simp]
theorem view_spec_map (k : String) :
    s.view.nestedMap [str "spec", str k] = s.content.nestedMap [str "spec", str k] := by
  simp only [Fields.nestedMap, s.view_nested _ (by decide : str "spec" ≠ _)]

theorem view_backendRef :
    extractAIServiceBackendRef s.view = extractAIServiceBackendRef s.content := by
  simp [extractAIServiceBackendRef]

theorem view_routeBackendRefs : routeBackendRefs s.view = routeBackendRefs s.content := by
  simp [routeBackendRefs]

theorem view_rateLimit : extractRateLimit s.view = extractRateLimit s.content := by
  simp [extractRateLimit]

theorem view_policyTargets (routeKeys : List Str) :
    policyTargetsAnyRoute s.view routeKeys = policyTargetsAnyRoute s.content routeKeys := by
  simp [policyTargetsAnyRoute, policyTargets]

theorem view_routeRef (kind : String) : projectRouteRef kind s.view = projectRouteRef kind s.content := by
  have hv : getAPIVersion s.view = getAPIVersion s.content := by
    simp only [getAPIVersion, Fields.nestedString, s.view_nested _ (by decide : str "apiVersion" ≠ _)]
  have hc : gatewayConditionStatus s.view = gatewayConditionStatus s.content := by
    simp only [gatewayConditionStatus, sliceAt, Fields.nestedSlice, List.map_cons,
      s.view_nested _ (by decide : str "status" ≠ _)]
  have hh : s.view.nestedStringSlice [str "spec", str "hostnames"] =
      s.content.nestedStringSlice [str "spec", str "hostnames"] := by
    simp only [Fields.nestedStringSlice, Fields.nestedSlice,
      s.view_nested _ (by decide : str "spec" ≠ _)]
  simp [projectRouteRef, hv, hc, hh]

end View

-- Objects are named as they are stored, and names are parts of a path.
def Valid (c : Cluster) : Prop :=
  ∀ key o, c.content key = some o → o.getName = key.name ∧ o.getNamespace = key.ns ∧ 47 ∉ key.name

theorem Valid.unique {c : Cluster} {key key' : Key} {o o' : Fields} (hv : Valid c)
    (hc : c.content key = some o) (hc' : c.content key' = some o') (hg : key.gvr = key'.gvr)
    (hs : o.getNamespace = o'.getNamespace) (hn : o.getName = o'.getName) : o = o' := by
  have ⟨hkn, hks, _⟩ := hv _ _ hc
  have ⟨hkn', hks', _⟩ := hv _ _ hc'
  have hkey : key = key' := by cases key; cases key'; simp_all
  subst hkey
  exact Option.some.inj (hc.symm.trans hc')

theorem mem_list {c : Cluster} {gvr : GVR} {o : Fields} : o ∈ c.list gvr ↔
    ∃ key : Key, key.gvr = gvr ∧ ∃ s : Stored, c.content key = some s.content ∧ c.get key = some s ∧
      o = s.view := by
  rw [Cluster.mem_list]
  constructor
  case mp =>
    intro ⟨ns, name, s, hg, ho⟩
    exact ⟨⟨gvr, ns, name⟩, rfl, s, by simp [Cluster.content, hg], hg, ho⟩
  case mpr =>
    rintro ⟨key, rfl, s, _, hg, ho⟩
    exact ⟨key.ns, key.name, s, hg, ho⟩

-- Whatever does not depend on versions is said of the list as it is of the contents.
theorem exists_mem_list {c : Cluster} {gvr : GVR} {P : Fields → Prop}
    (hp : ∀ s : Stored, P s.view ↔ P s.content) :
    (∃ o ∈ c.list gvr, P o) ↔ ∃ key : Key, key.gvr = gvr ∧ ∃ o, c.content key = some o ∧ P o := by
  simp only [mem_list]
  constructor
  case mp =>
    rintro ⟨_, ⟨key, hk, s, hc, _, rfl⟩, ho⟩
    exact ⟨key, hk, s.content, hc, (hp s).mp ho⟩
  case mpr =>
    rintro ⟨key, hk, o, hc, ho⟩
    have ⟨s, hg, hs⟩ := Option.map_eq_some_iff.mp hc
    subst hs
    exact ⟨s.view, ⟨key, hk, s, hc, hg, rfl⟩, (hp s).mpr ho⟩

-- The status as a function of the cluster.
section Status

variable (c : Cluster) (ns name : Str)

def backendsOf : List (Fields × ServiceRefDTO) :=
  matchedBackends (c.list gvrAIServiceBackend) (serviceBackendCandidates ns name)

def backendNamesOf : List Str :=
  (backendsOf c ns name).map fun b => b.1.getNamespace ++ slash ++ b.1.getName

def routesOf : List RouteRef :=
  matchedRoutes (c.list gvrHTTPRoute) (c.list gvrAIGatewayRoute) (serviceBackendCandidates ns name)
    (backendNamesOf c ns name)

def rateLimitsOf : List RateLimitRef :=
  matchedRateLimits (c.list gvrBackendTrafficPolicy) (routesOf c ns name)

end Status

def routeStatus (ns name : Str) (c : Cluster) : Except Error ServiceRouteStatus :=
  (Prog.run (serve acceptsAll) (serviceRouteStatus ns name) c).1

theorem routeStatus_eq (ns name : Str) (c : Cluster) : ∃ suggestions,
    routeStatus ns name c = .ok {
      routes      := (routesOf c ns name).mergeSort fun a b => !b.before a
      rateLimits  := rateLimitsOf c ns name
      backends    := (backendsOf c ns name).map Prod.snd
      suggestions := suggestions } :=
  ⟨_, rfl⟩

-- The service's backends, by what they refer to.
def Refers (ns name : Str) (ref : ServiceRefDTO) (o : Fields) : Prop :=
  extractAIServiceBackendRef o = some ref ∧
    matchesAnyCandidate ref (serviceBackendCandidates ns name)

-- A path is told apart at its last slash.
theorem slash_inj {a b a' b' : Str} (hb : 47 ∉ b) (hb' : 47 ∉ b') :
    a ++ slash ++ b = a' ++ slash ++ b' ↔ a = a' ∧ b = b' := by
  refine ⟨fun h => ?_, fun ⟨ha, hb⟩ => ha ▸ hb ▸ rfl⟩
  have hs : slash = [47] := by decide
  rw [hs, List.append_assoc, List.append_assoc, List.append_eq_append_iff] at h
  obtain ⟨m, ha, h⟩ | ⟨m, ha, h⟩ := h
  all_goals
    cases m
    case nil      => simpa [ha, eq_comm] using h
    case cons x m => simp_all

section Members

variable {c : Cluster} {ns name : Str}

theorem mem_backendsOf {o : Fields} {ref : ServiceRefDTO} : (o, ref) ∈ backendsOf c ns name ↔
    o ∈ c.list gvrAIServiceBackend ∧ Refers ns name ref o := by
  simp only [backendsOf, matchedBackends, List.mem_filterMap, Option.bind_eq_some_iff]
  constructor
  case mp =>
    rintro ⟨o', hm, r, hr, he⟩
    split at he
    case isTrue ha => cases he; exact ⟨hm, hr, ha⟩
    case isFalse   => cases he
  case mpr =>
    rintro ⟨hm, hr, ha⟩
    exact ⟨o, hm, ref, hr, if_pos ha⟩

theorem mem_backends {ref : ServiceRefDTO} : ref ∈ (backendsOf c ns name).map Prod.snd ↔
    ∃ key : Key, key.gvr = gvrAIServiceBackend ∧ ∃ o, c.content key = some o ∧
      Refers ns name ref o := by
  have hp : ∀ s : Stored, Refers ns name ref s.view ↔ Refers ns name ref s.content := by
    simp [Refers, view_backendRef]
  rw [← exists_mem_list hp]
  simp [mem_backendsOf]

theorem mem_backendNames (hv : Valid c) {n : Str} : n ∈ backendNamesOf c ns name ↔
    ∃ key : Key, key.gvr = gvrAIServiceBackend ∧ ∃ o, c.content key = some o ∧
      (∃ ref, Refers ns name ref o) ∧ n = key.ns ++ slash ++ key.name := by
  have hp : ∀ s : Stored, (∃ ref, Refers ns name ref s.view) ∧
      n = s.view.getNamespace ++ slash ++ s.view.getName ↔
      (∃ ref, Refers ns name ref s.content) ∧
      n = s.content.getNamespace ++ slash ++ s.content.getName := by
    simp [Refers, view_backendRef]
  have hm : n ∈ backendNamesOf c ns name ↔ ∃ o ∈ c.list gvrAIServiceBackend,
      (∃ ref, Refers ns name ref o) ∧ n = o.getNamespace ++ slash ++ o.getName := by
    simp only [backendNamesOf, List.mem_map, Prod.exists, mem_backendsOf]
    constructor
    case mp  => rintro ⟨o, r, ⟨hl, hr⟩, rfl⟩; exact ⟨o, hl, ⟨r, hr⟩, rfl⟩
    case mpr => rintro ⟨o, hl, ⟨r, hr⟩, rfl⟩; exact ⟨o, r, ⟨hl, hr⟩, rfl⟩
  rw [hm, exists_mem_list hp]
  apply exists_congr
  intro key
  apply and_congr_right
  intro _
  apply exists_congr
  intro o
  apply and_congr_right
  intro hc
  have ⟨hn, hs, _⟩ := hv key o hc
  rw [hn, hs]

-- A backend's name stands in the list when the backend itself does.
theorem backendName_mem (ns name : Str) (hv : Valid c) {key : Key} {o : Fields} (hk : key.gvr = gvrAIServiceBackend)
    (hc : c.content key = some o) : key.ns ++ slash ++ key.name ∈ backendNamesOf c ns name ↔
    ∃ ref, Refers ns name ref o := by
  rw [mem_backendNames hv]
  constructor
  case mpr => exact fun hr => ⟨key, hk, o, hc, hr, rfl⟩
  case mp  =>
    rintro ⟨key', hk', o', hc', hr, he⟩
    have ⟨hs, hn⟩ := (slash_inj (hv _ _ hc).right.right (hv _ _ hc').right.right).mp he
    have hkey : key = key' := by cases key; cases key'; simp_all
    subst hkey
    cases hc.symm.trans hc'
    exact hr

theorem mem_routesOf {r : RouteRef} : r ∈ routesOf c ns name ↔
    (∃ key : Key, key.gvr = gvrHTTPRoute ∧ ∃ o, c.content key = some o ∧
      routeReferencesService o (serviceBackendCandidates ns name) ∧
      r = projectRouteRef "HTTPRoute" o) ∨
    ∃ key : Key, key.gvr = gvrAIGatewayRoute ∧ ∃ o, c.content key = some o ∧
      aigatewayRouteReferences o (backendNamesOf c ns name) ∧
      r = projectRouteRef "AIGatewayRoute" o := by
  have hh : ∀ s : Stored, routeReferencesService s.view (serviceBackendCandidates ns name) ∧
      r = projectRouteRef "HTTPRoute" s.view ↔
      routeReferencesService s.content (serviceBackendCandidates ns name) ∧
      r = projectRouteRef "HTTPRoute" s.content := by
    simp [routeReferencesService, view_routeBackendRefs, view_routeRef]
  have ha : ∀ s : Stored, aigatewayRouteReferences s.view (backendNamesOf c ns name) ∧
      r = projectRouteRef "AIGatewayRoute" s.view ↔
      aigatewayRouteReferences s.content (backendNamesOf c ns name) ∧
      r = projectRouteRef "AIGatewayRoute" s.content := by
    simp [aigatewayRouteReferences, view_routeBackendRefs, view_routeRef]
  rw [← exists_mem_list hh, ← exists_mem_list ha]
  simp only [routesOf, matchedRoutes, List.mem_append, List.mem_map, List.mem_filter, and_assoc,
    @eq_comm _ r]

-- The route's own entry in the status.
theorem routeRef_mem (hv : Valid c) {key : Key} {o : Fields} (hk : key.gvr = gvrAIGatewayRoute)
    (hc : c.content key = some o) : projectRouteRef "AIGatewayRoute" o ∈ routesOf c ns name ↔
    aigatewayRouteReferences o (backendNamesOf c ns name) := by
  rw [mem_routesOf]
  constructor
  case mpr => exact fun hr => .inr ⟨key, hk, o, hc, hr, rfl⟩
  case mp  =>
    rintro (⟨key', _, o', _, _, he⟩ | ⟨key', hk', o', hc', hr, he⟩)
    case inl => simp [projectRouteRef] at he
    case inr =>
      have ho := hv.unique hc hc' (hk.trans hk'.symm) (congrArg RouteRef.ns he)
        (congrArg RouteRef.name he)
      exact ho ▸ hr

theorem routeKey_mem (ns name : Str) (hv : Valid c) {key : Key} {o : Fields} (hk : key.gvr = gvrAIGatewayRoute)
    (hc : c.content key = some o) :
    str "AIGatewayRoute" ++ slash ++ key.ns ++ slash ++ key.name ∈
      (routesOf c ns name).map RouteRef.key ↔
    aigatewayRouteReferences o (backendNamesOf c ns name) := by
  have ⟨hkn, hks, hsl⟩ := hv _ _ hc
  constructor
  case mpr =>
    intro hr
    exact List.mem_map.mpr ⟨_, (routeRef_mem hv hk hc).mpr hr,
      by simp [RouteRef.key, projectRouteRef, hkn, hks]⟩
  case mp =>
    intro h
    have ⟨r, hm, he⟩ := List.mem_map.mp h
    rcases mem_routesOf.mp hm with ⟨key', _, o', _, _, rfl⟩ | ⟨key', hk', o', hc', hr, rfl⟩
    case inl =>
      have hh := congrArg List.head? he
      have hs : (str "HTTPRoute").head? = some 72 ∧ (str "AIGatewayRoute").head? = some 65 := by
        decide
      simp [RouteRef.key, projectRouteRef, hs] at hh
    case inr =>
      have ⟨hkn', hks', hsl'⟩ := hv _ _ hc'
      simp only [RouteRef.key, projectRouteRef, hkn', hks'] at he
      have ⟨hs, hn⟩ := (slash_inj hsl' hsl).mp he
      have hkey : key' = key := by cases key; cases key'; simp_all
      subst hkey
      cases hc.symm.trans hc'
      exact hr

theorem mem_rateLimitsOf {rl : RateLimitRef} : rl ∈ rateLimitsOf c ns name ↔
    ∃ key : Key, key.gvr = gvrBackendTrafficPolicy ∧ ∃ o, c.content key = some o ∧
      extractRateLimit o = some rl ∧
      policyTargetsAnyRoute o ((routesOf c ns name).map RouteRef.key) := by
  have hp : ∀ s : Stored, extractRateLimit s.view = some rl ∧
      policyTargetsAnyRoute s.view ((routesOf c ns name).map RouteRef.key) ↔
      extractRateLimit s.content = some rl ∧
      policyTargetsAnyRoute s.content ((routesOf c ns name).map RouteRef.key) := by
    simp [view_rateLimit, view_policyTargets]
  rw [← exists_mem_list hp]
  simp only [rateLimitsOf, matchedRateLimits, List.mem_filterMap, Option.bind_eq_some_iff]
  apply exists_congr
  intro o
  apply and_congr_right
  intro _
  constructor
  case mp =>
    rintro ⟨r, hr, he⟩
    split at he
    case isTrue ht => cases he; exact ⟨hr, ht⟩
    case isFalse   => cases he
  case mpr => exact fun ⟨hr, ht⟩ => ⟨rl, hr, if_pos ht⟩

-- A rate limit carries the names of its policy.
theorem extractRateLimit_names {o : Fields} {rl : RateLimitRef} (h : extractRateLimit o = some rl) :
    rl.ns = o.getNamespace ∧ rl.name = o.getName := by
  simp only [extractRateLimit] at h
  split at h
  case h_1 => cases h
  case h_2 => cases h
  case h_3 => cases h; exact ⟨rfl, rfl⟩

theorem rateLimit_mem (hv : Valid c) {key : Key} {o : Fields} {rl : RateLimitRef}
    (hk : key.gvr = gvrBackendTrafficPolicy) (hc : c.content key = some o)
    (hr : extractRateLimit o = some rl) : rl ∈ rateLimitsOf c ns name ↔
    policyTargetsAnyRoute o ((routesOf c ns name).map RouteRef.key) := by
  rw [mem_rateLimitsOf]
  constructor
  case mpr => exact fun ht => ⟨key, hk, o, hc, hr, ht⟩
  case mp  =>
    rintro ⟨key', hk', o', hc', hr', ht⟩
    have ⟨hs, hn⟩ := extractRateLimit_names hr
    have ⟨hs', hn'⟩ := extractRateLimit_names hr'
    have ho := hv.unique hc hc' (hk.trans hk'.symm) (hs.symm.trans hs') (hn.symm.trans hn')
    exact ho ▸ ht

end Members
-- What the bodies say to one who reads the status off them.
section Bodies

variable {ns svc s : Str} {req : CreateAIGatewayRouteRequest} {rl : RateLimitConfig}

theorem backendBody_ref : extractAIServiceBackendRef (backendBody ns svc req) =
    some ⟨ns, svc ++ str "-predictor", req.port⟩ := by
  have hm : (backendBody ns svc req).nestedMap [str "spec", str "backendRef"] = some (mapOf [
      ("name", .string (svc ++ str "-predictor")),
      ("kind", .string (str "Service")),
      ("port", .int req.port)]) := by
    simp [backendBody, Fields.nestedMap, mapOf]
  have hn : (backendBody ns svc req).getNamespace = ns := gatewayResource_namespace
  simp only [extractAIServiceBackendRef, hm, hn]
  simp [refFromMap, stringAt, namespaceOf, coalesce, Fields.nestedString, Fields.nestedInt64, mapOf, Entries.get_set]

theorem matches_iff {port : Int} :
    matchesAnyCandidate ⟨ns, svc ++ str "-predictor", port⟩ (serviceBackendCandidates ns s) ↔
    svc = s ∨ svc ++ str "-predictor" = s := by
  have hd : svc ++ str "-predictor" ≠ s ++ str "-predictor-default" := by
    intro h
    have hl := congrArg List.getLast? h
    have hs : (str "-predictor").getLast? = some 114 ∧
      (str "-predictor-default").getLast? = some 116 := by decide
    simp [List.getLast?_append, hs] at hl
  simp [matchesAnyCandidate, serviceBackendCandidates, hd, or_comm]

theorem routeBody_refs : routeBackendRefs (routeBody ns svc req) = [(ns, backendName svc)] := by
  have hr : Entries.get (routeSpec svc req) (str "rules") = some (.list [.obj (mapOf [
      ("matches", .list [.obj (mapOf [("headers", .list [.obj (mapOf [
        ("type", .string (str "Exact")),
        ("name", .string (str "x-ai-eg-model")),
        ("value", .string (req.header svc))])])])]),
      ("backendRefs", .list [.obj (mapOf [
        ("name", .string (backendName svc)),
        ("kind", .string (str "AIServiceBackend"))])])])]) := by
    simp only [routeSpec]
    split <;> split <;> simp [mapOf, Entries.get_set]
  have hn : (routeBody ns svc req).getNamespace = ns := gatewayResource_namespace
  have hs : sliceAt (routeBody ns svc req) ["spec", "rules"] = [.obj (mapOf [
      ("matches", .list [.obj (mapOf [("headers", .list [.obj (mapOf [
        ("type", .string (str "Exact")),
        ("name", .string (str "x-ai-eg-model")),
        ("value", .string (req.header svc))])])])]),
      ("backendRefs", .list [.obj (mapOf [
        ("name", .string (backendName svc)),
        ("kind", .string (str "AIServiceBackend"))])])])] := by
    simp [sliceAt, Fields.nestedSlice, routeBody, hr]
  simp only [routeBackendRefs, hs, hn]
  simp [objects, sliceAt, stringAt, namespaceOf, coalesce, Fields.nestedSlice, Fields.nestedString,
    mapOf, Entries.get_set]

theorem policyBody_targets {keys : List Str} : policyTargetsAnyRoute (policyBody ns svc rl) keys ↔
    str "AIGatewayRoute" ++ slash ++ ns ++ slash ++ routeName svc ∈ keys := by
  have hn : (policyBody ns svc rl).getNamespace = ns := gatewayResource_namespace
  have ht : policyTargets (policyBody ns svc rl) = [.obj (mapOf [
      ("group", .string (str "aigateway.envoyproxy.io")),
      ("kind", .string (str "AIGatewayRoute")),
      ("name", .string (routeName svc))])] := by
    simp [policyTargets, policyBody, sliceAt, Fields.nestedSlice, mapOf, Entries.get_set]
  simp only [policyTargetsAnyRoute, ht, hn]
  simp [objects, stringAt, namespaceOf, coalesce, Fields.nestedString, mapOf, Entries.get_set]

theorem policyBody_limits : ∃ r, extractRateLimit (policyBody ns svc rl) = some r := by
  have hm : (policyBody ns svc rl).nestedMap [str "spec", str "rateLimit"] = some (mapOf [
      ("type", .string (str "Global")),
      ("global", .obj (mapOf [("rules", .list [.obj (policyRule rl)])]))]) := by
    simp [policyBody, Fields.nestedMap, mapOf]
  simp only [extractRateLimit, hm]
  split
  case h_1 h => cases h
  case h_2 h => simp [mapOf] at h
  case h_3   => exact ⟨_, rfl⟩

end Bodies
-- One call of a sequence, with the API server as it is at the time.
structure RouteCall where
  service : Str
  request : CreateAIGatewayRouteRequest
  refuse  : Refusal

def after (ns : Str) (calls : List RouteCall) (c : Cluster) : Cluster :=
  calls.foldl (fun c x => (provision x.refuse ns x.service x.request c).2) c

def made (ns : Str) (calls : List RouteCall) : List (Key × Fields) :=
  calls.flatMap fun x =>
    if x.service = [] then [] else writes x.refuse (steps ns x.service x.request)

theorem after_made (ns : Str) (calls : List RouteCall) (c : Cluster) :
    after ns calls c = puts c (made ns calls) := by
  induction calls generalizing c
  case nil          => rfl
  case cons x xs hi =>
    have hx : (provision x.refuse ns x.service x.request c).2 =
        puts c (if x.service = [] then [] else writes x.refuse (steps ns x.service x.request)) := by
      by_cases h : x.service = []
      case neg => simp [provision, (create_realises h).world, h]
      case pos =>
        simp only [h, if_true]
        rfl
    have hs : made ns (x :: xs) =
        (if x.service = [] then [] else writes x.refuse (steps ns x.service x.request)) ++
        made ns xs := List.flatMap_cons
    rw [hs, puts_append, ← hx]
    exact hi _

theorem mem_made {calls : List RouteCall} {w : Key × Fields} (h : w ∈ made ns calls) :
    ∃ x ∈ calls, x.service ≠ [] ∧ w ∈ writes x.refuse (steps ns x.service x.request) := by
  have ⟨x, hx, hw⟩ := List.mem_flatMap.mp h
  split at hw
  case isTrue     => cases hw
  case isFalse hs => exact ⟨x, hx, hs, hw⟩

theorem made_of_mem {calls : List RouteCall} {w : Key × Fields} {x : RouteCall} (hx : x ∈ calls)
    (hs : x.service ≠ []) (hw : w ∈ writes x.refuse (steps ns x.service x.request)) :
    w ∈ made ns calls :=
  List.mem_flatMap.mpr ⟨x, hx, by simpa [hs] using hw⟩

section After

variable {ns name : Str} {calls : List RouteCall} {c : Cluster}

def backendKey (ns svcName : Str) : Key := ⟨gvrAIServiceBackend, ns, backendName svcName⟩
def routeKey (ns svcName : Str) : Key := ⟨gvrAIGatewayRoute, ns, routeName svcName⟩
def policyKey (ns svcName : Str) : Key := ⟨gvrBackendTrafficPolicy, ns, policyName svcName⟩

theorem after_content (key : Key) :
    (after ns calls c).content key = (lastWrite (made ns calls) key).or (c.content key) := by
  rw [after_made, content_puts, Overwrite.eq_lastWrite]

theorem after_valid (hv : Valid c) (ns : Str) (calls : List RouteCall) :
    Valid (after ns calls c) := by
  intro key o h
  rw [after_content] at h
  cases hl : lastWrite (made ns calls) key
  case none => exact hv key o (by simpa [hl] using h)
  case some o' =>
    cases (by simpa [hl] using h : o' = o)
    obtain ⟨x, _, _, hw⟩ := mem_made (Overwrite.mem_of_lastWrite hl)
    obtain ⟨s, hs, he, hr⟩ := mem_writes_step hw
    have hp := steps_proper s hs
    cases he
    refine ⟨hp.name, hp.ns, fun hm => ?_⟩
    simp [Step.refusal, hm] at hr

-- Whose an object is can be told from its key.
section Owner

variable {x : RouteCall} {svc : Str} {o : Fields}

theorem backend_of_write (h : (backendKey ns svc, o) ∈ writes x.refuse (steps ns x.service x.request)) :
    x.service = svc ∧ o = backendBody ns svc x.request := by
  have ⟨s, hs, he, _⟩ := mem_writes_step h
  have ⟨hk, hb⟩ := Prod.mk.inj he
  rcases mem_steps hs with rfl | rfl | ⟨rl, rfl⟩ | rfl
  case inl =>
    have hn : svc = x.service := by simpa [backendKey, backendStep, backendName] using hk
    subst hn
    exact ⟨rfl, hb.trans (backendStep_body ..)⟩
  all_goals
    simp [backendKey, routeStep, policyStep, grantStep, gvrAIServiceBackend, gvrAIGatewayRoute,
      gvrBackendTrafficPolicy, gvrReferenceGrant] at hk

theorem route_of_write (h : (routeKey ns svc, o) ∈ writes x.refuse (steps ns x.service x.request)) :
    x.service = svc ∧ o = routeBody ns svc x.request := by
  have ⟨s, hs, he, _⟩ := mem_writes_step h
  have ⟨hk, hb⟩ := Prod.mk.inj he
  rcases mem_steps hs with rfl | rfl | ⟨rl, rfl⟩ | rfl
  case inr.inl =>
    have hn : svc = x.service := by simpa [routeKey, routeStep, routeName] using hk
    subst hn
    exact ⟨rfl, hb.trans (routeStep_body ..)⟩
  all_goals
    simp [routeKey, backendStep, policyStep, grantStep, gvrAIServiceBackend, gvrAIGatewayRoute,
      gvrBackendTrafficPolicy, gvrReferenceGrant] at hk

theorem policy_of_write (h : (policyKey ns svc, o) ∈ writes x.refuse (steps ns x.service x.request)) :
    x.service = svc ∧ ∃ rl, o = policyBody ns svc rl := by
  have ⟨s, hs, he, _⟩ := mem_writes_step h
  have ⟨hk, hb⟩ := Prod.mk.inj he
  rcases mem_steps hs with rfl | rfl | ⟨rl, rfl⟩ | rfl
  case inr.inr.inl =>
    have hn : svc = x.service := by simpa [policyKey, policyStep, policyName] using hk
    subst hn
    exact ⟨rfl, rl, hb.trans (policyStep_body ..)⟩
  all_goals
    simp [policyKey, backendStep, routeStep, grantStep, gvrAIServiceBackend, gvrAIGatewayRoute,
      gvrBackendTrafficPolicy, gvrReferenceGrant] at hk

end Owner

-- What there is at the keys of a service, when the calls have written it.
section Last

variable {svc : Str} {o : Fields}

theorem last_backend (h : lastWrite (made ns calls) (backendKey ns svc) = some o) :
    ∃ req, o = backendBody ns svc req := by
  have ⟨x, _, _, hw⟩ := mem_made (Overwrite.mem_of_lastWrite h)
  exact ⟨x.request, (backend_of_write hw).right⟩

theorem last_route (h : lastWrite (made ns calls) (routeKey ns svc) = some o) :
    (∃ req, o = routeBody ns svc req) ∧
    ∃ b, lastWrite (made ns calls) (backendKey ns svc) = some b := by
  have ⟨x, hx, hne, hw⟩ := mem_made (Overwrite.mem_of_lastWrite h)
  have ⟨hs, ho⟩ := route_of_write hw
  subst hs
  have ⟨hb, _⟩ := writes_order hw
  exact ⟨⟨x.request, ho⟩,
    Option.ne_none_iff_exists'.mp (Overwrite.lastWrite_ne_none (made_of_mem hx hne hb))⟩

theorem last_policy (h : lastWrite (made ns calls) (policyKey ns svc) = some o) :
    (∃ rl, o = policyBody ns svc rl) ∧
    ∃ r, lastWrite (made ns calls) (routeKey ns svc) = some r := by
  have ⟨x, hx, hne, hw⟩ := mem_made (Overwrite.mem_of_lastWrite h)
  have ⟨hs, ho⟩ := policy_of_write hw
  subst hs
  refine ⟨ho, ?_⟩
  cases (writes_order hw).right
  case inl he =>
    have hk := (Prod.mk.inj he).left
    simp [policyKey, backendStep, gvrBackendTrafficPolicy, gvrAIServiceBackend] at hk
  case inr hr =>
    exact Option.ne_none_iff_exists'.mp (Overwrite.lastWrite_ne_none (made_of_mem hx hne hr))

theorem content_of_last {key : Key} (h : lastWrite (made ns calls) key = some o) :
    (after ns calls c).content key = some o := by
  rw [after_content, h]
  rfl

end Last

-- What the status is to report: of all that the calls have created, just what they created for the
-- service.
structure Agrees (created : List (Key × Fields)) (ns name : Str) (status : ServiceRouteStatus) :
    Prop where
  backends   : ∀ svc o, lastWrite created (backendKey ns svc) = some o →
    ((∃ ref ∈ status.backends, extractAIServiceBackendRef o = some ref) ↔ svc = name)
  routes     : ∀ svc o, lastWrite created (routeKey ns svc) = some o →
    (projectRouteRef "AIGatewayRoute" o ∈ status.routes ↔ svc = name)
  rateLimits : ∀ svc o, lastWrite created (policyKey ns svc) = some o →
    ((∃ rl ∈ status.rateLimits, extractRateLimit o = some rl) ↔ svc = name)

-- Whose objects the status finds: the service's own, and those of the service whose predictor has
-- its name.
def Found (svc name : Str) : Prop :=
  svc = name ∨ svc ++ str "-predictor" = name

section Finds

variable {svc : Str} {o : Fields} {ref : ServiceRefDTO} {rl : RateLimitRef}

theorem backend_found (h : lastWrite (made ns calls) (backendKey ns svc) = some o) :
    (∃ ref ∈ (backendsOf (after ns calls c) ns name).map Prod.snd,
      extractAIServiceBackendRef o = some ref) ↔ Found svc name := by
  have ⟨req, ho⟩ := last_backend h
  have hr : extractAIServiceBackendRef o = some ⟨ns, svc ++ str "-predictor", req.port⟩ :=
    ho ▸ backendBody_ref
  constructor
  case mp =>
    intro ⟨ref, hm, he⟩
    have ⟨_, _, _, _, _, ha⟩ := mem_backends.mp hm
    cases hr.symm.trans he
    exact matches_iff.mp ha
  case mpr =>
    intro hs
    exact ⟨_, mem_backends.mpr ⟨backendKey ns svc, rfl, o, content_of_last h, hr,
      matches_iff.mpr hs⟩, hr⟩

theorem name_found (hv : Valid c) (h : lastWrite (made ns calls) (backendKey ns svc) = some o) :
    ns ++ slash ++ backendName svc ∈ backendNamesOf (after ns calls c) ns name ↔
    Found svc name := by
  have ⟨req, ho⟩ := last_backend h
  have hr : extractAIServiceBackendRef o = some ⟨ns, svc ++ str "-predictor", req.port⟩ :=
    ho ▸ backendBody_ref
  have hk : (backendKey ns svc).gvr = gvrAIServiceBackend := rfl
  have hb := backendName_mem ns name (after_valid hv ns calls) hk (content_of_last h)
  refine hb.trans ?_
  constructor
  case mp =>
    intro ⟨ref, he, ha⟩
    cases hr.symm.trans he
    exact matches_iff.mp ha
  case mpr => exact fun hs => ⟨_, hr, matches_iff.mpr hs⟩

theorem references_found (hv : Valid c) (h : lastWrite (made ns calls) (routeKey ns svc) = some o) :
    aigatewayRouteReferences o (backendNamesOf (after ns calls c) ns name) ↔ Found svc name := by
  have ⟨⟨req, ho⟩, b, hb⟩ := last_route h
  have hr : routeBackendRefs o = [(ns, backendName svc)] := ho ▸ routeBody_refs
  rw [← name_found hv hb]
  simp [aigatewayRouteReferences, hr]

theorem route_found (hv : Valid c) (h : lastWrite (made ns calls) (routeKey ns svc) = some o) :
    projectRouteRef "AIGatewayRoute" o ∈ routesOf (after ns calls c) ns name ↔ Found svc name := by
  have hk : (routeKey ns svc).gvr = gvrAIGatewayRoute := rfl
  exact (routeRef_mem (after_valid hv ns calls) hk (content_of_last h)).trans
    (references_found hv h)

theorem rateLimit_found (hv : Valid c) (h : lastWrite (made ns calls) (policyKey ns svc) = some o) :
    (∃ rl ∈ rateLimitsOf (after ns calls c) ns name, extractRateLimit o = some rl) ↔
    Found svc name := by
  have ⟨⟨rl, ho⟩, r, hr⟩ := last_policy h
  have hva := after_valid hv ns calls
  have hgr : (routeKey ns svc).gvr = gvrAIGatewayRoute := rfl
  have hgp : (policyKey ns svc).gvr = gvrBackendTrafficPolicy := rfl
  have hk := routeKey_mem ns name hva hgr (content_of_last hr)
  have ht : policyTargetsAnyRoute o ((routesOf (after ns calls c) ns name).map RouteRef.key) ↔
      Found svc name := by
    rw [ho, policyBody_targets]
    exact hk.trans (references_found hv hr)
  have hm : ∀ rl, extractRateLimit o = some rl → (rl ∈ rateLimitsOf (after ns calls c) ns name ↔
      Found svc name) :=
    fun rl he => (rateLimit_mem hva hgp (content_of_last h) he).trans ht
  have ⟨limit, he⟩ : ∃ r, extractRateLimit o = some r := ho ▸ policyBody_limits
  constructor
  case mp  => exact fun ⟨rl, hl, he⟩ => (hm rl he).mp hl
  case mpr => exact fun hs => ⟨limit, (hm limit he).mpr hs, he⟩

end Finds

-- Whether the call gets as far as creating the backend.
def RouteCall.Provides (ns : Str) (x : RouteCall) : Prop :=
  x.service ≠ [] ∧ (backendStep ns x.service x.request).refusal x.refuse = none

instance : Decidable (RouteCall.Provides ns x) :=
  inferInstanceAs (Decidable (_ ∧ _))

theorem provides_of_last {svc : Str} {o : Fields}
    (h : lastWrite (made ns calls) (backendKey ns svc) = some o) :
    ∃ x ∈ calls, x.Provides ns ∧ x.service = svc := by
  have ⟨x, hx, hne, hw⟩ := mem_made (Overwrite.mem_of_lastWrite h)
  have ⟨s, hs, he, hr⟩ := mem_writes_step hw
  have hsvc := (backend_of_write hw).left
  refine ⟨x, hx, ⟨hne, ?_⟩, hsvc⟩
  have hk := (Prod.mk.inj he).left
  rcases mem_steps hs with rfl | rfl | ⟨rl, rfl⟩ | rfl
  case inl => exact hr
  all_goals
    simp [backendKey, routeStep, policyStep, grantStep, gvrAIServiceBackend, gvrAIGatewayRoute,
      gvrBackendTrafficPolicy, gvrReferenceGrant] at hk

theorem last_of_provides {x : RouteCall} (hx : x ∈ calls) (h : x.Provides ns) :
    ∃ o, lastWrite (made ns calls) (backendKey ns x.service) = some o := by
  have hw : ((backendStep ns x.service x.request).key, backendBody ns x.service x.request) ∈
      writes x.refuse (steps ns x.service x.request) := by
    simp [steps, writes, h.right]
  exact Option.ne_none_iff_exists'.mp (Overwrite.lastWrite_ne_none (made_of_mem hx h.left hw))

theorem valid_empty : Valid .empty :=
  fun _ _ h => by cases h

end After
end Inference
