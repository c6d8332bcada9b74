import Mathlib.Data.List.Sort
import Knaic.Inference.Gateway

open Go Kube.Dynamic
open Kube (Fields Value strings)

namespace Inference

-- `strings.ToLower` on ASCII text, as the units of a rate limit are.
def toLower (s : Str) : Str :=
  s.map fun b => if 65 ≤ b ∧ b ≤ 90 then b + 32 else b

def decimalInt (n : Int) : Str :=
  if n < 0 then str "-" ++ decimal n.natAbs else decimal n.natAbs

-- The objects of a list. What is anything else is passed over.
def objects (l : List Value) : List Fields :=
  l.filterMap Value.obj?

def stringAt (o : Fields) (path : List String) : Str :=
  (o.nestedString (path.map str)).getD []

def sliceAt (o : Fields) (path : List String) : List Value :=
  (o.nestedSlice (path.map str)).getD []

-- A reference without a namespace stays in the namespace of the object that makes it.
def namespaceOf (m : Fields) (defaultNS : Str) : Str :=
  coalesce (stringAt m ["namespace"]) defaultNS

def serviceBackendCandidates (ns name : Str) : List ServiceRefDTO :=
  [⟨ns, name, 0⟩, ⟨ns, name ++ str "-predictor", 0⟩, ⟨ns, name ++ str "-predictor-default", 0⟩]

def matchesAnyCandidate (ref : ServiceRefDTO) (candidates : List ServiceRefDTO) : Bool :=
  candidates.any fun c =>
    (ref.ns = [] || c.ns = [] || ref.ns = c.ns) && ref.name = c.name

def refFromMap (m : Fields) (defaultNS : Str) : Option ServiceRefDTO :=
  let name := stringAt m ["name"]
  if name = [] then none
  else some ⟨namespaceOf m defaultNS, name, (m.nestedInt64 [str "port"]).getD 0⟩

def extractAIServiceBackendRef (o : Fields) : Option ServiceRefDTO :=
  match o.nestedMap [str "spec", str "backendRef"] with
  | some m => refFromMap m o.getNamespace
  | none   =>
    match sliceAt o ["spec", "backendRefs"] with
    | .obj m :: _ => refFromMap m o.getNamespace
    | _           => none

-- The objects that the rules of a route name as backends, by namespace and name.
def routeBackendRefs (o : Fields) : List (Str × Str) :=
  (objects (sliceAt o ["spec", "rules"])).flatMap fun m =>
    (objects (sliceAt m ["backendRefs"])).map fun bm =>
      (namespaceOf bm o.getNamespace, stringAt bm ["name"])

def routeReferencesService (o : Fields) (candidates : List ServiceRefDTO) : Bool :=
  (routeBackendRefs o).any fun r => matchesAnyCandidate ⟨r.1, r.2, 0⟩ candidates

def slash : Str :=
  str "/"

def aigatewayRouteReferences (o : Fields) (backendKeys : List Str) : Bool :=
  (routeBackendRefs o).any fun r => r.1 ++ slash ++ r.2 ∈ backendKeys

def policyTargets (o : Fields) : List Value :=
  match sliceAt o ["spec", "targetRefs"] with
  | []      => ((o.nestedMap [str "spec", str "targetRef"]).map Value.obj).toList
  | targets => targets

def policyTargetsAnyRoute (o : Fields) (routeKeys : List Str) : Bool :=
  (objects (policyTargets o)).any fun m =>
    stringAt m ["kind"] ++ slash ++ namespaceOf m o.getNamespace ++ slash ++ stringAt m ["name"] ∈
      routeKeys

def summaries (rl : Fields) : List Str :=
  (objects (sliceAt rl ["global", "rules"])).filterMap fun m =>
    let requests := (m.nestedInt64 [str "limit", str "requests"]).getD 0
    if requests > 0 then
      some (decimalInt requests ++ str " / " ++ toLower (stringAt m ["limit", "unit"]))
    else none

def extractRateLimit (o : Fields) : Option RateLimitRef :=
  match o.nestedMap [str "spec", str "rateLimit"] with
  | none | some [] => none
  | some rl =>
    let target :=
      match sliceAt o ["spec", "targetRefs"] with
      | .obj m :: _ => (stringAt m ["kind"], stringAt m ["name"])
      | _           => ([], [])
    some {
      ns         := o.getNamespace
      name       := o.getName
      targetKind := target.1
      targetName := target.2
      type       := coalesce (stringAt rl ["type"]) (str "Global")
      summaries  := if summaries rl = [] then [str "configured"] else summaries rl
    }

-- A condition that has failed counts at once, and otherwise one that was accepted.
def conditionStatus (accepted : Bool) : List Fields → Str
  | []      => if accepted then str "Accepted" else str "Pending"
  | m :: ms =>
    let t := stringAt m ["type"]
    let s := stringAt m ["status"]
    if (t = str "Accepted" || t = str "Programmed") && s = str "False" then str "Failed"
    else conditionStatus (accepted || (t = str "Accepted" && s = str "True")) ms

def gatewayConditionStatus (o : Fields) : Str :=
  conditionStatus false (objects (sliceAt o ["status", "conditions"]))

def projectRouteRef (kind : String) (o : Fields) : RouteRef :=
  let parents :=
    match sliceAt o ["spec", "parentRefs"] with
    | []      => sliceAt o ["spec", "targetRefs"]
    | parents => parents
  { apiVersion := getAPIVersion o
    kind       := str kind
    ns         := o.getNamespace
    name       := o.getName
    hostnames  := (o.nestedStringSlice [str "spec", str "hostnames"]).getD []
    parentName :=
      match parents with
      | .obj m :: _ => stringAt m ["name"]
      | _           => []
    status     := gatewayConditionStatus o }

def RouteRef.before (a b : RouteRef) : Bool :=
  if a.kind ≠ b.kind then a.kind < b.kind else a.ns ++ a.name < b.ns ++ b.name

def RouteRef.key (r : RouteRef) : Str :=
  r.kind ++ slash ++ r.ns ++ slash ++ r.name

def matchedBackends (backends : List Fields) (candidates : List ServiceRefDTO) :
    List (Fields × ServiceRefDTO) :=
  backends.filterMap fun item =>
    (extractAIServiceBackendRef item).bind fun ref =>
      if matchesAnyCandidate ref candidates then some (item, ref) else none

def matchedRoutes (httpRoutes aiRoutes : List Fields) (candidates : List ServiceRefDTO)
    (aiBackendNames : List Str) : List RouteRef :=
  (httpRoutes.filter (routeReferencesService · candidates)).map (projectRouteRef "HTTPRoute") ++
  (aiRoutes.filter (aigatewayRouteReferences · aiBackendNames)).map (projectRouteRef "AIGatewayRoute")

def matchedRateLimits (policies : List Fields) (routes : List RouteRef) : List RateLimitRef :=
  policies.filterMap fun item =>
    (extractRateLimit item).bind fun rl =>
      if policyTargetsAnyRoute item (routes.map RouteRef.key) then some rl else none

-- A list that cannot be had counts as empty.
def listOrNone (gvr : GVR) : Call (List Fields) := do
  let result ← attempt (list gvr)
  return result.toOption.getD []

def serviceRouteStatus (ns name : Str) : Call ServiceRouteStatus := do
  let candidates := serviceBackendCandidates ns name
  let backends := matchedBackends (← listOrNone gvrAIServiceBackend) candidates
  let aiBackendNames := backends.map fun b => b.1.getNamespace ++ slash ++ b.1.getName
  let httpRoutes ← listOrNone gvrHTTPRoute
  let aiRoutes ← listOrNone gvrAIGatewayRoute
  let routes := matchedRoutes httpRoutes aiRoutes candidates aiBackendNames
  let rateLimits := matchedRateLimits (← listOrNone gvrBackendTrafficPolicy) routes
  return {
    routes      := routes.mergeSort fun a b => !b.before a
    rateLimits
    backends    := backends.map Prod.snd
    suggestions :=
      if routes = [] then [str "No gateway route found for " ++ ns ++ slash ++ name ++
        str (". Use the Gateway page to provision an AIGatewayRoute + AIServiceBackend.")]
      else []
  }

end Inference
