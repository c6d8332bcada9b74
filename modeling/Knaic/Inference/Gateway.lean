import Knaic.Kube.Dynamic

open Go Kube.Dynamic
open Kube (Fields mapOf toAnySlice)

namespace Inference

def defaultKServeGatewayNamespace : Str :=
  str "kserve"

def defaultKServeGatewayName : Str :=
  str "kserve-ingress-gateway"

def gvrHTTPRoute : GVR where
  group    := str "gateway.networking.k8s.io"
  version  := str "v1"
  resource := str "httproutes"

def gvrReferenceGrant : GVR where
  group    := str "gateway.networking.k8s.io"
  version  := str "v1beta1"
  resource := str "referencegrants"

def gvrAIGatewayRoute : GVR where
  group    := str "aigateway.envoyproxy.io"
  version  := str "v1alpha1"
  resource := str "aigatewayroutes"

def gvrAIServiceBackend : GVR where
  group    := str "aigateway.envoyproxy.io"
  version  := str "v1alpha1"
  resource := str "aiservicebackends"

def gvrBackendTrafficPolicy : GVR where
  group    := str "gateway.envoyproxy.io"
  version  := str "v1alpha1"
  resource := str "backendtrafficpolicies"

structure RouteRef where
  apiVersion : Str
  kind       : Str
  ns         : Str
  name       : Str
  hostnames  : List Str
  parentName : Str
  status     : Str
deriving DecidableEq

structure RateLimitRef where
  ns         : Str
  name       : Str
  targetKind : Str
  targetName : Str
  type       : Str
  summaries  : List Str
deriving DecidableEq

structure ServiceRefDTO where
  ns   : Str
  name : Str
  port : Int
deriving DecidableEq

structure ServiceRouteStatus where
  routes      : List RouteRef
  rateLimits  : List RateLimitRef
  backends    : List ServiceRefDTO
  suggestions : List Str
deriving DecidableEq

structure RateLimitConfig where
  requests     : Int
  unit         : Str
  clientHeader : Str
  countTokens  : Bool

structure CreateAIGatewayRouteRequest where
  gatewayNamespace : Str
  gatewayName      : Str
  hostnames        : List Str
  modelHeader      : Str
  servicePort      : Int
  rateLimit        : Option RateLimitConfig

-- A kind, or the text that stands in its place when the object was skipped for an error.
inductive CreatedKind
  | kind (kind : Str)
  | skipped (kind : Str) (err : Error)
deriving DecidableEq

structure CreatedResource where
  apiVersion : Str
  kind       : CreatedKind
  ns         : Str
  name       : Str
deriving DecidableEq

def coalesce (a b : Str) : Str :=
  if a = [] then b else a

def aiGatewayLabels (svc : Str) : Fields :=
  mapOf [
    ("knaic.io/managed", .string (str "true")),
    ("knaic.io/component", .string (str "inference-gateway")),
    ("knaic.io/inference-service", .string svc)]

-- What the bodies of all gateway resources have in common.
def gatewayResource (apiVersion kind : String) (ns name svc : Str) (spec : Fields) : Fields :=
  mapOf [
    ("apiVersion", .string (str apiVersion)),
    ("kind", .string (str kind)),
    ("metadata", .obj (mapOf [
      ("name", .string name),
      ("namespace", .string ns),
      ("labels", .obj (aiGatewayLabels svc))])),
    ("spec", .obj spec)]

namespace CreateAIGatewayRouteRequest

variable (req : CreateAIGatewayRouteRequest)

def gwNS : Str :=
  coalesce req.gatewayNamespace defaultKServeGatewayNamespace

def gwName : Str :=
  coalesce req.gatewayName defaultKServeGatewayName

def header (svcName : Str) : Str :=
  coalesce req.modelHeader svcName

def port : Int :=
  if req.servicePort = 0 then 80 else req.servicePort

end CreateAIGatewayRouteRequest

def backendName (svcName : Str) : Str := svcName ++ str "-aibackend"
def routeName (svcName : Str) : Str := svcName ++ str "-route"
def policyName (svcName : Str) : Str := svcName ++ str "-ratelimit"
def grantName (svcName : Str) : Str := svcName ++ str "-refgrant"

def backendBody (ns svcName : Str) (req : CreateAIGatewayRouteRequest) : Fields :=
  gatewayResource "aigateway.envoyproxy.io/v1alpha1" "AIServiceBackend" ns (backendName svcName) svcName
    (mapOf [
      ("schema", .obj (mapOf [("name", .string (str "OpenAI"))])),
      ("backendRef", .obj (mapOf [
        ("name", .string (svcName ++ str "-predictor")),
        ("kind", .string (str "Service")),
        ("port", .int req.port)]))])

def routeSpec (svcName : Str) (req : CreateAIGatewayRouteRequest) : Fields :=
  let hostnames := req.hostnames.filter (· ≠ [])
  let matchHeader := mapOf [
    ("type", .string (str "Exact")),
    ("name", .string (str "x-ai-eg-model")),
    ("value", .string (req.header svcName))]
  let headerMatches := [.obj (mapOf [("headers", .list [.obj matchHeader])])]
  let backendRefs := [.obj (mapOf [
    ("name", .string (backendName svcName)),
    ("kind", .string (str "AIServiceBackend"))])]
  let routeSpec := mapOf [
    ("targetRefs", .list [.obj (mapOf [
      ("group", .string (str "gateway.networking.k8s.io")),
      ("kind", .string (str "Gateway")),
      ("name", .string req.gwName),
      ("namespace", .string req.gwNS)])]),
    ("rules", .list [.obj (mapOf [
      ("matches", .list headerMatches),
      ("backendRefs", .list backendRefs)])])]
  let routeSpec :=
    if req.rateLimit.any RateLimitConfig.countTokens then
      Entries.set routeSpec (str "llmRequestCosts") (.list [.obj (mapOf [
        ("metadataKey", .string (str "llm_total_token")),
        ("type", .string (str "OutputToken"))])])
    else routeSpec
  if hostnames ≠ [] then Entries.set routeSpec (str "hostnames") (.list (toAnySlice hostnames))
  else routeSpec

def routeBody (ns svcName : Str) (req : CreateAIGatewayRouteRequest) : Fields :=
  gatewayResource "aigateway.envoyproxy.io/v1alpha1" "AIGatewayRoute" ns (routeName svcName) svcName
    (routeSpec svcName req)

def policyRule (rl : RateLimitConfig) : Fields :=
  let rule := mapOf [
    ("clientSelectors", .list [.obj (mapOf [
      ("headers", .list [.obj (mapOf [
        ("type", .string (str "Distinct")),
        ("name", .string (coalesce rl.clientHeader (str "x-user-id")))])])])]),
    ("limit", .obj (mapOf [
      ("requests", .int rl.requests),
      ("unit", .string (coalesce rl.unit (str "Hour")))]))]
  -- When tokens are counted, a request itself must cost nothing.
  if rl.countTokens then
    Entries.set rule (str "cost") (.obj (mapOf [
      ("request", .obj (mapOf [("from", .string (str "Number")), ("number", .int 0)])),
      ("response", .obj (mapOf [
        ("from", .string (str "Metadata")),
        ("metadata", .obj (mapOf [
          ("namespace", .string (str "io.envoy.ai_gateway")),
          ("key", .string (str "llm_total_token"))]))]))]))
  else rule

def policyBody (ns svcName : Str) (rl : RateLimitConfig) : Fields :=
  gatewayResource "gateway.envoyproxy.io/v1alpha1" "BackendTrafficPolicy" ns (policyName svcName) svcName
    (mapOf [
      ("targetRefs", .list [.obj (mapOf [
        ("group", .string (str "aigateway.envoyproxy.io")),
        ("kind", .string (str "AIGatewayRoute")),
        ("name", .string (routeName svcName))])]),
      ("rateLimit", .obj (mapOf [
        ("type", .string (str "Global")),
        ("global", .obj (mapOf [("rules", .list [.obj (policyRule rl)])]))]))])

def grantBody (ns svcName : Str) (req : CreateAIGatewayRouteRequest) : Fields :=
  gatewayResource "gateway.networking.k8s.io/v1beta1" "ReferenceGrant" ns (grantName svcName) svcName
    (mapOf [
      ("from", .list [.obj (mapOf [
        ("group", .string (str "aigateway.envoyproxy.io")),
        ("kind", .string (str "AIGatewayRoute")),
        ("namespace", .string req.gwNS)])]),
      ("to", .list [.obj (mapOf [
        ("group", .string []),
        ("kind", .string (str "Service"))])])])

-- Creates the object, or replaces the one that has its name.
def applyResource (gvr : GVR) (ns name : Str) (body : Fields) : Call Fields := do
  let existing ← attempt (get ⟨gvr, ns, name⟩)
  match existing with
  | .error err   => if errNotFound.is err then create gvr ns body else throw err
  | .ok existing => update gvr ns (body.setResourceVersion existing.getResourceVersion)

def getAPIVersion (o : Fields) : Str :=
  (o.nestedString [str "apiVersion"]).getD []

def applyPolicy (ns svcName : Str) (req : CreateAIGatewayRouteRequest) :
    Call (List CreatedResource) :=
  match req.rateLimit with
  | none    => return []
  | some rl => do
    if rl.requests ≤ 0 then
      return []
    let obj ← (applyResource gvrBackendTrafficPolicy ns (policyName svcName)
      (policyBody ns svcName rl)).mapError (.wrap "apply BackendTrafficPolicy")
    return [⟨getAPIVersion obj, .kind (str "BackendTrafficPolicy"), ns, policyName svcName⟩]

-- A grant that cannot be made does not fail the call: the route still works when the gateway's
-- controller has access across namespaces.
def applyGrant (ns svcName : Str) (req : CreateAIGatewayRouteRequest) :
    Call (List CreatedResource) := do
  if req.gwNS = ns then
    return []
  let obj ← attempt (applyResource gvrReferenceGrant ns (grantName svcName)
    (grantBody ns svcName req))
  match obj with
  | .error err =>
    return [⟨str "gateway.networking.k8s.io/v1beta1", .skipped (str "ReferenceGrant") err, ns,
      grantName svcName⟩]
  | .ok obj => return [⟨getAPIVersion obj, .kind (str "ReferenceGrant"), ns, grantName svcName⟩]

def createAIGatewayRoute (ns svcName : Str) (req : CreateAIGatewayRouteRequest) :
    Call (List CreatedResource) := do
  if svcName = [] then
    throw (.new "service name is required")
  let backend ← (applyResource gvrAIServiceBackend ns (backendName svcName)
    (backendBody ns svcName req)).mapError (.wrap "apply AIServiceBackend")
  let route ← (applyResource gvrAIGatewayRoute ns (routeName svcName)
    (routeBody ns svcName req)).mapError (.wrap "apply AIGatewayRoute")
  let policy ← applyPolicy ns svcName req
  let grant ← applyGrant ns svcName req
  return [⟨getAPIVersion backend, .kind (str "AIServiceBackend"), ns, backendName svcName⟩,
    ⟨getAPIVersion route, .kind (str "AIGatewayRoute"), ns, routeName svcName⟩] ++ policy ++ grant

end Inference
