import Knaic.Effects.Prog
import Knaic.Go.Float64
import Knaic.Go.Json
import Knaic.Go.Query
import Knaic.Go.Strconv
import Knaic.Go.Utf8

open Go Effects

namespace Playground

def allowedK8sSlugs : List Str := [
  str "pods", str "deployments", str "statefulsets", str "services", str "configmaps", str "pvcs",
  str "gateways", str "httproutes", str "inferenceservices", str "llminferenceservices",
  str "servingruntimes", str "notebooks", str "trainjobs", str "trainingruntimes"
]

-- The server, with how a URL is parsed and how `strings.ToLower` changes a text.
structure MCPServer where
  baseURL : Str
  token   : Str
  ns      : Str
  parse   : Str → Except Error Unit
  toLower : Str → Str

namespace Mcp

structure Request where
  method        : String
  url           : Str
  authorization : Option Str
deriving DecidableEq

structure Response where
  statusCode : Nat
  body       : Except Error Str

abbrev ops : Signature where
  Op    := Request
  Res _ := Except Error Response

abbrev Call :=
  Effects.Call ops Error

def send (req : Request) : Call Response :=
  @Prog.perform ops req

def argString (args : Entries Json) (key : String) : Str :=
  ((args.get (str key)).bind Json.string?).getD []

def argInt (args : Entries Json) (key : String) (default : Int) : Int :=
  match (args.get (str key)).bind Json.number? with
  | some v => if v.positive then v.trunc else default
  | none   => default

def joinLines (lines : List Str) : Str :=
  [10].intercalate lines

def stripSSE (raw : Str) : Str :=
  let out := ((raw.splitOn 10).filter fun line => Str.hasPrefix line (str "data: ")).map fun line =>
    Str.trimPrefix line (str "data: ")
  if out = [] then raw else joinLines out

-- `Values.Set` for a value that is given.
def setUnlessEmpty (q : Entries Str) (key : String) (value : Str) : Entries Str :=
  if value = [] then q else q.set (str key) value

def logsQuery (container : Str) (tail : Int) : Entries Str :=
  (setUnlessEmpty [(str "follow", str "false")] "container" container).set (str "tailLines") (Strconv.itoa tail)

def monitoringQuery (args : Entries Json) : Entries Str :=
  ["scope", "target", "resource", "kind"].foldl (fun q k => setUnlessEmpty q k (argString args k)) []

end Mcp

namespace MCPServer

open Mcp Url

variable (s : MCPServer)

def namespaceOr (args : Entries Json) : Str :=
  let ns := argString args "namespace"
  if ns ≠ [] then ns else s.ns

def get (path : Str) : Mcp.Call Str := do
  ExceptT.mk (pure (s.parse (s.baseURL ++ path)))
  let res ← send {
    method        := "GET"
    url           := s.baseURL ++ path
    authorization := if s.token ≠ [] then some s.token else none
  }
  let body ← ExceptT.mk (pure res.body)
  if res.statusCode < 200 ∨ 300 ≤ res.statusCode then
    throw (.errorf "GET %s: HTTP %d: %s" [path, decimal res.statusCode, Utf8.trimSpace body])
  else
    return body

-- The lines with the query in them, or all of them if there is none.
def search (query combined : Str) : Str :=
  if Utf8.trimSpace query = [] then
    combined
  else
    let lower := s.toLower query
    let lines := (combined.splitOn 10).filter fun line => (s.toLower line).hasInfix lower
    if lines = [] then combined else joinLines lines

def modelSearch (query ns : Str) : Mcp.Call Str := do
  let pub ← s.get (str "/api/v1/models?scope=public")
  if ns = [] then
    return s.search query pub
  else
    let private? ← ExceptT.lift (s.get (str "/api/v1/models?" ++
      encodeValues [(str "namespace", ns), (str "scope", str "private")]) : Prog Mcp.ops (Except Error Str))
    match private? with
    | .error _ => return s.search query pub
    | .ok priv => return s.search query (pub ++ 10 :: priv)

def callTool (name : Str) (args : Entries Json) : Mcp.Call Str :=
  if s.baseURL = [] then
    throw (.new "KNAIC_AGENT_API_BASE is required")
  else if name = str "k8s_list" then
    let resource := argString args "resource"
    if resource ∉ allowedK8sSlugs then
      throw (.errorf "resource %q is not allowed" [resource])
    else
      let ns := s.namespaceOr args
      s.get (str "/api/v1/namespaces/" ++ pathEscape ns ++ str "/" ++ pathEscape resource)
  else if name = str "k8s_yaml" then
    let resource := argString args "resource"
    if resource ∉ allowedK8sSlugs then
      throw (.errorf "resource %q is not allowed" [resource])
    else
      let ns := s.namespaceOr args
      let obj := argString args "name"
      if obj = [] then
        throw (.new "name is required")
      else
        s.get (str "/api/v1/namespaces/" ++ pathEscape ns ++ str "/" ++ pathEscape resource ++ str "/" ++
          pathEscape obj ++ str "/yaml")
  else if name = str "pod_logs" then
    let ns := s.namespaceOr args
    let pod := argString args "pod"
    if pod = [] then
      throw (.new "pod is required")
    else do
      let q := logsQuery (argString args "container") (argInt args "tailLines" 100)
      let raw ← s.get (str "/api/v1/namespaces/" ++ pathEscape ns ++ str "/pods/" ++ pathEscape pod ++
        str "/logs?" ++ encodeValues q)
      return stripSSE raw
  else if name = str "model_search" then
    s.modelSearch (argString args "query") (s.namespaceOr args)
  else if name = str "prometheus_query" then
    s.get (str "/api/v1/monitoring/query?" ++ encodeValues (monitoringQuery args))
  else
    throw (.errorf "tool %q is not available" [name])

-- The request for a path.
def request (path : Str) : Request where
  method        := "GET"
  url           := s.baseURL ++ path
  authorization := if s.token ≠ [] then some s.token else none

end MCPServer

namespace Mcp

open Url

variable (s : MCPServer)

-- What has been sent so far, whatever is answered.
def answer (req : Request) (d : Except Error Response) (sent : List Request) :
    Except Error Response × List Request :=
  (d, sent ++ [req])

-- What a tool may read, by the words of its path and the entries of its query.
inductive Endpoint (name : Str) (args : Entries Json) : List Str → List (Str × Str) → Prop
  | list (hn : name = str "k8s_list") (hr : argString args "resource" ∈ allowedK8sSlugs) :
    Endpoint name args [str "api", str "v1", str "namespaces", s.namespaceOr args,
      argString args "resource"] []
  | yaml (hn : name = str "k8s_yaml") (hr : argString args "resource" ∈ allowedK8sSlugs) :
    Endpoint name args [str "api", str "v1", str "namespaces", s.namespaceOr args,
      argString args "resource", argString args "name", str "yaml"] []
  | logs (hn : name = str "pod_logs") :
    Endpoint name args [str "api", str "v1", str "namespaces", s.namespaceOr args, str "pods",
      argString args "pod", str "logs"]
      (logsQuery (argString args "container") (argInt args "tailLines" 100))
  | publicModels (hn : name = str "model_search") :
    Endpoint name args [str "api", str "v1", str "models"] [(str "scope", str "public")]
  | privateModels (hn : name = str "model_search") :
    Endpoint name args [str "api", str "v1", str "models"]
      [(str "namespace", s.namespaceOr args), (str "scope", str "private")]
  | monitoring (hn : name = str "prometheus_query") :
    Endpoint name args [str "api", str "v1", str "monitoring", str "query"] (monitoringQuery args)

-- Behind the base, the request has a path whose segments are the words, each of them escaped, and a
-- query that is read as the entries.
def Reaches (req : Request) (ws : List Str) (q : List (Str × Str)) : Prop :=
  req.method = "GET" ∧ ∃ rest path query, req.url = s.baseURL ++ rest ∧
    target rest = some (path, query) ∧ segments path = [] :: ws.map pathEscape ∧ parseQuery query = q

-- Nothing is sent, or one request for something that the tool may read, or two for lists of models.
inductive Confined (name : Str) (args : Entries Json) : List Request → Prop
  | none : Confined name args []
  | one {req : Request} {ws : List Str} {q : List (Str × Str)} (he : Endpoint s name args ws q)
      (hr : Reaches s req ws q) : Confined name args [req]
  | both {pub priv : Request} (hn : name = str "model_search")
      (hp : Reaches s pub [str "api", str "v1", str "models"] [(str "scope", str "public")])
      (hq : Reaches s priv [str "api", str "v1", str "models"]
        [(str "namespace", s.namespaceOr args), (str "scope", str "private")]) :
      Confined name args [pub, priv]

-- The paths of the tools are made of words.
section Paths

theorem namespaces_path : str "/api/v1/namespaces/" = pathOf [str "api", str "v1", str "namespaces"] ++ [slash] := by
  decide

theorem list_path (ns slug : Str) :
    str "/api/v1/namespaces/" ++ pathEscape ns ++ str "/" ++ pathEscape slug =
      pathOf [str "api", str "v1", str "namespaces", ns, slug] := by
  have hs : str "/" = [slash] := by decide
  rw [namespaces_path, hs]
  simp [pathOf]

theorem yaml_path (ns slug obj : Str) :
    str "/api/v1/namespaces/" ++ pathEscape ns ++ str "/" ++ pathEscape slug ++ str "/" ++ pathEscape obj ++
        str "/yaml" =
      pathOf [str "api", str "v1", str "namespaces", ns, slug, obj, str "yaml"] := by
  have hs : str "/" = [slash] := by decide
  have hy : str "/yaml" = slash :: pathEscape (str "yaml") := by decide
  rw [namespaces_path, hs, hy]
  simp [pathOf]

theorem logs_path (ns pod q : Str) :
    str "/api/v1/namespaces/" ++ pathEscape ns ++ str "/pods/" ++ pathEscape pod ++ str "/logs?" ++ q =
      pathOf [str "api", str "v1", str "namespaces", ns, str "pods", pod, str "logs"] ++ question :: q := by
  have hp : str "/pods/" = slash :: (pathEscape (str "pods") ++ [slash]) := by decide
  have hl : str "/logs?" = slash :: (pathEscape (str "logs") ++ [question]) := by decide
  rw [namespaces_path, hp, hl]
  simp [pathOf]

theorem monitoring_path (q : Str) :
    str "/api/v1/monitoring/query?" ++ q =
      pathOf [str "api", str "v1", str "monitoring", str "query"] ++ question :: q := by
  have hm : str "/api/v1/monitoring/query?" =
      pathOf [str "api", str "v1", str "monitoring", str "query"] ++ [question] := by decide
  rw [hm, List.append_assoc]
  rfl

theorem models_path (q : Str) :
    str "/api/v1/models?" ++ q = pathOf [str "api", str "v1", str "models"] ++ question :: q := by
  have hm : str "/api/v1/models?" = pathOf [str "api", str "v1", str "models"] ++ [question] := by
    decide
  rw [hm, List.append_assoc]
  rfl

end Paths

section Requests

variable {s} {ws : List Str} {path : Str}

theorem reaches_path (hw : ws ≠ []) (hp : path = pathOf ws) : Reaches s (s.request path) ws [] :=
  ⟨rfl, path, pathOf ws, [], rfl, hp ▸ target_pathOf hw, segments_pathOf ws, rfl⟩

theorem reaches_query {q : Entries Str} (hw : ws ≠ []) (hp : path = pathOf ws ++ question :: encodeValues q) :
    Reaches s (s.request path) ws q :=
  ⟨rfl, path, pathOf ws, encodeValues q, rfl, hp ▸ target_pathOf_query hw q, segments_pathOf ws,
    parseQuery_encodeValues q⟩

-- A read sends its request or nothing.
theorem get_always (path : Str) (sent : List Request) :
    Prog.Always answer (fun _ w => w = sent ∨ w = sent ++ [s.request path]) (s.get path) sent := by
  unfold MCPServer.get
  cases s.parse (s.baseURL ++ path)
  case error => exact .inl rfl
  case ok    =>
    intro d
    cases d
    case error  => exact .inr rfl
    case ok res =>
      obtain ⟨code, body⟩ := res
      cases body
      case error   => exact .inr rfl
      case ok body =>
        show Prog.Always answer _ (if code < 200 ∨ 300 ≤ code then _ else _ : Mcp.Call Str) _
        split <;> exact .inr rfl

theorem get_confined {name : Str} {args : Entries Json} {q : List (Str × Str)}
    (he : Endpoint s name args ws q) (hr : Reaches s (s.request path) ws q) :
    Prog.Always answer (fun _ sent => Confined s name args sent) (s.get path) [] := by
  refine (get_always path []).mono fun res sent hs => ?_
  rcases hs with rfl | rfl
  · exact .none
  · exact .one he hr

theorem modelSearch_confined {args : Entries Json} (query : Str) :
    Prog.Always answer (fun _ sent => Confined s (str "model_search") args sent)
      (s.modelSearch query (s.namespaceOr args)) [] := by
  have hp : Reaches s (s.request (str "/api/v1/models?scope=public")) [str "api", str "v1", str "models"]
      [(str "scope", str "public")] :=
    reaches_query (by simp) (by decide)
  have hq : Reaches s (s.request (str "/api/v1/models?" ++
      encodeValues [(str "namespace", s.namespaceOr args), (str "scope", str "private")]))
      [str "api", str "v1", str "models"] [(str "namespace", s.namespaceOr args), (str "scope", str "private")] :=
    reaches_query (by simp) (models_path _)
  unfold MCPServer.modelSearch
  rw [Call.bind_eq, Prog.always_bind]
  refine (get_always _ []).mono fun res sent hs => ?_
  have hc : Confined s (str "model_search") args sent := by
    rcases hs with rfl | rfl
    · exact .none
    · exact .one (.publicModels rfl) hp
  cases res
  case error  => exact hc
  case ok pub =>
    show Prog.Always answer _ (if s.namespaceOr args = [] then _ else _ : Mcp.Call Str) sent
    split
    case isTrue  => exact hc
    case isFalse =>
      rw [Call.lift_bind, Prog.always_bind]
      refine (get_always _ sent).mono fun res sent' hs' => ?_
      have hc' : Confined s (str "model_search") args sent' := by
        rcases hs with rfl | rfl <;> rcases hs' with rfl | rfl
        · exact .none
        · exact .one (.privateModels rfl) hq
        · exact .one (.publicModels rfl) hp
        · exact .both rfl hp hq
      cases res <;> exact hc'

end Requests

-- The search goes through two lists.
section Search

def standard : MCPServer where
  baseURL   := str "http://knaic"
  token     := []
  ns        := str "ml"
  parse _   := .ok ()
  toLower s := s.toLower

end Search
end Mcp
end Playground
