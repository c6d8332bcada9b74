import Knaic.Effects.Pool
import Knaic.Go.Map
import Knaic.Go.Time

open Go Effects

namespace Playground

def errNotFound : Error :=
  .sentinel "playground" "provider not found"

def sourceExternal : Str :=
  str "external"

def statusReady : Str :=
  str "Ready"

structure Provider where
  id          : Str
  name        : Str
  source      : Str
  ns          : Str
  endpoint    : Str
  apiKey      : Str
  model       : Str
  description : Str
  status      : Str

structure ProviderRequest where
  name        : Str
  source      : Str
  ns          : Str
  endpoint    : Str
  apiKey      : Str
  model       : Str
  description : Str
  status      : Str

structure ProviderPatch where
  name        : Option Str
  source      : Option Str
  ns          : Option Str
  endpoint    : Option Str
  apiKey      : Option Str
  model       : Option Str
  description : Option Str
  status      : Option Str

structure Message where
  role    : Str
  content : Str

structure ChatRequest where
  providerID  : Str
  messages    : List Message
  temperature : Option Float64
  maxTokens   : Option Int

-- The body of a chat completion before it is printed as JSON.
structure ChatBody where
  model       : Str
  messages    : List Message
  stream      : Option Bool
  temperature : Option Float64
  maxTokens   : Option Int

structure HTTPRequest where
  method        : String
  url           : Str
  contentType   : Str
  accept        : Str
  authorization : Option Str
  body          : Option ChatBody

structure HTTPResponse where
  statusCode  : Nat
  contentType : Str
  body        : Str

-- The first choice of the provider, and all of them.
structure ChatResponse where
  message : Message
  raw     : List Message

structure ChatStream where
  body        : Str
  contentType : Str

-- How the service parses a URL and prints and reads the bodies that it exchanges with a provider.
structure Service where
  parseRequestURI : Str → Except Error Unit
  parse           : Str → Except Error Unit
  decodeModels    : Str → Except Error (List Str)
  decodeChoices   : Str → Except Error (List Message)

structure ModelCacheEntry where
  models  : List Str
  fetched : Time

-- What the locks of the service guard.
structure State where
  providers  : Go.Map Provider
  counter    : Nat
  modelCache : Go.Map ModelCacheEntry

-- The sections of the service under a lock, and the requests that it sends.
inductive Op
  | create (req : ProviderRequest)
  | patch (id : Str) (patch : ProviderPatch)
  | delete (id : Str)
  | provider (id : Str)
  | cachedModels (id : Str)
  | cacheModels (id : Str) (models : List Str)
  | send (req : HTTPRequest)

abbrev ops : Signature where
  Op := Op
  Res
    | .create _        => Provider
    | .patch _ _       => Except Error Provider
    | .delete _        => Except Error Unit
    | .provider _      => Option Provider
    | .cachedModels _  => Option (List Str)
    | .cacheModels _ _ => Unit
    | .send _          => Except Error HTTPResponse

abbrev Call :=
  Effects.Call ops Error

def perform (op : Op) : Prog ops (ops.Res op) :=
  @Prog.perform ops op

-- What an operation finds beside the state: the clock, and the answer of the provider.
structure Draw where
  now      : Time
  response : Except Error HTTPResponse

-- 5 minutes.
def modelCacheTTL : Duration :=
  300000000000

def Provider.ofRequest (req : ProviderRequest) (counter : Nat) : Provider where
  id          := str "llm-" ++ zeroPadded 6 counter
  name        := req.name
  source      := req.source
  ns          := req.ns
  endpoint    := req.endpoint.trimRight 47
  apiKey      := req.apiKey
  model       := req.model
  description := req.description
  status      := req.status

namespace Service

variable (s : Service)

def applyPatch (p : Provider) (patch : ProviderPatch) : Except Error Provider := do
  let endpoint ←
    match patch.endpoint with
    | none          => pure p.endpoint
    | some endpoint =>
      match s.parseRequestURI endpoint with
      | .error err => throw (.wrap "invalid endpoint" err)
      | .ok ()     => pure (endpoint.trimRight 47)
  return {
    id          := p.id
    name        := patch.name.getD p.name
    source      := patch.source.getD p.source
    ns          := patch.ns.getD p.ns
    endpoint    := endpoint
    apiKey      := patch.apiKey.getD p.apiKey
    model       := patch.model.getD p.model
    description := patch.description.getD p.description
    status      := patch.status.getD p.status
  }

def answer (op : ops.Op) (d : Draw) (st : State) : ops.Res op × State :=
  match op with
  | .create req             =>
    let p := Provider.ofRequest req (st.counter + 1)
    (p, { st with counter := st.counter + 1, providers := st.providers.insert p.id p })
  | .patch id patch         =>
    match st.providers.lookup id with
    | none   => (.error errNotFound, st)
    | some p =>
      match s.applyPatch p patch with
      | .error err => (.error err, st)
      | .ok p      =>
        (.ok p, { st with
          providers  := st.providers.insert id p
          modelCache := st.modelCache.erase id })
  | .delete id              =>
    match st.providers.lookup id with
    | none   => (.error errNotFound, st)
    | some _ =>
      (.ok (), { st with
        providers  := st.providers.erase id
        modelCache := st.modelCache.erase id })
  | .provider id            => (st.providers.lookup id, st)
  | .cachedModels id        =>
    match st.modelCache.lookup id with
    | none       => (none, st)
    | some entry => (if d.now.sub entry.fetched < modelCacheTTL then some entry.models else none, st)
  | .cacheModels id models  =>
    ((), { st with modelCache := st.modelCache.insert id ⟨models, d.now⟩ })
  | .send _                 => (d.response, st)

def redactProvider (p : Provider) : Provider :=
  { p with apiKey := [] }

def createProvider (req : ProviderRequest) : Call Provider :=
  if req.name = [] ∨ req.endpoint = [] ∨ req.model = [] then
    throw (.new "name, endpoint and model are required")
  else
    let req := if req.source = [] then { req with source := sourceExternal } else req
    let req := if req.status = [] then { req with status := statusReady } else req
    match s.parseRequestURI req.endpoint with
    | .error err => throw (.wrap "invalid endpoint" err)
    | .ok ()     => do
      let p ← ExceptT.lift (perform (.create req))
      return redactProvider p

def patchProvider (id : Str) (patch : ProviderPatch) : Call Provider := do
  let p ← (perform (.patch id patch) : Call Provider)
  return redactProvider p

def deleteProvider (id : Str) : Call Unit :=
  perform (.delete id)

def providerForChat (id : Str) : Call Provider :=
  if id = [] then
    throw (.new "providerId is required")
  else do
    let found ← ExceptT.lift (perform (.provider id))
    match found with
    | none   => throw errNotFound
    | some p =>
      if p.status ≠ [] ∧ p.status ≠ statusReady then
        throw (.errorf "provider %q is not ready" [p.name])
      else
        return p

def bearer (provider : Provider) : Option Str :=
  if provider.apiKey ≠ [] then some (str "Bearer " ++ provider.apiKey) else none

def isSuccess (res : HTTPResponse) : Bool :=
  200 ≤ res.statusCode && res.statusCode < 300

def fetchUpstreamModels (provider : Provider) : Call (List Str) := do
  let url := provider.endpoint ++ str "/models"
  ExceptT.mk (pure (s.parse url))
  let res ← (perform (.send {
    method        := "GET"
    url           := url
    contentType   := []
    accept        := []
    authorization := bearer provider
    body          := none
  }) : Call HTTPResponse)
  if !isSuccess res then
    throw (.errorf "/v1/models: HTTP %d" [decimal res.statusCode])
  else
    let ids ← ExceptT.mk (pure (s.decodeModels res.body))
    return ids.filter (· ≠ [])

def modelsFor (provider : Provider) : Call (List Str) := do
  let cached ← ExceptT.lift (perform (.cachedModels provider.id))
  match cached with
  | some models => return models
  | none        =>
    let fetched ← ExceptT.lift (s.fetchUpstreamModels provider : Prog ops (Except Error (List Str)))
    match fetched with
    | .error _ | .ok [] => return []
    | .ok models        =>
      ExceptT.lift (perform (.cacheModels provider.id models))
      return models

def resolveModel (provider : Provider) : Call Str := do
  let models ← s.modelsFor provider
  match models with
  | []     => return provider.model
  | m :: _ => return if provider.model ∈ models then provider.model else m

def newChatHTTPRequest (provider : Provider) (model : Str) (req : ChatRequest) (stream : Bool) :
    Except Error HTTPRequest := do
  let url := provider.endpoint ++ str "/chat/completions"
  if req.messages.isEmpty then
    throw (.new "messages are required")
  else
    s.parse url
    return {
      method        := "POST"
      url           := url
      contentType   := str "application/json"
      accept        := if stream then str "text/event-stream" else []
      authorization := bearer provider
      body          := some {
        model       := if model = [] then provider.model else model
        messages    := req.messages
        stream      := if stream then some true else none
        temperature := req.temperature
        maxTokens   := req.maxTokens
      }
    }

-- What `Chat` and `StreamChat` have in common, up to the answer of the provider.
def complete (req : ChatRequest) (stream : Bool) : Call HTTPResponse := do
  let provider ← providerForChat req.providerID
  let model ← s.resolveModel provider
  let httpReq ← ExceptT.mk (pure (s.newChatHTTPRequest provider model req stream))
  let res ← (perform (.send httpReq) : Call HTTPResponse)
  if !isSuccess res then
    throw (.errorf "llm provider %s: HTTP %d" [provider.name, decimal res.statusCode])
  else
    return res

def chat (req : ChatRequest) : Call ChatResponse := do
  let res ← s.complete req false
  let choices ← ExceptT.mk (pure (s.decodeChoices res.body))
  match choices with
  | []     => throw (.new "llm provider returned no choices")
  | m :: _ => return ⟨m, choices⟩

def streamChat (req : ChatRequest) : Call ChatStream := do
  let res ← s.complete req true
  return {
    body        := res.body
    contentType := if res.contentType = [] then str "text/event-stream" else res.contentType
  }

end Service
end Playground
