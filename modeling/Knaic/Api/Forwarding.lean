import Knaic.AgentWorkspace.Service
import Knaic.AiStorage.Viewer
import Knaic.Api.Proxy
import Knaic.Auth.Verifier

open Go Go.Http

namespace Api

open Auth

structure Secret where
  labels      : Go.Map Str
  annotations : Go.Map Str
  data        : Go.Map Str

-- What the proxies find outside: the RealIP middleware of chi, which looks at three headers,
-- `url.Parse`, the secrets of the cluster and which user's client may read them, and what `Get` says
-- about the workspace of an owner.
structure Platform where
  verifier  : Verifier
  realIP    : Str → Str → Str → Option Str
  parseURL  : Str → Except Error Target
  secrets   : Str → Str → Option Secret
  mayRead   : User → Str → Except Error Unit
  workspace : Str → Except Error Unit
  ns        : Str

def errNotFound : Error :=
  .sentinel "api" "not found"

section GitLab

def labelKind : Str :=
  str "knaic.io/aistorage-kind"

def annGitLabURL : Str :=
  str "knaic.io/aistorage-gitlab-url"

def isOurs (labels : Go.Map Str) (kind : Str) : Bool :=
  (labels.lookup AiStorage.labelComponent).getD [] == AiStorage.componentValue &&
  (labels.lookup labelKind).getD [] == kind

def Secret.token (sec : Secret) : Str :=
  (sec.data.lookup (str "GITLAB_TOKEN")).getD []

-- The address of the GitLab of a secret, and its token.
def gitLabUpstream (sec : Secret) : Except Error (Str × Str) :=
  if !isOurs sec.labels (str "gitlab") then
    .error (.new "not an AI-Storage GitLab secret")
  else
    let base := (sec.annotations.lookup annGitLabURL).getD []
    if base = [] then .error (.new "gitlab url not configured on secret")
    else if sec.token = [] then .error (.new "gitlab token missing")
    else .ok (base.trimRight Url.slash, sec.token)

-- What the director takes away from the caller.
def stripped : List Str :=
  [str "Authorization", str "PRIVATE-TOKEN", str "Cookie", str "X-Forwarded-For",
    str "X-Forwarded-Host", str "X-Forwarded-Proto"]

def gitlabHeader (token : Str) (h : Header) : Header :=
  ((h.delAll stripped).set (str "PRIVATE-TOKEN") token).set (str "User-Agent")
    (str "knaic-gitlab-proxy/1")

def gitlabDirector (target : Target) (token rest rawQuery : Str) (req : Message) : Message :=
  let req := singleHostDirector target req
  { req with
    url      := { path := str "/api/" ++ rest }
    rawQuery := rawQuery
    host     := target.host
    header   := gitlabHeader token req.header }

end GitLab

namespace Platform

variable (p : Platform)

-- The request as the routes see it.
def received (r : Request) : Request :=
  { r with
    remoteAddr := (p.realIP (r.header.get (str "True-Client-IP")) (r.header.get (str "X-Real-IP"))
      (r.header.get (str "X-Forwarded-For"))).getD r.remoteAddr }

def getSecret (u : User) (ns name : Str) : Except Error Secret := do
  p.mayRead u ns
  match p.secrets ns name with
  | none     => .error errNotFound
  | some sec => .ok sec

-- The three handlers, each with what chi has taken from the path, up to the request that is sent.
-- Nothing is sent where the handler answers by itself.

def gitlabAPIProxy (u : User) (ns name rest : Str) (r : Request) : Option Message := do
  let sec ← (p.getSecret u ns name).toOption
  let (base, token) ← (gitLabUpstream sec).toOption
  let target ← (p.parseURL base).toOption
  serveHTTP (gitlabDirector target token rest r.rawQuery) r

def viewerTarget (ns pvc : Str) : Target where
  scheme   := str "http"
  host     := AiStorage.viewerName pvc ++ str "." ++ ns ++ str ".svc.cluster.local:80"
  url      := { path := [] }
  rawQuery := []

def pvcViewerProxy (ns pvc rest : Str) (r : Request) : Option Message :=
  let target := viewerTarget ns pvc
  let r2 := { r with
    url    := { r.url with path := Url.slash :: rest }
    header := r.header.set (str "X-Forwarded-Prefix") (AiStorage.viewerPath ns pvc) }
  serveHTTP (fun req => { singleHostDirector target req with host := target.host }) r2

def serviceDNS (ownerID : Str) : Str :=
  str "http://" ++ AgentWorkspace.workspaceName ownerID ++ str "." ++ p.ns ++
    str ".svc.cluster.local"

def agentWorkspaceProxy (u : User) (rest : Str) (r : Request) : Option Message :=
  let ownerID := AgentWorkspace.ownerIDFromUser u
  if ownerID = [] then
    none
  else do
    let _ ← (p.workspace ownerID).toOption
    let target ← (p.parseURL (p.serviceDNS ownerID)).toOption
    let r := { r with
      url    := { path := Url.slash :: rest.trimPrefix [Url.slash] }
      header := r.header.del (str "Accept-Encoding") }
    serveHTTP (singleHostDirector target) r

-- A request from its arrival at the router on, if it is for that proxy.

def gitlab (r : Request) : Option Message := do
  let r := p.received r
  let u ← p.verifier.middleware r
  let m ← (Proxy.gitlabAPIProxy ⟨[], rooted_nil⟩).find (routePath r.url)
  match m.params with
  | [ns, name] => p.gitlabAPIProxy u ns name m.rest r
  | _          => none

def viewer (r : Request) : Option Message := do
  let r := p.received r
  let _ ← p.verifier.middleware r
  let m ← Proxy.pvcViewerProxy.find (routePath r.url)
  match m.params with
  | [ns, pvc] => pvcViewerProxy ns pvc m.rest r
  | _         => none

def workspaceApp (r : Request) : Option Message := do
  let r := p.received r
  let u ← p.verifier.middleware r
  let m ← Proxy.agentWorkspaceProxy.find (routePath r.url)
  p.agentWorkspaceProxy u m.rest r

end Platform
end Api
