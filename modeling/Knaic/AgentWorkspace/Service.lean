import Knaic.AgentWorkspace.Name
import Knaic.Auth.User
import Knaic.Kube.Api

open Go Effects

namespace AgentWorkspace

open Auth Kube

structure Options where
  ns               : Str
  image            : Str
  storage          : Str
  cpuRequest       : Str
  cpuLimit         : Str
  memoryRequest    : Str
  memoryLimit      : Str
  imagePullSecrets : List Str
  storageClass     : Str

def normalize (opts : Options) : Options where
  ns               := if opts.ns = [] then str "knaic-system" else opts.ns
  image            := if opts.image = [] then str "ghcr.io/knaic/codex-web:latest" else opts.image
  storage          := if opts.storage = [] then str "40Gi" else opts.storage
  cpuRequest       := if opts.cpuRequest = [] then str "500m" else opts.cpuRequest
  cpuLimit         := if opts.cpuLimit = [] then str "2" else opts.cpuLimit
  memoryRequest    := if opts.memoryRequest = [] then str "1Gi" else opts.memoryRequest
  memoryLimit      := if opts.memoryLimit = [] then str "4Gi" else opts.memoryLimit
  imagePullSecrets := opts.imagePullSecrets
  storageClass     := opts.storageClass

-- The service with its options, and the parser of quantities that it is linked with.
structure Service where
  opts          : Options
  parseQuantity : Str → Except Error Quantity

structure Workspace where
  name      : Str
  ns        : Str
  ownerID   : Str
  status    : Str
  image     : Str
  storage   : Str
  route     : Str
  createdAt : Time

structure ResourceSpec where
  cpuRequest    : Str
  cpuLimit      : Str
  memoryRequest : Str
  memoryLimit   : Str
  storage       : Str

-- The error of a call that panics.
def panicked : Error :=
  .sentinel "runtime" "panic"

def defaultString (value fallback : Str) : Str :=
  if value = [] then fallback else value

def statusFromDeployment (deploy : Deployment) : Str :=
  let desired := deploy.body.replicas.getD 0
  if desired = 0 then str "Stopped"
  else if deploy.body.readyReplicas ≥ desired then str "Running"
  else str "Starting"

def pvcName (name : Str) : Str :=
  name ++ str "-home"

def annotationOwnerID : Str :=
  str "knaic.io/owner-id"

def labels (name ownerID : Str) : Go.Map Str :=
  .ofList [
    (str "app.kubernetes.io/name", name),
    (str "app.kubernetes.io/part-of", str "knaic"),
    (str "knaic.io/managed", str "true"),
    (str "knaic.io/component", str "agent-workspace"),
    (str "knaic.io/owner", ownerLabelValue ownerID)
  ]

namespace Service

variable (s : Service)

def objectMeta (name ownerID : Str) : ObjectMeta where
  name              := name
  ns                := s.opts.ns
  labels            := labels name ownerID
  annotations       := .ofList [(annotationOwnerID, ownerID)]
  creationTimestamp := Time.zero
  resourceVersion   := 0

def workspaceFromDeployment (deploy : Deployment) (ownerID : Str) : Call Workspace := do
  let name := deploy.metadata.name
  let pvc ← attempt (get .pvc (deploy.metadata.ns, pvcName name))
  return {
    name      := name
    ns        := deploy.metadata.ns
    ownerID   := defaultString ((deploy.metadata.annotations.lookup annotationOwnerID).getD []) ownerID
    status    := statusFromDeployment deploy
    image     := match deploy.body.containers with
      | []     => []
      | c :: _ => c.image
    storage   := match pvc with
      | .error _ => []
      | .ok pvc  => ((pvc.body.requests.lookup (str "storage")).map Quantity.text).getD []
    route     := str "/api/v1/me/workspace/proxy/"
    createdAt := deploy.metadata.creationTimestamp
  }

def get (ownerID : Str) : Call Workspace := do
  let deploy ← Kube.get .deployment (s.opts.ns, workspaceName ownerID)
  workspaceFromDeployment deploy ownerID

def ensurePVC (ownerID : Str) : Call Unit := do
  let name := pvcName (workspaceName ownerID)
  let found ← attempt (Kube.get .pvc (s.opts.ns, name))
  match found with
  | .ok _      => return
  | .error err =>
    if !errNotFound.is err then
      throw err
    else
      match s.parseQuantity s.opts.storage with
      | .error err => throw err
      | .ok qty    =>
        let created ← attempt <| create .pvc {
          metadata := s.objectMeta name ownerID
          body     := {
            accessModes      := [str "ReadWriteOnce"]
            requests         := .ofList [(str "storage", qty)]
            storageClassName := if s.opts.storageClass = [] then none else some s.opts.storageClass
          }
        }
        match created with
        | .ok _      => return
        | .error err => if errAlreadyExists.is err then return else throw err

def ensureService (ownerID : Str) : Call Unit := do
  let name := workspaceName ownerID
  let created ← attempt <| create .service {
    metadata := s.objectMeta name ownerID
    body     := {
      selector := .ofList [(str "app.kubernetes.io/name", name)]
      ports    := [{ name := str "http", port := 80, targetPort := 8080 }]
    }
  }
  match created with
  | .ok _      => return
  | .error err => if errAlreadyExists.is err then return else throw err

def resourceList (cpu memory : Str) : Except Error (Go.Map Quantity) := do
  let parse (value : Str) :=
    match s.parseQuantity value with
    | .ok q    => .ok q
    | .error _ => .error panicked
  let out := ∅
  let out ← if cpu = [] then pure out else return out.insert (str "cpu") (← parse cpu)
  if memory = [] then pure out else return out.insert (str "memory") (← parse memory)

def sharedMounts : List VolumeMount :=
  [
    { name := str "home", mountPath := str "/workspace", subPath := [] },
    { name := str "home", mountPath := str "/codex-home", subPath := str ".codex-home" }
  ]

def containerEnv : List EnvVar :=
  [
    { name := str "PORT", value := str "8080" },
    { name := str "WORKSPACE_DIR", value := str "/workspace" },
    { name := str "CODEX_HOME", value := str "/codex-home" },
    { name := str "HOME", value := str "/codex-home" },
    { name := str "CODEX_APP_SERVER_URL", value := str "ws://127.0.0.1:7878" }
  ]

def sidecarEnv : List EnvVar :=
  [
    { name := str "CODEX_HOME", value := str "/codex-home" },
    { name := str "HOME", value := str "/codex-home" },
    { name := str "RUST_LOG", value := str "info" },
    { name := str "OPENAI_API_KEY", value := str "placeholder" }
  ]

def deployment (ownerID : Str) (requests limits : Go.Map Quantity) : Deployment :=
  let name := workspaceName ownerID
  {
    metadata := s.objectMeta name ownerID
    body     := {
      replicas         := some 1
      selector         := .ofList [(str "app.kubernetes.io/name", name)]
      podLabels        := labels name ownerID
      podAnnotations   := ∅
      imagePullSecrets := s.opts.imagePullSecrets.filter (· ≠ [])
      containers       := [
        {
          name            := str "workspace"
          image           := s.opts.image
          imagePullPolicy := str "Always"
          command         := []
          args            := []
          env             := containerEnv
          ports           := [(str "http", 8080)]
          requests        := requests
          limits          := limits
          volumeMounts    := sharedMounts
          readinessPath   := none
        },
        {
          name            := str "codex-server"
          image           := s.opts.image
          imagePullPolicy := str "Always"
          command         := [str "codex"]
          args            := [str "app-server", str "--listen", str "ws://127.0.0.1:7878"]
          env             := sidecarEnv
          ports           := []
          requests        := ∅
          limits          := ∅
          volumeMounts    := sharedMounts
          readinessPath   := none
        }
      ]
      volumes          := [{ name := str "home", claimName := pvcName name }]
      readyReplicas    := 0
      conditions       := []
    }
  }

def ensureDeployment (ownerID : Str) : Call Unit := do
  let requests ← ExceptT.mk (pure (s.resourceList s.opts.cpuRequest s.opts.memoryRequest))
  let limits ← ExceptT.mk (pure (s.resourceList s.opts.cpuLimit s.opts.memoryLimit))
  let created ← attempt <| create .deployment (s.deployment ownerID requests limits)
  match created with
  | .ok _      => return
  | .error err => if errAlreadyExists.is err then return else throw err

def ensure (ownerID : Str) : Call Workspace := do
  let found ← attempt (s.get ownerID)
  match found with
  | .ok ws     => return ws
  | .error err =>
    if !errNotFound.is err then
      throw err
    else
      (s.ensurePVC ownerID).mapError (.wrap "pvc")
      (s.ensureService ownerID).mapError (.wrap "service")
      (s.ensureDeployment ownerID).mapError (.wrap "deployment")
      s.get ownerID

def restart (ownerID : Str) : Call Unit := do
  let now ← timestamp
  let _ ← patch .deployment (s.opts.ns, workspaceName ownerID) fun deploy =>
    { deploy with body := { deploy.body with
        podAnnotations := deploy.body.podAnnotations.insert (str "knaic.io/restartedAt") now } }

def setQuantity (list : Go.Map Quantity) (name value : Str) (field : String) :
    Except Error (Go.Map Quantity) :=
  if value = [] then
    .ok list
  else
    match s.parseQuantity value with
    | .error err => .error (.wrap field err)
    | .ok q      => .ok (list.insert name q)

-- The container with its resources changed, as `UpdateResources` does it in place.
def resized (c : Container) (spec : ResourceSpec) : Except Error Container := do
  let requests ← s.setQuantity c.requests (str "cpu") spec.cpuRequest "cpuRequest"
  let limits ← s.setQuantity c.limits (str "cpu") spec.cpuLimit "cpuLimit"
  let requests ← s.setQuantity requests (str "memory") spec.memoryRequest "memoryRequest"
  let limits ← s.setQuantity limits (str "memory") spec.memoryLimit "memoryLimit"
  return { c with requests, limits }

def resizePVC (name : Str) (storage : Str) : Call Unit :=
  if storage = [] then
    pure ()
  else
    match s.parseQuantity storage with
    | .error err => throw (.wrap "storage" err)
    | .ok q      => do
      let pvc ← (Kube.get .pvc (s.opts.ns, pvcName name)).mapError (.wrap "get pvc")
      let _ ← (update .pvc { pvc with body := { pvc.body with
        requests := pvc.body.requests.insert (str "storage") q } }).mapError (.wrap "update pvc")

def updateResources (ownerID : Str) (spec : ResourceSpec) : Call Workspace := do
  let name := workspaceName ownerID
  let deploy ← (Kube.get .deployment (s.opts.ns, name)).mapError (.wrap "get deployment")
  match deploy.body.containers with
  | []      => throw (.errorf "deployment %s has no containers" [name])
  | c :: cs =>
    match s.resized c spec with
    | .error err => throw err
    | .ok c      =>
      let _ ← (update .deployment { deploy with body := { deploy.body with
        containers := c :: cs } }).mapError (.wrap "update deployment")
      s.resizePVC name spec.storage
      s.get ownerID

-- Not finding the object counts as success.
def remove (k : Kind) (key : Key) (context : String) : Call Unit := do
  let removed ← attempt (Kube.delete k key)
  match removed with
  | .ok _      => return
  | .error err => if errNotFound.is err then return else throw (.wrap context err)

def delete (ownerID : Str) : Call Unit := do
  let name := workspaceName ownerID
  remove .deployment (s.opts.ns, name) "delete deployment"
  remove .service (s.opts.ns, name) "delete service"
  remove .pvc (s.opts.ns, pvcName name) "delete pvc"

end Service

-- The handlers.

def ownerIDFromUser (u : User) : Str :=
  if u.email ≠ [] then u.email
  else if u.subject ≠ [] then u.subject
  else u.name

def restart (s : Service) (u : User) : Call Workspace := do
  s.restart (ownerIDFromUser u)
  let ws ← s.get (ownerIDFromUser u)
  return { ws with status := str "Starting" }

def updateResources (s : Service) (u : User) (spec : ResourceSpec) : Call Workspace := do
  let ws ← s.updateResources (ownerIDFromUser u) spec
  return { ws with status := str "Starting" }

-- The proxy up to the connection to the Service whose DNS name `ServiceDNS` gives.
def proxy (s : Service) (u : User) : Call Unit := do
  let ownerID := ownerIDFromUser u
  if ownerID = [] then
    throw (.new "no caller identity")
  else
    let found ← attempt (s.get ownerID)
    match found with
    | .error err =>
      if errNotFound.is err then throw (.new "workspace not provisioned") else throw err
    | .ok _      =>
      let _ ← dial (s.opts.ns, workspaceName ownerID)

end AgentWorkspace
