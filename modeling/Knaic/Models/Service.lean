import Knaic.Hub.Ops

open Go Effects

namespace Models

open Auth Hub

def errForbidden : Error :=
  .sentinel "models" "forbidden"

def parseScheme (uri : Str) : Except Error Scheme :=
  if uri.hasPrefix (str "hf://") || uri.hasPrefix (str "hf-mirror://") ||
     uri.hasPrefix (str "hf-local://") then
    .ok .hf
  else if uri.hasPrefix (str "modelscope://") then
    .ok .modelScope
  else if uri.hasPrefix (str "s3://") then
    .ok .s3
  else if uri.hasPrefix (str "oci://") then
    .ok .oci
  else if uri.hasPrefix (str "gitlab://") then
    .ok .gitLab
  else if uri.hasPrefix (str "pvc://") then
    .ok .pvc
  else if uri.hasPrefix (str "git://") then
    .ok .git
  else
    .error (.new <| "unsupported URI scheme; use hf:// hf-mirror:// hf-local:// modelscope:// " ++
      "s3:// oci:// gitlab:// pvc:// or git://")

def publicSourceURL (uri : Str) : Str :=
  if uri.hasPrefix (str "hf://") then
    str "https://huggingface.co/" ++ uri.trimPrefix (str "hf://")
  else if uri.hasPrefix (str "hf-mirror://") then
    str "https://hf-mirror.com/" ++ uri.trimPrefix (str "hf-mirror://")
  else if uri.hasPrefix (str "modelscope://") then
    str "https://www.modelscope.cn/models/" ++ uri.trimPrefix (str "modelscope://")
  else
    []

def isPublicSource (uri : Str) : Bool :=
  uri.hasPrefix (str "hf://") || uri.hasPrefix (str "hf-mirror://") ||
  uri.hasPrefix (str "modelscope://") || uri.hasPrefix (str "http://") ||
  uri.hasPrefix (str "https://")

structure CreateRequest where
  name          : Str
  owner         : Str
  scope         : Scope
  ns            : Str
  uri           : Str
  tags          : Option (List Str)
  modelType     : Str
  sizeGB        : Float64
  readme        : Str
  collectionID  : Str
  parentModelID : Str
  derivedKind   : Str
  sourceURL     : Str

structure ImportRequest where
  url   : Str
  scope : Scope
  ns    : Str

structure UploadRequest where
  name      : Str
  scope     : Scope
  ns        : Str
  targetURI : Str
  modelType : Str
  sizeGB    : Float64
  tags      : Option (List Str)
  readme    : Str

structure PatchRequest where
  readme        : Option Str
  tags          : List Str
  incDownloads  : Option Int64
  collectionID  : Option Str
  parentModelID : Option Str
  derivedKind   : Option Str
  sourceURL     : Option Str

structure PublishSnapshot where
  id        : Str
  name      : Str
  owner     : Str
  ns        : Str
  uri       : Str
  modelType : Str
  sizeGB    : Float64
  tags      : List Str
  readme    : Str
  sourceURL : Str

structure PublishCopy where
  name         : Str
  owner        : Str
  uri          : Str
  tags         : List Str
  modelType    : Str
  sizeGB       : Float64
  readme       : Str
  collectionID : Str
  sourceURL    : Str

-- `authorizer` says whether the service was given one.
def gateWrite (authorizer : Bool) (u : Option User) (scope : Scope) (ns : Str) : Call Unit :=
  match u with
  | none   => throw errForbidden
  | some u =>
    if u.isPlatformAdmin then
      pure ()
    else
      match scope with
      | .scopePublic  => throw errForbidden
      | .scopePrivate =>
        if ns = [] then
          throw (.new "namespace required for private scope")
        else if !authorizer then
          throw errForbidden
        else do
          let allowed ← canWritePrivateModel u ns
          if !allowed then throw errForbidden else pure ()
      | .unknown s _  => throw (.errorf "unknown scope %q" [s])

def namespaceFor (scope : Scope) (ns : Str) : Str :=
  if scope = .scopePrivate then ns else []

-- The model that `Create` makes of a request.
def createdModel (u : Option User) (req : CreateRequest) (scheme : Scheme) (now : Time) (id : Str) :
    Model where
  id            := id
  name          := req.name
  owner         := if req.owner = [] then (u.map (·.name)).getD [] else req.owner
  scope         := req.scope
  ns            := namespaceFor req.scope req.ns
  uri           := req.uri
  scheme        := scheme
  tags          := req.tags
  modelType     := if req.modelType = [] then str "llm" else req.modelType
  sizeGB        := req.sizeGB
  downloads     := 0
  createdAt     := now
  updatedAt     := now
  readme        :=
    if req.readme = [] then
      str "# " ++ req.name ++ str "\n\n_Registered via knaic._"
    else
      req.readme
  collectionID  := req.collectionID
  parentModelID := req.parentModelID
  derivedKind   := req.derivedKind
  sourceURL     := if req.sourceURL = [] then publicSourceURL req.uri else req.sourceURL

def create (authorizer : Bool) (u : Option User) (req : CreateRequest) : Call Model :=
  if req.name = [] ∨ req.uri = [] then
    throw (.new "name and uri are required")
  else
    match parseScheme req.uri with
    | .error e   => throw e
    | .ok scheme => do
      gateWrite authorizer u req.scope req.ns
      let now ← Hub.now
      let id ← newID (str "m")
      modelCreate (createdModel u req scheme now id)

-- `parse` is `url.Parse`, of whose result only the host in lower case and the path are used.
def normaliseImportURL (parse : Str → Except Error (Str × Str)) (raw : Str) :
    Except Error (Str × Str) :=
  match parse raw with
  | .error e         => .error (.wrap "invalid url" e)
  | .ok (host, path) =>
    let path := path.trim 0x2f
    if host.hasSuffix (str "huggingface.co") then
      if path = [] then
        .error (.new "URL must include the model owner/name path")
      else
        .ok (str "hf://" ++ path, path)
    else if host.hasSuffix (str "modelscope.cn") then
      let path := path.trimPrefix (str "models/")
      if path = [] then
        .error (.new "URL must include the model owner/name path")
      else
        .ok (str "modelscope://" ++ path, path)
    else
      .error (.new "URL must be from huggingface.co or modelscope.cn")

-- The model that `Import` makes of a request. The owner is what stands before the first slash of the
-- name, if there is one.
def importedModel (u : Option User) (req : ImportRequest) (uri name : Str) (scheme : Scheme)
    (now : Time) (id : Str) : Model where
  id            := id
  name          := name
  owner         :=
    if 0x2f ∈ name then name.takeWhile (· ≠ 0x2f) else (u.map (·.name)).getD []
  scope         := req.scope
  ns            := namespaceFor req.scope req.ns
  uri           := uri
  scheme        := scheme
  tags          := some [str "imported"]
  modelType     := str "llm"
  sizeGB        := 0
  downloads     := 0
  createdAt     := now
  updatedAt     := now
  readme        := str "# " ++ name ++ str "\n\nImported from " ++ req.url ++ str "."
  collectionID  := []
  parentModelID := []
  derivedKind   := []
  sourceURL     := publicSourceURL uri

def importModel (authorizer : Bool) (parse : Str → Except Error (Str × Str)) (u : Option User)
    (req : ImportRequest) : Call Model :=
  match normaliseImportURL parse req.url with
  | .error e        => throw e
  | .ok (uri, name) => do
    gateWrite authorizer u req.scope req.ns
    -- An error of `ParseScheme` is dropped.
    let scheme := (parseScheme uri).toOption.getD (.unknown [] unknown_nil)
    let now ← Hub.now
    let id ← newID (str "m")
    modelCreate (importedModel u req uri name scheme now id)

-- The model that `Upload` makes of a request.
def uploadedModel (u : Option User) (req : UploadRequest) (scheme : Scheme) (now : Time) (id : Str) :
    Model where
  id            := id
  name          := req.name
  owner         := (u.map (·.name)).getD []
  scope         := req.scope
  ns            := namespaceFor req.scope req.ns
  uri           := req.targetURI
  scheme        := scheme
  tags          :=
    let tags := req.tags.getD []
    some <| if str "uploaded" ∈ tags then tags else tags ++ [str "uploaded"]
  modelType     := if req.modelType = [] then str "llm" else req.modelType
  sizeGB        := req.sizeGB
  downloads     := 0
  createdAt     := now
  updatedAt     := now
  readme        :=
    if req.readme = [] then
      str "# " ++ req.name ++ str "\n\nUploaded to " ++ req.targetURI ++ str "."
    else
      req.readme
  collectionID  := []
  parentModelID := []
  derivedKind   := []
  sourceURL     := publicSourceURL req.targetURI

def upload (authorizer : Bool) (u : Option User) (req : UploadRequest) : Call Model :=
  if req.name = [] ∨ req.targetURI = [] then
    throw (.new "name and targetUri are required")
  else
    match parseScheme req.targetURI with
    | .error e   => throw e
    | .ok scheme => do
      gateWrite authorizer u req.scope req.ns
      let now ← Hub.now
      let id ← newID (str "m")
      modelCreate (uploadedModel u req scheme now id)

-- Whether a patch changes more than the counter of downloads.
def PatchRequest.mutateScope (req : PatchRequest) : Bool :=
  req.readme.isSome || !req.tags.isEmpty || req.collectionID.isSome || req.parentModelID.isSome ||
  req.derivedKind.isSome || req.sourceURL.isSome

def PatchRequest.on (req : PatchRequest) (m : Model) : Model :=
  { m with
    readme        := req.readme.getD m.readme
    tags          := if req.tags.isEmpty then m.tags else some req.tags
    downloads     := (req.incDownloads.map (m.downloads + ·)).getD m.downloads
    collectionID  := req.collectionID.getD m.collectionID
    parentModelID := req.parentModelID.getD m.parentModelID
    derivedKind   := req.derivedKind.getD m.derivedKind
    sourceURL     := req.sourceURL.getD m.sourceURL }

-- Reads the model, and passes the gate of its scope when there is need to.
def gated (authorizer : Bool) (u : Option User) (id : Str) (need : Bool) : Call Unit := do
  let current ← modelGet id
  if need then gateWrite authorizer u current.scope current.ns else pure ()

def patch (authorizer : Bool) (u : Option User) (id : Str) (req : PatchRequest) :
    EditCall Model := do
  (gated authorizer u id req.mutateScope).lift
  modelUpdate id fun m => .ok (req.on m)

def delete (authorizer : Bool) (u : Option User) (id : Str) : EditCall Unit := do
  (gated authorizer u id true).lift
  modelDelete id

def getPrivateForPublish (authorizer : Bool) (u : Option User) (id : Str) :
    Call PublishSnapshot := do
  let m ← modelGet id
  if m.scope ≠ .scopePrivate then
    throw (.new "only private models can be published")
  else
    gateWrite authorizer u m.scope m.ns
    pure {
      id        := m.id
      name      := m.name
      owner     := m.owner
      ns        := m.ns
      uri       := m.uri
      modelType := m.modelType
      sizeGB    := m.sizeGB
      tags      := m.tags.getD []
      readme    := m.readme
      sourceURL := m.sourceURL
    }

-- The public model that `CreatePublicFromRequest` makes of a request.
def publicModel (req : PublishCopy) (scheme : Scheme) (now : Time) (id : Str) : Model where
  id            := id
  name          := req.name
  owner         := req.owner
  scope         := .scopePublic
  ns            := []
  uri           := req.uri
  scheme        := scheme
  tags          :=
    some <| if str "published" ∈ req.tags then req.tags else req.tags ++ [str "published"]
  modelType     := if req.modelType = [] then str "llm" else req.modelType
  sizeGB        := req.sizeGB
  downloads     := 0
  createdAt     := now
  updatedAt     := now
  readme        :=
    if req.readme = [] then
      str "# " ++ req.name ++ str "\n\n_Published from a private model via knaic._"
    else
      req.readme
  collectionID  := req.collectionID
  parentModelID := []
  derivedKind   := []
  sourceURL     := if req.sourceURL = [] then publicSourceURL req.uri else req.sourceURL

def createPublicFromRequest (u : Option User) (req : PublishCopy) : Call Str :=
  if !(u.any (·.isPlatformAdmin)) then
    throw errForbidden
  else
    match parseScheme req.uri with
    | .error e   => throw e
    | .ok scheme =>
      if !isPublicSource req.uri then
        throw (.new "URI must be publicly accessible to publish to catalog")
      else do
        let now ← Hub.now
        let id ← newID (str "m")
        let created ← modelCreate (publicModel req scheme now id)
        pure created.id

end Models
