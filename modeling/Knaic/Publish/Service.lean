import Knaic.Models.Service

open Go Effects

namespace Publish

open Auth Hub

def errForbidden : Error :=
  .sentinel "publish" "forbidden"

structure CreateRequest where
  privateModelID     : Str
  targetName         : Str
  targetCollectionID : Str
  note               : Str

structure ReviewRequest where
  reviewerNote : Str

def isPublicURI (uri : Str) : Bool :=
  uri.hasPrefix (str "hf://") || uri.hasPrefix (str "hf-mirror://") ||
  uri.hasPrefix (str "modelscope://") || uri.hasPrefix (str "http://") ||
  uri.hasPrefix (str "https://")

def canWriteNamespace (authorizer : Bool) (u : User) (ns : Str) : Call Bool :=
  if u.isPlatformAdmin then
    pure true
  else if !authorizer then
    pure false
  else
    canWritePrivateModel u ns

def create (authorizer : Bool) (u : Option User) (req : CreateRequest) : Call Request :=
  match u with
  | none   => throw errForbidden
  | some u =>
    if req.privateModelID = [] then
      throw (.new "privateModelId is required")
    else if req.targetName = [] then
      throw (.new "targetName is required")
    else do
      let snap ← Models.getPrivateForPublish authorizer u req.privateModelID
      if !isPublicURI snap.uri then
        throw (.errorf ("model URI %q is not publicly accessible; only hf:// hf-mirror:// " ++
          "modelscope:// or http(s):// models may be published") [snap.uri])
      else if snap.ns = [] then
        throw (.new "only namespace-scoped (private) models may be published")
      else
        let ok ← canWriteNamespace authorizer u snap.ns
        if !ok then
          throw errForbidden
        else
          let id ← newID (str "pub")
          requestCreate {
            id                 := id
            privateModelID     := snap.id
            privateNamespace   := snap.ns
            privateName        := snap.name
            privateURI         := snap.uri
            targetName         := req.targetName
            targetCollectionID := req.targetCollectionID
            requestedBy        := u.name
            note               := req.note
            status             := .pending
            reviewedBy         := []
            reviewerNote       := []
            catalogModelID     := []
            createdAt          := Time.zero
            updatedAt          := Time.zero
          }

-- The mutations that `Approve` and `Reject` hand to the store. Neither looks at the request that it
-- is applied to.
def approved (u : User) (body : ReviewRequest) (publicID : Str) (r : Request) :
    Except Error Request :=
  .ok { r with
    status         := .approved
    reviewedBy     := u.name
    reviewerNote   := body.reviewerNote
    catalogModelID := publicID }

def rejected (u : User) (body : ReviewRequest) (r : Request) : Except Error Request :=
  .ok { r with
    status       := .rejected
    reviewedBy   := u.name
    reviewerNote := body.reviewerNote }

def publishCopy (current : Request) (snap : Models.PublishSnapshot) : Models.PublishCopy where
  name         := current.targetName
  owner        := snap.owner
  uri          := snap.uri
  tags         := snap.tags
  modelType    := snap.modelType
  sizeGB       := snap.sizeGB
  readme       := snap.readme
  collectionID := current.targetCollectionID
  sourceURL    := snap.sourceURL

def approve (authorizer : Bool) (u : Option User) (id : Str) (body : ReviewRequest) :
    Call Request :=
  match u with
  | none   => throw errForbidden
  | some u =>
    if !u.isPlatformAdmin then
      throw errForbidden
    else do
      let current ← requestGet id
      if current.status ≠ .pending then
        throw (.errorf "request is %s; only pending requests can be approved"
          [current.status.text])
      else
        let snap ← Models.getPrivateForPublish authorizer u current.privateModelID
          |>.mapError (.wrap "fetch private model")
        let publicID ← Models.createPublicFromRequest u (publishCopy current snap)
          |>.mapError (.wrap "create public model")
        requestUpdate id (approved u body publicID)

def reject (u : Option User) (id : Str) (body : ReviewRequest) : Call Request :=
  match u with
  | none   => throw errForbidden
  | some u =>
    if !u.isPlatformAdmin then
      throw errForbidden
    else do
      let current ← requestGet id
      if current.status ≠ .pending then
        throw (.errorf "request is %s; only pending requests can be rejected"
          [current.status.text])
      else
        requestUpdate id (rejected u body)

def delete (u : Option User) (id : Str) : Call Unit :=
  match u with
  | none   => throw errForbidden
  | some u => do
    let current ← requestGet id
    if !u.isPlatformAdmin && (current.requestedBy ≠ u.name || current.status ≠ .pending) then
      throw errForbidden
    else
      requestDelete id

end Publish
