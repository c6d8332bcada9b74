import Knaic.Kube.Api

open Go Effects

namespace AiStorage

open Kube

def defaultPVCViewerImage : Str :=
  str "filebrowser/filebrowser:v2.31.2"

structure PVCViewerStatus where
  pvc        : Str
  running    : Bool
  ready      : Bool
  phase      : Str
  deployment : Str
  service    : Str
  startedAt  : Str
  viewerPath : Str

structure PVCViewerOptions where
  image : Str

-- The service with the options that the handlers pass to it, and how it prints a time.
structure Service where
  opts    : PVCViewerOptions
  rfc3339 : Time → Str

def PVCViewerOptions.imageOrDefault (o : PVCViewerOptions) : Str :=
  if o.image ≠ [] then o.image else defaultPVCViewerImage

def labelManaged : Str :=
  str "knaic.io/managed"

def labelComponent : Str :=
  str "knaic.io/component"

def labelPVC : Str :=
  str "knaic.io/aistorage-pvc"

def componentValue : Str :=
  str "aistorage"

def viewerName (pvc : Str) : Str :=
  str "pvcv-" ++ pvc.take 40

theorem viewerName_inj (p q : Str) : viewerName p = viewerName q ↔ p.take 40 = q.take 40 :=
  List.append_right_inj _

def viewerPath (ns pvc : Str) : Str :=
  str "/api/v1/namespaces/" ++ ns ++ str "/aistorage/pvc/" ++ pvc ++ str "/viewer"

def viewerLabels (pvc : Str) : Go.Map Str :=
  .ofList [
    (labelManaged, str "true"),
    (labelComponent, componentValue),
    (labelPVC, pvc),
    (str "app", viewerName pvc)
  ]

theorem viewerLabels_app (pvc : Str) :
    (viewerLabels pvc).lookup (str "app") = some (viewerName pvc) :=
  rfl

theorem viewerLabels_pvc (pvc : Str) : (viewerLabels pvc).lookup labelPVC = some pvc :=
  rfl

def viewerMeta (ns pvc : Str) : ObjectMeta where
  name              := viewerName pvc
  ns                := ns
  labels            := viewerLabels pvc
  annotations       := ∅
  creationTimestamp := Time.zero
  resourceVersion   := 0

namespace Service

variable (s : Service) (ns pvc : Str)

def viewerContainer : Container where
  name            := str "filebrowser"
  image           := s.opts.imageOrDefault
  imagePullPolicy := []
  command         := []
  args            := [
    str "--noauth",
    str "--address", str "0.0.0.0",
    str "--port", str "80",
    str "--root", str "/srv",
    str "--baseurl", viewerPath ns pvc
  ]
  env             := []
  ports           := [(str "http", 80)]
  requests        := ∅
  limits          := ∅
  volumeMounts    := [⟨str "data", str "/srv", []⟩]
  readinessPath   := some (viewerPath ns pvc ++ str "/health")

def viewerDeployment : Deployment where
  metadata := viewerMeta ns pvc
  body     := {
    replicas         := some 1
    selector         := .ofList [(str "app", viewerName pvc)]
    podLabels        := viewerLabels pvc
    podAnnotations   := ∅
    imagePullSecrets := []
    containers       := [s.viewerContainer ns pvc]
    volumes          := [⟨str "data", pvc⟩]
    readyReplicas    := 0
    conditions       := []
  }

def viewerService : Kube.Service where
  metadata := viewerMeta ns pvc
  body     := {
    selector := .ofList [(str "app", viewerName pvc)]
    ports    := [⟨str "http", 80, 80⟩]
  }

-- The status of the last condition of the type.
def lastStatus (type : Str) (conditions : List (Str × Str)) : Str :=
  conditions.foldl (fun phase c => if c.1 = type then c.2 else phase) []

def viewerStatus : Call PVCViewerStatus := do
  let out : PVCViewerStatus := {
    pvc
    running    := false
    ready      := false
    phase      := []
    deployment := viewerName pvc
    service    := viewerName pvc
    startedAt  := []
    viewerPath := viewerPath ns pvc ++ str "/"
  }
  let found ← attempt (get .deployment (ns, viewerName pvc))
  match found with
  | .error err => if errNotFound.is err then return out else throw err
  | .ok dp     =>
    return { out with
      running   := true
      ready     := decide (dp.body.readyReplicas > 0)
      startedAt :=
        if dp.metadata.creationTimestamp.isZero then []
        else s.rfc3339 dp.metadata.creationTimestamp
      phase     := lastStatus (str "Available") dp.body.conditions
    }

def startViewer : Call PVCViewerStatus := do
  let _ ← get .pvc (ns, pvc)
  tolerate errAlreadyExists (create .deployment (s.viewerDeployment ns pvc))
  tolerate errAlreadyExists (create .service (viewerService ns pvc))
  s.viewerStatus ns pvc

def stopViewer : Call Unit := do
  tolerate errNotFound (delete .deployment (ns, viewerName pvc))
  tolerate errNotFound (delete .service (ns, viewerName pvc))

def deletePVC : Call Unit := do
  let _ ← attempt (stopViewer ns pvc)
  delete .pvc (ns, pvc)

-- The proxy up to the connection to its target.
def viewerReverseProxy : Call Unit := do
  let _ ← dial (ns, viewerName pvc)

end Service
end AiStorage
