import Knaic.Inference.Build
import Knaic.Kube.Dynamic
import Knaic.Kube.Unstructured

open Go Kube.Dynamic Effects
open Kube (Fields Path Value mapOf strings set_strings)

namespace Inference

def gvrInferenceService : GVR where
  group    := str "serving.kserve.io"
  version  := str "v1beta1"
  resource := str "inferenceservices"

def gvrLLMInferenceService : GVR where
  group    := str "serving.kserve.io"
  version  := str "v1alpha2"
  resource := str "llminferenceservices"

def gvrFor (kind : Str) : Except Error GVR :=
  if kind = str "InferenceService" || kind = [] then .ok gvrInferenceService
  else if kind = str "LLMInferenceService" then .ok gvrLLMInferenceService
  else .error (.errorf "unknown kind %q" [kind])

-- Any other kind has been turned down by then.
def desiredObject (ns : Str) (req : CreateServiceRequest) : Fields :=
  if req.kind = str "InferenceService" then inferenceServiceObject ns req
  else llmInferenceServiceObject ns req

-- The live object as it is sent back.
def rewriteService (ns : Str) (req : CreateServiceRequest) (cur : Fields) : Fields :=
  let desired := desiredObject ns req
  let cur := cur.setLabels (Entries.setAll cur.getLabels desired.getLabels)
  let annos := cur.getAnnotations
  let annos :=
    if req.kind = str "InferenceService" then
      if req.deploymentMode = [] then Entries.erase annos (str deploymentModeAnnotation)
      else Entries.set annos (str deploymentModeAnnotation) req.deploymentMode
    else annos
  let cur := cur.setAnnotations annos
  Entries.set cur (str "spec") ((desired.get (str "spec")).getD .null)

-- The request as the update reads it.
def updateRequest (name : Str) (req : CreateServiceRequest) : CreateServiceRequest :=
  let req := { req with kind := if req.kind = [] then str "InferenceService" else req.kind }
  { normaliseServiceRequest req with name }

def updateService (ns name : Str) (req : CreateServiceRequest) : Call Fields := do
  if name = [] then
    throw (.new "name is required")
  let req := updateRequest name req
  let gvr ← (ExceptT.mk (pure (gvrFor req.kind)) : Call GVR)
  let cur ← get ⟨gvr, ns, name⟩
  update gvr ns (rewriteService ns req cur)

def keys (l : List String) : Path :=
  l.map fun k => .key (str k)

-- What the form has of a container, in fields that it shows or sets as a whole.
def containerPaths : List Path :=
  [keys ["resources", "requests"], keys ["resources", "limits"], keys ["env"], keys ["command"],
    keys ["args"]]

-- The fields of the spec that the form shows or sets: what its builder writes, and what the
-- projection that fills it reads.
def formPaths (kind : Str) : List Path :=
  let scale := [keys ["minReplicas"], keys ["maxReplicas"], keys ["predictor", "minReplicas"],
    keys ["predictor", "maxReplicas"]]
  if kind = str "InferenceService" then
    scale ++ [keys ["predictor", "model", "modelFormat"], keys ["predictor", "model", "runtime"],
      keys ["predictor", "model", "storageUri"]] ++
    containerPaths.map (keys ["predictor", "model"] ++ ·) ++
    containerPaths.map (keys ["predictor", "containers"] ++ .index 0 :: ·)
  else
    scale ++ [keys ["replicas"], keys ["baseRefs"], keys ["model", "uri"],
      keys ["model", "storageUri"], keys ["model", "name"], keys ["runtime"],
      keys ["runtimeRef", "name"]] ++
    containerPaths.map (keys ["model"] ++ ·) ++
    (keys ["name"] :: keys ["image"] :: containerPaths).map
      (keys ["template", "containers"] ++ .index 0 :: ·)

def specAt (o : Fields) (p : Path) : Option Value :=
  (o.get (str "spec")).bind fun v => v.follow p

def managedLabels : List Str :=
  [str "knaic.io/managed", str "knaic.io/component"]

def managedAnnotations (kind : Str) : List Str :=
  if kind = str "InferenceService" then [str deploymentModeAnnotation] else []

-- What an update is to leave alone.
structure Framed (kind : Str) (before after : Fields) : Prop where
  fields      : ∀ k, k ≠ str "metadata" → k ≠ str "spec" → after.get k = before.get k
  metadata    : ∀ k, k ≠ str "labels" → k ≠ str "annotations" → k ≠ str "resourceVersion" →
                  after.nestedField [str "metadata", k] = before.nestedField [str "metadata", k]
  labels      : ∀ k, k ∉ managedLabels → after.getLabels.get k = before.getLabels.get k
  annotations : ∀ k, k ∉ managedAnnotations kind →
                  after.getAnnotations.get k = before.getAnnotations.get k
  spec        : ∀ p, Path.Outside (formPaths kind) p → specAt after p = specAt before p

theorem Framed.of_same {kind : Str} {before before' after : Fields}
    (hg : ∀ k, k ≠ str "metadata" → before'.get k = before.get k)
    (hm : ∀ k, k ≠ str "resourceVersion" →
      before'.nestedField [str "metadata", k] = before.nestedField [str "metadata", k])
    (h : Framed kind before after) : Framed kind before' after := by
  have hl : before'.getLabels = before.getLabels := by
    simp only [Fields.getLabels, Fields.nestedStringMap, Fields.nestedMap]
    rw [hm _ (by simp)]
  have ha : before'.getAnnotations = before.getAnnotations := by
    simp only [Fields.getAnnotations, Fields.nestedStringMap, Fields.nestedMap]
    rw [hm _ (by simp)]
  have hs : ∀ p, specAt before' p = specAt before p := by
    simp [specAt, hg]
  exact {
    fields k hk hs       := (h.fields k hk hs).trans (hg k hk).symm
    metadata k hl' ha' hr := (h.metadata k hl' ha' hr).trans (hm k hr).symm
    labels k hk          := hl ▸ h.labels k hk
    annotations k hk     := ha ▸ h.annotations k hk
    spec p hp            := (h.spec p hp).trans (hs p).symm
  }

section Desired

variable {ns : Str} {req : CreateServiceRequest}

theorem desired_labels : (desiredObject ns req).getLabels =
    Entries.set (Entries.set [] (str "knaic.io/managed") (str "true"))
      (str "knaic.io/component") (str "inference") := by
  have hl : (desiredObject ns req).nestedMap [str "metadata", str "labels"] =
      some (strings (Entries.set (Entries.set [] (str "knaic.io/managed") (str "true"))
        (str "knaic.io/component") (str "inference"))) := by
    rw [← set_strings, ← set_strings]
    simp only [desiredObject]
    split
    case isTrue  =>
      simp [Fields.nestedMap, inferenceServiceObject, mapOf, Entries.get_set, get_setIf]
      rfl
    case isFalse =>
      simp [Fields.nestedMap, llmInferenceServiceObject, mapOf, Entries.get_set]
      rfl
  simp [Fields.getLabels, Fields.nestedStringMap_strings hl]

theorem Within.setIf {paths : List Path} {place : Path} {c : Bool} {o : Fields} {k : String}
    {v : Value} (h : Path.WithinFields paths place o)
    (hv : c → Path.Within paths (place ++ [.key (str k)]) v) :
    Path.WithinFields paths place (setIf c o k v) := by
  cases c
  case false => exact h
  case true  => exact h.set (hv rfl)

theorem Within.overrides {paths : List Path} {place : Path} {o : Fields}
    (hc : place ++ keys ["command"] ∈ paths) (ha : place ++ keys ["args"] ∈ paths)
    (he : place ++ keys ["env"] ∈ paths) (h : Path.WithinFields paths place o) :
    Path.WithinFields paths place (overrides req o) :=
  setIf (setIf (setIf h fun _ => .leaf hc) fun _ => .leaf ha) fun _ => .leaf he

theorem within_inferenceService (ns : Str) (req : CreateServiceRequest) : ∃ v,
    (inferenceServiceObject ns req).get (str "spec") = some v ∧
    Path.Within (formPaths (str "InferenceService")) [] v := by
  refine ⟨.obj (mapOf [("predictor", .obj (mapOf [
    ("minReplicas", .int req.replicas),
    ("maxReplicas", .int req.replicas),
    ("model", .obj (inferenceServiceModel req))]))]), by simp [inferenceServiceObject, mapOf], ?_⟩
  have hr : Path.WithinFields (formPaths (str "InferenceService"))
      (keys ["predictor", "model", "resources"]) (mapOf [
        ("requests", .obj (resourceRequests req)), ("limits", .obj (resourceLimits req))]) := by
    apply Path.WithinFields.mapOf
    simp only [List.forall_mem_cons, List.not_mem_nil, false_implies, implies_true, and_true]
    exact ⟨.leaf (by decide), .leaf (by decide)⟩
  have hm : Path.WithinFields (formPaths (str "InferenceService")) (keys ["predictor", "model"])
      (inferenceServiceModel req) := by
    apply Within.overrides (by decide) (by decide) (by decide)
    apply Path.WithinFields.mapOf
    simp only [List.forall_mem_cons, List.not_mem_nil, false_implies, implies_true, and_true]
    exact ⟨.leaf (by decide), .leaf (by decide), .leaf (by decide),
      .obj (q := keys ["requests"]) (by decide) hr⟩
  have hp : Path.WithinFields (formPaths (str "InferenceService")) (keys ["predictor"]) (mapOf [
      ("minReplicas", .int req.replicas),
      ("maxReplicas", .int req.replicas),
      ("model", .obj (inferenceServiceModel req))]) := by
    apply Path.WithinFields.mapOf
    simp only [List.forall_mem_cons, List.not_mem_nil, false_implies, implies_true, and_true]
    exact ⟨.leaf (by decide), .leaf (by decide), .obj (q := keys ["runtime"]) (by decide) hm⟩
  apply Path.Within.obj (q := keys ["predictor", "minReplicas"]) (by decide)
  apply Path.WithinFields.mapOf
  simp only [List.forall_mem_cons, List.not_mem_nil, false_implies, implies_true, and_true]
  exact .obj (q := keys ["minReplicas"]) (by decide) hp

theorem within_llmInferenceService (ns : Str) (req : CreateServiceRequest) : ∃ v,
    (llmInferenceServiceObject ns req).get (str "spec") = some v ∧
    Path.Within (formPaths (str "LLMInferenceService")) [] v := by
  refine ⟨.obj (llmSpec req), by simp [llmInferenceServiceObject, mapOf], ?_⟩
  have hm : Path.WithinFields (formPaths (str "LLMInferenceService")) (keys ["model"])
      (llmModel req) := by
    refine Within.setIf (.mapOf ?_) fun _ => .leaf (by decide)
    simp only [List.forall_mem_cons, List.not_mem_nil, false_implies, implies_true, and_true]
    exact .leaf (by decide)
  have hr : Path.WithinFields (formPaths (str "LLMInferenceService"))
      (keys ["template", "containers"] ++ .index 0 :: keys ["resources"])
      (setIf (resourceLimits req ≠ [])
        (setIf (resourceRequests req ≠ []) [] "requests" (.obj (resourceRequests req)))
        "limits" (.obj (resourceLimits req))) :=
    Within.setIf (Within.setIf .nil fun _ => .leaf (by decide)) fun _ => .leaf (by decide)
  have hc : Path.WithinFields (formPaths (str "LLMInferenceService"))
      (keys ["template", "containers"] ++ [.index 0])
      (Entries.set (llmContainer req) (str "name") (.string (str "main"))) := by
    refine .set (Within.setIf ?_ fun _ => .obj (q := keys ["limits"]) (by decide) hr)
      (.leaf (by decide))
    apply Within.overrides (by decide) (by decide) (by decide)
    exact Within.setIf .nil fun _ => .leaf (by decide)
  have hl : Path.Within (formPaths (str "LLMInferenceService")) (keys ["template", "containers"])
      (.list [.obj (Entries.set (llmContainer req) (str "name") (.string (str "main")))]) := by
    apply Path.Within.list (q := .index 0 :: keys ["image"]) (by decide)
    intro n w hw
    have ⟨hn, he⟩ := List.getElem?_eq_some_iff.mp hw
    obtain rfl : n = 0 := by simpa using hn
    subst he
    exact .obj (q := keys ["image"]) (by decide) hc
  have ht : Path.WithinFields (formPaths (str "LLMInferenceService")) (keys ["template"]) (mapOf [
      ("containers", .list [.obj (Entries.set (llmContainer req) (str "name")
        (.string (str "main")))])]) := by
    apply Path.WithinFields.mapOf
    simp only [List.forall_mem_cons, List.not_mem_nil, false_implies, implies_true, and_true]
    exact hl
  apply Path.Within.obj (q := keys ["replicas"]) (by decide)
  refine Within.setIf (Within.setIf (.mapOf ?_) fun _ => .leaf (by decide))
    fun _ => .obj (q := keys ["containers"] ++ .index 0 :: keys ["image"]) (by decide) ht
  simp only [List.forall_mem_cons, List.not_mem_nil, false_implies, implies_true, and_true]
  exact ⟨.obj (q := keys ["uri"]) (by decide) hm, .leaf (by decide)⟩

end Desired
-- The labels and annotations of the object that is sent back.
section Rewrite

variable {ns : Str} {req : CreateServiceRequest} {o m : Fields}

theorem setLabels_eq (h : o.get (str "metadata") = some (.obj m)) (l : Entries Str) :
    o.setLabels l =
      Entries.set o (str "metadata") (.obj (Entries.set m (str "labels") (.obj (strings l)))) := by
  simp [Fields.setLabels, Fields.setNestedStringMap, Fields.setNestedField, h]

theorem setAnnotations_eq (h : o.get (str "metadata") = some (.obj m)) (l : Entries Str) :
    o.setAnnotations l =
      Entries.set o (str "metadata") (.obj (Entries.set m (str "annotations") (.obj (strings l)))) := by
  simp [Fields.setAnnotations, Fields.setNestedStringMap, Fields.setNestedField, h]

def newLabels (ns : Str) (req : CreateServiceRequest) (o : Fields) : Entries Str :=
  Entries.setAll o.getLabels (desiredObject ns req).getLabels

def newAnnotations (req : CreateServiceRequest) (o : Fields) : Entries Str :=
  if req.kind = str "InferenceService" then
    if req.deploymentMode = [] then Entries.erase o.getAnnotations (str deploymentModeAnnotation)
    else Entries.set o.getAnnotations (str deploymentModeAnnotation) req.deploymentMode
  else o.getAnnotations

-- The whole of what is sent, field by field.
theorem rewriteService_eq (ns : Str) (req : CreateServiceRequest)
    (h : o.get (str "metadata") = some (.obj m)) : ∃ o' : Fields,
    rewriteService ns req o =
      Entries.set o' (str "spec") (((desiredObject ns req).get (str "spec")).getD .null) ∧
    (∀ k, k ≠ str "metadata" → o'.get k = o.get k) ∧
    o'.get (str "metadata") = some (.obj (Entries.set
      (Entries.set m (str "labels") (.obj (strings (newLabels ns req o))))
      (str "annotations") (.obj (strings (newAnnotations req o))))) := by
  have hm : (o.setLabels (newLabels ns req o)).get (str "metadata") =
      some (.obj (Entries.set m (str "labels") (.obj (strings (newLabels ns req o))))) := by
    simp [setLabels_eq h]
  have ha : newAnnotations req (o.setLabels (newLabels ns req o)) = newAnnotations req o := by
    have ha : (o.setLabels (newLabels ns req o)).getAnnotations = o.getAnnotations := by
      simp [setLabels_eq h, Fields.getAnnotations, Fields.nestedStringMap, Fields.nestedMap, h,
        Entries.get_set]
    simp only [newAnnotations, ha]
  refine ⟨(o.setLabels (newLabels ns req o)).setAnnotations (newAnnotations req o), ?_, ?_, ?_⟩
  case refine_1 => rw [← ha]; rfl
  case refine_2 =>
    intro k hk
    rw [setAnnotations_eq hm, setLabels_eq h]
    simp [Entries.get_set, hk]
  case refine_3 => simp [setAnnotations_eq hm]

theorem managedLabels_get {k : Str} (hk : k ∉ managedLabels) :
    (newLabels ns req o).get k = o.getLabels.get k := by
  have hs : (desiredObject ns req).getLabels.Sorted := by
    rw [desired_labels]
    exact (Entries.Sorted.nil.set _ _).set _ _
  simp only [managedLabels, List.mem_cons, List.not_mem_nil, or_false, not_or] at hk
  rw [newLabels, Entries.get_setAll hs, desired_labels]
  simp [Entries.get_set, hk]

theorem managedAnnotations_get {k : Str} (hk : k ∉ managedAnnotations req.kind) :
    (newAnnotations req o).get k = o.getAnnotations.get k := by
  simp only [managedAnnotations, newAnnotations] at hk ⊢
  split
  case isFalse   => rfl
  case isTrue hi =>
    simp only [hi, if_true, List.mem_singleton] at hk
    split <;> simp [Entries.get_erase, Entries.get_set, hk]

theorem rewriteService_name (h : o.get (str "metadata") = some (.obj m)) :
    (rewriteService ns req o).getName = o.getName := by
  have ⟨o', he, _, hm⟩ := rewriteService_eq ns req h
  simp [Fields.getName, Fields.nestedString, he, Entries.get_set, hm, h]

-- The object as it is kept, of which the version is no part.
def kept (ns : Str) (req : CreateServiceRequest) (o : Fields) : Fields :=
  (rewriteService ns req o).removeResourceVersion

theorem kept_metadata (h : o.get (str "metadata") = some (.obj m)) :
    (kept ns req o).get (str "metadata") = some (.obj (Entries.erase (Entries.set
      (Entries.set m (str "labels") (.obj (strings (newLabels ns req o))))
      (str "annotations") (.obj (strings (newAnnotations req o)))) (str "resourceVersion"))) := by
  have ⟨o', he, _, hm⟩ := rewriteService_eq ns req h
  simp [kept, he, Fields.removeResourceVersion, Entries.get_set, hm]

theorem kept_labels (h : o.get (str "metadata") = some (.obj m)) :
    (kept ns req o).getLabels = newLabels ns req o := by
  have hn : (kept ns req o).nestedMap [str "metadata", str "labels"] =
      some (strings (newLabels ns req o)) := by
    simp [Fields.nestedMap, kept_metadata h, Entries.get_erase, Entries.get_set]
  simp [Fields.getLabels, Fields.nestedStringMap_strings hn]

theorem kept_annotations (h : o.get (str "metadata") = some (.obj m)) :
    (kept ns req o).getAnnotations = newAnnotations req o := by
  have hn : (kept ns req o).nestedMap [str "metadata", str "annotations"] =
      some (strings (newAnnotations req o)) := by
    simp [Fields.nestedMap, kept_metadata h, Entries.get_erase]
  simp [Fields.getAnnotations, Fields.nestedStringMap_strings hn]

theorem kept_get (h : o.get (str "metadata") = some (.obj m)) {k : Str}
    (hm : k ≠ str "metadata") (hs : k ≠ str "spec") : (kept ns req o).get k = o.get k := by
  have ⟨o', he, hk, _⟩ := rewriteService_eq ns req h
  rw [kept, Fields.get_removeResourceVersion _ hm, he, Entries.get_set_ne _ _ hs, hk k hm]

theorem kept_spec (h : o.get (str "metadata") = some (.obj m)) : (kept ns req o).get (str "spec") =
    some (((desiredObject ns req).get (str "spec")).getD .null) := by
  have ⟨o', he, _, _⟩ := rewriteService_eq ns req h
  rw [kept, Fields.get_removeResourceVersion _ (by simp), he, Entries.get_set_self]

theorem desired_within (ns : Str) (hk : gvrFor req.kind = .ok gvr) (hne : req.kind ≠ []) :
    ∃ v, (desiredObject ns req).get (str "spec") = some v ∧
      Path.Within (formPaths req.kind) [] v := by
  by_cases hi : req.kind = str "InferenceService"
  case pos => simpa [desiredObject, hi] using within_inferenceService ns req
  case neg =>
    have hl : req.kind = str "LLMInferenceService" := by
      by_contra hl
      simp [gvrFor, hi, hl, hne] at hk
    have hd : desiredObject ns req = llmInferenceServiceObject ns req := by simp [desiredObject, hi]
    rw [hd, hl]
    exact within_llmInferenceService ns req

-- All is left alone but the spec, and of the spec what the form owns.
theorem kept_framed_iff (ns : Str) (h : o.get (str "metadata") = some (.obj m))
    (hk : gvrFor req.kind = .ok gvr) (hne : req.kind ≠ []) :
    Framed req.kind o (kept ns req o) ↔
    ∀ p, Path.Outside (formPaths req.kind) p → specAt o p = none := by
  have ⟨v, hv, hw⟩ := desired_within ns hk hne
  have hs : ∀ p, Path.Outside (formPaths req.kind) p → specAt (kept ns req o) p = none := by
    intro p hp
    simp [specAt, kept_spec h, hv, hw p hp]
  constructor
  case mp  => exact fun hf p hp => (hf.spec p hp).symm.trans (hs p hp)
  case mpr =>
    intro ho
    refine {
      fields k hm hs       := kept_get h hm hs
      metadata k hl ha hr  := ?_
      labels k hk          := ?_
      annotations k hk     := ?_
      spec p hp            := (hs p hp).trans (ho p hp).symm
    }
    case refine_1 =>
      simp [kept_metadata h, h, Entries.get_erase, Entries.get_set, hl, ha, hr]
    case refine_2 => rw [kept_labels h, managedLabels_get hk]
    case refine_3 => rw [kept_annotations h, managedAnnotations_get hk]

end Rewrite
-- An object and what is shown of it have the same frame.
section View

variable (s : Stored)

theorem view_specAt (p : Path) : specAt s.view p = specAt s.content p := by
  simp [specAt, s.view_get]

theorem framed_view {kind : Str} {after : Fields} :
    Framed kind s.view after ↔ Framed kind s.content after := by
  constructor
  case mp  =>
    exact .of_same (fun k hk => (s.view_get hk).symm) fun k hk => (s.view_meta hk).symm
  case mpr => exact .of_same (fun k hk => s.view_get hk) fun k hk => s.view_meta hk

variable {s}

theorem view_metadata {name : Str} (hn : s.content.getName = name) (hne : name ≠ []) :
    ∃ m, s.view.get (str "metadata") = some (.obj m) := by
  apply Fields.metadata_of_getName
  simpa [Stored.view, hn] using hne

-- What is there is read as it is shown.
theorem get_run {refuse : Refusal} {key : Key} {c : Cluster} (hg : c.get key = some s) :
    Prog.run (serve refuse) (Kube.Dynamic.get key) c = (.ok s.view, c) := by
  simp [Kube.Dynamic.get, Kube.Dynamic.perform, Prog.perform, Prog.run, serve, answer, hg]

end View

section Update

variable {refuse : Refusal} {ns name : Str} {req : CreateServiceRequest} {c : Cluster} {gvr : GVR}
variable {o : Fields}

def updated (refuse : Refusal) (ns name : Str) (req : CreateServiceRequest) (c : Cluster) :
    Except Error Fields × Cluster :=
  Prog.run (serve refuse) (updateService ns name req) c

-- An update that is not refused stores what was sent.
theorem serve_update_ok (h : (serve refuse (.update gvr ns o) c).1.isOk) :
    (serve refuse (.update gvr ns o) c).2 = c.put ⟨gvr, ns, o.getName⟩ o.removeResourceVersion := by
  simp only [serve, answer] at h ⊢
  cases hk : keyOf gvr ns o with
  | error e => simp [hk, Except.isOk, Except.toBool] at h
  | ok key  =>
    have hkey : key = ⟨gvr, ns, o.getName⟩ := by
      simp only [keyOf] at hk
      split at hk
      case isTrue  => cases hk
      case isFalse => cases hk; rfl
    cases hr : refuse gvr o.removeResourceVersion with
    | some e => simp [hk, hr, Except.isOk, Except.toBool] at h
    | none   =>
      cases hc : c.get key with
      | none     => simp [hk, hr, hc, Except.isOk, Except.toBool] at h
      | some old =>
        simp only [hk, hr, hc] at h ⊢
        split
        case isTrue hv  =>
          rw [if_pos hv] at h
          cases h
        case isFalse hv => rw [hkey]; rfl

theorem updated_run {s : Stored} (hn : name ≠ []) (hk : gvrFor (updateRequest name req).kind = .ok gvr)
    (hg : c.get ⟨gvr, ns, name⟩ = some s) : updated refuse ns name req c =
    serve refuse (.update gvr ns (rewriteService ns (updateRequest name req) s.view)) c := by
  simp only [updated, updateService, hn, if_false, hk]
  rw [Call.ok_seq, Call.run_seq_ok (get_run hg)]
  rfl

-- An update that succeeds rewrites nothing but what the form owns just when the live object has
-- nothing else in its spec.
theorem update_framed_iff (ho : c.content ⟨gvr, ns, name⟩ = some o) (hn : o.getName = name)
    (hk : gvrFor (updateRequest name req).kind = .ok gvr)
    (hok : (updated refuse ns name req c).1.isOk) :
    (∃ o', (updated refuse ns name req c).2.content ⟨gvr, ns, name⟩ = some o' ∧
      Framed (updateRequest name req).kind o o') ↔
    ∀ p, Path.Outside (formPaths (updateRequest name req).kind) p → specAt o p = none := by
  have ⟨s, hg, hs⟩ := Option.map_eq_some_iff.mp ho
  subst hs
  have hne : name ≠ [] := by
    rintro rfl
    cases hok
  have ⟨m, hm⟩ := view_metadata hn hne
  have hv : s.view.getName = name := by simpa [Stored.view] using hn
  rw [updated_run hne hk hg] at hok ⊢
  have hk' : (updateRequest name req).kind ≠ [] := by
    simp only [updateRequest, normaliseServiceRequest]
    split <;> simp_all
  rw [serve_update_ok hok, rewriteService_name hm, hv, Cluster.content_put, if_pos rfl]
  have hf := kept_framed_iff ns hm hk hk'
  rw [framed_view] at hf
  simp only [view_specAt] at hf
  simpa [kept] using hf

def chatRequest : CreateServiceRequest where
  name           := str "chat"
  kind           := str "LLMInferenceService"
  runtime        := []
  modelURI       := str "hf://Qwen/Qwen3-8B"
  replicas       := 2
  baseConfigs    := []
  modelName      := []
  containerImage := []
  deploymentMode := []
  cpuRequest     := []
  cpuLimit       := []
  memoryRequest  := []
  memoryLimit    := []
  gpuValues      := .empty
  env            := []
  command        := []
  args           := []

def chatKey : Kube.Dynamic.Key where
  gvr  := gvrLLMInferenceService
  ns   := str "team"
  name := str "chat"

-- An object that has only been edited by the form.
theorem update_framed_iff_form :
    (updated acceptsAll (str "team") (str "chat") chatRequest
      (Cluster.empty.put chatKey (llmInferenceServiceObject (str "team") chatRequest))).1.isOk ∧
    ∃ o', (updated acceptsAll (str "team") (str "chat") chatRequest
      (Cluster.empty.put chatKey (llmInferenceServiceObject (str "team") chatRequest))).2.content
        chatKey = some o' ∧
      Framed (str "LLMInferenceService") (llmInferenceServiceObject (str "team") chatRequest) o' := by
  have hc : (Cluster.empty.put chatKey (llmInferenceServiceObject (str "team") chatRequest)).content
      chatKey = some (llmInferenceServiceObject (str "team") chatRequest) := by
    simp [Cluster.content_put]
  have hok : (updated acceptsAll (str "team") (str "chat") chatRequest
      (Cluster.empty.put chatKey (llmInferenceServiceObject (str "team") chatRequest))).1.isOk := by
    decide
  have hk : (updateRequest (str "chat") chatRequest).kind = str "LLMInferenceService" := by
    decide
  have ⟨v, hv, hw⟩ := within_llmInferenceService (str "team") chatRequest
  refine ⟨hok, hk ▸ (update_framed_iff hc (by decide) (by decide) hok).mpr ?_⟩
  intro p hp
  simp [specAt, hv, hw p (hk ▸ hp)]

-- An object to which a router was added by YAML.
def routedService : Fields :=
  Entries.set (llmInferenceServiceObject (str "team") chatRequest) (str "spec")
    (.obj (Entries.set (llmSpec chatRequest) (str "router") (.obj (mapOf [("route", .obj [])]))))

theorem router_lost :
    (updated acceptsAll (str "team") (str "chat") chatRequest
      (Cluster.empty.put chatKey routedService)).1.isOk ∧
    ¬∃ o', (updated acceptsAll (str "team") (str "chat") chatRequest
      (Cluster.empty.put chatKey routedService)).2.content chatKey = some o' ∧
      Framed (str "LLMInferenceService") routedService o' := by
  refine ⟨by decide, ?_⟩
  intro ⟨o', hc, hf⟩
  have ho : Path.Outside (formPaths (str "LLMInferenceService")) (keys ["router"]) := by decide
  have hb : (specAt routedService (keys ["router"])).isSome := by decide
  have ha : (((updated acceptsAll (str "team") (str "chat") chatRequest
      (Cluster.empty.put chatKey routedService)).2.content chatKey).bind
      (specAt · (keys ["router"]))).isNone := by
    decide
  rw [hc, Option.bind_some, hf.spec _ ho] at ha
  simp [Option.isNone_iff_eq_none.mp ha] at hb

end Update
end Inference
