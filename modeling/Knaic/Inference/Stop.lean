import Knaic.Inference.UpdateFrame
import Knaic.K8sRes.InferenceProj

open Go Kube.Dynamic Effects
open Kube (Fields Value mapOf strings)

namespace Inference

def stopAnnotation : String :=
  "serving.kserve.io/stop"

def flipped (stopped : Bool) (annos : Entries Str) : Entries Str :=
  if stopped then Entries.set annos (str stopAnnotation) (str "true")
  else Entries.erase annos (str stopAnnotation)

def setStopped (ns name kind : Str) (stopped : Bool) : Call Fields := do
  let gvr ← (ExceptT.mk (pure (gvrFor kind)) : Call GVR)
  let cur ← get ⟨gvr, ns, name⟩
  update gvr ns (cur.setAnnotations (flipped stopped cur.getAnnotations))

-- Whether the projection of an object of a type shows it as stopped.
def showsStopped (gvr : GVR) (o : Fields) : Bool :=
  if gvr = gvrLLMInferenceService then (K8sRes.projectLLMInferenceService o).stopped
  else (K8sRes.projectInferenceService o).stopped

-- The object has no replicas to run.
def scaledToZero (o : Fields) : Bool :=
  let both (path : List Str) : Bool :=
    o.nestedInt64 (path ++ [str "minReplicas"]) = some 0 &&
      o.nestedInt64 (path ++ [str "maxReplicas"]) = some 0
  both [str "spec", str "predictor"] || both [str "spec"] ||
    o.getKind = str "LLMInferenceService" && o.nestedInt64 [str "spec", str "replicas"] = some 0

-- The object after it was stopped or resumed, against what it was before.
structure Flipped (gvr : GVR) (stopped : Bool) (before after : Fields) : Prop where
  shown       : showsStopped gvr after = stopped
  annotations : ∀ k, k ≠ str stopAnnotation → after.getAnnotations.get k = before.getAnnotations.get k
  rest        : ∀ k, k ≠ str "metadata" → after.get k = before.get k

def stopping (refuse : Refusal) (ns name kind : Str) (stopped : Bool) (c : Cluster) : Except Error Fields × Cluster :=
  Prog.run (serve refuse) (setStopped ns name kind stopped) c

-- Each call does what it says, and the second one takes back what the first one did.
structure Reversible (refuse : Refusal) (gvr : GVR) (ns name kind : Str) (c : Cluster) (o : Fields) : Prop where
  visible : ∀ stopped, ∃ o', (stopping refuse ns name kind stopped c).2.content ⟨gvr, ns, name⟩ = some o' ∧
              Flipped gvr stopped o o'
  resumed : ∃ o', (stopping refuse ns name kind false (stopping refuse ns name kind true c).2).2.content
              ⟨gvr, ns, name⟩ = some o' ∧ showsStopped gvr o' = false

section Object

variable {o m : Fields} {stopped : Bool}

theorem showsStopped_eq (gvr : GVR) (o : Fields) : showsStopped gvr o =
    match o.getAnnotations.get (str stopAnnotation) with
    | some v => v = str "true" || v = str "True"
    | none   => scaledToZero o := by
  unfold showsStopped
  split <;> rfl

-- The object as it is stored.
def flippedObject (stopped : Bool) (o : Fields) : Fields :=
  (o.setAnnotations (flipped stopped o.getAnnotations)).removeResourceVersion

theorem flippedObject_get {k : Str} (h : o.get (str "metadata") = some (.obj m)) (hk : k ≠ str "metadata") :
    (flippedObject stopped o).get k = o.get k := by
  rw [flippedObject, Fields.get_removeResourceVersion _ hk, setAnnotations_eq h, Entries.get_set_ne _ _ hk]

theorem flippedObject_annotations (h : o.get (str "metadata") = some (.obj m)) :
    (flippedObject stopped o).getAnnotations = flipped stopped o.getAnnotations := by
  have hn : (flippedObject stopped o).nestedMap [str "metadata", str "annotations"] =
      some (strings (flipped stopped o.getAnnotations)) := by
    simp [Fields.nestedMap, flippedObject, setAnnotations_eq h, Fields.removeResourceVersion, Entries.get_erase]
  simp [Fields.getAnnotations, Fields.nestedStringMap_strings hn]

theorem scaledToZero_congr {o' : Fields} (h : ∀ k, k ≠ str "metadata" → o'.get k = o.get k) :
    scaledToZero o' = scaledToZero o := by
  have hs (ks : List Str) : o'.nestedInt64 (str "spec" :: ks) = o.nestedInt64 (str "spec" :: ks) := by
    cases ks <;> simp [Fields.nestedInt64, h]
  have hk : o'.getKind = o.getKind := by simp [Fields.getKind, Fields.nestedString, h]
  simp [scaledToZero, hs, hk]

-- A stopped object is shown as such, a resumed one as its replicas say.
theorem flippedObject_shown (gvr : GVR) (h : o.get (str "metadata") = some (.obj m)) :
    showsStopped gvr (flippedObject stopped o) = (stopped || scaledToZero o) := by
  rw [showsStopped_eq, flippedObject_annotations h, scaledToZero_congr fun k hk => flippedObject_get h hk]
  cases stopped
  case false => simp [flipped, Entries.get_erase]
  case true  => simp [flipped]

theorem flipped_other {annos : Entries Str} {k : Str} (hk : k ≠ str stopAnnotation) :
    (flipped stopped annos).get k = annos.get k := by
  cases stopped
  case false => simp [flipped, Entries.get_erase, hk]
  case true  => simp [flipped, Entries.get_set, hk]

theorem flippedObject_flipped (gvr : GVR) (h : o.get (str "metadata") = some (.obj m)) :
    Flipped gvr stopped o (flippedObject stopped o) ↔ (stopped = false → scaledToZero o = false) := by
  constructor
  case mp =>
    rintro hf rfl
    simpa [flippedObject_shown gvr h] using hf.shown
  case mpr =>
    intro hs
    refine ⟨?_, fun k hk => ?_, fun k hk => flippedObject_get h hk⟩
    · rw [flippedObject_shown gvr h]
      cases stopped
      case false => simp [hs]
      case true  => rfl
    · rw [flippedObject_annotations h, flipped_other hk]

theorem flippedObject_metadata (h : o.get (str "metadata") = some (.obj m)) {k : Str} (ha : k ≠ str "annotations")
    (hr : k ≠ str "resourceVersion") :
    (flippedObject stopped o).nestedField [str "metadata", k] = o.nestedField [str "metadata", k] := by
  simp [flippedObject, setAnnotations_eq h, Fields.removeResourceVersion, Entries.get_erase, Entries.get_set, h, ha, hr]

theorem setAnnotations_name (o : Fields) (annos : Entries Str) : (o.setAnnotations annos).getName = o.getName := by
  simp only [Fields.setAnnotations, Fields.setNestedStringMap, Fields.setNestedField, Fields.getName,
    Fields.nestedString, Fields.nestedField_cons_cons]
  cases hm : o.get (str "metadata")
  case none   => simp [Entries.get_set]
  case some v => cases v <;> simp [hm, Entries.get_set]

end Object
section Call

variable {refuse : Refusal} {gvr : GVR} {ns name kind : Str} {c : Cluster} {s : Stored} {stopped : Bool}

-- What is read shows the same as what is stored.
theorem flipped_view {o' : Fields} : Flipped gvr stopped s.view o' ↔ Flipped gvr stopped s.content o' := by
  have ha : s.view.getAnnotations = s.content.getAnnotations := by
    simp only [Fields.getAnnotations, Fields.nestedStringMap, Fields.nestedMap]
    rw [s.view_meta (by simp)]
  constructor
  case mp  => exact fun h => ⟨h.shown, ha ▸ h.annotations, fun k hk => (h.rest k hk).trans (s.view_get hk)⟩
  case mpr => exact fun h => ⟨h.shown, ha ▸ h.annotations, fun k hk => (h.rest k hk).trans (s.view_get hk).symm⟩

theorem view_scaledToZero : scaledToZero s.view = scaledToZero s.content :=
  scaledToZero_congr fun _ hk => s.view_get hk

theorem update_named {o : Fields} (h : (serve refuse (.update gvr ns o) c).1.isOk) : o.getName ≠ [] := by
  obtain ⟨e, he⟩ | ⟨hn, -⟩ := answer_update_cases gvr ns o ⟨none, refuse⟩ c
  case inl =>
    rw [serve, he] at h
    cases h
  case inr => exact hn

theorem stopping_run (hk : gvrFor kind = .ok gvr) (hg : c.get ⟨gvr, ns, name⟩ = some s) :
    stopping refuse ns name kind stopped c =
      serve refuse (.update gvr ns (s.view.setAnnotations (flipped stopped s.view.getAnnotations))) c := by
  simp only [stopping, setStopped, hk]
  rw [Call.ok_seq, Call.run_seq_ok (get_run hg)]
  rfl

-- A call that is not refused stores the object with its annotation flipped.
theorem stopping_ok (hk : gvrFor kind = .ok gvr) (hg : c.get ⟨gvr, ns, name⟩ = some s)
    (hn : s.content.getName = name)
    (hok : (stopping refuse ns name kind stopped c).1.isOk) :
    (stopping refuse ns name kind stopped c).2 = c.put ⟨gvr, ns, name⟩ (flippedObject stopped s.view) := by
  have hv : s.view.getName = name := by simpa using hn
  rw [stopping_run hk hg] at hok ⊢
  rw [serve_update_ok hok, setAnnotations_name, hv]
  rfl

end Call

-- Stopping and resuming do what they say if and only if the object has replicas to run.
theorem reversible_iff (refuse : Refusal) (gvr : GVR) (ns name kind : Str) (c : Cluster) (o : Fields)
    (ho : c.content ⟨gvr, ns, name⟩ = some o) (hn : o.getName = name) (hk : gvrFor kind = .ok gvr)
    (hok : ∀ stopped, (stopping refuse ns name kind stopped c).1.isOk)
    (hok' : (stopping refuse ns name kind false (stopping refuse ns name kind true c).2).1.isOk) :
    Reversible refuse gvr ns name kind c o ↔ scaledToZero o = false := by
  obtain ⟨s, hg, rfl⟩ := Option.map_eq_some_iff.mp ho
  have hne : name ≠ [] := by
    have hu := hok true
    rw [stopping_run hk hg] at hu
    have hu := update_named hu
    rwa [setAnnotations_name, s.view_name, hn] at hu
  obtain ⟨m, hm⟩ := view_metadata hn hne
  have hc (stopped : Bool) : (stopping refuse ns name kind stopped c).2.content ⟨gvr, ns, name⟩ =
      some (flippedObject stopped s.view) := by
    rw [stopping_ok hk hg hn (hok stopped), Cluster.content_put, if_pos rfl]
  constructor
  case mp =>
    intro h
    obtain ⟨o', ho', hf⟩ := h.visible false
    rw [hc] at ho'
    cases ho'
    have hs := (flippedObject_flipped gvr hm).mp (flipped_view.mpr hf) rfl
    rwa [view_scaledToZero] at hs
  case mpr =>
    intro hs
    refine ⟨fun stopped => ⟨_, hc stopped, ?_⟩, ?_⟩
    · apply flipped_view.mp
      apply (flippedObject_flipped gvr hm).mpr
      intro _
      rwa [view_scaledToZero]
    · obtain ⟨s', hg', hs'⟩ := Option.map_eq_some_iff.mp (hc true)
      have hn' : s'.content.getName = name := by
        have hv : s.view.getName = name := by simpa using hn
        rw [hs', Fields.getName, Fields.nestedString, flippedObject_metadata hm (by simp) (by simp)]
        exact hv
      obtain ⟨m', hm'⟩ := view_metadata hn' hne
      refine ⟨flippedObject false s'.view, ?_, ?_⟩
      · rw [stopping_ok hk hg' hn' hok', Cluster.content_put, if_pos rfl]
      · rw [flippedObject_shown gvr hm', view_scaledToZero, hs',
          scaledToZero_congr fun k hk => flippedObject_get hm hk, view_scaledToZero, hs]
        rfl

-- A chat service, and one that was scaled by hand.
section Chat

def chatService (replicas : Int) : Fields :=
  llmInferenceServiceObject (str "team") { chatRequest with replicas := replicas }

def chatCluster (replicas : Int) : Cluster :=
  Cluster.empty.put chatKey (chatService replicas)

theorem chat_reversible : Reversible acceptsAll gvrLLMInferenceService (str "team") (str "chat")
    (str "LLMInferenceService") (chatCluster 2) (chatService 2) :=
  (reversible_iff acceptsAll gvrLLMInferenceService (str "team") (str "chat") (str "LLMInferenceService")
    (chatCluster 2) (chatService 2) (by simp [chatCluster, chatKey, Cluster.content_put]) (by decide) (by decide)
    (by decide) (by decide)).mpr (by decide)

theorem scaled_not_resumed : ¬∀ refuse gvr ns name kind c o, c.content ⟨gvr, ns, name⟩ = some o → o.getName = name →
    gvrFor kind = .ok gvr → (∀ stopped, (stopping refuse ns name kind stopped c).1.isOk) →
    (stopping refuse ns name kind false (stopping refuse ns name kind true c).2).1.isOk →
    Reversible refuse gvr ns name kind c o := by
  intro h
  have hr := h acceptsAll gvrLLMInferenceService (str "team") (str "chat") (str "LLMInferenceService")
    (chatCluster 0) (chatService 0) (by simp [chatCluster, chatKey, Cluster.content_put]) (by decide) (by decide)
    (by decide) (by decide)
  obtain ⟨o', ho', hf⟩ := hr.visible false
  have hs : ((stopping acceptsAll (str "team") (str "chat") (str "LLMInferenceService") false
      (chatCluster 0)).2.content chatKey).any (showsStopped gvrLLMInferenceService) := by decide
  rw [chatKey, ho', Option.any_some, hf.shown] at hs
  cases hs

end Chat
end Inference
