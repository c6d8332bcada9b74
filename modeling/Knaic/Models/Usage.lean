import Knaic.Inference.RouteStatus
import Knaic.Js.Cut
import Knaic.Models.Store

open Go
open Kube (Fields)
open Inference (objects sliceAt stringAt)

-- Which inference services are said to use a model.
namespace Models.Usage

structure InferenceServiceRef where
  ns       : Str
  name     : Str
  kind     : Str
  modelURI : Str
  ready    : Str

-- What stands behind the first `://`.
def stripScheme (u : Str) : Str :=
  ((Js.cut (str "://") u).map Prod.snd).getD u

def matchModelURI (serviceURI modelURI modelName : Str) : Bool :=
  if serviceURI = [] then
    false
  else if serviceURI = modelURI then
    true
  else if stripScheme serviceURI = stripScheme modelURI then
    true
  else
    modelName ≠ [] && (stripScheme serviceURI).hasSuffix modelName

def conditionStatus (obj : Fields) (condType : Str) : Str :=
  match (objects (sliceAt obj ["status", "conditions"])).find? fun c => stringAt c ["type"] = condType with
  | some c => stringAt c ["status"]
  | none   => []

def storageURI (obj : Fields) : Str :=
  stringAt obj ["spec", "predictor", "model", "storageUri"]

def llmURI (obj : Fields) : Str :=
  let uri := stringAt obj ["spec", "model", "uri"]
  if uri = [] then stringAt obj ["spec", "model", "storageUri"] else uri

-- The references to the services of one kind. A list that cannot be had counts as empty.
def refs (kind : String) (uriOf : Fields → Str) (m : Model) (list : Except Error (List Fields)) :
    List InferenceServiceRef :=
  match list with
  | .error _  => []
  | .ok items => (items.filter fun obj => matchModelURI (uriOf obj) m.uri m.name).map fun obj => {
      ns       := obj.getNamespace
      name     := obj.getName
      kind     := str kind
      modelURI := uriOf obj
      ready    := conditionStatus obj (str "Ready")
    }

-- A private model is looked for in its own namespace unless another one is asked for.
def namespaceOf (m : Model) (ns : Str) : Str :=
  if ns = [] ∧ m.scope = .scopePrivate then m.ns else ns

-- The services of a namespace are listed one kind after the other.
def inferenceServices (m : Model) (ns : Str) (services llmServices : Str → Except Error (List Fields)) :
    Except Error (List InferenceServiceRef) :=
  if namespaceOf m ns = [] then
    .error (.new "namespace query parameter is required for public models")
  else
    .ok (refs "InferenceService" storageURI m (services (namespaceOf m ns)) ++
      refs "LLMInferenceService" llmURI m (llmServices (namespaceOf m ns)))

-- The path ends in the name, which starts with the path or behind a slash.
def EndsInSegments (path name : Str) : Prop :=
  name ≠ [] ∧ ∃ p, path = p ++ name ∧ (p = [] ∨ p.getLast? = some 0x2f)

-- The URI is one of the model: the paths are equal, or it ends in whole segments in the name.
def Refers (serviceURI modelURI modelName : Str) : Prop :=
  stripScheme serviceURI = stripScheme modelURI ∨ EndsInSegments (stripScheme serviceURI) modelName

-- The name stands at the end behind a byte other than a slash, and the paths differ.
structure NearMiss (serviceURI modelURI modelName : Str) : Prop where
  named  : modelName ≠ []
  differ : stripScheme serviceURI ≠ stripScheme modelURI
  inside : ∃ p b, stripScheme serviceURI = p ++ b :: modelName ∧ b ≠ 0x2f

section Match

variable {serviceURI modelURI modelName : Str}

theorem stripScheme_nil : stripScheme [] = [] :=
  rfl

theorem NearMiss.matches (h : NearMiss serviceURI modelURI modelName) :
    matchModelURI serviceURI modelURI modelName = true := by
  obtain ⟨p, b, hp, -⟩ := h.inside
  have hs : serviceURI ≠ [] := by
    rintro rfl
    simp [stripScheme_nil] at hp
  have hm : serviceURI ≠ modelURI := fun he => h.differ (he ▸ rfl)
  have hx : (stripScheme serviceURI).hasSuffix modelName := by
    rw [hp]
    exact List.isSuffixOf_iff_suffix.mpr ⟨p ++ [b], by simp⟩
  simp [matchModelURI, hs, hm, h.differ, h.named, hx]

theorem NearMiss.not_refers (h : NearMiss serviceURI modelURI modelName) :
    ¬Refers serviceURI modelURI modelName := by
  obtain ⟨p, b, hp, hb⟩ := h.inside
  rintro (he | ⟨-, q, hq, hl⟩)
  case inl => exact h.differ he
  case inr =>
    have he : q = p ++ [b] := by
      rw [hp] at hq
      exact List.append_cancel_right (hq.symm.trans (by simp))
    subst he
    obtain hl | hl := hl
    case inl => simp at hl
    case inr => exact hb (by simpa using hl)

-- A suffix starts the path or has a byte before it.
theorem match_cases (h : matchModelURI serviceURI modelURI modelName = true) :
    Refers serviceURI modelURI modelName ∨ NearMiss serviceURI modelURI modelName := by
  unfold matchModelURI at h
  by_cases hd : stripScheme serviceURI = stripScheme modelURI
  case pos => exact .inl (.inl hd)
  case neg =>
    have he : serviceURI ≠ modelURI := fun he => hd (he ▸ rfl)
    have hs : serviceURI ≠ [] := by
      rintro rfl
      simp at h
    simp only [hs, he, hd, if_false, Bool.and_eq_true, decide_eq_true_eq] at h
    have ⟨p, hp⟩ := List.isSuffixOf_iff_suffix.mp h.right
    cases List.eq_nil_or_concat p
    case inl hn => exact .inl (.inr ⟨h.left, p, hp.symm, .inl hn⟩)
    case inr hc =>
      obtain ⟨q, b, rfl⟩ := hc
      by_cases hb : b = 0x2f
      case pos => exact .inl (.inr ⟨h.left, _, hp.symm, .inr (by simp [hb])⟩)
      case neg => exact .inr ⟨h.left, hd, q, b, by simp [← hp], hb⟩

theorem match_iff : (matchModelURI serviceURI modelURI modelName = true → Refers serviceURI modelURI modelName) ↔
    ¬NearMiss serviceURI modelURI modelName :=
  ⟨fun h hn => hn.not_refers (h hn.matches), fun hn h => (match_cases h).resolve_right hn⟩

end Match

-- What was listed.
def listed (list : Except Error (List Fields)) : List Fields :=
  list.toOption.getD []

theorem refs_refer_iff {kind : String} {uriOf : Fields → Str} {m : Model} {list : Except Error (List Fields)} :
    (∀ ref ∈ refs kind uriOf m list, Refers ref.modelURI m.uri m.name) ↔
    ∀ obj ∈ listed list, ¬NearMiss (uriOf obj) m.uri m.name := by
  cases list
  case error e  => simp [refs, listed, Except.toOption]
  case ok items =>
    simp only [refs, List.forall_mem_map, List.mem_filter, and_imp]
    exact forall₂_congr fun obj _ => match_iff

-- A match is a reference to the model unless the path nearly misses its name, and what is reported
-- refers to the model exactly if nothing that is listed is a near miss.
theorem matchModelURI_exact_iff (m : Model) :
    (∀ serviceURI, (matchModelURI serviceURI m.uri m.name = true → Refers serviceURI m.uri m.name) ↔
      ¬NearMiss serviceURI m.uri m.name) ∧
    ∀ ns services llmServices out, inferenceServices m ns services llmServices = .ok out →
      ((∀ ref ∈ out, Refers ref.modelURI m.uri m.name) ↔
        (∀ obj ∈ listed (services (namespaceOf m ns)), ¬NearMiss (storageURI obj) m.uri m.name) ∧
        ∀ obj ∈ listed (llmServices (namespaceOf m ns)), ¬NearMiss (llmURI obj) m.uri m.name) := by
  refine ⟨fun _ => match_iff, fun ns services llmServices out h => ?_⟩
  unfold inferenceServices at h
  split at h
  case isTrue  => cases h
  case isFalse =>
    cases h
    simp only [List.forall_mem_append, refs_refer_iff]

theorem distilbert_matches_bert : ¬∀ serviceURI modelURI modelName : Str,
    matchModelURI serviceURI modelURI modelName = true → Refers serviceURI modelURI modelName := by
  intro h
  have hr := h (str "hf://acme/distilbert") (str "hf://acme/bert") (str "bert") (by decide)
  have hn : NearMiss (str "hf://acme/distilbert") (str "hf://acme/bert") (str "bert") :=
    ⟨by decide, by decide, str "acme/disti", 0x6c, by decide, by decide⟩
  exact hn.not_refers hr

end Models.Usage
