import Knaic.Console.Inference

open Js

namespace Console

variable {profiles : List GPUProfile}

-- There are no accelerators, or a profile has the same keys.
def Matched (profiles : List GPUProfile) (gpuValues : Option (Record Number)) : Prop :=
  gpuValues.getD ∅ = ∅ ∨ ∃ p ∈ profiles, p.keys = (gpuValues.getD ∅).keys

theorem keys_eq_empty {m : Record Number} : m.keys = ∅ ↔ m = ∅ := by
  constructor
  case mpr => rintro rfl; rfl
  case mp =>
    intro h
    refine Finmap.ext_lookup fun k => ?_
    have hk : k ∉ m := fun hm => by simpa [h] using Finmap.mem_keys.mpr hm
    rw [Finmap.lookup_eq_none.mpr hk, Finmap.lookup_empty]

theorem matchProfile_some {m : Record Number} (h : m ≠ ∅) :
    matchProfile profiles (some m) =
      (profiles.find? fun p => p.keys.card = m.keys.card ∧ p.keys ⊆ m.keys).map GPUProfile.id :=
  if_neg fun he => h (keys_eq_empty.mp he)

theorem submittedValues_none (gpuValues : Option (Record Number)) :
    submittedValues profiles none gpuValues = none := by
  simp [submittedValues]

theorem submittedValues_mem {p : GPUProfile} (h : p ∈ profiles) (gpuValues : Option (Record Number)) :
    submittedValues profiles (some p.id) gpuValues = gpuValues := by
  refine if_pos ?_
  rw [List.find?_isSome]
  exact ⟨p, h, by simp⟩

theorem submittedValues_iff (profiles : List GPUProfile) (gpuValues : Option (Record Number)) :
    (submittedValues profiles (matchProfile profiles gpuValues) gpuValues).getD ∅ =
      gpuValues.getD ∅ ↔ Matched profiles gpuValues := by
  cases gpuValues
  case none => simp [matchProfile, submittedValues_none, Matched]
  case some m =>
    by_cases he : m = ∅
    case pos =>
      subst he
      simp [matchProfile, submittedValues_none, Matched]
    case neg =>
      rw [matchProfile_some he]
      cases hf : profiles.find? fun p => p.keys.card = m.keys.card ∧ p.keys ⊆ m.keys
      case none =>
        simp only [List.find?_eq_none, decide_eq_true_eq] at hf
        have hn : ¬Matched profiles (some m) := by
          intro hm
          cases hm
          case inl h => exact he h
          case inr h =>
            have ⟨p, hp, hk⟩ := h
            rw [Option.getD_some] at hk
            exact hf p hp ⟨by rw [hk], by rw [hk]⟩
        simp [submittedValues_none, hn, Ne.symm he]
      case some p =>
        have hp := List.find?_some hf
        have hmem := List.mem_of_find?_eq_some hf
        simp only [decide_eq_true_eq] at hp
        have hk : p.keys = m.keys := Finset.eq_of_subset_of_card_le hp.right hp.left.ge
        have hm : Matched profiles (some m) := .inr ⟨p, hmem, hk⟩
        simp [submittedValues_mem hmem, hm]

-- A text that is empty reads as nothing, so that it makes no difference whether it is read at all.
theorem reread_iff {f : Str → List Str} {sep : UInt16} {P : Str → Prop} (hn : f [] = [])
    (hf : ∀ l, f (Str.join l sep) = l ↔ ∀ a ∈ l, P a) (l : Option (List Str)) :
    ((truthy (l.map fun l => Str.join l sep)).map f).getD [] = l.getD [] ↔ ∀ a ∈ l.getD [], P a := by
  cases l
  case none   => simp [truthy]
  case some l =>
    rw [Option.getD_some, ← hf l]
    by_cases hj : Str.join l sep = []
    case pos => simp [truthy, hj, hn]
    case neg => simp [truthy, hj]

theorem resource_iff (own common : Option Str) :
    some ((own <|> common).getD []) = own ↔ own.isSome := by
  cases own <;> simp

namespace InferenceServiceModal

-- What the payload says of a service is what was shown of it.
structure Carries (p : Payload) (svc : InferenceService) : Prop where
  minReplicas   : p.replicas = svc.minReplicas
  maxReplicas   : p.replicas = svc.maxReplicas
  command       : p.command.getD [] = svc.command.getD []
  args          : p.args.getD [] = svc.args.getD []
  env           : p.env.getD [] = svc.env.getD []
  cpuRequest    : some p.cpuRequest = svc.cpuRequest
  cpuLimit      : some p.cpuLimit = svc.cpuLimit
  memoryRequest : some p.memoryRequest = svc.memoryRequest
  memoryLimit   : some p.memoryLimit = svc.memoryLimit
  gpuValues     : p.gpuValues.getD ∅ = svc.gpuValues.getD ∅

-- The service passes the rules of the form.
structure Submittable (svc : InferenceService) : Prop where
  name          : svc.name ≠ [] ∧ svc.name.all isNameChar
  modelUri      : svc.modelUri ≠ []
  runtime       : svc.kind = .inferenceService → svc.runtime ≠ []
  cpuRequest    : (svc.cpuRequest <|> svc.resources.cpu).getD [] ≠ []
  cpuLimit      : (svc.cpuLimit <|> svc.resources.cpu).getD [] ≠ []
  memoryRequest : (svc.memoryRequest <|> svc.resources.memory).getD [] ≠ []
  memoryLimit   : (svc.memoryLimit <|> svc.resources.memory).getD [] ≠ []
  env           : ∀ e ∈ svc.env.getD [], e.name ≠ []

-- The service is one that the form can hold.
structure Stable (profiles : List GPUProfile) (svc : InferenceService) : Prop where
  replicas      : svc.minReplicas = svc.maxReplicas ∧ svc.maxReplicas ≠ 0
  command       : ∀ w ∈ svc.command.getD [], IsWord w
  args          : ∀ a ∈ svc.args.getD [], IsLine a
  cpuRequest    : svc.cpuRequest.isSome
  cpuLimit      : svc.cpuLimit.isSome
  memoryRequest : svc.memoryRequest.isSome
  memoryLimit   : svc.memoryLimit.isSome
  gpuValues     : Matched profiles svc.gpuValues

theorem replicas_iff (min max : Int) :
    ((if max ≠ 0 then max else if min ≠ 0 then min else 1) = min ∧
      (if max ≠ 0 then max else if min ≠ 0 then min else 1) = max) ↔ min = max ∧ max ≠ 0 := by
  split_ifs <;> omega

theorem valid_iff (svc : InferenceService) :
    Valid (defaultsFromService svc profiles) ↔ Submittable svc := by
  have hr : (svc.kind = .inferenceService →
      (truthy (if svc.kind = .inferenceService then some svc.runtime else none)).isSome) ↔
      (svc.kind = .inferenceService → svc.runtime ≠ []) := by
    cases svc.kind <;> simp [truthy]
  constructor
  case mp =>
    intro ⟨hn, hm, hk, ⟨h₁, h₂, h₃, h₄⟩, he⟩
    exact ⟨hn, hm, hr.mp hk, h₁, h₂, h₃, h₄, he⟩
  case mpr =>
    intro ⟨hn, hm, hk, h₁, h₂, h₃, h₄, he⟩
    exact ⟨hn, hm, hr.mpr hk, ⟨h₁, h₂, h₃, h₄⟩, he⟩

theorem carries_iff (svc : InferenceService) :
    Carries (payload profiles (defaultsFromService svc profiles)) svc ↔ Stable profiles svc := by
  have hc := reread_iff rfl words_join_iff svc.command
  have ha := reread_iff rfl lines_join_iff svc.args
  have hr := replicas_iff svc.minReplicas svc.maxReplicas
  have hg := submittedValues_iff profiles svc.gpuValues
  constructor
  case mp =>
    intro h
    exact {
      replicas      := hr.mp ⟨h.minReplicas, h.maxReplicas⟩
      command       := hc.mp h.command
      args          := ha.mp h.args
      cpuRequest    := (resource_iff ..).mp h.cpuRequest
      cpuLimit      := (resource_iff ..).mp h.cpuLimit
      memoryRequest := (resource_iff ..).mp h.memoryRequest
      memoryLimit   := (resource_iff ..).mp h.memoryLimit
      gpuValues     := hg.mp h.gpuValues
    }
  case mpr =>
    intro h
    exact {
      minReplicas   := (hr.mpr h.replicas).left
      maxReplicas   := (hr.mpr h.replicas).right
      command       := hc.mpr h.command
      args          := ha.mpr h.args
      env           := rfl
      cpuRequest    := (resource_iff ..).mpr h.cpuRequest
      cpuLimit      := (resource_iff ..).mpr h.cpuLimit
      memoryRequest := (resource_iff ..).mpr h.memoryRequest
      memoryLimit   := (resource_iff ..).mpr h.memoryLimit
      gpuValues     := hg.mpr h.gpuValues
    }

theorem onOk_iff (svc : InferenceService) :
    (∀ p, onOk profiles (defaultsFromService svc profiles) = some p → Carries p svc) ↔
    (Submittable svc → Stable profiles svc) := by
  constructor
  case mp  => exact fun h hs => (carries_iff svc).mp (h _ (if_pos ((valid_iff svc).mpr hs)))
  case mpr =>
    intro h p hp
    by_cases hv : Valid (defaultsFromService svc profiles)
    case pos =>
      cases (if_pos hv).symm.trans hp
      exact (carries_iff svc).mpr (h ((valid_iff svc).mp hv))
    case neg => cases (if_neg hv).symm.trans hp

end InferenceServiceModal

namespace ServingRuntimeModal

structure Carries (p : Payload) (sr : ServingRuntime) : Prop where
  args          : p.args = sr.defaultArgs.getD []
  cpuRequest    : some p.cpuRequest = sr.cpuRequest
  cpuLimit      : some p.cpuLimit = sr.cpuLimit
  memoryRequest : some p.memoryRequest = sr.memoryRequest
  memoryLimit   : some p.memoryLimit = sr.memoryLimit
  gpuValues     : p.gpuValues.getD ∅ = sr.gpuValues.getD ∅

structure Submittable (sr : ServingRuntime) : Prop where
  name          : sr.name ≠ []
  runtime       : sr.runtime ≠ []
  image         : sr.image ≠ []
  cpuRequest    : (sr.cpuRequest <|> sr.resources.cpu).getD [] ≠ []
  cpuLimit      : (sr.cpuLimit <|> sr.resources.cpu).getD [] ≠ []
  memoryRequest : (sr.memoryRequest <|> sr.resources.memory).getD [] ≠ []
  memoryLimit   : (sr.memoryLimit <|> sr.resources.memory).getD [] ≠ []

-- A runtime without arguments stays so only if its family has no default ones.
structure Stable (profiles : List GPUProfile) (sr : ServingRuntime) : Prop where
  args          : ∀ a ∈ sr.defaultArgs.getD [], IsLine a
  present       : sr.defaultArgs.getD [] ≠ [] ∨ defaultArgsForRuntimeFamily sr.runtime = []
  cpuRequest    : sr.cpuRequest.isSome
  cpuLimit      : sr.cpuLimit.isSome
  memoryRequest : sr.memoryRequest.isSome
  memoryLimit   : sr.memoryLimit.isSome
  gpuValues     : Matched profiles sr.gpuValues

theorem valid_iff (sr : ServingRuntime) :
    Valid (defaultsFromRuntime sr profiles) ↔ Submittable sr := by
  constructor
  case mp  => intro ⟨hn, hr, hi, h₁, h₂, h₃, h₄⟩; exact ⟨hn, hr, hi, h₁, h₂, h₃, h₄⟩
  case mpr => intro ⟨hn, hr, hi, h₁, h₂, h₃, h₄⟩; exact ⟨hn, hr, hi, h₁, h₂, h₃, h₄⟩

-- The default arguments of every family are lines.
theorem isLine_defaults {runtime : Str} {a : Str} (h : a ∈ defaultArgsForRuntimeFamily runtime) :
    IsLine a := by
  have hd : ∀ p ∈ defaultServingRuntimeArgs, ∀ a ∈ p.2, IsLine a := by decide
  cases hl : defaultServingRuntimeArgs.lookup runtime
  case none   => simp [defaultArgsForRuntimeFamily, hl] at h
  case some l =>
    simp only [defaultArgsForRuntimeFamily, hl, Option.getD_some] at h
    have ⟨l₁, l₂, he, _⟩ := List.lookup_eq_some_iff.mp hl
    exact hd (runtime, l) (by simp [he]) a h

theorem args_iff (args : List Str) (runtime : Str) :
    (if Str.join args newline ≠ [] then Str.join args newline
      else defaultArgsForRuntime runtime).lines = args ↔
    (∀ a ∈ args, IsLine a) ∧ (args ≠ [] ∨ defaultArgsForRuntimeFamily runtime = []) := by
  have hd : (defaultArgsForRuntime runtime).lines = defaultArgsForRuntimeFamily runtime :=
    (lines_join_iff _).mpr fun _ => isLine_defaults
  by_cases hj : Str.join args newline = []
  case neg =>
    have hn : args ≠ [] := fun he => hj (by rw [he]; rfl)
    simp [hj, hn, lines_join_iff]
  case pos =>
    rw [if_neg (not_not.mpr hj), hd]
    cases join_eq_nil hj
    case inl he => subst he; simp
    case inr he =>
      subst he
      have hl : ¬IsLine [] := fun h => h.left rfl
      constructor
      case mp  => intro h; exact absurd (isLine_defaults (by rw [h]; exact .head _)) hl
      case mpr => intro h; exact absurd (h.left [] (.head _)) hl

theorem carries_iff (sr : ServingRuntime) :
    Carries (payload profiles (defaultsFromRuntime sr profiles)) sr ↔ Stable profiles sr := by
  have ha := args_iff (sr.defaultArgs.getD []) sr.runtime
  have hg := submittedValues_iff profiles sr.gpuValues
  constructor
  case mp =>
    intro h
    exact {
      args          := (ha.mp h.args).left
      present       := (ha.mp h.args).right
      cpuRequest    := (resource_iff ..).mp h.cpuRequest
      cpuLimit      := (resource_iff ..).mp h.cpuLimit
      memoryRequest := (resource_iff ..).mp h.memoryRequest
      memoryLimit   := (resource_iff ..).mp h.memoryLimit
      gpuValues     := hg.mp h.gpuValues
    }
  case mpr =>
    intro h
    exact {
      args          := ha.mpr ⟨h.args, h.present⟩
      cpuRequest    := (resource_iff ..).mpr h.cpuRequest
      cpuLimit      := (resource_iff ..).mpr h.cpuLimit
      memoryRequest := (resource_iff ..).mpr h.memoryRequest
      memoryLimit   := (resource_iff ..).mpr h.memoryLimit
      gpuValues     := hg.mpr h.gpuValues
    }

theorem submit_iff (sr : ServingRuntime) :
    (∀ p, submit profiles (defaultsFromRuntime sr profiles) = some p → Carries p sr) ↔
    (Submittable sr → Stable profiles sr) := by
  constructor
  case mp  => exact fun h hs => (carries_iff sr).mp (h _ (if_pos ((valid_iff sr).mpr hs)))
  case mpr =>
    intro h p hp
    by_cases hv : Valid (defaultsFromRuntime sr profiles)
    case pos =>
      cases (if_pos hv).symm.trans hp
      exact (carries_iff sr).mpr (h ((valid_iff sr).mp hv))
    case neg => cases (if_neg hv).symm.trans hp

end ServingRuntimeModal

theorem untouched_edit_iff :
    (∀ svc, (∀ p, InferenceServiceModal.onOk profiles
        (InferenceServiceModal.defaultsFromService svc profiles) = some p →
        InferenceServiceModal.Carries p svc) ↔
      (InferenceServiceModal.Submittable svc → InferenceServiceModal.Stable profiles svc)) ∧
    (∀ sr, (∀ p, ServingRuntimeModal.submit profiles
        (ServingRuntimeModal.defaultsFromRuntime sr profiles) = some p →
        ServingRuntimeModal.Carries p sr) ↔
      (ServingRuntimeModal.Submittable sr → ServingRuntimeModal.Stable profiles sr)) :=
  ⟨InferenceServiceModal.onOk_iff, ServingRuntimeModal.submit_iff⟩

-- A model that may scale from one to four replicas is pinned to four.
section Pinned

def scaled : InferenceService where
  name           := str "qwen"
  kind           := .llmInferenceService
  runtime        := str "vllm"
  modelUri       := str "hf://qwen"
  minReplicas    := 1
  maxReplicas    := 4
  resources      := ⟨some (str "8"), some (str "64Gi")⟩
  cpuRequest     := some (str "8")
  cpuLimit       := some (str "8")
  memoryRequest  := some (str "64Gi")
  memoryLimit    := some (str "64Gi")
  gpuValues      := none
  baseConfigs    := none
  modelName      := none
  containerImage := none
  env            := none
  command        := none
  args           := none
  deploymentMode := none

theorem scaled_pinned :
    ¬∀ profiles svc p, InferenceServiceModal.onOk profiles
      (InferenceServiceModal.defaultsFromService svc profiles) = some p →
      InferenceServiceModal.Carries p svc := by
  intro h
  have hs : InferenceServiceModal.Valid (InferenceServiceModal.defaultsFromService scaled []) := by
    decide
  exact absurd (h [] scaled _ (if_pos hs)).minReplicas (by decide)

end Pinned
end Console
