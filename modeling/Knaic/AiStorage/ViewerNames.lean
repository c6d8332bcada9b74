import Knaic.AiStorage.Viewer
import Knaic.Kube.Names

open Go

namespace AiStorage

open Kube

-- The objects of a viewer have names and labels that the API server takes.
structure ViewerNamed (s : Service) (ns pvc : Str) : Prop where
  deployment : IsDNS1123Subdomain (s.viewerDeployment ns pvc).metadata.name
  service    : IsDNS1035Label (Service.viewerService ns pvc).metadata.name
  labels     : ∀ labels ∈ [(s.viewerDeployment ns pvc).metadata.labels,
                 (s.viewerDeployment ns pvc).body.podLabels,
                 (s.viewerDeployment ns pvc).body.selector,
                 (Service.viewerService ns pvc).metadata.labels,
                 (Service.viewerService ns pvc).body.selector],
               ∀ k v, labels.lookup k = some v → IsLabelValue v

-- The PVC is a label's length, has no dot in what is kept of its name and is not cut after a dash.
structure Plain (pvc : Str) : Prop where
  length : pvc.length ≤ 63
  dots   : 46 ∉ pvc.take 40
  cut    : pvc[39]? ≠ some 45

section Names

variable {pvc : Str}

theorem take_ne_nil (h : Dotted pvc) : pvc.take 40 ≠ [] := by
  simp [h.nonempty]

-- What is kept of a name ends with the fortieth byte or with the name.
theorem take_last (h : Dotted pvc) (hc : pvc[39]? ≠ some 45) :
    (pvc.take 40).getLast? ≠ some 45 := by
  rw [List.getLast?_take, if_neg (by decide)]
  cases hx : pvc[39]?
  case some b => simpa [hx] using hc
  case none =>
    intro he
    exact absurd (h.last 45 (by simpa using he)) (by decide)

theorem viewerName_part (h : Dotted pvc) :
    IsNamePart (viewerName pvc) ↔ 46 ∉ pvc.take 40 ∧ pvc[39]? ≠ some 45 := by
  have hlast : (viewerName pvc).getLast? = (pvc.take 40).getLast? :=
    List.getLast?_append_of_ne_nil _ (take_ne_nil h)
  rw [isNamePart_iff, hlast]
  constructor
  case mp =>
    rintro ⟨-, -, hl, hb⟩
    refine ⟨fun hd => ?_, fun hc => ?_⟩
    case refine_1 => exact absurd (hb 46 (List.mem_append_right _ hd)) (by decide)
    case refine_2 =>
      have he : (pvc.take 40).getLast? = some 45 := by
        rw [List.getLast?_take, if_neg (by decide), hc]
        rfl
      exact absurd (hl 45 he) (by decide)
  case mpr =>
    rintro ⟨hd, hc⟩
    have hb : ∀ b ∈ pvc.take 40, isLowerOrDigit b ∨ b = 45 := by
      intro b hm
      cases h.bytes b (List.mem_of_mem_take hm)
      case inl hl => exact .inl hl
      case inr he => exact .inr (he.resolve_right fun hx => hd (hx ▸ hm))
    refine ⟨by simp [viewerName, take_ne_nil h], ?_, ?_, ?_⟩
    case refine_1 =>
      intro b hm
      cases hm
      decide
    case refine_2 =>
      intro b hm
      exact (hb b (List.mem_of_getLast? hm)).resolve_right fun he => take_last h hc (he ▸ hm)
    case refine_3 =>
      intro b hm
      cases List.mem_append.mp hm
      case inl hm =>
        have hp : (str "pvcv-").all fun b => isLowerOrDigit b || b == 45 := by decide
        simpa using List.all_eq_true.mp hp b hm
      case inr hm => exact hb b hm

theorem viewerName_length (pvc : Str) : (viewerName pvc).length ≤ 45 := by
  have hp : (str "pvcv-").length = 5 := by decide
  rw [viewerName, List.length_append, hp]
  have ht := List.length_take_le 40 pvc
  omega

theorem viewerName_service (h : Dotted pvc) :
    IsDNS1035Label (viewerName pvc) ↔ 46 ∉ pvc.take 40 ∧ pvc[39]? ≠ some 45 := by
  have hhead : (viewerName pvc).head? = some 112 := rfl
  have hlen := viewerName_length pvc
  rw [IsDNS1035Label, hhead, Bool.and_eq_true, isDNS1123Label_iff, viewerName_part h]
  have hl : (viewerName pvc).length ≤ 63 := by omega
  simp [hl]

end Names

theorem lookup_ofList {α : Type} {l : List (Str × α)} {k : Str} {a : α}
    (h : (Go.Map.ofList l).lookup k = some a) : (k, a) ∈ l := by
  rw [Go.Map.ofList, Finmap.dlookup_list_toFinmap] at h
  obtain ⟨p, hp, he⟩ := List.mem_map.mp (List.of_mem_dlookup h)
  cases he
  exact hp

theorem viewer_named_iff (s : Service) (ns pvc : Str) (hp : IsDNS1123Subdomain pvc) :
    ViewerNamed s ns pvc ↔ Plain pvc := by
  have h := dotted_subdomain hp
  constructor
  case mp =>
    intro hv
    obtain ⟨hd, hc⟩ := (viewerName_service h).mp hv.service
    have hl := hv.labels (viewerLabels pvc) (.head _) labelPVC pvc (viewerLabels_pvc pvc)
    exact ⟨(labelValue_dotted h).mp hl, hd, hc⟩
  case mpr =>
    intro hpl
    have hpart : IsNamePart (viewerName pvc) := (viewerName_part h).mpr ⟨hpl.dots, hpl.cut⟩
    have hlen := viewerName_length pvc
    have happ : IsLabelValue (viewerName pvc) :=
      (labelValue_dotted (dotted_part hpart)).mpr (by omega)
    have hlabels : ∀ k v, (viewerLabels pvc).lookup k = some v → IsLabelValue v := by
      intro k v hl
      have hm := lookup_ofList hl
      simp only [List.mem_cons, Prod.mk.injEq, List.not_mem_nil, or_false] at hm
      rcases hm with ⟨-, rfl⟩ | ⟨-, rfl⟩ | ⟨-, rfl⟩ | ⟨-, rfl⟩
      case inl            => decide
      case inr.inl        => decide
      case inr.inr.inl    => exact (labelValue_dotted h).mpr hpl.length
      case inr.inr.inr    => exact happ
    have hselector : ∀ k v, (Go.Map.ofList [(str "app", viewerName pvc)]).lookup k = some v →
        IsLabelValue v := by
      intro k v hl
      have hm := lookup_ofList hl
      rw [List.mem_singleton, Prod.mk.injEq] at hm
      rw [hm.right]
      exact happ
    constructor
    case deployment =>
      have hd : 46 ∉ viewerName pvc := by
        intro hm
        have hb := (isNamePart_iff.mp hpart).right.right.right 46 hm
        exact absurd hb (by decide)
      have hn : IsDNS1123Subdomain (viewerName pvc) := by
        rw [IsDNS1123Subdomain, List.splitOn_eq_singleton hd, List.all_cons, hpart]
        simp
        omega
      exact hn
    case service => exact (viewerName_service h).mpr ⟨hpl.dots, hpl.cut⟩
    case labels =>
      intro labels hm
      simp only [List.mem_cons, List.not_mem_nil, or_false] at hm
      rcases hm with rfl | rfl | rfl | rfl | rfl
      case inl | inr.inl | inr.inr.inr.inl       => exact hlabels
      case inr.inr.inl | inr.inr.inr.inr         => exact hselector

-- A claim of a stateful set that is named after a domain.
def siteClaim : Str :=
  str "data-shop.example.org"

theorem viewer_named_data :
    ViewerNamed ⟨⟨[]⟩, fun _ => []⟩ (str "team") (str "data") ↔ Plain (str "data") :=
  viewer_named_iff _ _ _ (by decide)

theorem dotted_claim_misnamed : IsDNS1123Subdomain siteClaim ∧
    ¬ViewerNamed ⟨⟨[]⟩, fun _ => []⟩ (str "team") siteClaim := by
  refine ⟨by decide, fun h => ?_⟩
  have hs : IsDNS1035Label (viewerName siteClaim) = true := h.service
  revert hs
  decide

end AiStorage
