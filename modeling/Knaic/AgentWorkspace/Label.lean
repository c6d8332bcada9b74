import Knaic.AgentWorkspace.Name
import Knaic.Kube.Names

open Go Utf8 Kube

namespace AgentWorkspace

-- The name is one for a Deployment, a Service and the start of one for a PVC, and what is left of it
-- a label value that says who is the owner.
structure Named (ownerID : Str) : Prop where
  name  : IsDNS1123Label (workspaceName ownerID)
  owner : ownerLabelValue ownerID ≠ [] ∧ IsLabelValue (ownerLabelValue ownerID)

-- The cut does not fall on a rune that is no letter or digit.
def CutClean (ownerID : Str) : Prop :=
  ∀ r, (core ownerID)[39]? = some r → alnum r

section Ends

variable (ownerID : Str)

theorem dropWhile_head {p : Nat → Bool} {l : List Nat} {r : Nat} (h : (l.dropWhile p).head? = some r) :
    p r = false := by
  have hn := List.head?_dropWhile_not p l
  rwa [h] at hn

theorem core_head {r : Nat} (h : (core ownerID).head? = some r) : alnum r := by
  have hp : core ownerID <+: (runes ownerID).dropWhile (!alnum ·) := by
    rw [core, ← List.reverse_suffix, List.reverse_reverse]
    exact List.dropWhile_suffix _
  obtain ⟨t, ht⟩ := hp
  have hd : ((runes ownerID).dropWhile (!alnum ·)).head? = some r := by
    rw [← ht, List.head?_append, h]
    rfl
  simpa using dropWhile_head hd

theorem core_last {r : Nat} (h : (core ownerID).getLast? = some r) : alnum r := by
  rw [core, List.getLast?_reverse] at h
  simpa using dropWhile_head h

theorem named_ne_nil : named ownerID ≠ [] := by
  unfold named
  split
  case isTrue   => simp
  case isFalse h => exact h

theorem named_head {r : Nat} (h : (named ownerID).head? = some r) : alnum r := by
  unfold named at h
  split at h
  case isTrue  => cases h; decide
  case isFalse => exact core_head ownerID h

theorem named_last {r : Nat} (h : (named ownerID).getLast? = some r) : alnum r := by
  unfold named at h
  split at h
  case isTrue  => cases h; decide
  case isFalse => exact core_last ownerID h

theorem named_fortieth : (named ownerID)[39]? = (core ownerID)[39]? := by
  unfold named
  split
  case isTrue h => rw [h]; rfl
  case isFalse  => rfl

-- The last rune that is kept.
theorem cut_last : (∀ r, ((named ownerID).take 40).getLast? = some r → alnum r) ↔ CutClean ownerID := by
  rw [CutClean, List.getLast?_take, if_neg (by decide), named_fortieth]
  cases (core ownerID)[39]?
  case none   => simpa using fun r => named_last ownerID
  case some r => simp

end Ends

-- What the slug is made of.
theorem isLowerOrDigit_slug (r : Nat) : isLowerOrDigit (slugRune r) = alnum r := by
  rw [Bool.eq_iff_iff]
  simp only [isLowerOrDigit, Bool.or_eq_true, Bool.and_eq_true, decide_eq_true_eq,
    UInt8.le_iff_toNat_le, UInt8.reduceToNat, slugRune_toNat]
  simp only [alnum, lower, Bool.and_eq_true, Bool.or_eq_true, decide_eq_true_eq]
  split_ifs <;> omega

theorem slug_bytes (rs : List Nat) :
    ∀ b ∈ rs.map slugRune, (isLowerOrDigit b || b == 45) = true := by
  intro b hb
  obtain ⟨r, -, rfl⟩ := List.mem_map.mp hb
  rw [isLowerOrDigit_slug, slugRune_dash]
  exact Bool.or_not_self _

section Names

variable {slug : Str} (hn : slug ≠ []) (hl : slug.length ≤ 40)
  (hb : ∀ b ∈ slug, (isLowerOrDigit b || b == 45) = true)
include hn hl hb

-- A slug is a good end of a name if it does not end with a dash.
theorem label_iff : IsDNS1123Label (resourcePrefix ++ slug) ↔ slug.getLast? ≠ some 45 := by
  have hlast : (resourcePrefix ++ slug).getLast? = slug.getLast? :=
    List.getLast?_append_of_ne_nil _ hn
  have hlen : (resourcePrefix ++ slug).length ≤ 63 := by
    rw [List.length_append]
    have hp : resourcePrefix.length = 12 := by decide
    omega
  have hall : (resourcePrefix ++ slug).all fun b => isLowerOrDigit b || b == 45 := by
    rw [List.all_append, Bool.and_eq_true]
    exact ⟨by decide, List.all_eq_true.mpr hb⟩
  have hhead : (resourcePrefix ++ slug).head? = some 107 := rfl
  have hne : resourcePrefix ++ slug ≠ [] := by simp [hn]
  rw [isDNS1123Label_iff, IsNamePart, hlast, hall, hhead, decide_eq_true hne]
  simp only [hlen, Bool.true_and, Bool.and_true, and_true, Bool.and_eq_true, decide_eq_true_eq]
  exact and_iff_right (by decide)

theorem labelValue_slug (hh : slug.head? ≠ some 45) (ht : slug.getLast? ≠ some 45) :
    IsLabelValue slug := by
  have hp : IsNamePart slug := by
    simp only [IsNamePart, Bool.and_eq_true, decide_eq_true_eq]
    exact ⟨⟨⟨hn, hh⟩, ht⟩, List.all_eq_true.mpr hb⟩
  exact (labelValue_dotted (dotted_part hp)).mpr (by omega)

end Names

theorem workspace_named_iff (ownerID : Str) : Named ownerID ↔ CutClean ownerID := by
  have hn : ((named ownerID).take 40).map slugRune ≠ [] := by simp [named_ne_nil]
  have hl : (((named ownerID).take 40).map slugRune).length ≤ 40 := by
    rw [List.length_map]
    exact List.length_take_le ..
  have hh : (((named ownerID).take 40).map slugRune).head? ≠ some 45 := by
    rw [List.head?_map, List.head?_take, if_neg (by decide)]
    intro he
    obtain ⟨r, hr, h45⟩ := Option.map_eq_some_iff.mp he
    have ha := slugRune_dash r
    rw [h45, named_head ownerID hr] at ha
    cases ha
  have hlast : (((named ownerID).take 40).map slugRune).getLast? ≠ some 45 ↔ CutClean ownerID := by
    rw [← cut_last, List.getLast?_map]
    cases ((named ownerID).take 40).getLast?
    case none   => simp
    case some r =>
      have ha := slugRune_dash r
      simp only [Option.map_some, ne_eq, Option.some.injEq, forall_eq']
      rw [← beq_iff_eq, ha]
      simp
  have howner : ownerLabelValue ownerID = ((named ownerID).take 40).map slugRune := by
    rw [ownerLabelValue, workspaceName_eq, Str.trimPrefix_append]
  rw [← hlast]
  constructor
  case mp =>
    intro h
    have hname := h.name
    rw [workspaceName_eq] at hname
    exact (label_iff hn hl (slug_bytes _)).mp hname
  case mpr =>
    intro h
    constructor
    case name =>
      rw [workspaceName_eq]
      exact (label_iff hn hl (slug_bytes _)).mpr h
    case owner =>
      rw [howner]
      exact ⟨hn, labelValue_slug hn hl (slug_bytes _) hh h⟩

-- An address whose fortieth byte is a dot.
def longAddress : Str :=
  str "a-rather-long-mailbox-name@mail-servers.example.org"

theorem longAddress_misnamed : ¬Named longAddress := by
  intro h
  have hname : IsDNS1123Label (workspaceName longAddress) = true := h.name
  revert hname
  decide

end AgentWorkspace
