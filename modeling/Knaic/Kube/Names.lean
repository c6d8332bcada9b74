import Knaic.Kube.Objects

open Go

namespace Kube

def isLowerOrDigit (b : UInt8) : Bool :=
  97 ≤ b && b ≤ 122 || 48 ≤ b && b ≤ 57

def isAlphanumeric (b : UInt8) : Bool :=
  isLowerOrDigit b || 65 ≤ b && b ≤ 90

-- What stands between the dots of a name.
def IsNamePart (s : Str) : Bool :=
  s ≠ [] && s.head? ≠ some 45 && s.getLast? ≠ some 45 && s.all fun b => isLowerOrDigit b || b == 45

def IsDNS1123Subdomain (name : Str) : Bool :=
  name.length ≤ 253 && (name.splitOn 46).all IsNamePart

-- A Service is named like a label that begins with a letter.
def IsDNS1035Label (name : Str) : Bool :=
  IsDNS1123Label name && name.head?.all fun b => 97 ≤ b && b ≤ 122

def IsLabelValue (value : Str) : Bool :=
  value.length ≤ 63 && (value = [] ||
    value.head?.all isAlphanumeric && value.getLast?.all isAlphanumeric &&
      value.all fun b => isAlphanumeric b || b == 45 || b == 46 || b == 95)

theorem isDNS1123Label_iff {name : Str} :
    IsDNS1123Label name ↔ IsNamePart name ∧ name.length ≤ 63 := by
  simp only [IsDNS1123Label, IsNamePart, isLowerOrDigit, Bool.and_eq_true, decide_eq_true_eq]
  tauto

theorem isNamePart_iff {s : Str} : IsNamePart s ↔ s ≠ [] ∧ (∀ b ∈ s.head?, isLowerOrDigit b) ∧
    (∀ b ∈ s.getLast?, isLowerOrDigit b) ∧ ∀ b ∈ s, isLowerOrDigit b ∨ b = 45 := by
  simp only [IsNamePart, Bool.and_eq_true, decide_eq_true_eq, List.all_eq_true, Bool.or_eq_true,
    beq_iff_eq]
  constructor
  case mp =>
    rintro ⟨⟨⟨hn, hh⟩, hl⟩, hb⟩
    refine ⟨hn, fun b hm => ?_, fun b hm => ?_, hb⟩
    case refine_1 => exact (hb b (List.mem_of_mem_head? hm)).resolve_right fun he => hh (he ▸ hm)
    case refine_2 => exact (hb b (List.mem_of_getLast? hm)).resolve_right fun he => hl (he ▸ hm)
  case mpr =>
    rintro ⟨hn, hh, hl, hb⟩
    exact ⟨⟨⟨hn, fun he => absurd (hh 45 he) (by decide)⟩, fun he => absurd (hl 45 he) (by decide)⟩, hb⟩

-- What can be told of a name with dots in it without taking it apart.
structure Dotted (s : Str) : Prop where
  nonempty : s ≠ []
  head     : ∀ b ∈ s.head?, isLowerOrDigit b
  last     : ∀ b ∈ s.getLast?, isLowerOrDigit b
  bytes    : ∀ b ∈ s, isLowerOrDigit b ∨ b = 45 ∨ b = 46

theorem dotted_part {s : Str} (h : IsNamePart s) : Dotted s := by
  obtain ⟨hn, hh, hl, hb⟩ := isNamePart_iff.mp h
  exact ⟨hn, hh, hl, fun b hm => (hb b hm).imp_right .inl⟩

theorem dotted_join {parts : List Str} (hn : parts ≠ []) (h : ∀ p ∈ parts, IsNamePart p) :
    Dotted ([46].intercalate parts) := by
  induction parts
  case nil => exact absurd rfl hn
  case cons p ps hi =>
    have hp := dotted_part (h p (.head _))
    cases ps
    case nil => simpa using hp
    case cons q ps =>
      have hr := hi (by simp) fun r hm => h r (.tail _ hm)
      rw [List.intercalate_cons_cons, List.append_assoc, List.singleton_append]
      generalize [46].intercalate (q :: ps) = rest at hr
      constructor
      case nonempty => simp
      case head =>
        intro b hm
        rw [List.head?_append_of_ne_nil _ hp.nonempty] at hm
        exact hp.head b hm
      case last =>
        intro b hm
        rw [List.getLast?_append_of_ne_nil _ (by simp), List.getLast?_cons_of_ne_nil hr.nonempty] at hm
        exact hr.last b hm
      case bytes =>
        intro b hm
        simp only [List.mem_append, List.mem_cons] at hm
        cases hm
        case inl hm => exact hp.bytes b hm
        case inr hm =>
          cases hm
          case inl he => exact .inr (.inr he)
          case inr hm => exact hr.bytes b hm

theorem dotted_subdomain {name : Str} (h : IsDNS1123Subdomain name) : Dotted name := by
  simp only [IsDNS1123Subdomain, Bool.and_eq_true, List.all_eq_true] at h
  have hj : [46].intercalate (name.splitOn 46) = name := List.intercalate_splitOn 46
  rw [← hj]
  exact dotted_join (List.splitOn_ne_nil 46 name) h.right

-- A name with dots is a label value if it is short enough.
theorem labelValue_dotted {s : Str} (h : Dotted s) : IsLabelValue s ↔ s.length ≤ 63 := by
  have ha (b : UInt8) (hb : isLowerOrDigit b = true) : isAlphanumeric b = true := by
    simp [isAlphanumeric, hb]
  have hall : s.all fun b => isAlphanumeric b || b == 45 || b == 46 || b == 95 := by
    refine List.all_eq_true.mpr fun b hm => ?_
    cases h.bytes b hm
    case inl hl => simp [ha b hl]
    case inr he => cases he <;> simp_all
  have hhead : s.head?.all isAlphanumeric := by
    rw [Option.all_eq_true]
    exact fun b hm => ha b (h.head b hm)
  have hlast : s.getLast?.all isAlphanumeric := by
    rw [Option.all_eq_true]
    exact fun b hm => ha b (h.last b hm)
  simp [IsLabelValue, hall, hhead, hlast]

end Kube
