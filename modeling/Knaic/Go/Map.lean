import Mathlib.Data.Finmap
import Knaic.Go.Basic

namespace Go

abbrev Map (α : Type) :=
  Finmap fun _ : Str => α

namespace Map

variable {α : Type} {m : Map α} {f : Str → α → Bool}

def ofList (l : List (Str × α)) : Map α :=
  (l.map fun p => (⟨p.1, p.2⟩ : Sigma fun _ : Str => α)).toFinmap

def exists? (m : Map α) (f : α → Bool) : Bool :=
  m.any fun _ a => f a

theorem foldl_or (l : List (Sigma fun _ : Str => α)) (b : Bool) :
    l.foldl (fun d s => d || f s.1 s.2) b = (b || l.any fun s => f s.1 s.2) := by
  induction l generalizing b
  case nil       => simp
  case cons hi => simp [hi, Bool.or_assoc]

theorem exists_iff {f : α → Bool} : m.exists? f ↔ ∃ k a, m.lookup k = some a ∧ f a := by
  induction m using Finmap.induction_on
  case H l =>
    have he : exists? (AList.toFinmap l) f = l.entries.any fun s => f s.2 :=
      (foldl_or (f := fun _ => f) l.entries false).trans (Bool.false_or _)
    rw [he, List.any_eq_true]
    constructor
    case mp =>
      intro ⟨⟨k, a⟩, hm, hf⟩
      exact ⟨k, a, AList.mem_lookup_iff.mpr hm, hf⟩
    case mpr =>
      intro ⟨k, a, hm, hf⟩
      exact ⟨⟨k, a⟩, AList.mem_lookup_iff.mp hm, hf⟩

theorem lookup_insert_some {k k' : Str} {a b : α} (h : (m.insert k a).lookup k' = some b) :
    (k' = k ∧ b = a) ∨ m.lookup k' = some b := by
  by_cases he : k' = k
  case pos =>
    subst he
    exact .inl ⟨rfl, by simpa [Finmap.lookup_insert, eq_comm] using h⟩
  case neg => exact .inr (by rwa [Finmap.lookup_insert_of_ne _ he] at h)

theorem lookup_insert_fresh {k k' : Str} {a b : α} (h : m.lookup k = none)
    (hl : m.lookup k' = some b) : (m.insert k a).lookup k' = some b := by
  have hne : k' ≠ k := by
    rintro rfl
    cases h.symm.trans hl
  rwa [Finmap.lookup_insert_of_ne _ hne]

theorem lookup_erase_some {k k' : Str} {a : α} (h : (m.erase k).lookup k' = some a) :
    m.lookup k' = some a := by
  by_cases he : k' = k
  case pos =>
    subst he
    cases (Finmap.lookup_erase k' m).symm.trans h
  case neg => rwa [Finmap.lookup_erase_ne he] at h

end Map
end Go
