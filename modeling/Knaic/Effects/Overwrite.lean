import Mathlib.Data.List.Nodup

namespace Effects

variable {K V : Type} [DecidableEq K]

-- A store after a list of writes, and the last of the writes to a key.
def overwrite (f : K → Option V) (ws : List (K × V)) : K → Option V :=
  ws.foldl (fun f w => Function.update f w.1 (some w.2)) f

def lastWrite (ws : List (K × V)) (k : K) : Option V :=
  (ws.reverse.find? fun w => w.1 = k).map Prod.snd

namespace Overwrite

variable {f g : K → Option V} {ws ws' : List (K × V)} {k : K} {v : V}

theorem append (f : K → Option V) (ws ws' : List (K × V)) :
    overwrite f (ws ++ ws') = overwrite (overwrite f ws) ws' :=
  List.foldl_append

@[simp]
theorem lastWrite_nil (k : K) : lastWrite ([] : List (K × V)) k = none :=
  rfl

theorem lastWrite_append (ws ws' : List (K × V)) (k : K) :
    lastWrite (ws ++ ws') k = (lastWrite ws' k).or (lastWrite ws k) := by
  simp only [lastWrite, List.reverse_append, List.find?_append]
  cases ws'.reverse.find? fun w => w.1 = k <;> rfl

theorem lastWrite_cons (w : K × V) (ws : List (K × V)) (k : K) :
    lastWrite (w :: ws) k = (lastWrite ws k).or (if w.1 = k then some w.2 else none) := by
  have h := lastWrite_append [w] ws k
  rw [List.singleton_append] at h
  rw [h]
  congr 1
  by_cases hk : w.1 = k <;> simp [lastWrite, hk]

-- A key reads as it was last written, or as it was before.
theorem eq_lastWrite (f : K → Option V) (ws : List (K × V)) (k : K) :
    overwrite f ws k = (lastWrite ws k).or (f k) := by
  induction ws generalizing f
  case nil          => rfl
  case cons w ws hi =>
    rw [lastWrite_cons]
    refine (hi _).trans ?_
    cases lastWrite ws k
    case some => rfl
    case none =>
      by_cases hk : w.1 = k
      case pos => simp [← hk]
      case neg => simp [hk, Function.update_of_ne (Ne.symm hk)]

theorem mem_of_lastWrite (h : lastWrite ws k = some v) : (k, v) ∈ ws := by
  have ⟨w, hw, hv⟩ := Option.map_eq_some_iff.mp h
  have hk : w.1 = k := by simpa using List.find?_some hw
  have hm := List.mem_reverse.mp (List.mem_of_find?_eq_some hw)
  rwa [← hk, ← hv]

theorem lastWrite_ne_none (h : (k, v) ∈ ws) : lastWrite ws k ≠ none := by
  intro hn
  have hf := List.find?_eq_none.mp (Option.map_eq_none_iff.mp hn)
  exact hf _ (List.mem_reverse.mpr h) (by simp)

theorem lastWrite_eq_none_iff : lastWrite ws k = none ↔ ∀ v, (k, v) ∉ ws := by
  constructor
  case mp  => exact fun h v hm => lastWrite_ne_none hm h
  case mpr =>
    intro h
    cases hl : lastWrite ws k
    case none   => rfl
    case some v => exact absurd (mem_of_lastWrite hl) (h v)

-- When every key is written once at most, the last write to a key is the only one.
theorem lastWrite_eq_some_iff (h : (ws.map Prod.fst).Nodup) :
    lastWrite ws k = some v ↔ (k, v) ∈ ws := by
  refine ⟨mem_of_lastWrite, fun hm => ?_⟩
  cases hl : lastWrite ws k
  case none   => exact absurd hl (lastWrite_ne_none hm)
  case some w => exact congrArg some (List.inj_on_of_nodup_map h (mem_of_lastWrite hl) hm rfl |> Prod.mk.inj |>.2)

-- Writes leave no trace under later ones when all that they alone have written was there before.
theorem absorbed_iff : overwrite (overwrite f ws) ws' = overwrite f ws' ↔
    ∀ k v, lastWrite ws k = some v → lastWrite ws' k = none → f k = some v := by
  simp only [funext_iff, eq_lastWrite]
  constructor
  case mp =>
    intro h k v hv hn
    simpa [hv, hn, eq_comm] using h k
  case mpr =>
    intro h k
    cases hn : lastWrite ws' k
    case some => rfl
    case none =>
      cases hv : lastWrite ws k
      case none   => rfl
      case some v => simp [h k v hv hn]

end Overwrite
end Effects
