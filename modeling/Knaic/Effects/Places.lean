import Knaic.Effects.Pool

namespace Effects

-- The places in the code of the calls of a pool: what is left to do from each of them, and where a call
-- goes on when an operation has been answered.
structure Places {S : Signature} {D σ ι α : Type} (Y : Pool S D σ ι α) (π : Type) where
  code       : π → Prog S α
  start      : ι → π
  hear       : π → (op : S.Op) → S.Res op → π
  start_code : ∀ i, code (start i) = Y.code i
  hear_code  : ∀ {p op k}, code p = .call op k → ∀ r, code (hear p op r) = k r

-- A configuration with the places where the calls are.
structure Placed (σ ι π : Type) where
  world : σ
  calls : List (ι × π)

namespace Places

variable {S : Signature} {D σ ι α π : Type} {Y : Pool S D σ ι α}

def next (L : Places Y π) (s : Placed σ ι π) : Pick D ι → Placed σ ι π
  | .start i => { s with calls := s.calls ++ [(i, L.start i)] }
  | .env d   => { s with world := Y.env d s.world }
  | .act n d =>
    match s.calls[n]? with
    | none        => s
    | some (i, p) =>
      match L.code p with
      | .ret _     => s
      | .call op _ =>
        let a := Y.answer i op d s.world
        ⟨a.2, s.calls.set n (i, L.hear p op a.1)⟩

def run (L : Places Y π) (s : Placed σ ι π) (ps : List (Pick D ι)) : Placed σ ι π :=
  ps.foldl L.next s

def config (L : Places Y π) (s : Placed σ ι π) : Config S σ ι α :=
  ⟨s.world, s.calls.map fun c => (c.1, L.code c.2)⟩

-- What holds of every state of a run and the step that is taken from it.
def Throughout (L : Places Y π) (R : Placed σ ι π → Pick D ι → Prop) :
    List (Pick D ι) → Placed σ ι π → Prop
  | [], _      => True
  | p :: ps, s => R s p ∧ L.Throughout R ps (L.next s p)

def decideThroughout (L : Places Y π) {R : Placed σ ι π → Pick D ι → Prop} [∀ s p, Decidable (R s p)] :
    (ps : List (Pick D ι)) → (s : Placed σ ι π) → Decidable (L.Throughout R ps s)
  | [], _      => isTrue trivial
  | p :: ps, s =>
    have : Decidable (L.Throughout R ps (L.next s p)) := L.decideThroughout ps _
    inferInstanceAs (Decidable (R s p ∧ L.Throughout R ps (L.next s p)))

variable {L : Places Y π} {s : Placed σ ι π} {ps : List (Pick D ι)}

instance instDecidableThroughout {R : Placed σ ι π → Pick D ι → Prop} [∀ s p, Decidable (R s p)] :
    Decidable (L.Throughout R ps s) :=
  L.decideThroughout ps s

theorem config_calls (n : Nat) :
    (L.config s).calls[n]? = (s.calls[n]?).map fun c => (c.1, L.code c.2) := by
  simp [config]

theorem next_act {n : Nat} {d : D} {i : ι} {p : π} {op : S.Op} {k : S.Res op → Prog S α}
    (hn : s.calls[n]? = some (i, p)) (hc : L.code p = .call op k) :
    L.next s (.act n d) =
      ⟨(Y.answer i op d s.world).2, s.calls.set n (i, L.hear p op (Y.answer i op d s.world).1)⟩ := by
  simp only [next, hn, hc]

theorem next_over {n : Nat} {d : D} {i : ι} {p : π} {a : α} (hn : s.calls[n]? = some (i, p))
    (hc : L.code p = .ret a) : L.next s (.act n d) = s := by
  simp only [next, hn, hc]

theorem next_none {n : Nat} {d : D} (hn : s.calls[n]? = none) : L.next s (.act n d) = s := by
  simp only [next, hn]

-- The calls of the pool do what is left to do from the places.
theorem next_config (p : Pick D ι) : L.config (L.next s p) = Y.next (L.config s) p := by
  cases p
  case start i => simp [config, next, Pool.next, L.start_code]
  case env     => rfl
  case act n d =>
    cases hn : s.calls[n]?
    case none   =>
      rw [next_none hn, Pool.next_idle]
      simp [config_calls, hn]
    case some c =>
      obtain ⟨i, p⟩ := c
      cases hc : L.code p
      case ret a     =>
        rw [next_over hn hc, Pool.next_idle]
        simp [config_calls, hn, hc]
      case call op k =>
        have hm : (L.config s).calls[n]? = some (i, .call op k) := by simp [config_calls, hn, hc]
        rw [next_act hn hc, Pool.next_act hm]
        simp [config, List.map_set, L.hear_code hc]

theorem run_config : L.config (L.run s ps) = Y.run (L.config s) ps := by
  induction ps generalizing s
  case nil          => rfl
  case cons p ps hi =>
    rw [Pool.run_cons, ← next_config]
    exact hi

theorem throughout_config {R : Config S σ ι α → Pick D ι → Prop} :
    L.Throughout (fun s p => R (L.config s) p) ps s ↔ Y.Throughout R ps (L.config s) := by
  induction ps generalizing s
  case nil     => rfl
  case cons hi => simp only [Throughout, Pool.Throughout, hi, next_config]

-- What every allowed step keeps holds throughout.
section Invariant

variable {I : Placed σ ι π → Prop} {R R' : Placed σ ι π → Pick D ι → Prop}
         (hs : ∀ s p, I s → R s p → I (L.next s p))
include hs

theorem run_invariant (h : I s) (hr : L.Throughout R ps s) : I (L.run s ps) := by
  induction ps generalizing s
  case nil     => exact h
  case cons hi => exact hi (hs _ _ h hr.left) hr.right

theorem throughout_invariant (h : I s) (hr : L.Throughout R ps s) (hq : ∀ s p, I s → R s p → R' s p) :
    L.Throughout R' ps s := by
  induction ps generalizing s
  case nil     => trivial
  case cons hi => exact ⟨hq _ _ h hr.left, hi (hs _ _ h hr.left) hr.right⟩

end Invariant
end Places
end Effects
