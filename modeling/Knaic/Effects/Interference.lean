import Knaic.Effects.Pool

namespace Effects

variable {S : Signature} {D σ ι α β ε : Type}

namespace Prog

-- As long as all answers are in `A`, the program ends with a result in `R`.
def Yields (A : (op : S.Op) → S.Res op → Prop) (R : α → Prop) : Prog S α → Prop
  | ret a     => R a
  | call op k => ∀ r, A op r → (k r).Yields A R

variable {A : (op : S.Op) → S.Res op → Prop} {R : α → Prop}

theorem Yields.bind {Q : β → Prop} {p : Prog S β} {f : β → Prog S α} (h : p.Yields A Q)
    (hf : ∀ b, Q b → (f b).Yields A R) : (p.bind f).Yields A R := by
  induction p
  case ret b   => exact hf b h
  case call hi => exact fun r hr => hi r (h r hr)

theorem yields_of (h : ∀ a, R a) (p : Prog S α) : p.Yields A R := by
  induction p
  case ret a   => exact h a
  case call hi => exact fun r _ => hi r

end Prog

-- What a call that may fail returns when it succeeds.
theorem Call.yields_seq {A : (op : S.Op) → S.Res op → Prop} {Q : β → Prop} {R : α → Prop}
    {p : Call S ε β} {f : β → Call S ε α} (h : Prog.Yields A (fun res => ∀ b, res = .ok b → Q b) p)
    (hf : ∀ b, Q b → Prog.Yields A (fun res => ∀ a, res = .ok a → R a) (f b)) :
    Prog.Yields A (fun res => ∀ a, res = .ok a → R a) (p >>= f : Call S ε α) := by
  rw [bind_eq]
  refine Prog.Yields.bind h fun res hq => ?_
  cases res
  case ok b    => exact hf b (hq b rfl)
  case error e => exact nofun

namespace Pool

variable {Y : Pool S D σ ι α} {c : Config S σ ι α} {ps : List (Pick D ι)}

-- In a run whose answers are all in `A`, calls return results in `R`.
theorem run_yields {A : ι → (op : S.Op) → S.Res op → Prop} {R : ι → α → Prop}
    (hc : ∀ i, (Y.code i).Yields (A i) (R i)) (h : ∀ p ∈ c.calls, p.2.Yields (A p.1) (R p.1))
    (ha : Y.Allows (fun i op d s => A i op (Y.answer i op d s).1) ps c) :
    ∀ p ∈ (Y.run c ps).calls, p.2.Yields (A p.1) (R p.1) := by
  induction ps generalizing c
  case nil          => exact h
  case cons p ps hi =>
    refine hi ?_ ha.right
    cases p
    case env     => exact h
    case start i =>
      intro q hq
      cases List.mem_append.mp hq
      case inl hm => exact h q hm
      case inr hm => cases List.mem_singleton.mp hm; exact hc i
    case act n d =>
      cases Y.next_act_cases c n d
      case inr he => rw [he]; exact h
      case inl hn =>
        have ⟨i, op, k, hn⟩ := hn
        rw [next_act hn]
        intro q hq
        cases List.mem_or_eq_of_mem_set hq
        case inl hm => exact h q hm
        case inr he => subst he; exact h _ (List.mem_of_getElem? hn) _ (ha.left i op k hn)

variable (mine : ι → Bool)

-- The calls of one party.
def own (calls : List (ι × β)) : List (ι × β) :=
  calls.filter fun p => mine p.1

-- What a step is to a party that has the pool for itself, by whose calls they are.
def ownPick (names : List ι) : Pick D ι → List (Pick D ι)
  | .start i => if mine i then [.start i] else []
  | .env d   => [.env d]
  | .act n d => if names[n]?.any mine then [.act ((names.take n).countP mine) d] else []

def withPick (names : List ι) : Pick D ι → List ι
  | .start i          => names ++ [i]
  | .env _ | .act _ _ => names

-- A run without the calls of the others.
def alone : List ι → List (Pick D ι) → List (Pick D ι)
  | _, []          => []
  | names, p :: ps => ownPick mine names p ++ alone (withPick names p) ps

section Own

variable {mine} {calls : List (ι × β)} {n : Nat} {i : ι} {b b' : β}

theorem own_set_other (hn : calls[n]? = some (i, b)) (hm : mine i = false) :
    own mine (calls.set n (i, b')) = own mine calls := by
  induction calls generalizing n
  case nil          => rfl
  case cons q qs hi =>
    cases n
    case zero   => cases hn; simp [own, hm]
    case succ n =>
      have hs := hi hn
      simp only [own, List.set_cons_succ, List.filter_cons] at hs ⊢
      rw [hs]

-- A call of the party is the one that has as many of its calls before it.
theorem own_getElem (hn : calls[n]? = some (i, b)) (hm : mine i = true) :
    (own mine calls)[((calls.map Prod.fst).take n).countP mine]? = some (i, b) := by
  induction calls generalizing n
  case nil          => cases hn
  case cons q qs hi =>
    cases n
    case zero   => cases hn; simp [own, hm]
    case succ n =>
      have hs := hi hn
      cases hq : mine q.1
      case false => simpa [own, hq] using hs
      case true  => simpa [own, hq] using hs

theorem own_set (hn : calls[n]? = some (i, b)) (hm : mine i = true) :
    own mine (calls.set n (i, b')) =
      (own mine calls).set (((calls.map Prod.fst).take n).countP mine) (i, b') := by
  induction calls generalizing n
  case nil          => cases hn
  case cons q qs hi =>
    cases n
    case zero   => cases hn; simp [own, hm]
    case succ n =>
      have hs := hi hn
      cases hq : mine q.1
      case false => simpa [own, hq] using hs
      case true  => simpa [own, hq] using hs

end Own
end Pool

open Pool

-- What one party sees of the state is related by `sim`: its own operations do the same in states that
-- look alike, and the operations of the others show nothing.
structure Unwinding {Y : Pool S D σ ι α} (C : Contract Y) (P : Condition S D σ ι) (mine : ι → Bool)
    (sim : σ → σ → Prop) : Prop where
  allows : mine i = true → sim s t → P i op d s → P i op d t
  same   : mine i = true → sim s t → C.inv s → C.inv t → C.guar i op d s → C.guar i op d t →
           (Y.answer i op d s).1 = (Y.answer i op d t).1 ∧
           sim (Y.answer i op d s).2 (Y.answer i op d t).2
  other  : mine i = false → sim s t → C.inv s → C.guar i op d s → sim (Y.answer i op d s).2 t
  env    : sim s t → sim (Y.env d s) (Y.env d t)

namespace Unwinding

variable {Y : Pool S D σ ι α} {C : Contract Y} {P : Condition S D σ ι} {mine : ι → Bool}
  {sim : σ → σ → Prop} {c c' : Config S σ ι α} {p : Pick D ι} {ps : List (Pick D ι)}

-- The second configuration is what the first one is to the party, and both keep their promises.
structure Alike (C : Contract Y) (P : Condition S D σ ι) (mine : ι → Bool) (sim : σ → σ → Prop)
    (c c' : Config S σ ι α) : Prop where
  holds  : C.Holds P c
  holds' : C.Holds P c'
  world  : sim c.world c'.world
  calls  : c'.calls = own mine c.calls

theorem Alike.next (U : Unwinding C P mine sim) (hc : C.Keeps P) (h : Alike C P mine sim c c')
    (hp : Meets P c p) :
    Alike C P mine sim (Y.next c p) (Y.run c' (ownPick mine (c.calls.map Prod.fst) p)) := by
  have hh := h.holds.next hc hp
  cases p
  case env d   => exact ⟨hh, h.holds'.next hc (p := .env d) trivial, U.env h.world, h.calls⟩
  case start i =>
    simp only [ownPick]
    split
    case isTrue hm  =>
      refine ⟨hh, h.holds'.next hc (p := .start i) trivial, h.world, ?_⟩
      simp [Pool.next, own, hm, h.calls]
    case isFalse hm =>
      refine ⟨hh, h.holds', h.world, ?_⟩
      simp [Pool.next, own, hm, h.calls]
  case act n d =>
    cases hn : c.calls[n]?
    case none   =>
      have he : Y.next c (.act n d) = c := next_idle fun i op k hs => by cases hn.symm.trans hs
      rw [he]
      simpa [ownPick, hn] using h
    case some q =>
      obtain ⟨i, p⟩ := q
      cases hm : mine i
      case false =>
        simp only [ownPick, List.getElem?_map, hn, Option.map_some, Option.any_some, hm]
        cases p
        case ret a     =>
          have he : Y.next c (.act n d) = c := next_idle fun i op k hs => by cases hn.symm.trans hs
          rwa [he]
        case call op k =>
          have hg := (h.holds.act hn (hp i op k hn)).left
          rw [next_act hn] at hh ⊢
          exact ⟨hh, h.holds', U.other hm h.world h.holds.inv hg, h.calls.trans (own_set_other hn hm).symm⟩
      case true  =>
        have hn' := own_getElem hn hm
        rw [← h.calls] at hn'
        simp only [ownPick, List.getElem?_map, hn, Option.map_some, Option.any_some, hm, if_true,
          run_cons, run_nil]
        cases p
        case ret a     =>
          have he : Y.next c (.act n d) = c := next_idle fun i op k hs => by cases hn.symm.trans hs
          have he' := next_idle (Y := Y) (d := d) (c := c') fun i op k hs => by cases hn'.symm.trans hs
          rwa [he, he']
        case call op k =>
          have hq  := hp i op k hn
          have hq' := U.allows hm h.world hq
          have hp' : Meets P c' (.act (((c.calls.map Prod.fst).take n).countP mine) d) := by
            intro j op' k' hs
            cases hn'.symm.trans hs
            exact hq'
          obtain ⟨ha, hs⟩ := U.same hm h.world h.holds.inv h.holds'.inv (h.holds.act hn hq).left
            (h.holds'.act hn' hq').left
          have hh' := h.holds'.next hc hp'
          rw [next_act hn] at hh ⊢
          rw [next_act hn'] at hh' ⊢
          refine ⟨hh, hh', hs, ?_⟩
          rw [h.calls, own_set hn hm, ha]

theorem names_next : (Y.next c p).calls.map Prod.fst = withPick (c.calls.map Prod.fst) p := by
  cases p
  case start   => simp [Pool.next, withPick]
  case env     => rfl
  case act n d =>
    cases Y.next_act_cases c n d
    case inr he => rw [he]; rfl
    case inl hn =>
      obtain ⟨i, op, k, hn⟩ := hn
      obtain ⟨hl, he⟩ := List.getElem?_eq_some_iff.mp hn
      have hl' : n < (c.calls.map Prod.fst).length := by simpa using hl
      have hs := List.set_getElem_self hl'
      rw [next_act hn, withPick, List.map_set]
      simpa [he] using hs

-- A run looks to the party as if the others had not been there.
theorem Alike.run (U : Unwinding C P mine sim) (hc : C.Keeps P) (h : Alike C P mine sim c c')
    (hp : Y.Allows P ps c) :
    Alike C P mine sim (Y.run c ps) (Y.run c' (alone mine (c.calls.map Prod.fst) ps)) := by
  induction ps generalizing c c'
  case nil          => exact h
  case cons p ps hi =>
    have hn := hi (h.next U hc hp.left) hp.right
    rwa [names_next, ← run_append] at hn

-- In two runs that differ in what the others do, the calls of the party go the same way.
theorem own_calls (U : Unwinding C P mine sim) (hc : C.Keeps P) {s : σ} (hs : sim s s)
    (hi : C.inv s) {ps qs : List (Pick D ι)} (hp : Y.Allows P ps ⟨s, []⟩) (hq : Y.Allows P qs ⟨s, []⟩)
    (h : alone mine [] ps = alone mine [] qs) :
    own mine (Y.run ⟨s, []⟩ ps).calls = own mine (Y.run ⟨s, []⟩ qs).calls := by
  have ha : Alike C P mine sim ⟨s, []⟩ ⟨s, []⟩ := ⟨⟨hi, by simp⟩, ⟨hi, by simp⟩, hs, rfl⟩
  rw [← (ha.run U hc hp).calls, ← (ha.run U hc hq).calls]
  exact congrArg (fun ps => (Y.run ⟨s, []⟩ ps).calls) h

end Unwinding
end Effects
