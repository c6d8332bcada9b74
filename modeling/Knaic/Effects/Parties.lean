import Mathlib.Data.List.Nodup
import Knaic.Effects.Pool

namespace Effects

open Pool

-- What calls promise each other that can be told apart by what started them: `rely i` is what call
-- `i` may assume about the steps of all others, `idle i` holds as long as nothing in the state is
-- due to call `i`, and every operation is to satisfy `keeps`.
structure Pact {S : Signature} {D σ ι α : Type} (Y : Pool S D σ ι α) where
  inv         : σ → Prop
  rely        : ι → σ → σ → Prop
  idle        : ι → σ → Prop
  keeps       : Condition S D σ ι
  refl        : ∀ i s, rely i s s
  trans       : rely i s₁ s₂ → rely i s₂ s₃ → rely i s₁ s₃
  env_inv     : inv s → inv (Y.env d s)
  env_rely    : inv s → rely i s (Y.env d s)
  idle_stable : idle i s → rely i s s' → idle i s'

-- Calls do not start under a name that is taken.
def Pool.Fresh {S : Signature} {D σ ι α : Type} (c : Config S σ ι α) : Pick D ι → Prop
  | .start i => ∀ p ∈ c.calls, p.1 ≠ i
  | _        => True

instance {S : Signature} {D σ ι α : Type} [DecidableEq ι] (c : Config S σ ι α) (p : Pick D ι) :
    Decidable (Fresh c p) :=
  match p with
  | .start i          => inferInstanceAs (Decidable (∀ p ∈ c.calls, p.1 ≠ i))
  | .env _ | .act _ _ => isTrue trivial

namespace Pact

variable {S : Signature} {D σ ι α β γ : Type} {Y : Pool S D σ ι α} {P : Condition S D σ ι}

-- What one operation of call `i` owes to the others.
structure Does (C : Pact Y) (i : ι) (op : S.Op) (d : D) (s : σ) : Prop where
  keeps : C.keeps i op d s
  inv   : C.inv (Y.answer i op d s).2
  rely  : ∀ j, j ≠ i → C.rely j s (Y.answer i op d s).2

-- From state `s` on, whatever the others do within `rely i`, every operation of the program that
-- meets `P` is as it should be, and the program ends with `Q`.
def Safe (C : Pact Y) (P : Condition S D σ ι) (i : ι) (Q : β → σ → Prop) : Prog S β → σ → Prop
  | .ret b, s     => ∀ s₁, C.rely i s s₁ → C.inv s₁ → Q b s₁
  | .call op k, s => ∀ s₁, C.rely i s s₁ → C.inv s₁ → ∀ d, P i op d s₁ →
                     C.Does i op d s₁ ∧
                     C.Safe P i Q (k (Y.answer i op d s₁).1) (Y.answer i op d s₁).2

namespace Safe

variable {C : Pact Y} {Q R : β → σ → Prop} {p : Prog S β}

theorem stable (h : C.Safe P i Q p s) (hr : C.rely i s s') : C.Safe P i Q p s' := by
  cases p <;> exact fun s₁ hs₁ => h s₁ (C.trans hr hs₁)

theorem mono (h : C.Safe P i Q p s) (hq : ∀ b s, Q b s → R b s) : C.Safe P i R p s := by
  induction p generalizing s
  case ret     => exact fun s₁ hr hv => hq _ _ (h s₁ hr hv)
  case call hi =>
    intro s₁ hr hv d hp
    have ⟨hg, hk⟩ := h s₁ hr hv d hp
    exact ⟨hg, hi _ hk⟩

theorem bind {f : β → Prog S γ} {R : γ → σ → Prop} (h : C.Safe P i Q p s) (hv : C.inv s)
    (hf : ∀ b s', C.inv s' → Q b s' → C.Safe P i R (f b) s') : C.Safe P i R (p.bind f) s := by
  induction p generalizing s
  case ret b   => exact hf b s hv (h s (C.refl i s) hv)
  case call hi =>
    intro s₁ hr hv₁ d hp
    have ⟨hg, hk⟩ := h s₁ hr hv₁ d hp
    exact ⟨hg, hi _ hk hg.inv⟩

theorem any (h : C.Safe P i Q p s) : C.Safe P i (fun _ _ => True) p s :=
  h.mono fun _ _ _ => trivial

theorem perform {op : S.Op} {Q : S.Res op → σ → Prop}
    (hd : ∀ s₁, C.rely i s s₁ → C.inv s₁ → ∀ d, P i op d s₁ → C.Does i op d s₁)
    (hq : ∀ s₁, C.rely i s s₁ → C.inv s₁ → ∀ d, P i op d s₁ →
      ∀ s₂, C.rely i (Y.answer i op d s₁).2 s₂ → C.inv s₂ → Q (Y.answer i op d s₁).1 s₂) :
    C.Safe P i Q (.perform op) s :=
  fun s₁ hr hv d hp => ⟨hd s₁ hr hv d hp, hq s₁ hr hv d hp⟩

-- The rules for calls that may fail: nothing is promised of an error.
section Fallible

open Contract (Ok)

variable {ε : Type} {p : Call S ε β} {Q : β → σ → Prop} {R : γ → σ → Prop}

theorem seq {f : β → Call S ε γ} (h : C.Safe P i (Ok Q) p s) (hv : C.inv s)
    (hf : ∀ b s', C.inv s' → Q b s' → C.Safe P i (Ok R) (f b) s') :
    C.Safe P i (Ok R) (p >>= f : Call S ε γ) s := by
  rw [Call.bind_eq]
  refine bind h hv fun b s' hv hq => ?_
  cases b
  case ok b    => exact hf b s' hv hq
  case error e => exact fun _ _ _ => trivial

theorem lift {p : Prog S β} (h : C.Safe P i Q p s) :
    C.Safe P i (Ok Q) (ExceptT.lift p : Call S ε β) s := by
  induction p generalizing s
  case ret b   => exact h
  case call hi =>
    intro s₁ hr hv d hp
    have ⟨hg, hk⟩ := h s₁ hr hv d hp
    exact ⟨hg, hi _ hk⟩

theorem mapError {f : ε → ε} (h : C.Safe P i (Ok Q) p s) : C.Safe P i (Ok Q) (p.mapError f) s := by
  unfold Call.mapError
  induction p using Prog.rec generalizing s
  case ret b =>
    cases b
    case ok b    => exact h
    case error e => exact fun _ _ _ => trivial
  case call hi =>
    intro s₁ hr hv d hp
    have ⟨hg, hk⟩ := h s₁ hr hv d hp
    exact ⟨hg, hi _ hk⟩

theorem of_except (r : Except ε β) (h : ∀ b, r = .ok b → ∀ s₁, C.rely i s s₁ → C.inv s₁ → Q b s₁) :
    C.Safe P i (Ok Q) (ExceptT.mk (Pure.pure r) : Call S ε β) s :=
  fun s₁ hr hv => Ok.intro fun b hb => h b hb s₁ hr hv

theorem pure {b : β} (h : ∀ s₁, C.rely i s s₁ → C.inv s₁ → Q b s₁) :
    C.Safe P i (Ok Q) (pure b : Call S ε β) s :=
  h

theorem throw {e : ε} : C.Safe P i (Ok Q) (throw e : Call S ε β) s :=
  fun _ _ _ => trivial

theorem guard {c : Prop} [Decidable c] {e : ε} (h : ¬c → C.Safe P i (Ok Q) p s) :
    C.Safe P i (Ok Q) (if c then MonadExcept.throw e else p : Call S ε β) s := by
  split
  case isTrue     => exact throw
  case isFalse hc => exact h hc

theorem void (h : C.Safe P i (Ok Q) p s) (hv : C.inv s) :
    C.Safe P i (fun _ _ => True) p.void s :=
  any <| seq h hv fun _ _ _ _ => pure (Q := fun _ _ => True) fun _ _ _ => trivial

end Fallible

end Safe

-- Every call in flight keeps its promises, and nothing is due to calls that have not started.
structure Holds (C : Pact Y) (P : Condition S D σ ι) (c : Config S σ ι α) : Prop where
  inv   : C.inv c.world
  safe  : ∀ p ∈ c.calls, C.Safe P p.1 (fun _ _ => True) p.2 c.world
  apart : (c.calls.map Prod.fst).Nodup
  idle  : ∀ i, (∀ p ∈ c.calls, p.1 ≠ i) → C.idle i c.world

-- Every kind of call keeps its promises from any state in which it may start.
def Keeps (C : Pact Y) (P : Condition S D σ ι) : Prop :=
  ∀ i s, C.inv s → C.idle i s → C.Safe P i (fun _ _ => True) (Y.code i) s

namespace Holds

variable {C : Pact Y} {c : Config S σ ι α} {p : Pick D ι} {ps : List (Pick D ι)}

theorem act {n : Nat} (h : C.Holds P c) (hn : c.calls[n]? = some (i, .call op k)) (hp : P i op d c.world) :
    C.Does i op d c.world ∧
    C.Safe P i (fun _ _ => True) (k (Y.answer i op d c.world).1) (Y.answer i op d c.world).2 :=
  h.safe _ (List.mem_of_getElem? hn) c.world (C.refl _ _) h.inv d hp

theorem does (h : C.Holds P c) (hp : Meets P c p) : Meets (C.Does) c p := by
  cases p
  case act => exact fun i op k hn => (h.act hn (hp i op k hn)).left
  all_goals trivial

theorem start (h : C.Holds P c) (hc : C.Keeps P) (hf : ∀ p ∈ c.calls, p.1 ≠ i) :
    C.Holds P { c with calls := c.calls ++ [(i, Y.code i)] } where
  inv       := h.inv
  safe p hp := by
    cases List.mem_append.mp hp
    case inl hm => exact h.safe p hm
    case inr hm => cases List.mem_singleton.mp hm; exact hc i _ h.inv (h.idle i hf)
  apart     := by
    have ha := h.apart
    simp only [List.map_append, List.nodup_append, List.map_cons, List.map_nil]
    refine ⟨ha, by simp, fun a hm b hb => ?_⟩
    have ⟨p, hp, he⟩ := List.mem_map.mp hm
    cases List.mem_singleton.mp hb
    exact he ▸ hf p hp
  idle j hj := h.idle j fun p hp => hj p (List.mem_append_left _ hp)

-- A step of one call is a step of the others for all calls but that one.
theorem call {n : Nat} (h : C.Holds P c) (hn : c.calls[n]? = some (i, .call op k))
    (hp : P i op d c.world) :
    C.Holds P ⟨(Y.answer i op d c.world).2,
      c.calls.set n (i, k (Y.answer i op d c.world).1)⟩ := by
  have ⟨hg, hk⟩ := h.act hn hp
  have hl : n < c.calls.length := (List.getElem?_eq_some_iff.mp hn).choose
  have hc : c.calls[n] = (i, .call op k) := (List.getElem?_eq_some_iff.mp hn).choose_spec
  have hm : (c.calls.set n (i, k (Y.answer i op d c.world).1)).map Prod.fst =
      c.calls.map Prod.fst := by
    have hl' : n < (c.calls.map Prod.fst).length := by simpa using hl
    have hs := List.set_getElem_self hl'
    rw [List.map_set]
    simpa [hc] using hs
  refine ⟨hg.inv, fun p hq => ?_, hm ▸ h.apart, fun j hj => ?_⟩
  case refine_1 =>
    have ⟨m, hm', he⟩ := List.mem_iff_getElem.mp hq
    by_cases hnm : n = m
    case pos =>
      subst hnm
      simp only [List.getElem_set_self] at he
      exact he ▸ hk
    case neg =>
      have hm' : m < c.calls.length := by simpa using hm'
      rw [List.getElem_set_ne hnm] at he
      have hne : p.1 ≠ i := by
        intro hpi
        have hlm : m < (c.calls.map Prod.fst).length := by simpa using hm'
        have hln : n < (c.calls.map Prod.fst).length := by simpa using hl
        have heq : (c.calls.map Prod.fst)[m] = (c.calls.map Prod.fst)[n] := by
          simp [he, hc, hpi]
        have hmn := h.apart.getElem_inj_iff.mp heq
        exact hnm hmn.symm
      have hs := h.safe p (he ▸ List.getElem_mem hm')
      exact hs.stable (hg.rely p.1 hne)
  case refine_2 =>
    have hji : j ≠ i := by
      rintro rfl
      exact hj _ (List.mem_set hl _) rfl
    have hj' : ∀ p ∈ c.calls, p.1 ≠ j := by
      intro p hp he
      have hp' : j ∈ c.calls.map Prod.fst := List.mem_map.mpr ⟨p, hp, he⟩
      have ⟨q, hq, heq⟩ := List.mem_map.mp (hm.symm ▸ hp')
      exact hj q hq heq
    exact C.idle_stable (h.idle j hj') (hg.rely j hji)

theorem next (h : C.Holds P c) (hc : C.Keeps P) (hf : Fresh c p) (hp : Meets P c p) :
    C.Holds P (Y.next c p) := by
  cases p
  case start i => exact h.start hc hf
  case env d   =>
    exact {
      inv       := C.env_inv h.inv
      safe p hp := (h.safe p hp).stable (C.env_rely h.inv)
      apart     := h.apart
      idle i hi := C.idle_stable (h.idle i hi) (C.env_rely h.inv)
    }
  case act n d =>
    cases Y.next_act_cases c n d
    case inr he => rw [he]; exact h
    case inl hn =>
      have ⟨i, op, k, hn⟩ := hn
      rw [next_act hn]
      exact h.call hn (hp i op k hn)

-- The promises hold throughout every run.
theorem throughout (h : C.Holds P c) (hc : C.Keeps P)
    (hp : Y.Throughout (fun c p => Fresh c p ∧ Meets P c p) ps c) :
    Y.Throughout (fun c p => C.Holds P c ∧ Meets P c p) ps c ∧ C.Holds P (Y.run c ps) := by
  induction ps generalizing c
  case nil     => exact ⟨trivial, h⟩
  case cons hi =>
    have ⟨hs, hr⟩ := hi (h.next hc hp.left.left hp.left.right) hp.right
    exact ⟨⟨⟨h, hp.left.right⟩, hs⟩, hr⟩

end Holds
end Pact
end Effects
