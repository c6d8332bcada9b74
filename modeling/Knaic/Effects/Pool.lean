import Mathlib.Data.List.Induction
import Knaic.Effects.Prog

namespace Effects

-- A pool of concurrent calls on one state: how the world answers each kind of call, how it moves on
-- its own, and the program that each kind of call runs. Whatever the state does not determine (the
-- time, random bytes, the moods of other systems) is a draw of type `D`.
structure Pool (S : Signature) (D σ ι α : Type) where
  answer : ι → (op : S.Op) → D → σ → S.Res op × σ
  env    : D → σ → σ
  code   : ι → Prog S α

structure Config (S : Signature) (σ ι α : Type) where
  world : σ
  calls : List (ι × Prog S α)

-- Who moves next: a new call, the world itself, or the call at position `n`.
inductive Pick (D ι : Type)
  | start (i : ι)
  | env (d : D)
  | act (n : Nat) (d : D)

namespace Pool

variable {S : Signature} {D σ ι α : Type}

-- One step of a call is one operation. Calls may start at any time and nothing waits for them.
def next (Y : Pool S D σ ι α) (c : Config S σ ι α) : Pick D ι → Config S σ ι α
  | .start i => { c with calls := c.calls ++ [(i, Y.code i)] }
  | .env d   => { c with world := Y.env d c.world }
  | .act n d =>
    match c.calls[n]? with
    | some (i, .call op k) =>
      let a := Y.answer i op d c.world
      ⟨a.2, c.calls.set n (i, k a.1)⟩
    | _ => c

def run (Y : Pool S D σ ι α) (c : Config S σ ι α) (ps : List (Pick D ι)) : Config S σ ι α :=
  ps.foldl Y.next c

-- A condition on an operation: who performs it, what it is and draws, and the state before.
abbrev Condition (S : Signature) (D σ ι : Type) :=
  ι → S.Op → D → σ → Prop

def Condition.always : Condition S D σ ι :=
  fun _ _ _ _ => True

def Meets (P : Condition S D σ ι) (c : Config S σ ι α) : Pick D ι → Prop
  | .start _ | .env _ => True
  | .act n d          => ∀ i op k, c.calls[n]? = some (i, .call op k) → P i op d c.world

-- With the step `p` the call at position `n` returns `a`.
def Returns (Y : Pool S D σ ι α) (n : Nat) (a : α) (c : Config S σ ι α) (p : Pick D ι) : Prop :=
  ∃ d i op k, p = .act n d ∧ c.calls[n]? = some (i, .call op k) ∧
    k (Y.answer i op d c.world).1 = .ret a

-- What holds of every configuration of a run and the step that is taken from it.
def Throughout (Y : Pool S D σ ι α) (R : Config S σ ι α → Pick D ι → Prop) :
    List (Pick D ι) → Config S σ ι α → Prop
  | [], _      => True
  | p :: ps, c => R c p ∧ Y.Throughout R ps (Y.next c p)

-- All operations of the run meet the condition.
abbrev Allows (Y : Pool S D σ ι α) (P : Condition S D σ ι) :
    List (Pick D ι) → Config S σ ι α → Prop :=
  Y.Throughout (Meets P)

variable {Y : Pool S D σ ι α} {P Q : Condition S D σ ι} {c : Config S σ ι α}

@[simp]
theorem run_nil : Y.run c [] = c :=
  rfl

@[simp]
theorem run_cons : Y.run c (p :: ps) = Y.run (Y.next c p) ps :=
  rfl

theorem run_append : Y.run c (ps ++ qs) = Y.run (Y.run c ps) qs :=
  List.foldl_append

theorem next_act (h : c.calls[n]? = some (i, .call op k)) :
    Y.next c (.act n d) =
      ⟨(Y.answer i op d c.world).2, c.calls.set n (i, k (Y.answer i op d c.world).1)⟩ := by
  simp [next, h]

-- The call that was started last.
theorem next_last {w : σ} {cs : List (ι × Prog S α)} :
    Y.next ⟨w, cs ++ [(i, .call op k)]⟩ (.act cs.length d) =
      ⟨(Y.answer i op d w).2, cs ++ [(i, k (Y.answer i op d w).1)]⟩ := by
  simp [next]

theorem next_idle (h : ∀ i op k, c.calls[n]? ≠ some (i, .call op k)) :
    Y.next c (.act n d) = c := by
  simp [next]

-- A step of a call is either one of its operations or no step at all.
theorem next_act_cases (Y : Pool S D σ ι α) (c : Config S σ ι α) (n : Nat) (d : D) :
    (∃ i op k, c.calls[n]? = some (i, .call op k)) ∨ Y.next c (.act n d) = c := by
  by_cases h : ∃ i op k, c.calls[n]? = some (i, .call op k)
  case pos => exact .inl h
  case neg => exact .inr (next_idle fun i op k hn => h ⟨i, op, k, hn⟩)

-- A call that has returned did so with some step, unless it had nothing to do from the beginning.
theorem returned {n : Nat} {a : α} (hc : c.calls = [])
    (hs : ∀ i, Y.code i ≠ .ret a) {ps : List (Pick D ι)}
    (h : (Y.run c ps).calls[n]? = some (i, .ret a)) :
    ∃ qs₁ q qs₂, ps = qs₁ ++ q :: qs₂ ∧ Y.Returns n a (Y.run c qs₁) q := by
  induction ps using List.reverseRecOn
  case nil => simp [hc] at h
  case append_singleton ps p hi =>
    by_cases hp : (Y.run c ps).calls[n]? = some (i, .ret a)
    case pos =>
      have ⟨qs₁, q, qs₂, he, hr⟩ := hi hp
      exact ⟨qs₁, q, qs₂ ++ [p], by simp [he], hr⟩
    case neg =>
      refine ⟨ps, p, [], rfl, ?_⟩
      rw [run_append] at h
      generalize Y.run c ps = c at h hp ⊢
      cases p
      case env     => exact absurd h hp
      case start j =>
        simp only [run_cons, run_nil, Pool.next] at h
        rw [List.getElem?_append] at h
        split at h
        case isTrue  => exact absurd h hp
        case isFalse =>
          rw [List.getElem?_singleton] at h
          split at h
          case isTrue  =>
            have ⟨_, hb⟩ := Prod.mk.inj (Option.some.inj h)
            exact absurd hb (hs j)
          case isFalse => cases h
      case act m d =>
        cases Y.next_act_cases c m d
        case inr he =>
          rw [run_cons, run_nil, he] at h
          exact absurd h hp
        case inl hm =>
          have ⟨j, op, k, hm⟩ := hm
          rw [run_cons, run_nil, next_act hm] at h
          rw [List.getElem?_set] at h
          split at h
          case isFalse => exact absurd h hp
          case isTrue he =>
            subst he
            split at h
            case isFalse => cases h
            case isTrue  =>
              have ⟨_, hb⟩ := Prod.mk.inj (Option.some.inj h)
              exact ⟨d, j, op, k, rfl, hm, hb⟩

-- What every operation and the world itself keep holds throughout.
theorem run_invariant {I : σ → Prop} (ha : ∀ i op d s, I s → I (Y.answer i op d s).2)
    (he : ∀ d s, I s → I (Y.env d s)) (h : I c.world) : I (Y.run c ps).world := by
  induction ps generalizing c
  case nil          => exact h
  case cons p ps hi =>
    refine hi ?_
    cases p
    case start   => exact h
    case env d   => exact he d _ h
    case act n d =>
      cases Y.next_act_cases c n d
      case inr he => rw [he]; exact h
      case inl hn =>
        have ⟨i, op, k, hn⟩ := hn
        exact next_act hn ▸ ha i op d _ h

-- The same when the calls in flight, and those that are started, perform only operations that keep it.
theorem run_only {A : S.Op → Prop} {I : σ → Prop}
    (ha : ∀ i op d s, A op → I s → I (Y.answer i op d s).2) (he : ∀ d s, I s → I (Y.env d s))
    (hs : ∀ i, .start i ∈ ps → (Y.code i).Only A) (hc : ∀ p ∈ c.calls, p.2.Only A)
    (h : I c.world) : I (Y.run c ps).world := by
  induction ps generalizing c
  case nil          => exact h
  case cons p ps hi =>
    have hs' i (hm : .start i ∈ ps) := hs i (List.mem_cons_of_mem _ hm)
    cases p
    case env d   => exact hi hs' hc (he d _ h)
    case start i =>
      refine hi hs' (fun p hp => ?_) h
      cases List.mem_append.mp hp
      case inl hp => exact hc p hp
      case inr hp => cases List.mem_singleton.mp hp; exact hs i List.mem_cons_self
    case act n d =>
      cases Y.next_act_cases c n d
      case inr he => rw [run_cons, he]; exact hi hs' hc h
      case inl hn =>
        obtain ⟨i, op, k, hn⟩ := hn
        have ⟨hop, hk⟩ := hc _ (List.mem_of_getElem? hn)
        rw [run_cons, next_act hn]
        refine hi hs' (fun p hp => ?_) (ha i op d _ hop h)
        cases List.mem_or_eq_of_mem_set hp
        case inl hm => exact hc p hm
        case inr he => subst he; exact hk _

theorem Meets.mono {p : Pick D ι} (h : Meets P c p) (hpq : ∀ i op d s, P i op d s → Q i op d s) :
    Meets Q c p := by
  cases p
  case act => exact fun i op k hn => hpq _ _ _ _ (h i op k hn)
  all_goals trivial

theorem Meets.and {p : Pick D ι} (h : Meets P c p) (h' : Meets Q c p) :
    Meets (fun i op d s => P i op d s ∧ Q i op d s) c p := by
  cases p
  case act => exact fun i op k hn => ⟨h i op k hn, h' i op k hn⟩
  all_goals trivial

theorem Throughout.mono {R R' : Config S σ ι α → Pick D ι → Prop} (h : Y.Throughout R ps c)
    (hr : ∀ c p, R c p → R' c p) : Y.Throughout R' ps c := by
  induction ps generalizing c
  case nil     => trivial
  case cons hi => exact ⟨hr _ _ h.left, hi h.right⟩

theorem Throughout.and {R R' : Config S σ ι α → Pick D ι → Prop} (h : Y.Throughout R ps c)
    (h' : Y.Throughout R' ps c) : Y.Throughout (fun c p => R c p ∧ R' c p) ps c := by
  induction ps generalizing c
  case nil     => trivial
  case cons hi => exact ⟨⟨h.left, h'.left⟩, hi h.right h'.right⟩

theorem allows_always (ps : List (Pick D ι)) : Y.Allows .always ps c := by
  induction ps generalizing c
  case nil          => trivial
  case cons p _ hi =>
    refine ⟨?_, hi⟩
    cases p <;> simp [Meets, Condition.always]

theorem throughout_append {R : Config S σ ι α → Pick D ι → Prop} :
    Y.Throughout R (ps ++ qs) c ↔ Y.Throughout R ps c ∧ Y.Throughout R qs (Y.run c ps) := by
  induction ps generalizing c
  case nil     => simp [Throughout]
  case cons hi => simp [Throughout, hi, and_assoc]

def decideThroughout {R : Config S σ ι α → Pick D ι → Prop} [∀ c p, Decidable (R c p)] :
    (ps : List (Pick D ι)) → (c : Config S σ ι α) → Decidable (Y.Throughout R ps c)
  | [], _      => isTrue trivial
  | p :: ps, c =>
    have : Decidable (Y.Throughout R ps (Y.next c p)) := decideThroughout ps _
    inferInstanceAs (Decidable (R c p ∧ Y.Throughout R ps (Y.next c p)))

instance {R : Config S σ ι α → Pick D ι → Prop} [∀ c p, Decidable (R c p)] :
    Decidable (Y.Throughout R ps c) :=
  decideThroughout ps c

instance [∀ i op d s, Decidable (P i op d s)] (c : Config S σ ι α) (p : Pick D ι) :
    Decidable (Meets P c p) :=
  match p with
  | .start _ | .env _ => isTrue trivial
  | .act n d          =>
    match h : c.calls[n]? with
    | some (i, .call op _) => decidable_of_iff (P i op d c.world)
      ⟨fun hp _ _ _ he => by cases h.symm.trans he; exact hp, fun hm => hm _ _ _ h⟩
    | some (_, .ret _)     => isTrue fun _ _ _ he => by cases h.symm.trans he
    | none                 => isTrue fun _ _ _ he => by cases h.symm.trans he

end Pool

open Pool

-- What the calls promise each other: `inv` holds of every state, `rely` is what a call may assume
-- about the steps of all others, and `guar` is what each operation of a call keeps to.
structure Contract {S : Signature} {D σ ι α : Type} (Y : Pool S D σ ι α) where
  inv       : σ → Prop
  rely      : σ → σ → Prop
  guar      : Condition S D σ ι
  refl      : ∀ s, rely s s
  trans     : rely s₁ s₂ → rely s₂ s₃ → rely s₁ s₃
  guar_inv  : guar i op d s → inv s → inv (Y.answer i op d s).2
  guar_rely : guar i op d s → inv s → rely s (Y.answer i op d s).2
  env_inv   : inv s → inv (Y.env d s)
  env_rely  : inv s → rely s (Y.env d s)

namespace Contract

variable {S : Signature} {D σ ι α β γ ε : Type} {Y : Pool S D σ ι α} {P : Condition S D σ ι}

-- From state `s` on, whatever the others do within `rely`, every operation of the program that
-- meets `P` keeps to `guar`, and the program ends with `Q`.
def Safe (C : Contract Y) (P : Condition S D σ ι) (i : ι) (Q : β → σ → Prop) :
    Prog S β → σ → Prop
  | .ret b, s     => ∀ s₁, C.rely s s₁ → C.inv s₁ → Q b s₁
  | .call op k, s => ∀ s₁, C.rely s s₁ → C.inv s₁ → ∀ d, P i op d s₁ →
                     C.guar i op d s₁ ∧
                     C.Safe P i Q (k (Y.answer i op d s₁).1) (Y.answer i op d s₁).2

-- What holds when a call that may fail has succeeded.
def Ok (Q : β → σ → Prop) : Except ε β → σ → Prop
  | .ok b, s    => Q b s
  | .error _, _ => True

theorem Ok.intro {Q : β → σ → Prop} {r : Except ε β} (h : ∀ b, r = .ok b → Q b s) : Ok Q r s := by
  cases r
  case ok b  => exact h b rfl
  case error => trivial

namespace Safe

variable {C : Contract Y} {Q Q₁ Q₂ : β → σ → Prop} {p : Prog S β}

theorem stable (h : C.Safe P i Q p s) (hr : C.rely s s') : C.Safe P i Q p s' := by
  cases p <;> exact fun s₁ hs₁ => h s₁ (C.trans hr hs₁)

theorem mono (h : C.Safe P i Q₁ p s) (hq : ∀ b s, Q₁ b s → Q₂ b s) : C.Safe P i Q₂ p s := by
  induction p generalizing s
  case ret     => exact fun s₁ hr hv => hq _ _ (h s₁ hr hv)
  case call hi =>
    intro s₁ hr hv d hp
    have ⟨hg, hk⟩ := h s₁ hr hv d hp
    exact ⟨hg, hi _ hk⟩

theorem bind {f : β → Prog S γ} {R : γ → σ → Prop} (h : C.Safe P i Q p s) (hv : C.inv s)
    (hf : ∀ b s', C.rely s s' → C.inv s' → Q b s' → C.Safe P i R (f b) s') :
    C.Safe P i R (p.bind f) s := by
  induction p generalizing s
  case ret b   => exact hf b s (C.refl s) hv (h s (C.refl s) hv)
  case call hi =>
    intro s₁ hr hv₁ d hp
    have ⟨hg, hk⟩ := h s₁ hr hv₁ d hp
    have hr₂ := C.trans hr (C.guar_rely hg hv₁)
    exact ⟨hg, hi _ hk (C.guar_inv hg hv₁) fun b s' hs => hf b s' (C.trans hr₂ hs)⟩

theorem perform {op : S.Op} {Q : S.Res op → σ → Prop} (hg : ∀ s₁, C.rely s s₁ → C.inv s₁ →
    ∀ d, P i op d s₁ → C.guar i op d s₁)
    (hq : ∀ s₁, C.rely s s₁ → C.inv s₁ → ∀ d, P i op d s₁ →
      ∀ s₂, C.rely (Y.answer i op d s₁).2 s₂ → C.inv s₂ → Q (Y.answer i op d s₁).1 s₂) :
    C.Safe P i Q (.perform op) s :=
  fun s₁ hr hv d hp => ⟨hg s₁ hr hv d hp, hq s₁ hr hv d hp⟩

theorem any (h : C.Safe P i Q p s) : C.Safe P i (fun _ _ => True) p s :=
  h.mono fun _ _ _ => trivial

-- A program that performs only operations that keep to `guar` whatever the others do.
theorem of_only {A : S.Op → Prop} (h : p.Only A)
    (hg : ∀ op, A op → ∀ s₁, C.rely s s₁ → C.inv s₁ → ∀ d, P i op d s₁ → C.guar i op d s₁) :
    C.Safe P i (fun _ _ => True) p s := by
  induction p generalizing s
  case ret     => exact fun _ _ _ => trivial
  case call hi =>
    intro s₁ hr hv d hp
    have hg₁ := hg _ h.left s₁ hr hv d hp
    have hr₂ := C.trans hr (C.guar_rely hg₁ hv)
    exact ⟨hg₁, hi _ (h.right _) fun op ha s₃ hr₃ => hg op ha s₃ (C.trans hr₂ hr₃)⟩

-- The rules for calls that may fail: nothing is promised of an error.
section Fallible

variable {p : Call S ε β} {Q : β → σ → Prop} {R : γ → σ → Prop}

theorem ok {Q : Except ε β → σ → Prop} (h : C.Safe P i Q p s) :
    C.Safe P i (Ok fun _ _ => True) p s :=
  h.mono fun _ _ _ => Ok.intro fun _ _ => trivial

theorem seq {f : β → Call S ε γ} (h : C.Safe P i (Ok Q) p s) (hv : C.inv s)
    (hf : ∀ b s', C.rely s s' → C.inv s' → Q b s' → C.Safe P i (Ok R) (f b) s') :
    C.Safe P i (Ok R) (p >>= f : Call S ε γ) s := by
  rw [Call.bind_eq]
  refine bind h hv fun b s' hr hv hq => ?_
  cases b
  case ok b    => exact hf b s' hr hv hq
  case error e => exact fun _ _ _ => trivial

theorem mapError {f : ε → ε} (h : C.Safe P i (Ok Q) p s) : C.Safe P i (Ok Q) (p.mapError f) s := by
  unfold Call.mapError
  induction p using Prog.rec generalizing s
  case ret b =>
    cases b
    case ok b    => exact h
    case error e => exact fun _ _ _ => trivial
  case call hi =>
    intro s₁ hr hv d hp
    have ⟨hg, hk⟩ := h s₁ hr hv d hp
    exact ⟨hg, hi _ hk⟩

theorem lift {p : Prog S β} (h : C.Safe P i Q p s) :
    C.Safe P i (Ok Q) (ExceptT.lift p : Call S ε β) s := by
  induction p generalizing s
  case ret b   => exact h
  case call hi =>
    intro s₁ hr hv d hp
    have ⟨hg, hk⟩ := h s₁ hr hv d hp
    exact ⟨hg, hi _ hk⟩

theorem of_except (r : Except ε β) :
    C.Safe P i (Ok fun _ _ => True) (ExceptT.mk (Pure.pure r) : Call S ε β) s :=
  fun _ _ _ => Ok.intro fun _ _ => trivial

theorem pure {b : β} (h : ∀ s₁, C.rely s s₁ → C.inv s₁ → Q b s₁) :
    C.Safe P i (Ok Q) (pure b : Call S ε β) s :=
  h

theorem void (h : C.Safe P i (Ok Q) p s) (hv : C.inv s) :
    C.Safe P i (fun _ _ => True) p.void s :=
  any <| seq h hv fun _ _ _ _ _ => pure (Q := fun _ _ => True) fun _ _ _ => trivial

theorem throw {e : ε} : C.Safe P i (Ok Q) (throw e : Call S ε β) s :=
  fun _ _ _ => trivial

theorem guard {c : Prop} [Decidable c] {e : ε} (h : ¬c → C.Safe P i (Ok Q) p s) :
    C.Safe P i (Ok Q) (if c then MonadExcept.throw e else p : Call S ε β) s := by
  split
  case isTrue     => exact throw
  case isFalse hc => exact h hc

end Fallible
end Safe

-- Every call in flight keeps its promises.
structure Holds (C : Contract Y) (P : Condition S D σ ι) (c : Config S σ ι α) : Prop where
  inv  : C.inv c.world
  safe : ∀ p ∈ c.calls, C.Safe P p.1 (fun _ _ => True) p.2 c.world

-- Every kind of call keeps its promises from any state it may start in.
def Keeps (C : Contract Y) (P : Condition S D σ ι) : Prop :=
  ∀ i s, C.inv s → C.Safe P i (fun _ _ => True) (Y.code i) s

namespace Holds

variable {C : Contract Y} {c : Config S σ ι α} {p : Pick D ι} {ps : List (Pick D ι)}

theorem stable (h : C.Holds P c) (hi : C.inv s) (hr : C.rely c.world s) :
    C.Holds P { c with world := s } where
  inv       := hi
  safe p hp := (h.safe p hp).stable hr

theorem act {n : Nat} (h : C.Holds P c) (hn : c.calls[n]? = some (i, .call op k))
    (hp : P i op d c.world) :
    C.guar i op d c.world ∧
    C.Safe P i (fun _ _ => True) (k (Y.answer i op d c.world).1) (Y.answer i op d c.world).2 :=
  h.safe _ (List.mem_of_getElem? hn) c.world (C.refl _) h.inv d hp

theorem guar (h : C.Holds P c) (hp : Meets P c p) : Meets C.guar c p := by
  cases p
  case act => exact fun i op k hn => (h.act hn (hp i op k hn)).left
  all_goals trivial

theorem rely (h : C.Holds P c) (hp : Meets P c p) : C.rely c.world (Y.next c p).world := by
  cases p
  case start   => exact C.refl _
  case env     => exact C.env_rely h.inv
  case act n d =>
    cases Y.next_act_cases c n d
    case inr he => rw [he]; exact C.refl _
    case inl hn =>
      have ⟨i, op, k, hn⟩ := hn
      exact next_act hn ▸ C.guar_rely (h.act hn (hp i op k hn)).left h.inv

theorem next (h : C.Holds P c) (hc : C.Keeps P) (hp : Meets P c p) : C.Holds P (Y.next c p) := by
  cases p
  case start i =>
    refine ⟨h.inv, fun p hp => ?_⟩
    cases List.mem_append.mp hp
    case inl hm => exact h.safe p hm
    case inr hm => cases List.mem_singleton.mp hm; exact hc i _ h.inv
  case env     => exact h.stable (C.env_inv h.inv) (C.env_rely h.inv)
  case act n d =>
    cases Y.next_act_cases c n d
    case inr he => rw [he]; exact h
    case inl hn =>
      have ⟨i, op, k, hn⟩ := hn
      have ⟨hg, hk⟩ := h.act hn (hp i op k hn)
      have hs := h.stable (C.guar_inv hg h.inv) (C.guar_rely hg h.inv)
      rw [next_act hn]
      refine ⟨hs.inv, fun p hp => ?_⟩
      cases List.mem_or_eq_of_mem_set hp
      case inl hm => exact hs.safe p hm
      case inr he => subst he; exact hk

-- The promises hold throughout every run.
theorem run (h : C.Holds P c) (hc : C.Keeps P) (hp : Y.Allows P ps c) :
    C.Holds P (Y.run c ps) := by
  induction ps generalizing c
  case nil     => exact h
  case cons hi => exact hi (h.next hc hp.left) hp.right

theorem throughout (h : C.Holds P c) (hc : C.Keeps P) (hp : Y.Allows P ps c) :
    Y.Throughout (fun c p => C.Holds P c ∧ Meets P c p) ps c := by
  induction ps generalizing c
  case nil     => trivial
  case cons hi => exact ⟨⟨h, hp.left⟩, hi (h.next hc hp.left) hp.right⟩

theorem run_rely (h : C.Holds P c) (hc : C.Keeps P) (hp : Y.Allows P ps c) :
    C.rely c.world (Y.run c ps).world := by
  induction ps generalizing c
  case nil     => exact C.refl _
  case cons hi => exact C.trans (h.rely hp.left) (hi (h.next hc hp.left) hp.right)

theorem run_guar (h : C.Holds P c) (hc : C.Keeps P) (hp : Y.Allows P ps c) :
    Y.Allows C.guar ps c := by
  induction ps generalizing c
  case nil     => trivial
  case cons hi => exact ⟨h.guar hp.left, hi (h.next hc hp.left) hp.right⟩

end Holds
end Contract
end Effects
