import Knaic.Effects.Pool

namespace Effects

open Pool

-- Calls that take effect with their last operation: `rely` is what a call may assume about the
-- steps of all others, `quiet` is what an operation does that is not the last one of its call, and
-- `effect` is what the last one does, by the result that the call returns.
structure Protocol {S : Signature} {D σ ι α : Type} (Y : Pool S D σ ι α) where
  rely        : σ → σ → Prop
  quiet       : σ → σ → Prop
  effect      : α → σ → σ → Prop
  refl        : ∀ s, rely s s
  trans       : rely s₁ s₂ → rely s₂ s₃ → rely s₁ s₃
  quiet_refl  : ∀ s, quiet s s
  quiet_rely  : quiet s s' → rely s s'
  effect_rely : effect a s s' → rely s s'
  env_quiet   : ∀ d s, quiet s (Y.env d s)

namespace Protocol

variable {S : Signature} {D σ ι α β ε : Type} {Y : Pool S D σ ι α} {C : Protocol Y}

-- What an operation does after which the call goes on with the program.
def Does (C : Protocol Y) : Prog S α → σ → σ → Prop
  | .ret a    => C.effect a
  | .call _ _ => C.quiet

theorem Does.rely {p : Prog S α} (h : C.Does p s s') : C.rely s s' := by
  cases p
  case ret  => exact C.effect_rely h
  case call => exact C.quiet_rely h

-- From state `s` on, whatever the others do within `rely`, the program takes effect with its last
-- operation.
def Commits (C : Protocol Y) (i : ι) : Prog S α → σ → Prop
  | .ret _, _     => True
  | .call op k, s => ∀ s₁, C.rely s s₁ → ∀ d,
                     C.Does (k (Y.answer i op d s₁).1) s₁ (Y.answer i op d s₁).2 ∧
                     C.Commits i (k (Y.answer i op d s₁).1) (Y.answer i op d s₁).2

-- From state `s` on the program has no effect, and `Q` holds right after its last operation.
def Quiet (C : Protocol Y) (i : ι) (Q : β → σ → Prop) : Prog S β → σ → Prop
  | .ret b, s     => Q b s
  | .call op k, s => ∀ s₁, C.rely s s₁ → ∀ d,
                     C.quiet s₁ (Y.answer i op d s₁).2 ∧
                     C.Quiet i Q (k (Y.answer i op d s₁).1) (Y.answer i op d s₁).2

theorem Commits.stable {p : Prog S α} (h : C.Commits i p s) (hr : C.rely s s') :
    C.Commits i p s' := by
  cases p
  case ret  => trivial
  case call => exact fun s₁ hs₁ => h s₁ (C.trans hr hs₁)

theorem Quiet.then {γ : Type} {Q : β → σ → Prop} {R : γ → σ → Prop} {p : Prog S β}
    {f : β → Prog S γ} (h : C.Quiet i Q p s) (hf : ∀ b s, Q b s → C.Quiet i R (f b) s) :
    C.Quiet i R (p.bind f) s := by
  induction p generalizing s
  case ret b   => exact hf b s h
  case call hi =>
    intro s₁ hs₁ d
    have ⟨hq, hk⟩ := h s₁ hs₁ d
    exact ⟨hq, hi _ hk⟩

-- If a program without effect comes first and the call returns right after it, then its last
-- operation has to be the effect of the call.
theorem Quiet.bind {Q : β → σ → Prop} {p : Prog S β} {f : β → Prog S α} (h : C.Quiet i Q p s)
    (hf : ∀ b s, Q b s → C.Commits i (f b) s)
    (hr : ∀ b a s s', f b = .ret a → C.quiet s s' → Q b s' → C.effect a s s') :
    C.Commits i (p.bind f) s := by
  induction p generalizing s
  case ret b        => exact hf b s h
  case call op k hi =>
    intro s₁ hs₁ d
    have ⟨hq, hk⟩ := h s₁ hs₁ d
    refine ⟨?_, hi _ hk⟩
    show C.Does ((k (Y.answer i op d s₁).1).bind f) _ _
    cases hp : k (Y.answer i op d s₁).1
    case call => exact hq
    case ret b =>
      rw [hp] at hk
      show C.Does (f b) _ _
      cases hb : f b
      case call  => exact hq
      case ret a => exact hr b a _ _ hb hq hk

-- A call by itself, before whose last operation nothing is seen of it.
theorem Commits.play {p : Prog S α} (h : C.Commits i p s)
    (hq : ∀ a s s₁ s₂, C.quiet s s₁ → C.effect a s₁ s₂ → C.effect a s s₂)
    (hr : ∀ a, p = .ret a → C.effect a s s) (d : Nat → D) :
    C.effect (p.play (Y.answer i) d s).1 s (p.play (Y.answer i) d s).2 := by
  induction p generalizing s d
  case ret a        => exact hr a rfl
  case call op k hi =>
    have ⟨hd, hk⟩ := h s (C.refl s) (d 0)
    simp only [Prog.play]
    cases hp : k (Y.answer i op (d 0) s).1
    case ret a  =>
      rw [hp] at hd
      exact hd
    case call =>
      have ih := hi (Y.answer i op (d 0) s).1 hk (fun a ha => by cases hp.symm.trans ha) fun n => d (n + 1)
      rw [hp] at hd ih
      exact hq _ _ _ _ hd ih

-- The rules for calls that may fail.
section Fallible

open Contract (Ok)

variable {γ ε : Type} {Y : Pool S D σ ι (Except ε α)} {C : Protocol Y} {Q : β → σ → Prop}

theorem Quiet.seq {p : Call S ε β} {f : β → Call S ε α} (h : C.Quiet i (Ok Q) p s)
    (hf : ∀ b s, Q b s → C.Commits i (f b) s)
    (hr : ∀ b a s s', (f b : Prog S (Except ε α)) = .ret a → C.quiet s s' → Q b s' →
      C.effect a s s')
    (he : ∀ e s s', C.quiet s s' → C.effect (.error e) s s') :
    C.Commits i (p >>= f : Call S ε α) s := by
  rw [Call.bind_eq]
  refine Quiet.bind h (fun r s hq => ?_) fun r a s s' hb hs hq => ?_
  case refine_1 =>
    cases r
    case ok b    => exact hf b s hq
    case error e => trivial
  case refine_2 =>
    cases r
    case ok b    => exact hr b a s s' hb hs hq
    case error e => cases hb; exact he e s s' hs

-- A call whose failure the caller looks at.
theorem Quiet.recover {γ : Type} {R : γ → σ → Prop} {p : Call S ε β}
    {f : Except ε β → Call S ε γ} (h : C.Quiet i (Ok Q) p s)
    (hf : ∀ b s, Q b s → C.Quiet i (Ok R) (f (.ok b)) s)
    (he : ∀ e s, C.Quiet i (Ok R) (f (.error e)) s) :
    C.Quiet i (Ok R)
      ((ExceptT.lift (p : Prog S (Except ε β)) : Call S ε (Except ε β)) >>= f : Call S ε γ) s := by
  rw [Call.lift_bind]
  refine h.then fun r s hq => ?_
  cases r
  case ok b    => exact hf b s hq
  case error e => exact he e s

end Fallible

-- Every call in flight takes effect with its last operation.
def Holds (C : Protocol Y) (c : Config S σ ι α) : Prop :=
  ∀ p ∈ c.calls, C.Commits p.1 p.2 c.world

section Runs

variable {c : Config S σ ι α} {p : Pick D ι} {ps : List (Pick D ι)}

theorem Holds.act {n : Nat} {op : S.Op} {k : S.Res op → Prog S α} (h : C.Holds c)
    (hn : c.calls[n]? = some (i, .call op k)) (d : D) :
    C.Does (k (Y.answer i op d c.world).1) c.world (Y.answer i op d c.world).2 ∧
    C.Commits i (k (Y.answer i op d c.world).1) (Y.answer i op d c.world).2 :=
  h _ (List.mem_of_getElem? hn) c.world (C.refl _) d

theorem Holds.effect {n : Nat} {a : α} (h : C.Holds c) (hr : Y.Returns n a c p) :
    C.effect a c.world (Y.next c p).world := by
  have ⟨d, i, op, k, hp, hn, hk⟩ := hr
  subst hp
  have hd := (h.act hn d).left
  rw [hk] at hd
  rw [next_act hn]
  exact hd

-- A step is quiet, or a call takes effect and returns.
theorem Holds.cases (h : C.Holds c) (p : Pick D ι) :
    C.quiet c.world (Y.next c p).world ∨
    ∃ n a, Y.Returns n a c p ∧ C.effect a c.world (Y.next c p).world := by
  cases p
  case start   => exact .inl (C.quiet_refl _)
  case env     => exact .inl (C.env_quiet _ _)
  case act n d =>
    cases Y.next_act_cases c n d
    case inr he => exact .inl (he.symm ▸ C.quiet_refl _)
    case inl hn =>
      have ⟨i, op, k, hn⟩ := hn
      cases hk : k (Y.answer i op d c.world).1
      case call =>
        have hd := (h.act hn d).left
        rw [hk] at hd
        rw [next_act hn]
        exact .inl hd
      case ret a =>
        have hr : Y.Returns n a c (.act n d) := ⟨d, i, op, k, rfl, hn, hk⟩
        exact .inr ⟨n, a, hr, h.effect hr⟩

theorem Holds.rely (h : C.Holds c) (p : Pick D ι) : C.rely c.world (Y.next c p).world := by
  cases h.cases p
  case inl hq => exact C.quiet_rely hq
  case inr he =>
    have ⟨_, _, _, he⟩ := he
    exact C.effect_rely he

theorem Holds.next (h : C.Holds c) (hc : ∀ i s, C.Commits i (Y.code i) s) (p : Pick D ι) :
    C.Holds (Y.next c p) := by
  have hs : ∀ q ∈ c.calls, C.Commits q.1 q.2 (Y.next c p).world :=
    fun q hq => (h q hq).stable (h.rely p)
  cases p
  case env     => exact hs
  case start i =>
    intro q hq
    cases List.mem_append.mp hq
    case inl hm => exact hs q hm
    case inr hm => cases List.mem_singleton.mp hm; exact hc i _
  case act n d =>
    cases Y.next_act_cases c n d
    case inr he => rw [he]; exact h
    case inl hn =>
      have ⟨i, op, k, hn⟩ := hn
      rw [next_act hn] at hs ⊢
      intro q hq
      cases List.mem_or_eq_of_mem_set hq
      case inl hm => exact hs q hm
      case inr he => subst he; exact (h.act hn d).right

theorem Holds.run (h : C.Holds c) (hc : ∀ i s, C.Commits i (Y.code i) s) (ps : List (Pick D ι)) :
    C.Holds (Y.run c ps) := by
  induction ps generalizing c
  case nil          => exact h
  case cons p ps hi => exact hi (h.next hc p)

-- What a call has put in place stays there until another call returns that conflicts with it.
theorem Holds.lasts {K : σ → Prop} {X : α → Prop} (h : C.Holds c)
    (hc : ∀ i s, C.Commits i (Y.code i) s) (hq : ∀ s s', C.quiet s s' → K s → K s')
    (he : ∀ a s s', C.effect a s s' → ¬X a → K s → K s') (hk : K c.world) (ps : List (Pick D ι)) :
    K (Y.run c ps).world ∨
    ∃ qs₁ q qs₂ n a, ps = qs₁ ++ q :: qs₂ ∧ Y.Returns n a (Y.run c qs₁) q ∧ X a := by
  induction ps generalizing c
  case nil          => exact .inl hk
  case cons p ps hi =>
    have next : K (Y.next c p).world → _ := hi (h.next hc p)
    by_cases hx : ∃ n a, Y.Returns n a c p ∧ X a
    case pos =>
      have ⟨n, a, hr, hx⟩ := hx
      exact .inr ⟨[], p, ps, n, a, rfl, hr, hx⟩
    case neg =>
      have hn : K (Y.next c p).world := by
        cases h.cases p
        case inl hp => exact hq _ _ hp hk
        case inr hp =>
          have ⟨n, a, hr, ha⟩ := hp
          exact he a _ _ ha (fun hxa => hx ⟨n, a, hr, hxa⟩) hk
      cases next hn
      case inl hk => exact .inl hk
      case inr hr =>
        have ⟨qs₁, q, qs₂, n, a, hs, hr, hx⟩ := hr
        exact .inr ⟨p :: qs₁, q, qs₂, n, a, congrArg _ hs, hr, hx⟩

end Runs

end Protocol
end Effects
