import Knaic.Effects.Pool

namespace Effects

-- The operations of `S`, and more.
abbrev Signature.extend (S X : Signature) : Signature where
  Op  := S.Op ⊕ X.Op
  Res := Sum.elim S.Res X.Res

namespace Prog

variable {S X : Signature} {α β : Type}

-- A program that was written without the new operations.
def lift : Prog S α → Prog (S.extend X) α
  | ret a     => ret a
  | call op k => @call (S.extend X) _ (.inl op) fun r => (k r).lift

-- An operation that is new.
def extra (op : X.Op) : Prog (S.extend X) (X.Res op) :=
  @call (S.extend X) _ (.inr op) ret

theorem Only.lift {A : (S.extend X).Op → Prop} {p : Prog S α} (h : p.Only fun op => A (.inl op)) :
    p.lift.Only A := by
  induction p
  case ret     => trivial
  case call hi => exact ⟨h.left, fun r => hi r (h.right r)⟩

end Prog

-- A call that was written without the new operations.
def Call.lift {S X : Signature} {ε α : Type} (p : Call S ε α) : Call (S.extend X) ε α :=
  Prog.lift (p : Prog S (Except ε α))

namespace Pool

variable {S X : Signature} {D σ ι α : Type}

-- The pool as it is to calls that perform no new operation.
def restrict (Y : Pool (S.extend X) D σ ι α) (code : ι → Prog S α) : Pool S D σ ι α where
  answer i op := Y.answer i (.inl op)
  env         := Y.env
  code        := code

def Condition.restrict (P : Condition (S.extend X) D σ ι) : Condition S D σ ι :=
  fun i op => P i (.inl op)

end Pool

namespace Contract

open Pool

variable {S X : Signature} {D σ ι α β ε : Type} {Y : Pool (S.extend X) D σ ι α} {code : ι → Prog S α}

def restrict (C : Contract Y) (code : ι → Prog S α) : Contract (Y.restrict code) where
  inv       := C.inv
  rely      := C.rely
  guar      := C.guar.restrict
  refl      := C.refl
  trans     := C.trans
  guar_inv  := C.guar_inv
  guar_rely := C.guar_rely
  env_inv   := C.env_inv
  env_rely  := C.env_rely

-- What is shown of a program next to the old operations holds next to the new ones.
theorem Safe.lift_prog {C : Contract Y} {P : Condition (S.extend X) D σ ι} {Q : β → σ → Prop}
    {p : Prog S β} (h : (C.restrict code).Safe P.restrict i Q p s) : C.Safe P i Q p.lift s := by
  induction p generalizing s
  case ret     => exact h
  case call hi =>
    intro s₁ hr hv d hp
    have ⟨hg, hk⟩ := h s₁ hr hv d hp
    exact ⟨hg, hi _ hk⟩

theorem Safe.lift_call {C : Contract Y} {P : Condition (S.extend X) D σ ι} {Q : β → σ → Prop}
    {p : Call S ε β} (h : (C.restrict code).Safe P.restrict i (Ok Q) p s) :
    C.Safe P i (Ok Q) p.lift s :=
  lift_prog h

end Contract
end Effects
