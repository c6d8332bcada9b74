import Knaic.Effects.Prog

namespace Effects

-- A state behind operations, one of which happens after the other.
structure Machine (S : Signature) (D σ : Type) where
  answer : (op : S.Op) → D → σ → S.Res op × σ

-- The answer of an operation that changes the state when it succeeds.
def commit {α ε σ : Type} (s : σ) : Except ε (α × σ) → Except ε α × σ
  | .ok (a, s') => (.ok a, s')
  | .error e    => (.error e, s)

namespace Machine

variable {S : Signature} {D σ τ O : Type}

def next (M : Machine S D σ) (s : σ) (step : S.Op × D) : σ :=
  (M.answer step.1 step.2 s).2

def run (M : Machine S D σ) (s : σ) (steps : List (S.Op × D)) : σ :=
  steps.foldl M.next s

-- What is seen of the answers.
def trace (M : Machine S D σ) (see : (op : S.Op) → S.Res op → O) :
    σ → List (S.Op × D) → List O
  | _, []            => []
  | s, step :: steps =>
    see step.1 (M.answer step.1 step.2 s).1 :: M.trace see (M.next s step) steps

-- All of the answers.
abbrev results (M : Machine S D σ) : σ → List (S.Op × D) → List (Sigma S.Res) :=
  M.trace Sigma.mk

-- What holds of every state of a run and the step that is taken from it.
def Throughout (M : Machine S D σ) (P : S.Op → D → σ → Prop) : σ → List (S.Op × D) → Prop
  | _, []            => True
  | s, step :: steps => P step.1 step.2 s ∧ M.Throughout P (M.next s step) steps

def decideThroughout {M : Machine S D σ} {P : S.Op → D → σ → Prop}
    [∀ op d s, Decidable (P op d s)] :
    (s : σ) → (steps : List (S.Op × D)) → Decidable (M.Throughout P s steps)
  | _, []            => isTrue trivial
  | s, step :: steps =>
    have : Decidable (M.Throughout P (M.next s step) steps) := decideThroughout _ steps
    inferInstanceAs (Decidable (P step.1 step.2 s ∧ M.Throughout P (M.next s step) steps))

instance {M : Machine S D σ} {P : S.Op → D → σ → Prop} [∀ op d s, Decidable (P op d s)]
    {s : σ} {steps : List (S.Op × D)} : Decidable (M.Throughout P s steps) :=
  decideThroughout s steps

variable {M : Machine S D σ} {N : Machine S D τ} {P Q : S.Op → D → σ → Prop} {s : σ} {t : τ}
  {step : S.Op × D} {steps : List (S.Op × D)} {see : (op : S.Op) → S.Res op → O}

@[simp]
theorem run_nil : M.run s [] = s :=
  rfl

@[simp]
theorem run_cons : M.run s (step :: steps) = M.run (M.next s step) steps :=
  rfl

theorem throughout_append {steps' : List (S.Op × D)} : M.Throughout P s (steps ++ steps') ↔
    M.Throughout P s steps ∧ M.Throughout P (M.run s steps) steps' := by
  induction steps generalizing s
  case nil     => simp [Throughout]
  case cons hi => simp only [List.cons_append, Throughout, hi, run_cons, and_assoc]

theorem run_append (steps' : List (S.Op × D)) :
    M.run s (steps ++ steps') = M.run (M.run s steps) steps' :=
  List.foldl_append

-- What every step that meets the condition does from states with an invariant, which it keeps.
theorem Throughout.ensures {I : σ → Prop} (hi : I s) (h : M.Throughout P s steps)
    (hn : ∀ op d s, I s → P op d s → Q op d s ∧ I (M.answer op d s).2) : M.Throughout Q s steps := by
  induction steps generalizing s
  case nil            => trivial
  case cons step _ ih =>
    have ⟨hq, hi'⟩ := hn _ _ _ hi h.left
    exact ⟨hq, ih hi' h.right⟩

-- One machine follows another when, from states that are related, every step that meets the
-- condition is answered alike and leads to such states.
structure Follows (M : Machine S D σ) (N : Machine S D τ) (see : (op : S.Op) → S.Res op → O)
    (P : S.Op → D → σ → Prop) (rel : σ → τ → Prop) : Prop where
  alike : ∀ op d s t, rel s t → P op d s → see op (M.answer op d s).1 = see op (N.answer op d t).1
  keeps : ∀ op d s t, rel s t → P op d s → rel (M.answer op d s).2 (N.answer op d t).2

theorem Follows.run {rel : σ → τ → Prop} (hf : Follows M N see P rel) (hr : rel s t)
    (h : M.Throughout P s steps) :
    M.trace see s steps = N.trace see t steps ∧ rel (M.run s steps) (N.run t steps) := by
  induction steps generalizing s t
  case nil            => exact ⟨rfl, hr⟩
  case cons step _ ih =>
    have ⟨ht, hr'⟩ := ih (hf.keeps _ _ _ _ hr h.left) h.right
    exact ⟨List.cons_eq_cons.mpr ⟨hf.alike _ _ _ _ hr h.left, ht⟩, hr'⟩

theorem Follows.throughout {rel : σ → τ → Prop} {R : S.Op → D → τ → Prop}
    (hf : Follows M N see P rel) (hr : rel s t) (h : M.Throughout P s steps)
    (hq : ∀ op d s t, rel s t → P op d s → R op d t) : N.Throughout R t steps := by
  induction steps generalizing s t
  case nil            => trivial
  case cons step _ ih =>
    exact ⟨hq _ _ _ _ hr h.left, ih (hf.keeps _ _ _ _ hr h.left) h.right⟩

theorem Throughout.mono (h : M.Throughout P s steps) (hpq : ∀ op d s, P op d s → Q op d s) :
    M.Throughout Q s steps := by
  induction steps generalizing s
  case nil            => trivial
  case cons step _ ih => exact ⟨hpq _ _ _ h.left, ih h.right⟩

section Invariant

variable {J I : σ → Prop} {K : S.Op → D → σ → Prop}

-- Where a step keeps the invariant if and only if it meets the condition, so do runs.
theorem invariant_iff (hj : J s) (hi : I s) (hk : ∀ op d s, J s → J (M.answer op d s).2)
    (hs : ∀ op d s, J s → I s → (I (M.answer op d s).2 ↔ K op d s)) (steps : List (S.Op × D)) :
    (∀ pre, pre <+: steps → I (M.run s pre)) ↔ M.Throughout K s steps := by
  induction steps generalizing s
  case nil                =>
    refine iff_of_true (fun pre hp => ?_) trivial
    rwa [List.prefix_nil.mp hp]
  case cons step steps ih =>
    have hj' : J (M.next s step) := hk _ _ _ hj
    constructor
    case mp =>
      intro h
      have hi' : I (M.next s step) := h [step] ⟨steps, rfl⟩
      exact ⟨(hs _ _ _ hj hi).mp hi', (ih hj' hi').mp fun pre hp => h (step :: pre) (List.cons_prefix_cons.mpr ⟨rfl, hp⟩)⟩
    case mpr =>
      intro h pre hp
      cases pre
      case nil           => exact hi
      case cons step' pre =>
        obtain ⟨rfl, hl⟩ := List.cons_prefix_cons.mp hp
        exact (ih hj' ((hs _ _ _ hj hi).mpr h.left)).mpr h.right pre hl

theorem invariant_run (hj : J s) (hk : ∀ op d s, J s → J (M.answer op d s).2) (steps : List (S.Op × D)) :
    J (M.run s steps) := by
  induction steps generalizing s
  case nil       => exact hj
  case cons ih => exact ih (hk _ _ _ hj)

end Invariant

-- A machine beside a log that is kept of its answers.
section Logged

variable {L : Type} {note : L → (op : S.Op) → S.Res op → L} {l : L}

def logged (M : Machine S D σ) (note : L → (op : S.Op) → S.Res op → L) : Machine S D (σ × L) where
  answer op d s := ((M.answer op d s.1).1, (M.answer op d s.1).2, note s.2 op (M.answer op d s.1).1)

theorem logged_run_fst (steps : List (S.Op × D)) : ((M.logged note).run (s, l) steps).1 = M.run s steps := by
  induction steps generalizing s l
  case nil         => rfl
  case cons hi => exact hi

theorem logged_throughout (steps : List (S.Op × D)) :
    (M.logged note).Throughout (fun op d s => P op d s.1) (s, l) steps ↔ M.Throughout P s steps := by
  induction steps generalizing s l
  case nil     => rfl
  case cons hi => exact and_congr_right fun _ => hi

end Logged
end Machine
end Effects
