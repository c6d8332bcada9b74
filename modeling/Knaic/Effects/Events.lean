namespace Effects.Events

-- A state that changes with each event, one event after the other.
variable {σ ε : Type} (step : σ → ε → σ)

def run (s : σ) (es : List ε) : σ :=
  es.foldl step s

-- What holds in every state of the run.
def Reached (P : σ → Prop) : σ → List ε → Prop
  | s, []      => P s
  | s, e :: es => P s ∧ Reached P (step s e) es

-- What holds of every event of the run and the state in which it happens.
def Taken (A : σ → ε → Prop) : σ → List ε → Prop
  | _, []      => True
  | s, e :: es => A s e ∧ Taken A (step s e) es

variable {step} {A B : σ → ε → Prop} {I P Q : σ → Prop} {s : σ} {e : ε} {es fs : List ε}

def decideTaken {step : σ → ε → σ} {A : σ → ε → Prop} [∀ s e, Decidable (A s e)] :
    (s : σ) → (es : List ε) → Decidable (Taken step A s es)
  | _, []      => isTrue trivial
  | s, e :: es =>
    have : Decidable (Taken step A (step s e) es) := decideTaken (step s e) es
    inferInstanceAs (Decidable (A s e ∧ Taken step A (step s e) es))

instance [∀ s e, Decidable (A s e)] : Decidable (Taken step A s es) :=
  decideTaken s es

theorem run_append : run step s (es ++ fs) = run step (run step s es) fs :=
  List.foldl_append

-- An invariant that every event keeps.
theorem run_keeps (hi : I s) (hs : ∀ s e, I s → I (step s e)) (es : List ε) : I (run step s es) := by
  induction es generalizing s
  case nil          => exact hi
  case cons e _ ih => exact ih (hs s e hi)

theorem Reached.here (h : Reached step P s es) : P s := by
  cases es
  case nil  => exact h
  case cons => exact h.left

theorem Reached.last (h : Reached step P s es) : P (run step s es) := by
  induction es generalizing s
  case nil        => exact h
  case cons e _ hi => exact hi h.right

-- An invariant that the allowed events keep.
theorem Taken.reached (h : Taken step A s es) (hi : I s)
    (hs : ∀ s e, I s → A s e → I (step s e)) : Reached step I s es := by
  induction es generalizing s
  case nil         => exact hi
  case cons e _ ih => exact ⟨hi, ih h.right (hs s e hi h.left)⟩

theorem Reached.mono (h : Reached step P s es) (hq : ∀ s, P s → Q s) : Reached step Q s es := by
  induction es generalizing s
  case nil        => exact hq s h
  case cons hi => exact ⟨hq s h.left, hi h.right⟩

theorem Taken.of_forall (h : ∀ s e, A s e) (s : σ) (es : List ε) : Taken step A s es := by
  induction es generalizing s
  case nil        => trivial
  case cons e _ ih => exact ⟨h s e, ih (step s e)⟩

-- If every event that is not allowed leads out of `P` at once, `P` holds throughout a run exactly if
-- all its events are allowed. Of every event `B` may be assumed.
theorem reached_iff_taken_of (hb : Taken step B s es) (hi : I s) (hp : ∀ s, I s → P s)
    (hs : ∀ s e, I s → B s e → A s e → I (step s e)) (hn : ∀ s e, I s → B s e → ¬A s e → ¬P (step s e)) :
    Reached step P s es ↔ Taken step A s es := by
  induction es generalizing s
  case nil          => exact ⟨fun _ => trivial, fun _ => hp s hi⟩
  case cons e es ih =>
    constructor
    case mp =>
      intro h
      have ha : A s e := Classical.byContradiction fun ha => hn s e hi hb.left ha h.right.here
      exact ⟨ha, (ih hb.right (hs s e hi hb.left ha)).mp h.right⟩
    case mpr =>
      intro h
      exact ⟨hp s hi, (ih hb.right (hs s e hi hb.left h.left)).mpr h.right⟩

theorem reached_iff_taken (hi : I s) (hp : ∀ s, I s → P s) (hs : ∀ s e, I s → A s e → I (step s e))
    (hn : ∀ s e, I s → ¬A s e → ¬P (step s e)) : Reached step P s es ↔ Taken step A s es :=
  reached_iff_taken_of (.of_forall (fun _ _ => trivial) s es) hi hp (fun s e hi _ => hs s e hi)
    fun s e hi _ => hn s e hi

end Effects.Events

-- A view that shows what was listed last, and asks again whenever its selection changes.
namespace Effects.Listing

variable {σ : Type}

-- What is shown is what is selected, or the listing of what is selected is still under way.
def Due (selection shown : Option σ) (pending : List σ) : Prop :=
  shown = selection ∨ ∃ x, selection = some x ∧ x ∈ pending

-- The listing that is answered is that of the selection, or that one is still to be answered.
def Timely (selection : Option σ) (pending : List σ) (i : Nat) : Prop :=
  ∀ x ∈ pending[i]?, selection = some x ∨ ∃ y, selection = some y ∧ y ∈ pending.eraseIdx i

instance [DecidableEq σ] : (selection : Option σ) → (pending : List σ) → (i : Nat) →
    Decidable (Timely selection pending i)
  | none, pending, i   => decidable_of_iff (∀ x ∈ pending[i]?, False) (by simp [Timely])
  | some y, pending, i =>
    decidable_of_iff (∀ x ∈ pending[i]?, y = x ∨ y ∈ pending.eraseIdx i) (by simp [Timely])

variable {selection shown : Option σ} {pending : List σ} {i : Nat} {x : σ}

theorem Due.ask (h : Due selection shown pending) (x : σ) : Due selection shown (pending ++ [x]) := by
  obtain h | ⟨y, hs, hm⟩ := h
  case inl => exact .inl h
  case inr => exact .inr ⟨y, hs, List.mem_append_left _ hm⟩

theorem due_asked (shown : Option σ) (pending : List σ) (x : σ) :
    Due (some x) shown (pending ++ [x]) :=
  .inr ⟨x, rfl, List.mem_append_right _ (.head _)⟩

theorem Due.answer (hi : pending[i]? = some x) (ht : Timely selection pending i) :
    Due selection (some x) (pending.eraseIdx i) :=
  (ht x hi).imp_left Eq.symm

-- With nothing under way, what is selected is shown.
theorem Due.settled (h : Due selection shown []) : shown = selection := by
  obtain h | ⟨_, -, hm⟩ := h
  case inl => exact h
  case inr => cases hm

end Effects.Listing
