import Knaic.Effects.Prog

namespace Effects

-- What has been asked, each with its answer.
abbrev Transcript (S : Signature) :=
  List ((op : S.Op) × S.Res op)

namespace Transcript

variable {S : Signature} {α β : Type} {log : Transcript S}

-- Whatever an operation is answered, it is written down.
def record (op : S.Op) (answer : (op : S.Op) → S.Res op) (log : Transcript S) : S.Res op × Transcript S :=
  (answer op, log ++ [⟨op, answer op⟩])

-- A program writes behind what is written already, and does not look at it.
theorem always_append {p : Prog S α} {Q : α → Transcript S → Prop} :
    p.Always record Q log ↔ p.Always record (fun a l => Q a (log ++ l)) [] := by
  have h (l : Transcript S) : p.Always record Q (log ++ l) ↔ p.Always record (fun a l => Q a (log ++ l)) l := by
    induction p generalizing l
    case ret     => rfl
    case call hi =>
      simp only [Prog.Always, record, List.append_assoc]
      exact forall_congr' fun d => hi _ _
  simpa using h []

-- What a program is known to perform is all that it writes down.
theorem always_only {A : S.Op → Prop} {p : Prog S α} (h : p.Only A) :
    p.Always record (fun _ l => ∀ e ∈ l, A e.1) [] := by
  induction p
  case ret a         => exact fun _ he => absurd he List.not_mem_nil
  case call op k hi =>
    intro d
    refine always_append.mpr ((hi (d op) (h.right _)).mono fun _ l hl e he => ?_)
    obtain he | he := List.mem_append.mp he
    case inl => exact List.mem_singleton.mp he ▸ h.left
    case inr => exact hl e he

-- A call and what comes after it, each with what it writes.
theorem always_seq {ε : Type} {p : Call S ε α} {f : α → Call S ε β} {P : Except ε α → Transcript S → Prop}
    {Q : Except ε β → Transcript S → Prop} (hp : Prog.Always record P (p : Prog S (Except ε α)) [])
    (hf : ∀ r l, P r l → Prog.Always record (fun r l' => Q r (l ++ l')) (Call.next f r) []) :
    Prog.Always record Q (p >>= f : Call S ε β) [] :=
  Call.always_seq.mpr (hp.mono fun r l h => always_append.mpr (hf r l h))

-- What does not depend on operations in `A` that came before may start with a call of these.
theorem always_after {ε : Type} {A : S.Op → Prop} {p : Call S ε α} {f : α → Call S ε β}
    {Q : Except ε β → Transcript S → Prop} (hp : Prog.Only A p)
    (hq : ∀ r l l', (∀ e ∈ l, A e.1) → Q r l' → Q r (l ++ l')) (he : ∀ e, Q (.error e) [])
    (hf : ∀ a, Prog.Always record Q (f a) []) : Prog.Always record Q (p >>= f : Call S ε β) [] := by
  refine always_seq (always_only hp) fun r l hl => ?_
  cases r
  case ok a    => exact (hf a).mono fun r l' h => hq r l l' hl h
  case error e => exact hq _ l [] hl (he e)

-- What is written down stays.
theorem play_mem {p : Prog S α} {answers : Nat → (op : S.Op) → S.Res op} {e : (op : S.Op) × S.Res op}
    (h : e ∈ log) : e ∈ (p.play record answers log).2 := by
  induction p generalizing log answers
  case ret     => exact h
  case call hi => exact hi _ (List.mem_append_left _ h)

theorem play_mem_seq {ε : Type} {p : Call S ε α} {f : α → Call S ε β} {answer : (op : S.Op) → S.Res op}
    {e : (op : S.Op) × S.Res op} (h : e ∈ (Prog.play record (p : Prog S (Except ε α)) (fun _ => answer) log).2) :
    e ∈ (Prog.play record (p >>= f : Call S ε β) (fun _ => answer) log).2 := by
  rw [Call.bind_eq, Prog.play_bind_const]
  exact play_mem h

theorem play_seq_ok {ε : Type} {p : Call S ε α} {a : α} {l : Transcript S} {answer : (op : S.Op) → S.Res op}
    (h : Prog.play record (p : Prog S (Except ε α)) (fun _ => answer) log = (.ok a, l)) (f : α → Call S ε β) :
    Prog.play record (p >>= f : Call S ε β) (fun _ => answer) log =
      Prog.play record (f a : Prog S (Except ε β)) (fun _ => answer) l := by
  rw [Call.bind_eq, Prog.play_bind_const, h]
  rfl

-- Every answer that is written down was given.
theorem play_answered {p : Prog S α} {answers : Nat → (op : S.Op) → S.Res op} {e : (op : S.Op) × S.Res op}
    (h : e ∈ (p.play record answers log).2) : e ∈ log ∨ ∃ n, e.2 = answers n e.1 := by
  induction p generalizing log answers
  case ret     => exact .inl h
  case call hi =>
    obtain he | ⟨n, hn⟩ := hi _ h
    case inr => exact .inr ⟨n + 1, hn⟩
    case inl =>
      obtain he | he := List.mem_append.mp he
      case inl => exact .inl he
      case inr => exact .inr ⟨0, by rw [List.mem_singleton.mp he]⟩

end Transcript
end Effects
