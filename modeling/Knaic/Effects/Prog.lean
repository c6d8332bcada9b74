namespace Effects

-- The operations that a service performs on the world around it, each with the type of its answer.
structure Signature where
  Op  : Type
  Res : Op → Type

-- A service call is a tree of operations: it performs one operation, receives an answer and
-- goes on as a function of that answer.
inductive Prog (S : Signature) (α : Type)
  | ret (a : α)
  | call (op : S.Op) (k : S.Res op → Prog S α)

-- A call that may fail. As in Go, a failure ends the call and carries no value.
abbrev Call (S : Signature) (ε α : Type) :=
  ExceptT ε (Prog S) α

namespace Prog

variable {S : Signature} {α β γ ε : Type}

def bind : Prog S α → (α → Prog S β) → Prog S β
  | ret a, f     => f a
  | call op k, f => call op fun r => (k r).bind f

instance : Monad (Prog S) where
  pure := ret
  bind := bind

def perform (op : S.Op) : Prog S (S.Res op) :=
  call op ret

@[simp]
theorem pure_eq (a : α) : (pure a : Prog S α) = ret a :=
  rfl

@[simp]
theorem ret_bind (a : α) (f : α → Prog S β) : (ret a >>= f) = f a :=
  rfl

@[simp]
theorem call_bind (op : S.Op) (k : S.Res op → Prog S α) (f : α → Prog S β) :
    (call op k >>= f) = call op fun r => k r >>= f :=
  rfl

@[simp]
theorem perform_bind (op : S.Op) (f : S.Res op → Prog S β) :
    (perform op >>= f) = call op f :=
  rfl

@[simp]
theorem bind_ret (p : Prog S α) : (p >>= ret) = p := by
  induction p
  case ret       => rfl
  case call k hi => simp [hi]

theorem bind_assoc (p : Prog S α) (f : α → Prog S β) (g : β → Prog S γ) :
    ((p >>= f) >>= g) = p >>= fun a => f a >>= g := by
  induction p
  case ret       => rfl
  case call k hi => simp [hi]

instance : LawfulMonad (Prog S) :=
  LawfulMonad.mk' (Prog S) bind_ret (fun _ _ => rfl) bind_assoc

-- Whatever it is answered, the program performs only operations in `A`.
def Only (A : S.Op → Prop) : Prog S α → Prop
  | ret _     => True
  | call op k => A op ∧ ∀ r, (k r).Only A

theorem Only.bind {A : S.Op → Prop} {p : Prog S α} {f : α → Prog S β} (h : p.Only A)
    (hf : ∀ a, (f a).Only A) : (p.bind f).Only A := by
  induction p
  case ret a   => exact hf a
  case call hi => exact ⟨h.left, fun r => hi r (h.right r)⟩

theorem Only.mono {A B : S.Op → Prop} {p : Prog S α} (h : p.Only A) (hab : ∀ op, A op → B op) :
    p.Only B := by
  induction p
  case ret     => trivial
  case call hi => exact ⟨hab _ h.left, fun r => hi r (h.right r)⟩

theorem only_any (p : Prog S α) : p.Only fun _ => True := by
  induction p
  case ret     => trivial
  case call hi => exact ⟨trivial, hi⟩

theorem Only.perform {A : S.Op → Prop} {op : S.Op} (h : A op) : (Prog.perform op).Only A :=
  ⟨h, fun _ => trivial⟩

-- A program by itself, its operations answered one after the other.
section Run

variable {σ : Type} {answer : (op : S.Op) → σ → S.Res op × σ} {s : σ}

def run (answer : (op : S.Op) → σ → S.Res op × σ) : Prog S α → σ → α × σ
  | ret a, s     => (a, s)
  | call op k, s => (k (answer op s).1).run answer (answer op s).2

theorem run_bind (p : Prog S α) (f : α → Prog S β) (s : σ) :
    (p.bind f).run answer s = (f (p.run answer s).1).run answer (p.run answer s).2 := by
  induction p generalizing s
  case ret     => rfl
  case call hi => simp [bind, run, hi]

end Run

-- A program by itself: however its operations are answered from state `s` on, it ends with `Q`.
section Always

variable {D σ : Type} {answer : (op : S.Op) → D → σ → S.Res op × σ} {Q R : α → σ → Prop} {s : σ}

def Always (answer : (op : S.Op) → D → σ → S.Res op × σ) (Q : α → σ → Prop) : Prog S α → σ → Prop
  | ret a, s     => Q a s
  | call op k, s => ∀ d, (k (answer op d s).1).Always answer Q (answer op d s).2

theorem Always.mono {p : Prog S α} (h : p.Always answer Q s) (hq : ∀ a s, Q a s → R a s) :
    p.Always answer R s := by
  induction p generalizing s
  case ret     => exact hq _ _ h
  case call hi => exact fun d => hi _ (h d)

theorem always_bind {p : Prog S α} {f : α → Prog S β} {Q : β → σ → Prop} :
    (p.bind f).Always answer Q s ↔ p.Always answer (fun a s => (f a).Always answer Q s) s := by
  induction p generalizing s
  case ret     => rfl
  case call hi => simp [bind, Always, hi]

-- The program from beginning to end, with one draw for each operation.
def play (answer : (op : S.Op) → D → σ → S.Res op × σ) : Prog S α → (Nat → D) → σ → α × σ
  | ret a, _, s     => (a, s)
  | call op k, d, s =>
    (k (answer op (d 0) s).1).play answer (fun n => d (n + 1)) (answer op (d 0) s).2

theorem Always.play {p : Prog S α} (h : p.Always answer Q s) (d : Nat → D) :
    Q (p.play answer d s).1 (p.play answer d s).2 := by
  induction p generalizing s d
  case ret     => exact h
  case call hi => exact hi _ (h (d 0)) _

theorem play_map {p : Prog S α} {f : α → β} {d : Nat → D} :
    (p.bind fun a => .ret (f a)).play answer d s =
      (f (p.play answer d s).1, (p.play answer d s).2) := by
  induction p generalizing d s
  case ret     => rfl
  case call hi => exact hi _

-- With the same draw for all operations, parts of a program are played one after the other.
theorem play_bind_const {p : Prog S α} {f : α → Prog S β} {d : D} :
    (p.bind f).play answer (fun _ => d) s =
      (f (p.play answer (fun _ => d) s).1).play answer (fun _ => d) (p.play answer (fun _ => d) s).2 := by
  induction p generalizing s
  case ret     => rfl
  case call hi => exact hi _

-- What holds however the operations are answered is what holds for all draws.
theorem always_iff_play [Nonempty D] {p : Prog S α} :
    p.Always answer Q s ↔ ∀ d, Q (p.play answer d s).1 (p.play answer d s).2 := by
  refine ⟨Always.play, fun h => ?_⟩
  induction p generalizing s
  case ret     => exact h fun _ => Classical.choice ‹_›
  case call hi => exact fun d₀ => hi _ fun d => h fun | 0 => d₀ | n + 1 => d n

end Always
end Prog

namespace Call

variable {S : Signature} {α β ε : Type}

-- How a call goes on after one that may have failed.
def next (f : α → Call S ε β) : Except ε α → Prog S (Except ε β)
  | .ok a    => f a
  | .error e => .ret (.error e)

theorem bind_eq (p : Call S ε α) (f : α → Call S ε β) :
    (p >>= f) = Prog.bind p (next f) := by
  simp only [Bind.bind, ExceptT.bind, ExceptT.mk]
  congr
  funext r
  cases r <;> rfl

-- An operation that cannot fail comes first.
theorem lift_bind (p : Prog S α) (f : α → Call S ε β) :
    ((ExceptT.lift p : Call S ε α) >>= f : Call S ε β) = p.bind f := by
  rw [bind_eq]
  induction p
  case ret     => rfl
  case call hi => exact congrArg _ (funext hi)

theorem ok_seq (a : α) (f : α → Call S ε β) :
    ((ExceptT.mk (pure (.ok a)) : Call S ε α) >>= f) = f a :=
  rfl

section Run

variable {σ : Type} {answer : (op : S.Op) → σ → S.Res op × σ} {s s' : σ}

theorem run_seq_ok {p : Call S ε α} {a : α}
    (h : Prog.run answer (p : Prog S (Except ε α)) s = (.ok a, s')) (f : α → Call S ε β) :
    Prog.run answer (p >>= f : Call S ε β) s = Prog.run answer (f a : Prog S (Except ε β)) s' := by
  simp [bind_eq, Prog.run_bind, h, next]

theorem run_seq_error {p : Call S ε α} {e : ε}
    (h : Prog.run answer (p : Prog S (Except ε α)) s = (.error e, s')) (f : α → Call S ε β) :
    Prog.run answer (p >>= f : Call S ε β) s = (.error e, s') := by
  simp [bind_eq, Prog.run_bind, h, next, Prog.run]

end Run

-- The same call with its error put into context, as `fmt.Errorf` does with `%w`.
def mapError (f : ε → ε) (p : Call S ε α) : Call S ε α :=
  Prog.bind p fun
    | .ok a    => .ret (.ok a)
    | .error e => .ret (.error (f e))

-- The same call, of whose result only success or failure is kept.
def void (p : Call S ε α) : Call S ε Unit := do
  let _ ← p
  return ()

@[simp]
theorem void_ok (a : α) : void (.ret (.ok a) : Prog S (Except ε α)) = .ret (.ok ()) :=
  rfl

@[simp]
theorem void_error (e : ε) : void (.ret (.error e) : Prog S (Except ε α)) = .ret (.error e) :=
  rfl

@[simp]
theorem void_call (op : S.Op) (k : S.Res op → Prog S (Except ε α)) :
    void (.call op k : Prog S (Except ε α)) = .call op fun r => void (k r) :=
  rfl

theorem void_map (p : Call S ε α) (f : α → β) :
    void (p >>= fun a => pure (f a) : Call S ε β) = p.void := by
  simp only [void, bind_eq]
  induction p using Prog.rec
  case ret r   => cases r <;> rfl
  case call hi => exact congrArg _ (funext hi)

theorem void_throw (e : ε) : void (throw e : Call S ε α) = throw e :=
  rfl

theorem run_mapError {σ : Type} {answer : (op : S.Op) → σ → S.Res op × σ} (p : Call S ε α) (f : ε → ε)
    (s : σ) : Prog.run answer (p.mapError f : Prog S (Except ε α)) s =
    ((Prog.run answer (p : Prog S (Except ε α)) s).1.mapError f,
      (Prog.run answer (p : Prog S (Except ε α)) s).2) := by
  rw [mapError, Prog.run_bind]
  cases (Prog.run answer (p : Prog S (Except ε α)) s).1 <;> rfl

theorem only_seq {A : S.Op → Prop} {p : Call S ε α} {f : α → Call S ε β} (h : Prog.Only A p)
    (hf : ∀ a, Prog.Only A (f a)) : Prog.Only A (p >>= f : Call S ε β) := by
  rw [bind_eq]
  refine h.bind fun r => ?_
  cases r
  case ok a    => exact hf a
  case error e => trivial

theorem only_guard {A : S.Op → Prop} {p : Call S ε α} {c : Prop} [Decidable c] {e : ε} (h : ¬c → Prog.Only A p) :
    Prog.Only A (if c then throw e else p : Call S ε α) := by
  split
  case isTrue     => trivial
  case isFalse hc => exact h hc

theorem only_mapError {A : S.Op → Prop} {p : Call S ε α} {f : ε → ε} (h : Prog.Only A p) :
    Prog.Only A (p.mapError f) :=
  Prog.Only.bind h fun r => by cases r <;> trivial

theorem only_void {A : S.Op → Prop} {p : Call S ε α} (h : Prog.Only A p) : Prog.Only A p.void :=
  only_seq h fun _ => trivial

theorem play_seq_pure {D σ : Type} {answer : (op : S.Op) → D → σ → S.Res op × σ} {s : σ} {p : Call S ε α}
    {f : α → β} {d : Nat → D} : Prog.play answer (p >>= fun a => pure (f a) : Call S ε β) d s =
      ((Prog.play answer (p : Prog S (Except ε α)) d s).1.map f,
        (Prog.play answer (p : Prog S (Except ε α)) d s).2) := by
  rw [bind_eq, ← Prog.play_map]
  congr
  funext r
  cases r <;> rfl

theorem play_mapError {D σ : Type} {answer : (op : S.Op) → D → σ → S.Res op × σ} {s : σ}
    {p : Call S ε α} {f : ε → ε} {d : Nat → D} :
    Prog.play answer (p.mapError f : Prog S (Except ε α)) d s =
      ((Prog.play answer (p : Prog S (Except ε α)) d s).1.mapError f,
        (Prog.play answer (p : Prog S (Except ε α)) d s).2) := by
  rw [mapError, ← Prog.play_map]
  congr
  funext r
  cases r <;> rfl

theorem play_void {D σ : Type} {answer : (op : S.Op) → D → σ → S.Res op × σ} {s : σ} {p : Call S ε α}
    {d : Nat → D} : Prog.play answer (p.void : Prog S (Except ε Unit)) d s =
      ((Prog.play answer (p : Prog S (Except ε α)) d s).1.map fun _ => (),
        (Prog.play answer (p : Prog S (Except ε α)) d s).2) :=
  play_seq_pure

theorem always_seq {D σ : Type} {answer : (op : S.Op) → D → σ → S.Res op × σ} {Q : Except ε β → σ → Prop}
    {s : σ} {p : Call S ε α} {f : α → Call S ε β} :
    Prog.Always answer Q (p >>= f : Call S ε β) s ↔
    Prog.Always answer (fun r s => Prog.Always answer Q (next f r) s) p s := by
  rw [bind_eq, Prog.always_bind]

theorem always_mapError {D σ : Type} {answer : (op : S.Op) → D → σ → S.Res op × σ}
    {Q : Except ε α → σ → Prop} {s : σ} {p : Call S ε α} {f : ε → ε} :
    Prog.Always answer Q (p.mapError f) s ↔
    Prog.Always answer (fun r s => Q (r.mapError f) s) (p : Prog S (Except ε α)) s := by
  rw [mapError, Prog.always_bind]
  constructor
  all_goals
    intro h
    refine h.mono fun r s hr => ?_
    cases r <;> exact hr

-- What holds of the state alone does not depend on the result that is kept.
theorem always_void {D σ : Type} {answer : (op : S.Op) → D → σ → S.Res op × σ} {Q : σ → Prop} {s : σ}
    {p : Call S ε α} :
    Prog.Always answer (fun _ s => Q s) p.void s ↔
    Prog.Always answer (fun _ s => Q s) (p : Prog S (Except ε α)) s := by
  rw [void, bind_eq, Prog.always_bind]
  constructor
  all_goals
    intro h
    refine h.mono fun r s hr => ?_
    cases r <;> exact hr

end Call

variable {S : Signature} {D σ α β ε : Type} {answer : (op : S.Op) → D → σ → S.Res op × σ}
  {P : S.Op → D → σ → Prop} {Q R : α → σ → Prop} {s : σ}

namespace Prog

-- The operations of a program, as they are played, meet a condition.
def Meets (answer : (op : S.Op) → D → σ → S.Res op × σ) (P : S.Op → D → σ → Prop) :
    Prog S α → (Nat → D) → σ → Prop
  | ret _, _, _     => True
  | call op k, d, s =>
    P op (d 0) s ∧ (k (answer op (d 0) s).1).Meets answer P (fun n => d (n + 1)) (answer op (d 0) s).2

-- As long as its operations meet the condition, the program ends with `Q`.
def AlwaysUnder (answer : (op : S.Op) → D → σ → S.Res op × σ) (P : S.Op → D → σ → Prop)
    (Q : α → σ → Prop) : Prog S α → σ → Prop
  | ret a, s     => Q a s
  | call op k, s =>
    ∀ d, P op d s → (k (answer op d s).1).AlwaysUnder answer P Q (answer op d s).2

theorem AlwaysUnder.mono {p : Prog S α} (h : p.AlwaysUnder answer P Q s) (hq : ∀ a s, Q a s → R a s) :
    p.AlwaysUnder answer P R s := by
  induction p generalizing s
  case ret     => exact hq _ _ h
  case call hi => exact fun d hd => hi _ (h d hd)

theorem alwaysUnder_bind {p : Prog S α} {f : α → Prog S β} {Q : β → σ → Prop} :
    (p.bind f).AlwaysUnder answer P Q s ↔
    p.AlwaysUnder answer P (fun a s => (f a).AlwaysUnder answer P Q s) s := by
  induction p generalizing s
  case ret     => rfl
  case call hi => simp [bind, AlwaysUnder, hi]

-- A program whose operations leave the state alone.
theorem Only.still {A : S.Op → Prop} {p : Prog S α} (h : p.Only A)
    (ha : ∀ op d s, A op → (answer op d s).2 = s) : p.AlwaysUnder answer P (fun _ s' => s' = s) s := by
  induction p generalizing s
  case ret           => rfl
  case call op k hi =>
    intro d _
    rw [ha op d s h.left]
    exact hi _ (h.right _)

theorem AlwaysUnder.play {p : Prog S α} (h : p.AlwaysUnder answer P Q s) {d : Nat → D}
    (hd : p.Meets answer P d s) : Q (p.play answer d s).1 (p.play answer d s).2 := by
  induction p generalizing s d
  case ret     => exact h
  case call hi => exact hi _ (h _ hd.left) hd.right

-- Where nothing is asked of the operations, it holds of every play.
theorem meets_any (p : Prog S α) (d : Nat → D) (s : σ) : p.Meets answer (fun _ _ _ => True) d s := by
  induction p generalizing d s
  case ret     => trivial
  case call hi => exact ⟨trivial, hi _ _ _⟩

end Prog

-- The rule for calls that may fail: a call goes on from where the one before it has ended.
theorem Call.under_seq {Q : Except ε β → σ → Prop} {p : Call S ε α} {f : α → Call S ε β} :
    Prog.AlwaysUnder answer P Q (p >>= f : Call S ε β) s ↔
    Prog.AlwaysUnder answer P (fun r s => Prog.AlwaysUnder answer P Q (next f r) s) p s := by
  rw [bind_eq, Prog.alwaysUnder_bind]

end Effects
