import Knaic.Effects.Pool
import Knaic.Kube.Objects

open Go Effects

namespace Kube

def errNotFound : Error :=
  .sentinel "kubernetes" "NotFound"

def errAlreadyExists : Error :=
  .sentinel "kubernetes" "AlreadyExists"

def errConflict : Error :=
  .sentinel "kubernetes" "Conflict"

def errInvalid : Error :=
  .sentinel "kubernetes" "Invalid"

-- The requests to the API server, a connection to a Service by its DNS name, and the clock.
inductive Op
  | get (k : Kind) (key : Key)
  | create (k : Kind) (o : Object k)
  | update (k : Kind) (o : Object k)
  | patch (k : Kind) (key : Key) (f : Object k → Object k)
  | delete (k : Kind) (key : Key)
  | dial (key : Key)
  | timestamp

abbrev ops : Signature where
  Op := Op
  Res
    | .get k _ | .create k _ | .update k _ | .patch k _ _ => Except Error (Object k)
    | .delete _ _                                        => Except Error Unit
    | .dial _                                            => Except Error Service
    | .timestamp                                         => Str

abbrev Call :=
  Effects.Call ops Error

def perform (op : Op) : Prog ops (ops.Res op) :=
  @Prog.perform ops op

def get (k : Kind) (key : Key) : Call (Object k) :=
  perform (.get k key)

def create (k : Kind) (o : Object k) : Call (Object k) :=
  perform (.create k o)

def update (k : Kind) (o : Object k) : Call (Object k) :=
  perform (.update k o)

def patch (k : Kind) (key : Key) (f : Object k → Object k) : Call (Object k) :=
  perform (.patch k key f)

def delete (k : Kind) (key : Key) : Call Unit :=
  perform (.delete k key)

def dial (key : Key) : Call Service :=
  perform (.dial key)

def timestamp : Call Str :=
  ExceptT.lift (perform .timestamp)

-- A call whose failure the caller looks at.
def attempt (p : Call α) : Call (Except Error α) :=
  ExceptT.lift (p : Prog ops (Except Error α))

-- A call whose failure counts as success when it is `target`.
def tolerate (target : Error) (p : Call α) : Call Unit := do
  let result ← attempt p
  match result with
  | .ok _      => return
  | .error err => if target.is err then return else throw err

-- What a request finds beside the objects: the clock, the same as RFC 3339 text, and whether the
-- request fails for any other reason, in which case it has no effect.
structure Draw where
  now     : Time
  text    : Str
  failure : Option Error

def answer (op : ops.Op) (d : Draw) (c : Cluster) : ops.Res op × Cluster :=
  match op, d.failure with
  | .timestamp, _                => (d.text, c)
  | .get _ _, some e             => (.error e, c)
  | .create _ _, some e          => (.error e, c)
  | .update _ _, some e          => (.error e, c)
  | .patch _ _ _, some e         => (.error e, c)
  | .delete _ _, some e          => (.error e, c)
  | .dial _, some e              => (.error e, c)
  | .get k key, none             =>
    match (c k).lookup key with
    | none   => (.error errNotFound, c)
    | some o => (.ok o, c)
  | .create k o, none            =>
    match (c k).lookup o.key with
    | some _ => (.error errAlreadyExists, c)
    | none   =>
      let new := o.stamp d.now 1
      (.ok new, c.put o.key new)
  | .update k o, none            =>
    match (c k).lookup o.key with
    | none     => (.error errNotFound, c)
    | some old =>
      if o.metadata.resourceVersion ≠ 0 &&
          o.metadata.resourceVersion ≠ old.metadata.resourceVersion then
        (.error errConflict, c)
      else
        let new := o.stamp old.metadata.creationTimestamp (old.metadata.resourceVersion + 1)
        (.ok new, c.put o.key new)
  | .patch k key f, none         =>
    match (c k).lookup key with
    | none     => (.error errNotFound, c)
    | some old =>
      let new := (f old).stamp old.metadata.creationTimestamp (old.metadata.resourceVersion + 1)
      (.ok new, c.put key new)
  | .delete k key, none          =>
    match (c k).lookup key with
    | none   => (.error errNotFound, c)
    | some _ => (.ok (), c.drop k key)
  | .dial key, none              =>
    match (c .service).lookup key with
    | none   => (.error errNotFound, c)
    | some o => (.ok o, c)

-- The validation of the API server: which objects may be created, and which may replace a stored one.
structure Admission where
  create : (k : Kind) → Object k → Bool
  update : (k : Kind) → Object k → Object k → Bool

def validated (a : Admission) (op : Op) (c : Cluster) (d : Draw) : Draw :=
  match op with
  | .create k o => if a.create k o then d else { d with failure := some errInvalid }
  | .update k o =>
    match (c k).lookup o.key with
    | none     => d
    | some old => if a.update k old o then d else { d with failure := some errInvalid }
  | _           => d

-- The object that a request reads, changes, removes or connects to. A creation that finds its name
-- taken learns only that.
def Op.addr : Op → Option (Kind × Key)
  | .get k key | .patch k key _ | .delete k key => some (k, key)
  | .update k o                                 => some (k, o.key)
  | .dial key                                   => some (.service, key)
  | .create _ _ | .timestamp                    => none

-- The kind of the objects that a request may write.
def Op.writes : Op → Option Kind
  | .create k _ | .update k _ | .patch k _ _ | .delete k _ => some k
  | .get _ _ | .dial _ | .timestamp                        => none

-- No object that the request reaches has the property.
def Spares (φ : {k : Kind} → Object k → Prop) (op : Op) (c : Cluster) : Prop :=
  ∀ k key o, op.addr = some (k, key) → (c k).lookup key = some o → ¬φ o

instance (φ : {k : Kind} → Object k → Prop) [∀ k (o : Object k), Decidable (φ o)] (op : Op)
    (c : Cluster) : Decidable (Spares φ op c) :=
  match ha : op.addr with
  | none          => isTrue fun _ _ _ h => nomatch ha.symm.trans h
  | some (k, key) =>
    match hl : (c k).lookup key with
    | none   => isTrue fun _ _ o h ho => by cases ha.symm.trans h; cases hl.symm.trans ho
    | some o => decidable_of_iff (¬φ o) (by
      constructor
      case mp  => intro h _ _ _ h' ho; cases ha.symm.trans h'; cases hl.symm.trans ho; exact h
      case mpr => exact fun h => h _ _ _ ha hl)

-- What a request stores has the property, whatever the API server fills in.
def Admits (φ : (k : Kind) → Key → Object k → Prop) : Op → Prop
  | .create k o | .update k o => ∀ t v, φ k o.key (o.stamp t v)
  | .patch k key f            => ∀ o t v, φ k key o → φ k key ((f o).stamp t v)
  | _                         => True

variable {φ : (k : Kind) → Key → Object k → Prop} {c : Cluster} {d : Draw}

-- The objects of all other kinds stay.
theorem answer_frame {op : Op} {k : Kind} (h : op.writes ≠ some k) : (answer op d c).2 k = c k := by
  have hp : ∀ {k'} (key : Key) (o : Object k'), k' ≠ k → c.put key o k = c k :=
    fun _ _ hk => Function.update_of_ne (Ne.symm hk) _ _
  have hk : ∀ {k'}, op.writes = some k' → k' ≠ k := by
    rintro k' ho rfl
    exact h ho
  cases hf : d.failure
  case some => cases op <;> simp [answer, hf]
  case none =>
    cases op
    case timestamp  => rfl
    case get k' key => simp only [answer, hf]; split <;> rfl
    case dial key   => simp only [answer, hf]; split <;> rfl
    case create k' o =>
      simp only [answer, hf]
      split
      case h_1 => rfl
      case h_2 => exact hp _ _ (hk rfl)
    case update k' o =>
      simp only [answer, hf]
      split
      case h_1 => rfl
      case h_2 =>
        split
        case isTrue  => rfl
        case isFalse => exact hp _ _ (hk rfl)
    case patch k' key f =>
      simp only [answer, hf]
      split
      case h_1 => rfl
      case h_2 => exact hp _ _ (hk rfl)
    case delete k' key =>
      simp only [answer, hf]
      split
      case h_1 => rfl
      case h_2 => exact Function.update_of_ne (Ne.symm (hk rfl)) _ _

theorem Cluster.Everywhere.answer {op : Op} (h : c.Everywhere φ) (ho : Admits φ op) :
    (answer op d c).2.Everywhere φ := by
  cases hf : d.failure
  case some => cases op <;> simpa [Kube.answer, hf] using h
  case none =>
    cases op
    case timestamp => exact h
    case get k key => simp only [Kube.answer, hf]; split <;> exact h
    case dial key  => simp only [Kube.answer, hf]; split <;> exact h
    case create k o =>
      simp only [Kube.answer, hf]
      split
      case h_1 => exact h
      case h_2 => exact h.put (ho _ _)
    case update k o =>
      simp only [Kube.answer, hf]
      split
      case h_1 => exact h
      case h_2 =>
        split
        case isTrue  => exact h
        case isFalse => exact h.put (ho _ _)
    case patch k key f =>
      simp only [Kube.answer, hf]
      split
      case h_1        => exact h
      case h_2 old hl => exact h.put (ho _ _ _ (h _ _ _ hl))
    case delete k key =>
      simp only [Kube.answer, hf]
      split
      case h_1 => exact h
      case h_2 => exact h.drop

-- Only a creation that the validation lets in has to keep the property.
theorem Cluster.Everywhere.answer_validated {a : Admission} {op : Op} (h : c.Everywhere φ)
    (ho : (∀ k o, op = .create k o → a.create k o) → Admits φ op) :
    (Kube.answer op (validated a op c d) c).2.Everywhere φ := by
  by_cases hv : ∀ k o, op = .create k o → a.create k o
  case pos => exact h.answer (ho hv)
  case neg =>
    push Not at hv
    obtain ⟨k, o, rfl, ha⟩ := hv
    simpa [validated, ha, Kube.answer] using h

-- A creation that succeeds or finds its name taken has passed the validation.
theorem create_validated {a : Admission} {k : Kind} {o : Object k}
    (h : ∀ e, (answer (.create k o) (validated a (.create k o) c d) c).1 = .error e →
      errAlreadyExists.is e) : a.create k o := by
  by_contra ha
  simp only [validated, ha, answer] at h
  exact absurd (h errInvalid rfl) (by decide)

section Safe

open Contract

variable {D σ ι α β : Type} {Y : Pool Kube.ops D σ ι α} {C : Contract Y}
variable {P : Pool.Condition Kube.ops D σ ι} {i : ι} {s : σ} {p : Call β} {R : Prop}

theorem tolerate_safe {target : Error}
    (h : C.Safe P i (fun r _ => (∀ e, r = .error e → target.is e) → R) p s) (hv : C.inv s) :
    C.Safe P i (Ok fun _ _ => R) (tolerate target p) s := by
  refine Safe.seq (Safe.lift h) hv fun result _ _ _ hr => ?_
  cases result
  case ok      => exact Safe.pure fun _ _ _ => hr fun _ he => nomatch he
  case error e =>
    by_cases he : target.is e
    case pos => simpa [he] using Safe.pure fun _ _ _ => hr fun _ h => by cases h; exact he
    case neg => simpa [he] using Safe.throw

theorem tolerate_any {target : Error} (h : C.Safe P i (fun _ _ => True) p s) (hv : C.inv s) :
    C.Safe P i (Ok fun _ _ => True) (tolerate target p) s :=
  tolerate_safe (h.mono fun _ _ _ _ => trivial) hv

end Safe

theorem get_ok {k : Kind} {key : Key} {o : Object k} (h : (answer (.get k key) d c).1 = .ok o) :
    (c k).lookup key = some o := by
  cases hf : d.failure
  case some => simp [answer, hf] at h
  case none =>
    cases hl : (c k).lookup key
    case none => simp [answer, hf, hl] at h
    case some => simpa [answer, hf, hl] using h

end Kube
