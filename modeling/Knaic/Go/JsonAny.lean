import Knaic.Go.Json
import Knaic.Go.JsonText

-- JSON that is read into values of any kind, and written from them.
namespace Go.JsonText

-- How a number becomes one in floating point, and how that is written.
structure Floats where
  parse  : Str → Option Float64
  format : Float64 → Str

namespace Floats

variable (fl : Floats)

-- A number that was read is written as a number, and is the same when it is read again.
structure Exact : Prop where
  number : ∀ w f, fl.parse w = some f → isNumber (fl.format f)
  again  : ∀ w f, fl.parse w = some f → fl.parse (fl.format f) = some f

end Floats

section Any

variable (fl : Floats)

mutual

def toAny : Value → Option Json
  | .null          => some .null
  | .bool b        => some (.bool b)
  | .number s      => (fl.parse s).map .number
  | .string s      => some (.string s)
  | .array vs      => (toAnyAll vs).map .array
  | .object fields => (toAnyFields [] fields).map .object

def toAnyAll : List Value → Option (List Json)
  | []      => some []
  | v :: vs => (toAny v).bind fun j => (toAnyAll vs).map (j :: ·)

-- The last of some members with the same name stays.
def toAnyFields (m : Entries Json) : List (Str × Value) → Option (Entries Json)
  | []               => some m
  | (k, v) :: fields => (toAny v).bind fun j => toAnyFields (m.set k j) fields

end

mutual

def ofAny : Json → Value
  | .null          => .null
  | .bool b        => .bool b
  | .number f      => .number (fl.format f)
  | .string s      => .string s
  | .array l       => .array (ofAnyAll l)
  | .object fields => .object (ofAnyFields fields)

def ofAnyAll : List Json → List Value
  | []     => []
  | j :: l => ofAny j :: ofAnyAll l

def ofAnyFields : List (Str × Json) → List (Str × Value)
  | []               => []
  | (k, j) :: fields => (k, ofAny j) :: ofAnyFields fields

end

end Any

section Written

variable {fl : Floats} {n : Nat} {m : Entries Json}

-- The members can be written and read.
def FieldsRead (fl : Floats) (n : Nat) (m : Entries Json) : Prop :=
  FieldsReadable n (ofAnyFields fl m) ∧ validFields (ofAnyFields fl m) = ofAnyFields fl m

theorem FieldsRead.nil : FieldsRead fl n [] :=
  ⟨trivial, rfl⟩

theorem fieldsRead_cons {k : Str} {j : Json} :
    FieldsRead fl n ((k, j) :: m) ↔ (Utf8.toValid k = k ∧ (ofAny fl j).Read n) ∧ FieldsRead fl n m := by
  simp only [FieldsRead, ofAnyFields, FieldsReadable, validFields, List.cons.injEq, Prod.mk.injEq, Value.Read]
  tauto

theorem FieldsRead.set {k : Str} {j : Json} (h : FieldsRead fl n m) (hk : Utf8.toValid k = k) (hj : (ofAny fl j).Read n) :
    FieldsRead fl n (m.set k j) := by
  induction m
  case nil         => exact fieldsRead_cons.mpr ⟨⟨hk, hj⟩, .nil⟩
  case cons e m hi =>
    have ⟨he, hm⟩ := fieldsRead_cons.mp h
    rw [Entries.set]
    split
    case isTrue  => exact fieldsRead_cons.mpr ⟨⟨hk, hj⟩, h⟩
    case isFalse =>
      split
      case isTrue  => exact fieldsRead_cons.mpr ⟨⟨hk, hj⟩, hm⟩
      case isFalse => exact fieldsRead_cons.mpr ⟨he, hi hm⟩

mutual

-- What was read can be written.
theorem toAny_read (hf : fl.Exact) (n : Nat) (v : Value) (j : Json) (h : toAny fl v = some j) (hv : v.Read n) :
    (ofAny fl j).Read n := by
  match v with
  | .null          => cases h; exact hv
  | .bool b        => cases h; exact hv
  | .string s      => cases h; exact hv
  | .number s      =>
    obtain ⟨f, hs, rfl⟩ := Option.map_eq_some_iff.mp h
    exact ⟨hf.number s f hs, rfl⟩
  | .array vs      =>
    obtain ⟨l, hm, rfl⟩ := Option.map_eq_some_iff.mp h
    have hl := toAnyAll_read hf (n + 1) vs l hm hv.left.right (Value.array.inj hv.right)
    exact ⟨⟨hv.left.left, hl.left⟩, congrArg Value.array hl.right⟩
  | .object fields =>
    obtain ⟨m, hm, rfl⟩ := Option.map_eq_some_iff.mp h
    have hl := toAnyFields_read hf (n + 1) fields [] m hm .nil hv.left.right (Value.object.inj hv.right)
    exact ⟨⟨hv.left.left, hl.left⟩, congrArg Value.object hl.right⟩

theorem toAnyAll_read (hf : fl.Exact) (n : Nat) (vs : List Value) (l : List Json) (h : toAnyAll fl vs = some l)
    (hr : AllReadable n vs) (hv : validAll vs = vs) :
    AllReadable n (ofAnyAll fl l) ∧ validAll (ofAnyAll fl l) = ofAnyAll fl l := by
  match vs with
  | []      => cases h; exact ⟨trivial, rfl⟩
  | v :: vs =>
    obtain ⟨j, hj, h⟩ := Option.bind_eq_some_iff.mp h
    obtain ⟨l, hm, rfl⟩ := Option.map_eq_some_iff.mp h
    obtain ⟨hv, hs⟩ := List.cons.inj hv
    have hw := toAny_read hf n v j hj ⟨hr.left, hv⟩
    have hl := toAnyAll_read hf n vs l hm hr.right hs
    exact ⟨⟨hw.left, hl.left⟩, congrArg₂ List.cons hw.right hl.right⟩

theorem toAnyFields_read (hf : fl.Exact) (n : Nat) (fields : List (Str × Value)) (m m' : Entries Json)
    (h : toAnyFields fl m fields = some m') (hm : FieldsRead fl n m) (hr : FieldsReadable n fields)
    (hv : validFields fields = fields) : FieldsRead fl n m' := by
  match fields with
  | []               => cases h; exact hm
  | (k, v) :: fields =>
    obtain ⟨j, hj, h⟩ := Option.bind_eq_some_iff.mp h
    obtain ⟨he, hs⟩ := List.cons.inj hv
    obtain ⟨hk, hv⟩ := Prod.mk.inj he
    have hw := toAny_read hf n v j hj ⟨hr.left, hv⟩
    exact toAnyFields_read hf n fields (m.set k j) m' h (hm.set hk hw) hr.right hs

end

-- What is the same when it is written and read.
def Again (fl : Floats) (j : Json) : Prop :=
  toAny fl (ofAny fl j) = some j

structure AllAgain (fl : Floats) (m : Entries Json) : Prop where
  sorted : m.Sorted
  again  : ∀ e ∈ m, Again fl e.2

theorem toAnyFields_ofAny (h : ∀ e ∈ m, Again fl e.2) (m' : Entries Json) :
    toAnyFields fl m' (ofAnyFields fl m) = some (m'.setAll m) := by
  induction m generalizing m'
  case nil         => rfl
  case cons e m hi =>
    have he : toAny fl (ofAny fl e.2) = some e.2 := h e (.head _)
    obtain ⟨k, j⟩ := e
    rw [ofAnyFields, toAnyFields, he, Option.bind_some, hi fun f hm => h f (.tail _ hm)]
    rfl

theorem AllAgain.object (h : AllAgain fl m) : Again fl (.object m) := by
  have hs : Entries.setAll [] m = m :=
    (Entries.Sorted.nil.setAll m).ext h.sorted fun k => by rw [Entries.get_setAll h.sorted]; simp
  rw [Again, ofAny, toAny, toAnyFields_ofAny h.again, hs]
  rfl

mutual

theorem toAny_again (hf : fl.Exact) (v : Value) (j : Json) (h : toAny fl v = some j) : Again fl j := by
  match v with
  | .null          => cases h; rfl
  | .bool b        => cases h; rfl
  | .string s      => cases h; rfl
  | .number s      =>
    obtain ⟨f, hs, rfl⟩ := Option.map_eq_some_iff.mp h
    rw [Again, ofAny, toAny, hf.again s f hs]
    rfl
  | .array vs      =>
    obtain ⟨l, hm, rfl⟩ := Option.map_eq_some_iff.mp h
    rw [Again, ofAny, toAny, toAnyAll_again hf vs l hm]
    rfl
  | .object fields =>
    obtain ⟨m, hm, rfl⟩ := Option.map_eq_some_iff.mp h
    exact (toAnyFields_again hf fields [] m hm ⟨.nil, List.forall_mem_nil _⟩).object

theorem toAnyAll_again (hf : fl.Exact) (vs : List Value) (l : List Json) (h : toAnyAll fl vs = some l) :
    toAnyAll fl (ofAnyAll fl l) = some l := by
  match vs with
  | []      => cases h; rfl
  | v :: vs =>
    obtain ⟨j, hj, h⟩ := Option.bind_eq_some_iff.mp h
    obtain ⟨l, hm, rfl⟩ := Option.map_eq_some_iff.mp h
    rw [ofAnyAll, toAnyAll, toAny_again hf v j hj, toAnyAll_again hf vs l hm]
    rfl

theorem toAnyFields_again (hf : fl.Exact) (fields : List (Str × Value)) (m m' : Entries Json)
    (h : toAnyFields fl m fields = some m') (hm : AllAgain fl m) : AllAgain fl m' := by
  match fields with
  | []               => cases h; exact hm
  | (k, v) :: fields =>
    obtain ⟨j, hj, h⟩ := Option.bind_eq_some_iff.mp h
    have hj := toAny_again hf v j hj
    refine toAnyFields_again hf fields (m.set k j) m' h ⟨hm.sorted.set k j, fun e he => ?_⟩
    obtain rfl | he := Entries.mem_set he
    case inl => exact hj
    case inr => exact hm.again e he

end

end Written

end Go.JsonText
