import Knaic.Go.Fields
import Knaic.Js.TextDecoder
import Knaic.Kube.Unstructured

open Go Kube
open Js (utf8)

-- Documents in block style, and what a reader makes of them.
namespace Yaml

abbrev Text :=
  List Char

-- Whether a text is one of some texts.
instance Text.lawful : LawfulBEq (List Char) :=
  inferInstance

inductive Node
  | plain (s : Text)
  | quoted (s : Text)
  | int (n : Int)
  | emptyMap
  | seq (items : List Node)
  | map (fields : List (Text × Node))

def escape (s : Text) : Text :=
  s.flatMap fun c => if c = '\\' ∨ c = '"' then ['\\', c] else [c]

def quote (s : Text) : Text :=
  '"' :: escape s ++ ['"']

def indent (n : Nat) : Text :=
  List.replicate n ' '

-- What stands in the line of a key or of a dash.
def Node.inline : Node → Option Text
  | plain s  => some s
  | quoted s => some (quote s)
  | int n    => some (toString n).toList
  | emptyMap => some ['{', '}']
  | _        => none

-- The dash of an item is in the first of its lines.
def dashed (n : Nat) : List Text → List Text
  | []      => []
  | l :: ls => (indent n ++ ['-', ' '] ++ l.drop (n + 2)) :: ls

mutual

def Node.lines (n : Nat) : Node → List Text
  | .seq items  => itemLines n items
  | .map fields => fieldLines n fields
  | _           => []

def itemLines (n : Nat) : List Node → List Text
  | []         => []
  | v :: items =>
    (match v.inline with
      | some s => [indent n ++ ['-', ' '] ++ s]
      | none   => dashed n (v.lines (n + 2))) ++ itemLines n items

def fieldLines (n : Nat) : List (Text × Node) → List Text
  | []               => []
  | (k, v) :: fields =>
    (match v.inline with
      | some s => [indent n ++ k ++ [':', ' '] ++ s]
      | none   => (indent n ++ k ++ [':']) :: v.lines (n + 2)) ++ fieldLines n fields

end

-- The characters that a document may have, without the ends of lines.
def printable (c : Char) : Bool :=
  c = '\t' || ' ' ≤ c && c ≤ '~' || '\u00a0' ≤ c && c ≠ '\u2028' && c ≠ '\u2029' &&
    c ≠ '\ufffe' && c ≠ '\uffff'

def blank (c : Char) : Bool :=
  c = ' ' || c = '\t'

def indicators : List Char :=
  "-?:,[]{}#&*!|>'\"%@`".toList

-- No colon before a blank or at the end, and no number sign after a blank.
def closed : Text → Bool
  | []          => true
  | [c]         => c ≠ ':'
  | c :: d :: s => !(c = ':' && blank d) && !(blank c && d = '#') && closed (d :: s)

-- A scalar that can be written as it is.
def IsPlain (s : Text) : Bool :=
  match s with
  | []     => false
  | c :: _ =>
    s.all printable && !blank c && !s.getLast?.any blank && closed s &&
      (c ∉ indicators || c ∈ ['-', '?', ':'] && (s.tail.head?.any fun d => !blank d))

-- The words that are not texts.
def trues : List Text :=
  ["y", "Y", "yes", "Yes", "YES", "true", "True", "TRUE", "on", "On", "ON"].map String.toList

def falses : List Text :=
  ["n", "N", "no", "No", "NO", "false", "False", "FALSE", "off", "Off", "OFF"].map String.toList

def nulls : List Text :=
  ["null", "Null", "NULL", "~"].map String.toList

def reserved : List Text :=
  trues ++ falses ++ nulls

def IsWord (s : Text) : Bool :=
  s.head?.any Char.isAlpha && s ∉ reserved

-- What becomes of a scalar that is written as it is.
structure Resolver where
  resolve : Text → Value
  word    : ∀ s, IsWord s → resolve s = .string (utf8 s)

-- Of the scalars that are no texts, only the reserved words.
def Resolver.words : Resolver where
  resolve s :=
    if s ∈ trues then .bool true
    else if s ∈ falses then .bool false
    else if s ∈ nulls then .null
    else .string (utf8 s)
  word s h := by
    simp only [IsWord, Bool.and_eq_true, decide_eq_true_eq, reserved, List.mem_append, not_or] at h
    rw [if_neg h.right.left.left, if_neg h.right.left.right, if_neg h.right.right]

-- A key is found in its line if it is short enough, and `<<` is none.
def IsKey (s : Text) : Bool :=
  IsPlain s && s.length ≤ 1024 && s ≠ "<<".toList

def text (s : Text) : Value :=
  .string (utf8 s)

structure Resolver.Keys (r : Resolver) (s : Text) : Prop where
  isKey   : IsKey s
  resolve : r.resolve s = text s

def IsInt64 (n : Int) : Prop :=
  -2 ^ 63 ≤ n ∧ n < 2 ^ 63

section Readable

variable (r : Resolver)

mutual

def Node.Readable : Node → Prop
  | .plain s    => IsPlain s
  | .quoted s   => s.all printable
  | .int n      => IsInt64 n
  | .emptyMap   => True
  | .seq items  => items ≠ [] ∧ ItemsReadable items
  | .map fields => fields ≠ [] ∧ (fields.map Prod.fst).Nodup ∧ FieldsReadable fields

def ItemsReadable : List Node → Prop
  | []         => True
  | v :: items => v.Readable ∧ ItemsReadable items

def FieldsReadable : List (Text × Node) → Prop
  | []               => True
  | (k, v) :: fields => r.Keys k ∧ v.Readable ∧ FieldsReadable fields

end

end Readable

section Values

variable (scalar : Text → Value)

mutual

-- `scalar` tells what becomes of what is written as it is.
def Node.value : Node → Value
  | .plain s    => scalar s
  | .quoted s   => .string (utf8 s)
  | .int n      => .int n
  | .emptyMap   => .obj []
  | .seq items  => .list (itemValues items)
  | .map fields => .obj (fieldValues [] fields)

def itemValues : List Node → List Value
  | []         => []
  | v :: items => v.value :: itemValues items

def fieldValues (o : Fields) : List (Text × Node) → Fields
  | []               => o
  | (k, v) :: fields => fieldValues (Entries.set o (utf8 k) v.value) fields

end

end Values

-- What is meant: each scalar is the text that is written.
def Node.meant (t : Node) : Value :=
  t.value text

mutual

-- The scalars that are written as they are.
def Node.texts : Node → List Text
  | .plain s    => [s]
  | .quoted _   => []
  | .int _      => []
  | .emptyMap   => []
  | .seq items  => itemTexts items
  | .map fields => fieldTexts fields

def itemTexts : List Node → List Text
  | []         => []
  | v :: items => v.texts ++ itemTexts items

def fieldTexts : List (Text × Node) → List Text
  | []               => []
  | (_, v) :: fields => v.texts ++ fieldTexts fields

end

def Node.render (t : Node) : Text :=
  ['\n'].intercalate (t.lines 0) ++ ['\n']

-- A readable document is read scalar by scalar.
def Reads (parse : Text → Option Value) (r : Resolver) (t : Node) : Prop :=
  t.Readable r → parse t.render = some (t.value r.resolve)

theorem utf8_inj {s t : Text} : utf8 s = utf8 t ↔ s = t := by
  have h := str_inj (a := String.ofList s) (b := String.ofList t)
  rw [str, str, String.toList_ofList, String.toList_ofList, String.ofList_inj] at h
  exact h

theorem fieldValues_append (scalar : Text → Value) (o : Fields) (fs gs : List (Text × Node)) :
    fieldValues scalar o (fs ++ gs) = fieldValues scalar (fieldValues scalar o fs) gs := by
  induction fs generalizing o
  case nil          => rfl
  case cons f fs hi => exact hi _

theorem itemValues_append (scalar : Text → Value) (is js : List Node) :
    itemValues scalar (is ++ js) = itemValues scalar is ++ itemValues scalar js := by
  induction is
  case nil          => rfl
  case cons v is hi => exact congrArg _ hi

section Reading

variable {r : Resolver} {f g : Text → Value} {fields : List (Text × Node)} {o : Fields} {k : Text} {v : Node}

mutual

theorem Node.value_congr (t : Node) (h : ∀ s ∈ t.texts, f s = g s) : t.value f = t.value g := by
  match t with
  | .plain s    => exact h s (.head _)
  | .quoted _   => rfl
  | .int _      => rfl
  | .emptyMap   => rfl
  | .seq items  => exact congrArg Value.list (itemValues_congr items h)
  | .map fields => exact congrArg Value.obj (fieldValues_congr fields h)

theorem itemValues_congr (items : List Node) (h : ∀ s ∈ itemTexts items, f s = g s) :
    itemValues f items = itemValues g items := by
  match items with
  | []         => rfl
  | v :: items =>
    rw [itemTexts, List.forall_mem_append] at h
    simp only [itemValues]
    rw [v.value_congr h.left, itemValues_congr items h.right]

theorem fieldValues_congr (fields : List (Text × Node)) (h : ∀ s ∈ fieldTexts fields, f s = g s)
    {o : Fields} : fieldValues f o fields = fieldValues g o fields := by
  match fields with
  | []               => rfl
  | (k, v) :: fields =>
    rw [fieldTexts, List.forall_mem_append] at h
    simp only [fieldValues]
    rw [v.value_congr h.left, fieldValues_congr fields h.right]

end

-- Each field is found under its key.
theorem get_fieldValues_of_notMem (h : k ∉ fields.map Prod.fst) :
    (fieldValues f o fields).get (utf8 k) = o.get (utf8 k) := by
  induction fields generalizing o
  case nil             => rfl
  case cons e fields hi =>
    rw [List.map_cons, List.mem_cons, not_or] at h
    rw [fieldValues, hi h.right]
    exact Entries.get_set_ne _ _ fun he => h.left (utf8_inj.mp he)

theorem get_fieldValues (hd : (fields.map Prod.fst).Nodup) (h : (k, v) ∈ fields) :
    (fieldValues f o fields).get (utf8 k) = some (v.value f) := by
  induction fields generalizing o
  case nil              => cases h
  case cons e fields hi =>
    have ⟨hn, hd⟩ := List.nodup_cons.mp hd
    cases h
    case head   => rw [fieldValues, get_fieldValues_of_notMem hn, Entries.get_set_self]
    case tail h => exact hi hd h

mutual

-- In a readable document that is read as it is meant, so is each of its scalars.
theorem Node.scalars (t : Node) (hr : t.Readable r) (h : t.value f = t.value g) :
    ∀ s ∈ t.texts, f s = g s := by
  match t with
  | .plain s    => exact List.forall_mem_singleton.mpr h
  | .quoted _   => exact List.forall_mem_nil _
  | .int _      => exact List.forall_mem_nil _
  | .emptyMap   => exact List.forall_mem_nil _
  | .seq items  => exact itemScalars items hr.right (Value.list.inj h)
  | .map fields =>
    have h := Value.obj.inj h
    apply fieldScalars fields hr.right.right
    intro k v hv
    apply Option.some.inj
    rw [← get_fieldValues (o := []) hr.right.left hv, h, get_fieldValues hr.right.left hv]

theorem itemScalars (items : List Node) (hr : ItemsReadable r items)
    (h : itemValues f items = itemValues g items) : ∀ s ∈ itemTexts items, f s = g s := by
  match items with
  | []         => exact List.forall_mem_nil _
  | v :: items =>
    have ⟨hv, hi⟩ := List.cons.inj h
    exact List.forall_mem_append.mpr ⟨v.scalars hr.left hv, itemScalars items hr.right hi⟩

theorem fieldScalars (fields : List (Text × Node)) (hr : FieldsReadable r fields)
    (h : ∀ k v, (k, v) ∈ fields → v.value f = v.value g) : ∀ s ∈ fieldTexts fields, f s = g s := by
  match fields with
  | []               => exact List.forall_mem_nil _
  | (k, v) :: fields =>
    exact List.forall_mem_append.mpr ⟨v.scalars hr.right.left (h k v (.head _)),
      fieldScalars fields hr.right.right fun k v hv => h k v (.tail _ hv)⟩

end

end Reading

-- Texts between quotes that go over several lines.
section Folding

def isBreak (c : Char) : Bool :=
  c ∈ ['\n', '\r', '\u0085', '\u2028', '\u2029']

-- The characters that a document may have.
def allowed (c : Char) : Bool :=
  printable c || isBreak c

-- The breaks among some blanks. All ends of lines become line feeds.
def lineEnds : Text → Text
  | []               => []
  | '\r' :: '\n' :: s => '\n' :: lineEnds s
  | c :: s           =>
    if c ∈ ['\n', '\r', '\u0085'] then '\n' :: lineEnds s
    else if isBreak c then c :: lineEnds s
    else lineEnds s

-- What is left of blanks and breaks in a row: a line feed becomes a blank, or nothing before another break.
def joined (gap : Text) : Text :=
  match lineEnds gap with
  | []           => gap
  | ['\n']       => [' ']
  | '\n' :: ends => ends
  | ends         => ends

def foldFrom (gap : Text) : Text → Text
  | []     => joined gap
  | c :: s => if blank c || isBreak c then foldFrom (gap ++ [c]) s else joined gap ++ c :: foldFrom [] s

def fold (s : Text) : Text :=
  foldFrom [] s

-- What begins a document or ends it, at the front of a line.
def atMarker (s : Text) : Bool :=
  s.take 3 ∈ ["---", "..."].map String.toList && (s.drop 3).head?.any fun c => blank c || isBreak c

def marked : Text → Bool
  | []     => false
  | c :: s => isBreak c && atMarker s || marked s

theorem lineEnds_nil {s : Text} (h : ∀ c ∈ s, isBreak c = false) : lineEnds s = [] := by
  fun_induction lineEnds s
  case case1           => rfl
  case case2           => exact absurd (h _ (.head _)) (by decide)
  case case3 c s _ hc _ =>
    have hb := h c (.head _)
    simp_all [isBreak]
  case case4 c s _ _ hc _ => exact absurd hc (by simp [h c (.head _)])
  case case5 hi        => exact hi fun c hc => h c (.tail _ hc)

-- A text in one line stays as it is.
theorem foldFrom_line {s gap : Text} (hg : ∀ c ∈ gap, isBreak c = false) (h : ∀ c ∈ s, isBreak c = false) :
    foldFrom gap s = gap ++ s := by
  have hj {gap : Text} (hg : ∀ c ∈ gap, isBreak c = false) : joined gap = gap := by
    rw [joined, lineEnds_nil hg]
  induction s generalizing gap
  case nil          => rw [foldFrom, hj hg, List.append_nil]
  case cons c s hi =>
    have hs : ∀ c ∈ s, isBreak c = false := fun c hc => h c (.tail _ hc)
    rw [foldFrom]
    split
    case isTrue  =>
      rw [hi (List.forall_mem_append.mpr ⟨hg, List.forall_mem_singleton.mpr (h c (.head _))⟩) hs, List.append_assoc,
        List.singleton_append]
    case isFalse => rw [hj hg, hi (List.forall_mem_nil _) hs, List.nil_append]

theorem fold_line {s : Text} (h : ∀ c ∈ s, isBreak c = false) : fold s = s :=
  foldFrom_line (List.forall_mem_nil _) h

theorem marked_line {s : Text} (h : ∀ c ∈ s, isBreak c = false) : marked s = false := by
  fun_induction marked s
  case case1      => rfl
  case case2 c s hi =>
    rw [h c (.head _), Bool.false_and, Bool.false_or]
    exact hi fun c hc => h c (.tail _ hc)

theorem isBreak_of_printable {c : Char} (h : printable c) : isBreak c = false := by
  have hn : ['\n', '\r', '\u0085', '\u2028', '\u2029'].all (fun c => !printable c) = true := by decide
  refine decide_eq_false fun hc => ?_
  have hp := List.all_eq_true.mp hn c hc
  rw [h] at hp
  exact absurd hp (by decide)

theorem allowed_of_printable {c : Char} (h : printable c) : allowed c := by
  rw [allowed, h, Bool.true_or]

end Folding

mutual

-- The document with other texts between its quotes.
def Node.mapQuoted (f : Text → Text) : Node → Node
  | .plain s    => .plain s
  | .quoted s   => .quoted (f s)
  | .int n      => .int n
  | .emptyMap   => .emptyMap
  | .seq items  => .seq (mapItems f items)
  | .map fields => .map (mapFields f fields)

def mapItems (f : Text → Text) : List Node → List Node
  | []         => []
  | v :: items => v.mapQuoted f :: mapItems f items

def mapFields (f : Text → Text) : List (Text × Node) → List (Text × Node)
  | []               => []
  | (k, v) :: fields => (k, v.mapQuoted f) :: mapFields f fields

end

mutual

-- The texts between quotes.
def Node.quotes : Node → List Text
  | .plain _    => []
  | .quoted s   => [s]
  | .int _      => []
  | .emptyMap   => []
  | .seq items  => itemQuotes items
  | .map fields => fieldQuotes fields

def itemQuotes : List Node → List Text
  | []         => []
  | v :: items => v.quotes ++ itemQuotes items

def fieldQuotes : List (Text × Node) → List Text
  | []               => []
  | (_, v) :: fields => v.quotes ++ fieldQuotes fields

end

-- A document that is readable apart from what is between its quotes.
def Node.Shaped (r : Resolver) (t : Node) : Prop :=
  (t.mapQuoted fun _ => []).Readable r

-- A step from a value to one that it has.
inductive Sel
  | key (k : Text)
  | item (n : Nat)

section Paths

def pickValue : Value → List Sel → Option Value
  | v, []                       => some v
  | .obj o, .key k :: path      => (Entries.get o (utf8 k)).bind fun v => pickValue v path
  | .list items, .item n :: path => items[n]?.bind fun v => pickValue v path
  | _, _ :: _                   => none

def Node.pick : Node → List Sel → Option Node
  | t, []                       => some t
  | .map fields, .key k :: path => (fields.find? fun e => e.1 = k).bind fun e => e.2.pick path
  | .seq items, .item n :: path => items[n]?.bind fun v => v.pick path
  | _, _ :: _                   => none

end Paths

-- A test of all texts in a value.
section Tests

variable (P : Str → Bool)

mutual

def textsAll : Value → Bool
  | .string s   => P s
  | .list items => itemsAll items
  | .obj fields => fieldsAll fields
  | _           => true

def itemsAll : List Value → Bool
  | []         => true
  | v :: items => textsAll v && itemsAll items

def fieldsAll : List (Str × Value) → Bool
  | []               => true
  | (_, v) :: fields => textsAll v && fieldsAll fields

end

end Tests

-- Whether a text has no U+0085.
def noNextLine (s : Str) : Bool :=
  !s.hasInfix (utf8 ['\u0085'])

-- What a reader does with a document. It refuses other characters than are allowed, and the end of a document
-- between quotes. No text that it reads has U+0085, which is the end of a line. Else it reads scalar by scalar, and
-- folds the texts between quotes.
structure Reader (parse : Text → Option Value) (r : Resolver) (t : Node) : Prop where
  control  : (∃ s ∈ t.texts ++ t.quotes, s.all allowed = false) → parse t.render = none
  marker   : t.Shaped r → (∃ s ∈ t.quotes, marked s) → parse t.render = none
  nextLine : ∀ v, parse t.render = some v → textsAll noNextLine v
  reads    : t.Shaped r → (∀ s ∈ t.quotes, s.all allowed ∧ marked s = false) →
    parse t.render = some ((t.mapQuoted fold).value r.resolve)

section Paths

variable {r : Resolver} {f g : Text → Text} {scalar : Text → Value}

theorem mapItems_eq (f : Text → Text) (items : List Node) : mapItems f items = items.map (Node.mapQuoted f) := by
  induction items
  case nil          => rfl
  case cons v _ hi => rw [mapItems, hi, List.map_cons]

theorem mapFields_eq (f : Text → Text) (fields : List (Text × Node)) :
    mapFields f fields = fields.map fun e => (e.1, e.2.mapQuoted f) := by
  induction fields
  case nil          => rfl
  case cons e _ hi => rw [mapFields, hi, List.map_cons]

theorem itemValues_eq (scalar : Text → Value) (items : List Node) :
    itemValues scalar items = items.map (Node.value scalar) := by
  induction items
  case nil          => rfl
  case cons v _ hi => rw [itemValues, hi, List.map_cons]

theorem ItemsReadable.mem {items : List Node} (h : ItemsReadable r items) : ∀ v ∈ items, v.Readable r := by
  induction items
  case nil         => exact List.forall_mem_nil _
  case cons v _ hi => exact List.forall_mem_cons.mpr ⟨h.left, hi h.right⟩

theorem FieldsReadable.mem {fields : List (Text × Node)} (h : FieldsReadable r fields) :
    ∀ e ∈ fields, e.2.Readable r := by
  induction fields
  case nil         => exact List.forall_mem_nil _
  case cons e _ hi => exact List.forall_mem_cons.mpr ⟨h.right.left, hi h.right.right⟩

-- What is found in a document is found in its value.
theorem pick_value {t u : Node} {path : List Sel} (h : (t.mapQuoted g).Readable r) (hp : t.pick path = some u) :
    pickValue ((t.mapQuoted f).value scalar) path = some ((u.mapQuoted f).value scalar) := by
  induction path generalizing t
  case nil            =>
    simp only [Node.pick, Option.some.injEq] at hp
    rw [hp, pickValue]
  case cons c path hi =>
    cases t
    case map fields =>
      cases c
      case item  => cases hp
      case key k =>
        simp only [Node.pick] at hp
        obtain ⟨e, he, hp⟩ := Option.bind_eq_some_iff.mp hp
        obtain ⟨k', v⟩ := e
        have hk : k' = k := by simpa using List.find?_some he
        have hm := List.mem_of_find?_eq_some he
        simp only [Node.mapQuoted, Node.Readable] at h
        have hv : (v.mapQuoted g).Readable r := by
          refine FieldsReadable.mem h.right.right (k', v.mapQuoted g) ?_
          rw [mapFields_eq]
          exact List.mem_map_of_mem hm
        have hn : ((mapFields f fields).map Prod.fst).Nodup := by
          have hn := h.right.left
          rw [mapFields_eq, List.map_map] at hn ⊢
          exact hn
        have hg : (k, v.mapQuoted f) ∈ mapFields f fields := by
          rw [mapFields_eq, ← hk]
          exact List.mem_map_of_mem hm
        simp only [Node.mapQuoted, Node.value, pickValue]
        rw [get_fieldValues hn hg]
        exact hi hv hp
    case seq items  =>
      cases c
      case key    => cases hp
      case item n =>
        simp only [Node.pick] at hp
        obtain ⟨v, he, hp⟩ := Option.bind_eq_some_iff.mp hp
        have hm := List.mem_of_getElem? he
        simp only [Node.mapQuoted, Node.Readable, mapItems_eq] at h
        have hv := ItemsReadable.mem h.right _ (List.mem_map_of_mem hm)
        simp only [Node.mapQuoted, Node.value, pickValue, itemValues_eq, mapItems_eq, List.getElem?_map, he]
        exact hi hv hp
    all_goals
      cases c <;> cases hp

theorem pickValue_append {v w : Value} {path more : List Sel} (h : pickValue v path = some w) :
    pickValue v (path ++ more) = pickValue w more := by
  fun_induction pickValue v path
  case case1 =>
    cases h
    rfl
  case case2 hi =>
    have ⟨u, hu, h⟩ := Option.bind_eq_some_iff.mp h
    rw [List.cons_append, pickValue, hu]
    exact hi u h
  case case3 hi =>
    have ⟨u, hu, h⟩ := Option.bind_eq_some_iff.mp h
    rw [List.cons_append, pickValue, hu]
    exact hi u h
  case case4 => cases h

theorem pick_append {t u : Node} {path more : List Sel} (h : t.pick path = some u) :
    t.pick (path ++ more) = u.pick more := by
  fun_induction Node.pick t path
  case case1 =>
    cases h
    rfl
  case case2 hi =>
    have ⟨e, he, h⟩ := Option.bind_eq_some_iff.mp h
    rw [List.cons_append, Node.pick, he]
    exact hi e h
  case case3 hi =>
    have ⟨v, hv, h⟩ := Option.bind_eq_some_iff.mp h
    rw [List.cons_append, Node.pick, hv]
    exact hi v h
  case case4 => cases h

-- What holds of all texts holds of those that are found.
theorem itemsAll_mem {P : Str → Bool} {items : List Value} (h : itemsAll P items) : ∀ v ∈ items, textsAll P v := by
  induction items
  case nil         => exact List.forall_mem_nil _
  case cons v _ hi =>
    rw [itemsAll, Bool.and_eq_true] at h
    exact List.forall_mem_cons.mpr ⟨h.left, hi h.right⟩

theorem fieldsAll_mem {P : Str → Bool} {fields : Fields} (h : fieldsAll P fields) :
    ∀ e ∈ fields, textsAll P e.2 := by
  induction fields
  case nil         => exact List.forall_mem_nil _
  case cons e _ hi =>
    rw [fieldsAll, Bool.and_eq_true] at h
    exact List.forall_mem_cons.mpr ⟨h.left, hi h.right⟩

theorem textsAll_pick {P : Str → Bool} {v w : Value} {path : List Sel} (h : textsAll P v)
    (hp : pickValue v path = some w) : textsAll P w := by
  fun_induction pickValue v path
  case case1 =>
    cases hp
    exact h
  case case2 hi =>
    have ⟨u, hu, hp⟩ := Option.bind_eq_some_iff.mp hp
    rw [textsAll] at h
    exact hi u (fieldsAll_mem h _ (Entries.mem_of_get hu)) hp
  case case3 hi =>
    have ⟨u, hu, hp⟩ := Option.bind_eq_some_iff.mp hp
    rw [textsAll] at h
    exact hi u (itemsAll_mem h u (List.mem_of_getElem? hu)) hp
  case case4 => cases hp

theorem noNextLine_text {s : Text} (h : noNextLine (utf8 s)) : '\u0085' ∉ s := by
  intro hm
  obtain ⟨a, b, rfl⟩ := List.append_of_mem hm
  have hi : utf8 ['\u0085'] <:+: utf8 (a ++ '\u0085' :: b) :=
    (List.infix_append [] ['\u0085'] b |>.trans (List.suffix_append a _).isInfix).flatMap _
  rw [noNextLine, Str.hasInfix_iff.mpr hi] at h
  cases h

-- The texts of what is found in a document are texts of the document.
theorem fieldTexts_mem {fields : List (Text × Node)} {e : Text × Node} (h : e ∈ fields) :
    e.2.texts ⊆ fieldTexts fields ∧ e.2.quotes ⊆ fieldQuotes fields := by
  induction h
  case head          => exact ⟨List.subset_append_left .., List.subset_append_left ..⟩
  case tail f _ _ hi =>
    exact ⟨List.Subset.trans hi.left (List.subset_append_right ..),
      List.Subset.trans hi.right (List.subset_append_right ..)⟩

theorem itemTexts_mem {items : List Node} {v : Node} (h : v ∈ items) :
    v.texts ⊆ itemTexts items ∧ v.quotes ⊆ itemQuotes items := by
  induction h
  case head          => exact ⟨List.subset_append_left .., List.subset_append_left ..⟩
  case tail f _ _ hi =>
    exact ⟨List.Subset.trans hi.left (List.subset_append_right ..),
      List.Subset.trans hi.right (List.subset_append_right ..)⟩

theorem pick_texts {t u : Node} {path : List Sel} (h : t.pick path = some u) :
    u.texts ⊆ t.texts ∧ u.quotes ⊆ t.quotes := by
  fun_induction Node.pick t path
  case case1 =>
    cases h
    exact ⟨List.Subset.refl _, List.Subset.refl _⟩
  case case2 hi =>
    have ⟨e, he, h⟩ := Option.bind_eq_some_iff.mp h
    have hm := fieldTexts_mem (List.mem_of_find?_eq_some he)
    exact ⟨List.Subset.trans (hi e h).left hm.left, List.Subset.trans (hi e h).right hm.right⟩
  case case3 hi =>
    have ⟨v, hv, h⟩ := Option.bind_eq_some_iff.mp h
    have hm := itemTexts_mem (List.mem_of_getElem? hv)
    exact ⟨List.Subset.trans (hi v h).left hm.left, List.Subset.trans (hi v h).right hm.right⟩
  case case4 => cases h

end Paths

section Shapes

variable {r : Resolver} {fields : List (Text × Node)} {items : List Node}

theorem fieldQuotes_eq (fields : List (Text × Node)) : fieldQuotes fields = fields.flatMap fun e => e.2.quotes := by
  induction fields
  case nil          => rfl
  case cons e _ hi => rw [fieldQuotes, hi, List.flatMap_cons]

theorem itemQuotes_eq (items : List Node) : itemQuotes items = items.flatMap Node.quotes := by
  induction items
  case nil          => rfl
  case cons v _ hi => rw [itemQuotes, hi, List.flatMap_cons]

theorem map_shaped (hn : fields ≠ []) (hd : (fields.map Prod.fst).Nodup)
    (h : ∀ e ∈ fields, r.Keys e.1 ∧ e.2.Shaped r) : (Node.map fields).Shaped r := by
  have hf : FieldsReadable r (mapFields (fun _ => []) fields) := by
    clear hn hd
    induction fields
    case nil          => trivial
    case cons e _ hi =>
      have ⟨hk, hv⟩ := h e (.head _)
      exact ⟨hk, hv, hi fun e he => h e (.tail _ he)⟩
  simp only [Node.Shaped, Node.mapQuoted, Node.Readable]
  refine ⟨?_, ?_, hf⟩
  · rw [mapFields_eq]
    simpa using hn
  · rw [mapFields_eq, List.map_map]
    exact hd

theorem seq_shaped (hn : items ≠ []) (h : ∀ v ∈ items, v.Shaped r) : (Node.seq items).Shaped r := by
  have hi : ItemsReadable r (mapItems (fun _ => []) items) := by
    clear hn
    induction items
    case nil          => trivial
    case cons v _ hi => exact ⟨h v (.head _), hi fun v hv => h v (.tail _ hv)⟩
  simp only [Node.Shaped, Node.mapQuoted, Node.Readable]
  refine ⟨?_, hi⟩
  rw [mapItems_eq]
  simpa using hn

end Shapes

-- A document that is read as it should be.
theorem Reader.of_value {parse : Text → Option Value} {r : Resolver} {t : Node}
    (hp : parse t.render = some ((t.mapQuoted fold).value r.resolve)) (ha : ∀ s ∈ t.texts ++ t.quotes, s.all allowed)
    (hm : ∀ s ∈ t.quotes, marked s = false) (hn : textsAll noNextLine ((t.mapQuoted fold).value r.resolve)) :
    Reader parse r t where
  control    := by
    intro ⟨s, hs, hc⟩
    simp [ha s hs] at hc
  marker _   := by
    intro ⟨s, hs, hc⟩
    simp [hm s hs] at hc
  nextLine   := by
    intro v hv
    cases hp.symm.trans hv
    exact hn
  reads _ _  := hp

end Yaml
