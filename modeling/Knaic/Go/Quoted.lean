import Knaic.Go.Basic

namespace Go.Quoted

-- A text with strings in double quotes, in which a backslash takes the byte after it along.
inductive Token
  | code (s : Str)
  | quoted (raw : Str)
  | unclosed (raw : Str)
deriving DecidableEq

def quote : UInt8 :=
  0x22

def backslash : UInt8 :=
  0x5c

def scan (inside : Bool) (acc : Str) : Str → List Token
  | []     => [if inside then .unclosed acc else .code acc]
  | b :: s =>
    if b = quote then
      (if inside then .quoted acc else .code acc) :: scan (!inside) [] s
    else if inside && b == backslash then
      match s with
      | []     => [.unclosed (acc ++ [b])]
      | c :: s => scan true (acc ++ [b, c]) s
    else
      scan inside (acc ++ [b]) s

def tokens (s : Str) : List Token :=
  scan false [] s

-- A text in which quotes and backslashes stand behind a backslash.
def escape (s : Str) : Str :=
  s.flatMap fun b => if b = backslash ∨ b = quote then [backslash, b] else [b]

def Plain (s : Str) : Prop :=
  ∀ b ∈ s, b ≠ quote ∧ b ≠ backslash

instance (s : Str) : Decidable (Plain s) :=
  List.decidableBAll (fun b => b ≠ quote ∧ b ≠ backslash) s

-- A hole, or none, and the text behind it, in quotes that come after some code.
structure Slot (ι : Type) where
  code : Str
  hole : Option ι
  rest : Str

namespace Slot

variable {ι : Type}

def given (fill : ι → Str) (x : Slot ι) : Str :=
  x.hole.elim [] fill

def raw (fill : ι → Str) (x : Slot ι) : Str :=
  escape (x.given fill) ++ x.rest

end Slot

structure Template (ι : Type) where
  slots : List (Slot ι)
  last  : Str

namespace Template

variable {ι : Type}

def text (T : Template ι) (fill : ι → Str) : Str :=
  T.slots.flatMap (fun x => x.code ++ [quote] ++ x.raw fill ++ [quote]) ++ T.last

def tokens (T : Template ι) (fill : ι → Str) : List Token :=
  T.slots.flatMap (fun x => [.code x.code, .quoted (x.raw fill)]) ++ [.code T.last]

-- The template does not open or close a string by itself.
structure WellFormed (T : Template ι) : Prop where
  code : ∀ x ∈ T.slots, quote ∉ x.code
  rest : ∀ x ∈ T.slots, Plain x.rest
  last : quote ∉ T.last

end Template

-- What a reader of such strings makes of the text between the quotes, if it takes it.
structure Unquotes (unquote : Str → Option Str) : Prop where
  nil     : unquote [] = some []
  escaped : ∀ b s, b = backslash ∨ b = quote → unquote (backslash :: b :: s) = (unquote s).map (b :: ·)
  plain   : ∀ w s, Plain w → s = [] ∨ s.head? = some backslash →
            unquote (w ++ s) = none ∨ unquote (w ++ s) = (unquote s).map (w ++ ·)

variable {acc s w : Str}

theorem scan_quote (inside : Bool) (acc s : Str) : scan inside acc (quote :: s) =
    (if inside then .quoted acc else .code acc) :: scan (!inside) [] s := by
  rw [scan.eq_def]
  rfl

theorem scan_escaped (b : UInt8) : scan true acc (backslash :: b :: s) = scan true (acc ++ [backslash, b]) s := by
  rw [scan.eq_def]
  rfl

theorem scan_byte {inside : Bool} {b : UInt8} (hq : b ≠ quote) (hb : inside = true → b ≠ backslash) :
    scan inside acc (b :: s) = scan inside (acc ++ [b]) s := by
  have hn : (inside && b == backslash) = false := by
    cases inside
    case false => rfl
    case true  => simpa using hb rfl
  rw [scan.eq_def]
  simp only [if_neg hq, hn, Bool.false_eq_true, if_false]

theorem scan_code (h : quote ∉ w) : scan false acc (w ++ s) = scan false (acc ++ w) s := by
  induction w generalizing acc
  case nil         => simp
  case cons b w hi =>
    have hb : b ≠ quote := fun he => h (he ▸ List.mem_cons_self)
    rw [List.cons_append, scan_byte hb (fun h => by cases h), hi fun hm => h (List.mem_cons_of_mem _ hm)]
    simp

theorem scan_plain (h : Plain w) : scan true acc (w ++ s) = scan true (acc ++ w) s := by
  induction w generalizing acc
  case nil         => simp
  case cons b w hi =>
    obtain ⟨hq, hb⟩ := h b List.mem_cons_self
    rw [List.cons_append, scan_byte hq fun _ => hb, hi fun c hc => h c (List.mem_cons_of_mem _ hc)]
    simp

theorem escape_cons (b : UInt8) (t : Str) : escape (b :: t) =
    (if b = backslash ∨ b = quote then [backslash, b] else [b]) ++ escape t :=
  rfl

theorem escape_plain (h : Plain w) : escape w = w := by
  induction w
  case nil         => rfl
  case cons b w hi =>
    have hb := h b List.mem_cons_self
    rw [escape_cons, if_neg (not_or.mpr hb.symm), hi fun c hc => h c (List.mem_cons_of_mem _ hc)]
    rfl

theorem scan_escape (t : Str) : scan true acc (escape t ++ s) = scan true (acc ++ escape t) s := by
  induction t generalizing acc
  case nil         => simp [escape]
  case cons b t hi =>
    rw [escape_cons, List.append_assoc]
    split
    case isTrue h  => rw [List.cons_append, List.singleton_append, scan_escaped, hi, List.append_assoc]
    case isFalse h =>
      have hp : Plain [b] := by simpa [Plain, and_comm, not_or] using h
      rw [scan_plain hp, hi, List.append_assoc]

-- A string ends where the template closes it, whatever was put into it.
theorem Template.tokens_text {ι : Type} {T : Template ι} (h : T.WellFormed) (fill : ι → Str) :
    Quoted.tokens (T.text fill) = T.tokens fill := by
  obtain ⟨slots, last⟩ := T
  obtain ⟨hc, hr, hl⟩ := h
  simp only [Quoted.tokens, text, tokens]
  induction slots
  case nil           =>
    have hs : scan false [] (last ++ []) = scan false ([] ++ last) [] := scan_code hl
    simpa [scan] using hs
  case cons x xs hi  =>
    have hx := hi (fun y hy => hc y (List.mem_cons_of_mem _ hy)) (fun y hy => hr y (List.mem_cons_of_mem _ hy)) hl
    have hcx := hc x List.mem_cons_self
    have hrx := hr x List.mem_cons_self
    simp only [List.flatMap_cons, List.append_assoc, Slot.raw] at hx ⊢
    rw [scan_code hcx, List.singleton_append, scan_quote, if_neg Bool.false_ne_true, Bool.not_false,
      scan_escape, scan_plain hrx, List.singleton_append, scan_quote, if_pos rfl, Bool.not_true, hx]
    rfl

-- An escaped text is read as what it was, unless it is refused.
theorem Unquotes.escape {unquote : Str → Option Str} (h : Unquotes unquote) (hw : Plain w) (t : Str) :
    unquote (escape t ++ w) = none ∨ unquote (escape t ++ w) = some (t ++ w) := by
  -- Together with the plain bytes that come before it.
  have front (p : Str) (hp : Plain p) :
      unquote (p ++ (Quoted.escape t ++ w)) = none ∨ unquote (p ++ (Quoted.escape t ++ w)) = some (p ++ (t ++ w)) := by
    induction t generalizing p
    case nil =>
      have hpw : Plain (p ++ w) := fun b hb => (List.mem_append.mp hb).elim (hp b) (hw b)
      simpa [Quoted.escape, h.nil] using h.plain (p ++ w) [] hpw (.inl rfl)
    case cons b t hi =>
      rw [escape_cons]
      split
      case isFalse hb =>
        have hp' : Plain (p ++ [b]) := by
          intro c hc
          obtain hc | hc := List.mem_append.mp hc
          case inl => exact hp c hc
          case inr =>
            rw [List.mem_singleton.mp hc]
            exact (not_or.mp hb).symm
        simpa using hi (p ++ [b]) hp'
      case isTrue hb =>
        have ht := hi [] (by simp [Plain])
        simp only [List.nil_append] at ht
        simp only [List.cons_append, List.nil_append]
        obtain hs | hs := h.plain p (backslash :: b :: (Quoted.escape t ++ w)) hp (.inr rfl)
        case inl => exact .inl hs
        case inr =>
          rw [hs, h.escaped _ _ hb]
          obtain ht | ht := ht
          case inl => exact .inl (by rw [ht]; rfl)
          case inr => exact .inr (by rw [ht]; simp)
  simpa using front [] (by simp [Plain])

-- What stands around a hole: the end of the code before it, and the text behind it.
def Slot.Within {ι : Type} (ends : List (Str × Str)) (x : Slot ι) : Prop :=
  x.hole.isSome → ∃ e ∈ ends, e.1 <:+ x.code ∧ x.rest = e.2

-- A text as a function of what is filled in, when it is that of a template.
def Templated {ι : Type} (ends : List (Str × Str)) (q : (ι → Str) → Str) : Prop :=
  ∃ T : Template ι, T.WellFormed ∧ (∀ x ∈ T.slots, x.Within ends) ∧ ∀ fill, q fill = T.text fill

namespace Templated

variable {ι : Type} {ends : List (Str × Str)} {q q' : (ι → Str) → Str}

theorem code (h : quote ∉ w) : Templated ends fun _ : ι → Str => w :=
  ⟨⟨[], w⟩, ⟨nofun, nofun, h⟩, nofun, fun _ => rfl⟩

theorem slot (x : Slot ι) (hc : quote ∉ x.code) (hr : Plain x.rest) (ht : x.Within ends) :
    Templated ends fun fill => x.code ++ [quote] ++ x.raw fill ++ [quote] := by
  refine ⟨⟨[x], []⟩, ⟨?_, ?_, List.not_mem_nil⟩, ?_, fun fill => ?_⟩
  case refine_1 => simpa using hc
  case refine_2 => simpa using hr
  case refine_3 => simpa using ht
  case refine_4 => simp [Template.text]

-- The code at the end of one text is joined to the code at the front of the next.
theorem append (h : Templated ends q) (h' : Templated ends q') : Templated ends fun fill => q fill ++ q' fill := by
  obtain ⟨T, hw, ht, hq⟩ := h
  obtain ⟨⟨slots, last⟩, hw', ht', hq'⟩ := h'
  cases slots
  case nil =>
    refine ⟨⟨T.slots, T.last ++ last⟩, ⟨hw.code, hw.rest, ?_⟩, ht, fun fill => ?_⟩
    case refine_1 =>
      rw [List.mem_append, not_or]
      exact ⟨hw.last, hw'.last⟩
    case refine_2 => simp [hq, hq', Template.text]
  case cons x xs =>
    have hx := List.mem_cons_self (a := x) (l := xs)
    refine ⟨⟨T.slots ++ ⟨T.last ++ x.code, x.hole, x.rest⟩ :: xs, last⟩, ⟨fun y hy => ?_, fun y hy => ?_, hw'.last⟩,
      fun y hy => ?_, fun fill => ?_⟩
    case refine_4 => simp [hq, hq', Template.text, Slot.raw, Slot.given]
    all_goals
      obtain hy | hy := List.mem_append.mp hy
    case refine_1.inl => exact hw.code y hy
    case refine_2.inl => exact hw.rest y hy
    case refine_3.inl => exact ht y hy
    all_goals
      obtain rfl | hy := List.mem_cons.mp hy
    case refine_1.inr.inl =>
      rw [List.mem_append, not_or]
      exact ⟨hw.last, hw'.code x hx⟩
    case refine_2.inr.inl => exact hw'.rest x hx
    case refine_3.inr.inl =>
      intro hs
      obtain ⟨e, he, hm, hr⟩ := ht' x hx hs
      exact ⟨e, he, hm.trans (List.suffix_append ..), hr⟩
    case refine_1.inr.inr => exact hw'.code y (List.mem_cons_of_mem _ hy)
    case refine_2.inr.inr => exact hw'.rest y (List.mem_cons_of_mem _ hy)
    case refine_3.inr.inr => exact ht' y (List.mem_cons_of_mem _ hy)

theorem intercalate {sep : Str} (hs : quote ∉ sep) {qs : List ((ι → Str) → Str)} (h : ∀ q ∈ qs, Templated ends q) :
    Templated ends fun fill => sep.intercalate (qs.map (· fill)) := by
  induction qs
  case nil          => exact code List.not_mem_nil
  case cons q qs hi =>
    have hq := h q List.mem_cons_self
    have hi := hi fun q hq => h q (List.mem_cons_of_mem _ hq)
    cases qs
    case nil        => simpa [List.intercalate] using hq
    case cons q' qs =>
      have ha := (hq.append (code hs)).append hi
      simpa [List.intercalate] using ha

end Templated

-- Whatever is filled in, the text has the tokens of one and the same template, and every string in it is
-- read as what was filled in and the text behind the hole, unless it is refused.
def Kept {ι : Type} (unquote : Str → Option Str) (ends : List (Str × Str)) (q : (ι → Str) → Str) : Prop :=
  ∃ T : Template ι, (∀ x ∈ T.slots, x.Within ends) ∧
    ∀ fill, tokens (q fill) = T.tokens fill ∧
      ∀ x ∈ T.slots, unquote (x.raw fill) = none ∨ unquote (x.raw fill) = some (x.given fill ++ x.rest)

theorem Templated.kept {ι : Type} {ends : List (Str × Str)} {q : (ι → Str) → Str} {unquote : Str → Option Str}
    (h : Templated ends q) (hu : Unquotes unquote) : Kept unquote ends q := by
  obtain ⟨T, hw, ht, hq⟩ := h
  refine ⟨T, ht, fun fill => ⟨?_, fun x hx => hu.escape (hw.rest x hx) _⟩⟩
  rw [hq, Template.tokens_text hw]

end Go.Quoted
