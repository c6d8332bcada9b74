import Knaic.Go.Basic
import Knaic.Js.Text

namespace Js

-- The code units of one code point.
def codeUnits (v : Nat) : Str :=
  if v < 0x10000 then
    [UInt16.ofNat v]
  else
    [UInt16.ofNat (0xd800 + (v - 0x10000) / 0x400), UInt16.ofNat (0xdc00 + (v - 0x10000) % 0x400)]

-- One text, as a program holds it and as bytes.
def utf16 (t : List Char) : Str :=
  t.flatMap fun c => codeUnits c.toNat

def utf8 (t : List Char) : Go.Str :=
  t.flatMap String.utf8EncodeChar

def Spells (s : Str) (bs : Go.Str) : Prop :=
  ∃ t, s = utf16 t ∧ bs = utf8 t

def replacement : Nat :=
  0xfffd

def byteOrderMark : Nat :=
  0xfeff

-- `TextDecoder` for UTF-8, between two calls of `decode` with `stream: true`: the bits of a
-- character that has begun, the number of bytes that it lacks and the bounds of the next one.
structure TextDecoder where
  codePoint : Nat
  needed    : Nat
  lower     : Nat
  upper     : Nat
  bomSeen   : Bool
deriving DecidableEq

namespace TextDecoder

-- Between two characters.
def idle (bomSeen : Bool) : TextDecoder where
  codePoint := 0
  needed    := 0
  lower     := 0x80
  upper     := 0xbf
  bomSeen   := bomSeen

def new : TextDecoder :=
  idle false

-- The first byte of a character.
def lead (bomSeen : Bool) (b : Nat) : TextDecoder × List Nat :=
  if b ≤ 0x7f then
    (idle bomSeen, [b])
  else if 0xc2 ≤ b ∧ b ≤ 0xdf then
    ({ idle bomSeen with codePoint := b % 32, needed := 1 }, [])
  else if 0xe0 ≤ b ∧ b ≤ 0xef then
    ({ idle bomSeen with
        codePoint := b % 16, needed := 2
        lower     := if b = 0xe0 then 0xa0 else 0x80
        upper     := if b = 0xed then 0x9f else 0xbf }, [])
  else if 0xf0 ≤ b ∧ b ≤ 0xf4 then
    ({ idle bomSeen with
        codePoint := b % 8, needed := 3
        lower     := if b = 0xf0 then 0x90 else 0x80
        upper     := if b = 0xf4 then 0x8f else 0xbf }, [])
  else
    (idle bomSeen, [replacement])

-- A byte that does not continue what has begun is read again as a first byte.
def step (d : TextDecoder) (b : Nat) : TextDecoder × List Nat :=
  if d.needed = 0 then
    lead d.bomSeen b
  else if b < d.lower ∨ d.upper < b then
    let r := lead d.bomSeen b
    (r.1, replacement :: r.2)
  else
    let v := d.codePoint * 64 + b % 64
    if d.needed = 1 then
      (idle d.bomSeen, [v])
    else
      ({ idle d.bomSeen with codePoint := v, needed := d.needed - 1 }, [])

-- A byte order mark is no part of the text where it comes first.
def emit : Bool → List Nat → Bool × Str
  | seen, []         => (seen, [])
  | true, vs         => (true, vs.flatMap codeUnits)
  | false, v :: vs   => (true, (if v = byteOrderMark then vs else v :: vs).flatMap codeUnits)

def push (d : TextDecoder) (b : UInt8) : TextDecoder × Str :=
  let r := d.step b.toNat
  let e := emit d.bomSeen r.2
  ({ r.1 with bomSeen := e.1 }, e.2)

def decode (d : TextDecoder) : Go.Str → TextDecoder × Str
  | []      => (d, [])
  | b :: bs =>
    let r := d.push b
    let q := r.1.decode bs
    (q.1, r.2 ++ q.2)

-- It does not matter where the bytes are cut.
theorem decode_append (d : TextDecoder) (xs ys : Go.Str) :
    d.decode (xs ++ ys) = (((d.decode xs).1.decode ys).1, (d.decode xs).2 ++ ((d.decode xs).1.decode ys).2) := by
  induction xs generalizing d
  case nil          => rfl
  case cons x xs hi => simp [decode, hi]

section Characters

variable {seen : Bool} {b v : Nat}

theorem step_ascii (h : b ≤ 0x7f) : (idle seen).step b = (idle seen, [b]) :=
  if_pos h

-- The bytes after the first that are expected, and the bits that they add.
theorem step_last {d : TextDecoder} (hn : d.needed = 1) (hl : d.lower ≤ b) (hu : b ≤ d.upper) :
    d.step b = (idle d.bomSeen, [d.codePoint * 64 + b % 64]) := by
  have hb : ¬(b < d.lower ∨ d.upper < b) := by omega
  simp [step, hn, hb]

theorem step_next {d : TextDecoder} (hn : 1 < d.needed) (hl : d.lower ≤ b) (hu : b ≤ d.upper) :
    d.step b = ({ idle d.bomSeen with
      codePoint := d.codePoint * 64 + b % 64, needed := d.needed - 1 }, []) := by
  have hb : ¬(b < d.lower ∨ d.upper < b) := by omega
  have h0 : d.needed ≠ 0 := by omega
  have h1 : d.needed ≠ 1 := by omega
  simp [step, h0, h1, hb]

theorem step_two (hl : 0xc2 ≤ b) (hu : b ≤ 0xdf) :
    (idle seen).step b = ({ idle seen with codePoint := b % 32, needed := 1 }, []) := by
  have ha : ¬b ≤ 0x7f := by omega
  simp [step, idle, lead, ha, hl, hu]

theorem step_three (hl : 0xe0 ≤ b) (hu : b ≤ 0xef) :
    (idle seen).step b = ({ idle seen with
      codePoint := b % 16, needed := 2
      lower     := if b = 0xe0 then 0xa0 else 0x80
      upper     := if b = 0xed then 0x9f else 0xbf }, []) := by
  have ha : ¬b ≤ 0x7f := by omega
  have h2 : ¬(0xc2 ≤ b ∧ b ≤ 0xdf) := by omega
  simp [step, idle, lead, ha, h2, hl, hu]

theorem step_four (hl : 0xf0 ≤ b) (hu : b ≤ 0xf4) :
    (idle seen).step b = ({ idle seen with
      codePoint := b % 8, needed := 3
      lower     := if b = 0xf0 then 0x90 else 0x80
      upper     := if b = 0xf4 then 0x8f else 0xbf }, []) := by
  have ha : ¬b ≤ 0x7f := by omega
  have h2 : ¬(0xc2 ≤ b ∧ b ≤ 0xdf) := by omega
  have h3 : ¬(0xe0 ≤ b ∧ b ≤ 0xef) := by omega
  simp [step, idle, lead, ha, h2, h3, hl, hu]

theorem toNat_byte {n : Nat} (h : n < 256) : (UInt8.ofNat n).toNat = n := by
  rw [UInt8.toNat_ofNat']
  exact Nat.mod_eq_of_lt h

-- A byte inside a character, and the last byte of one.
theorem decode_quiet {d e : TextDecoder} {bs : Go.Str} (hb : b < 256) (h : d.step b = (e, []))
    (hs : e.bomSeen = d.bomSeen) : d.decode (UInt8.ofNat b :: bs) = e.decode bs := by
  simp [decode, push, toNat_byte hb, h, emit, ← hs]

theorem decode_last {d : TextDecoder} {w : Nat} (hb : b < 256)
    (h : d.step b = (idle d.bomSeen, [w])) (hw : w = v)
    (hm : d.bomSeen = true ∨ v ≠ byteOrderMark) :
    d.decode [UInt8.ofNat b] = (idle true, codeUnits v) := by
  rw [decode, push, toNat_byte hb, h, hw]
  cases hs : d.bomSeen
  case true  => simp [decode, emit, idle]
  case false =>
    have hv : v ≠ byteOrderMark := hm.resolve_left (by simp [hs])
    simp [decode, emit, idle, hv]

-- The bytes of a character, by their number.
theorem decode_two (hl : 0x7f < v) (hu : v ≤ 0x7ff) (hm : seen = true ∨ v ≠ byteOrderMark) :
    (idle seen).decode [UInt8.ofNat (v / 64 % 0x20 + 0xc0), UInt8.ofNat (v % 0x40 + 0x80)] =
      (idle true, codeUnits v) := by
  rw [decode_quiet (by omega) (step_two (by omega) (by omega)) rfl]
  apply decode_last (by omega) (step_last rfl ?_ ?_) ?_ hm
  all_goals simp only [idle]
  all_goals omega

theorem decode_three (hl : 0x7ff < v) (hu : v ≤ 0xffff) (hv : v < 0xd800 ∨ 0xdfff < v)
    (hm : seen = true ∨ v ≠ byteOrderMark) :
    (idle seen).decode [UInt8.ofNat (v / 4096 % 0x10 + 0xe0), UInt8.ofNat (v / 64 % 0x40 + 0x80),
      UInt8.ofNat (v % 0x40 + 0x80)] = (idle true, codeUnits v) := by
  rw [decode_quiet (by omega) (step_three (by omega) (by omega)) rfl,
    decode_quiet (by omega) (step_next ?_ ?_ ?_) rfl]
  apply decode_last (by omega) (step_last rfl ?_ ?_) ?_ hm
  all_goals simp only [idle]
  all_goals try split
  all_goals omega

theorem decode_four (hl : 0xffff < v) (hu : v < 0x110000) (hm : seen = true ∨ v ≠ byteOrderMark) :
    (idle seen).decode [UInt8.ofNat (v / 262144 % 0x08 + 0xf0),
      UInt8.ofNat (v / 4096 % 0x40 + 0x80), UInt8.ofNat (v / 64 % 0x40 + 0x80),
      UInt8.ofNat (v % 0x40 + 0x80)] = (idle true, codeUnits v) := by
  rw [decode_quiet (by omega) (step_four (by omega) (by omega)) rfl,
    decode_quiet (by omega) (step_next ?_ ?_ ?_) rfl,
    decode_quiet (by omega) (step_next ?_ ?_ ?_) rfl]
  apply decode_last (by omega) (step_last rfl ?_ ?_) ?_ hm
  all_goals simp only [idle]
  all_goals try split
  all_goals omega

theorem decode_char (c : Char) (hm : seen = true ∨ c.toNat ≠ byteOrderMark) :
    (idle seen).decode (String.utf8EncodeChar c) = (idle true, codeUnits c.toNat) := by
  have hv : c.val.toNat < 0xd800 ∨ 0xdfff < c.val.toNat ∧ c.val.toNat < 0x110000 := c.valid
  change seen = true ∨ c.val.toNat ≠ byteOrderMark at hm
  change _ = (idle true, codeUnits c.val.toNat)
  rw [String.utf8EncodeChar]
  generalize c.val.toNat = v at hv hm
  by_cases h1 : v ≤ 0x7f
  case pos =>
    simp only [h1, if_true]
    exact decode_last (by omega) (step_ascii h1) rfl hm
  by_cases h2 : v ≤ 0x7ff
  case pos =>
    simp only [h1, h2, if_true, if_false]
    exact decode_two (by omega) h2 hm
  by_cases h3 : v ≤ 0xffff
  case pos =>
    simp only [h1, h2, h3, if_true, if_false]
    exact decode_three (by omega) h3 (by omega) hm
  simp only [h1, h2, h3, if_false]
  exact decode_four (by omega) (by omega) hm

-- What was encoded is decoded, if it does not begin with a byte order mark.
theorem decode_utf8 (t : List Char) : (idle true).decode (utf8 t) = (idle true, utf16 t) := by
  induction t
  case nil => rfl
  case cons c t hi =>
    simp only [utf8, utf16] at hi
    simp only [utf8, utf16, List.flatMap_cons, decode_append, decode_char c (.inl rfl), hi]

-- A byte order mark before it makes no difference.
theorem decode_mark (t : List Char) : (new.decode ([0xef, 0xbb, 0xbf] ++ utf8 t)).2 = utf16 t := by
  have hm : new.decode [0xef, 0xbb, 0xbf] = (idle true, []) := by decide
  rw [decode_append, hm, decode_utf8]
  rfl

theorem decode_new {t : List Char} (h : ∀ c ∈ t.head?, c.toNat ≠ byteOrderMark) :
    (new.decode (utf8 t)).2 = utf16 t := by
  cases t
  case nil => rfl
  case cons c t =>
    have ht := decode_utf8 t
    have hc : c.toNat ≠ byteOrderMark := h c rfl
    simp only [utf8, utf16] at ht
    simp only [new, utf8, utf16, List.flatMap_cons, decode_append, decode_char c (.inr hc), ht]

end Characters

end TextDecoder

theorem utf8_append (s t : List Char) : utf8 (s ++ t) = utf8 s ++ utf8 t :=
  List.flatMap_append ..

theorem utf16_append (s t : List Char) : utf16 (s ++ t) = utf16 s ++ utf16 t :=
  List.flatMap_append ..

theorem utf8_flatMap {α : Type} (l : List α) (f : α → List Char) :
    utf8 (l.flatMap f) = l.flatMap fun a => utf8 (f a) :=
  List.flatMap_assoc

theorem utf16_flatMap {α : Type} (l : List α) (f : α → List Char) :
    utf16 (l.flatMap f) = l.flatMap fun a => utf16 (f a) :=
  List.flatMap_assoc

-- A line in one form is a line in the other.
theorem newline_utf16 {t : List Char} (h : 10 ∉ utf8 t) : newline ∉ utf16 t := by
  intro hm
  obtain ⟨c, hc, hu⟩ := List.mem_flatMap.mp hm
  have hv : c.val.toNat = 10 := by
    have hc : c.val.toNat < 0xd800 ∨ 0xdfff < c.val.toNat ∧ c.val.toNat < 0x110000 := c.valid
    change newline ∈ codeUnits c.val.toNat at hu
    generalize c.val.toNat = v at hc hu
    rw [codeUnits] at hu
    split at hu
    case isTrue hlt =>
      have he := congrArg UInt16.toNat (List.mem_singleton.mp hu)
      rw [UInt16.toNat_ofNat', Nat.mod_eq_of_lt hlt] at he
      exact he.symm
    case isFalse hlt =>
      -- neither half of a surrogate pair is a newline
      simp only [List.mem_cons, List.not_mem_nil, or_false] at hu
      cases hu
      all_goals
        rename_i he
        have he := congrArg UInt16.toNat he
        rw [UInt16.toNat_ofNat'] at he
        simp only [newline, UInt16.reduceToNat] at he
        omega
  refine h (List.mem_flatMap.mpr ⟨c, hc, ?_⟩)
  rw [String.utf8EncodeChar, hv]
  decide

end Js
