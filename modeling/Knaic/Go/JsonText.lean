import Knaic.Go.Strconv
import Knaic.Go.Fields

-- The text of JSON, as `encoding/json` writes it and reads it.
namespace Go.JsonText

open Utf8

-- A number is kept as it is written.
inductive Value
  | null
  | bool (b : Bool)
  | number (s : Str)
  | string (s : Str)
  | array (vs : List Value)
  | object (fields : List (Str × Value))

-- What stands between the quotes of a text.
section Quoting

def escapeByte (b : UInt8) : Str :=
  if b = 34 ∨ b = 92 then [92, b]
  else if b = 8 then str "\\b"
  else if b = 12 then str "\\f"
  else if b = 10 then str "\\n"
  else if b = 13 then str "\\r"
  else if b = 9 then str "\\t"
  else if b < 32 ∨ b = 60 ∨ b = 62 ∨ b = 38 then str "\\u00" ++ hex [b]
  else [b]

def escapePiece : Piece → Str
  | .rune [b] => escapeByte b
  | .rune bs  =>
    if bs = [0xe2, 0x80, 0xa8] then str "\\u2028" else if bs = [0xe2, 0x80, 0xa9] then str "\\u2029" else bs
  | .bad _    => str "\\ufffd"

def escape (s : Str) : Str :=
  (pieces s).flatMap escapePiece

def hexValue (b : UInt8) : Option Nat :=
  if 48 ≤ b ∧ b ≤ 57 then some (b.toNat - 48)
  else if 97 ≤ b ∧ b ≤ 102 then some (b.toNat - 87)
  else if 65 ≤ b ∧ b ≤ 70 then some (b.toNat - 55)
  else none

def getu4 (a b c d : UInt8) : Option Nat := do
  return (← hexValue a) * 4096 + (← hexValue b) * 256 + (← hexValue c) * 16 + (← hexValue d)

-- The byte behind a backslash, and what the two stand for.
def simpleEscapes : List (UInt8 × UInt8) :=
  [(34, 34), (92, 92), (47, 47), (98, 8), (102, 12), (110, 10), (114, 13), (116, 9)]

inductive Unit
  | byte (b : UInt8)
  | code (n : Nat)

def units : Str → Option (List Unit)
  | []                                 => some []
  | 92 :: 117 :: a :: b :: c :: d :: s => (getu4 a b c d).bind fun n => (units s).map (.code n :: ·)
  | 92 :: e :: s                       => (simpleEscapes.lookup e).bind fun b => (units s).map (.byte b :: ·)
  | b :: s                             => if b < 32 ∨ b = 34 ∨ b = 92 then none else (units s).map (.byte b :: ·)

-- The encoding of a rune. Half of a surrogate pair is none.
def encodeRune (n : Nat) : Str :=
  if n < 0x80 then [UInt8.ofNat n]
  else if n < 0x800 then [UInt8.ofNat (0xc0 + n / 64), UInt8.ofNat (0x80 + n % 64)]
  else if 0xd800 ≤ n ∧ n < 0xe000 ∨ 0x10ffff < n then [0xef, 0xbf, 0xbd]
  else if n < 0x10000 then
    [UInt8.ofNat (0xe0 + n / 4096), UInt8.ofNat (0x80 + n / 64 % 64), UInt8.ofNat (0x80 + n % 64)]
  else
    [UInt8.ofNat (0xf0 + n / 262144), UInt8.ofNat (0x80 + n / 4096 % 64), UInt8.ofNat (0x80 + n / 64 % 64),
      UInt8.ofNat (0x80 + n % 64)]

def isPair (h l : Nat) : Bool :=
  0xd800 ≤ h && h < 0xdc00 && 0xdc00 ≤ l && l < 0xe000

def decodeUnits : List Unit → Str
  | []                       => []
  | .byte b :: us            => b :: decodeUnits us
  | .code h :: .code l :: us =>
    if isPair h l then encodeRune (0x10000 + (h - 0xd800) * 1024 + (l - 0xdc00)) ++ decodeUnits us
    else encodeRune h ++ decodeUnits (.code l :: us)
  | .code n :: us            => encodeRune n ++ decodeUnits us

def unquote (raw : Str) : Option Str :=
  (units (toValid raw)).map decodeUnits

end Quoting

inductive Token
  | punct (b : UInt8)
  | string (raw : Str)
  | bare (s : Str)

section Lexing

def isSpace (b : UInt8) : Bool :=
  b = 32 || b = 9 || b = 10 || b = 13

def isPunct (b : UInt8) : Bool :=
  (str "\x7b\x7d[],:").contains b

-- Where the text has been read to.
inductive Place
  | between
  | bare (s : Str)
  | string (raw : Str)
  | escaped (raw : Str)

def lex : Place → Str → Option (List Token)
  | .between, []         => some []
  | .bare w, []          => some [.bare w]
  | .string _, []        => none
  | .escaped _, []       => none
  | .between, b :: t     =>
    if isSpace b then lex .between t
    else if b = 34 then lex (.string []) t
    else if isPunct b then (lex .between t).map (.punct b :: ·)
    else lex (.bare [b]) t
  | .bare w, b :: t      =>
    if isSpace b then (lex .between t).map (.bare w :: ·)
    else if b = 34 then (lex (.string []) t).map (.bare w :: ·)
    else if isPunct b then (lex .between t).map (.bare w :: .punct b :: ·)
    else lex (.bare (w ++ [b])) t
  | .string raw, b :: t  =>
    if b = 34 then (lex .between t).map (.string raw :: ·)
    else if b = 92 then lex (.escaped (raw ++ [b])) t
    else lex (.string (raw ++ [b])) t
  | .escaped raw, b :: t => lex (.string (raw ++ [b])) t

end Lexing

section Parsing

def isExponent : Str → Bool
  | []     => true
  | e :: t =>
    let ds := match t with
      | 43 :: ds => ds
      | 45 :: ds => ds
      | ds       => ds
    (e = 101 || e = 69) && ds ≠ [] && ds.all Strconv.isDigit

def isFraction : Str → Bool
  | 46 :: t => t.takeWhile Strconv.isDigit ≠ [] && isExponent (t.dropWhile Strconv.isDigit)
  | s       => isExponent s

-- Without zeros in front.
def isInteger (ds : Str) : Bool :=
  ds ≠ [] && (ds = [48] || ds.head? ≠ some 48)

def isNumber (s : Str) : Bool :=
  let s := s.trimPrefix [45]
  isInteger (s.takeWhile Strconv.isDigit) && isFraction (s.dropWhile Strconv.isDigit)

def scalar (w : Str) : Option Value :=
  if w = str "null" then some .null
  else if w = str "true" then some (.bool true)
  else if w = str "false" then some (.bool false)
  else if isNumber w then some (.number w)
  else none

-- What a value is read within: an array behind some values, or an object behind a name.
inductive Frame
  | array (vs : List Value)
  | member (fields : List (Str × Value)) (name : Str)

-- What has been read last, within the frames around it: nothing of a value yet, one more element or member, some members
-- and then a comma, or a name.
inductive State
  | value (fs : List Frame)
  | element (vs : List Value) (fs : List Frame)
  | member (fields : List (Str × Value)) (fs : List Frame)
  | members (fields : List (Str × Value)) (fs : List Frame)
  | name (fields : List (Str × Value)) (name : Str) (fs : List Frame)
  | done (v : Value)

def maxNestingDepth : Nat :=
  10000

def deliver (v : Value) : List Frame → State
  | []                        => .done v
  | .array vs :: fs           => .element (vs ++ [v]) fs
  | .member fields name :: fs => .member (fields ++ [(name, v)]) fs

-- Nothing has to come where nothing has come yet.
def step : State → Token → Option State
  | .value (.array [] :: fs), .punct 93 => some (deliver (.array []) fs)
  | .members [] fs, .punct 125          => some (deliver (.object []) fs)
  | .value fs, .string raw              => (unquote raw).map fun s => deliver (.string s) fs
  | .value fs, .bare w                  => (scalar w).map (deliver · fs)
  | .value fs, .punct 91                => if fs.length < maxNestingDepth then some (.value (.array [] :: fs)) else none
  | .value fs, .punct 123               => if fs.length < maxNestingDepth then some (.members [] fs) else none
  | .element vs fs, .punct 44           => some (.value (.array vs :: fs))
  | .element vs fs, .punct 93           => some (deliver (.array vs) fs)
  | .member fields fs, .punct 44        => some (.members fields fs)
  | .member fields fs, .punct 125       => some (deliver (.object fields) fs)
  | .members fields fs, .string raw     => (unquote raw).map (.name fields · fs)
  | .name fields k fs, .punct 58        => some (.value (.member fields k :: fs))
  | _, _                                => none

def read (st : State) (s : Str) : Option State :=
  (lex .between s).bind fun ts => ts.foldlM step st

def parse (s : Str) : Option Value :=
  match read (.value []) s with
  | some (.done v) => some v
  | _              => none

end Parsing

-- `json.Unmarshal` into a struct, whose fields are told apart by their keys.
section Decoding

-- A name matches a key in any case. Two runes that are not ASCII fold to a letter that is.
def foldPiece : Piece → Str
  | .rune [b]                => Str.toUpper [b]
  | .rune [0xc5, 0xbf]       => str "S"
  | .rune [0xe2, 0x84, 0xaa] => str "K"
  | p                        => p.valid

def foldName (s : Str) : Str :=
  (pieces s).flatMap foldPiece

-- What a value becomes that is decoded over another one, which null leaves as it is.
def stringOver (old : Str) : Value → Option Str
  | .string s => some s
  | .null     => some old
  | _         => none

def boolOver (old : Bool) : Value → Option Bool
  | .bool b => some b
  | .null   => some old
  | _       => none

def intOver (old : Int64) : Value → Option Int64
  | .number s =>
    match Strconv.parseInt s with
    | (n, none) => some (Int64.ofInt n)
    | _         => none
  | .null     => some old
  | _         => none

def allOver : List Str → List Value → Option (List Str)
  | _, []             => some []
  | [], v :: vs       => (stringOver [] v).bind fun s => (allOver [] vs).map (s :: ·)
  | o :: old, v :: vs => (stringOver o v).bind fun s => (allOver old vs).map (s :: ·)

def stringsOver (old : List Str) : Value → Option (List Str)
  | .array vs => allOver old vs
  | .null     => some []
  | _         => none

variable {α φ : Type} (all : List φ) (key : φ → Str) (set : α → Value → φ → Option α)

-- A member is passed over if there is no field for it.
def setMember (a : α) (member : Str × Value) : Option α :=
  match all.find? fun f => foldName member.1 = Str.toUpper (key f) with
  | some f => set a member.2 f
  | none   => some a

def decodeFields (zero : α) : Value → Option α
  | .object fields => fields.foldlM (setMember all key set) zero
  | .null          => some zero
  | _              => none

end Decoding

-- `json.Marshal`
section Printing

def quote (s : Str) : Str :=
  34 :: (escape s ++ [34])

mutual

def print : Value → Str
  | .null          => str "null"
  | .bool true     => str "true"
  | .bool false    => str "false"
  | .number s      => s
  | .string s      => quote s
  | .array vs      => 91 :: (printAll vs ++ [93])
  | .object fields => 123 :: (printFields fields ++ [125])

def printAll : List Value → Str
  | []           => []
  | [v]          => print v
  | v :: w :: vs => print v ++ 44 :: printAll (w :: vs)

def printFields : List (Str × Value) → Str
  | []                    => []
  | [(k, v)]              => quote k ++ 58 :: print v
  | (k, v) :: f :: fields => quote k ++ 58 :: (print v ++ 44 :: printFields (f :: fields))

end

mutual

-- What is read again: invalid bytes have been replaced.
def Value.valid : Value → Value
  | .string s      => .string (toValid s)
  | .array vs      => .array (validAll vs)
  | .object fields => .object (validFields fields)
  | v              => v

def validAll : List Value → List Value
  | []      => []
  | v :: vs => v.valid :: validAll vs

def validFields : List (Str × Value) → List (Str × Value)
  | []               => []
  | (k, v) :: fields => (toValid k, v.valid) :: validFields fields

end

mutual

-- A value that can be printed and read: its numbers are numbers, and it is not nested too deep.
def Value.Readable (n : Nat) : Value → Prop
  | .number s      => isNumber s
  | .array vs      => n < maxNestingDepth ∧ AllReadable (n + 1) vs
  | .object fields => n < maxNestingDepth ∧ FieldsReadable (n + 1) fields
  | _              => True

def AllReadable (n : Nat) : List Value → Prop
  | []      => True
  | v :: vs => v.Readable n ∧ AllReadable n vs

def FieldsReadable (n : Nat) : List (Str × Value) → Prop
  | []               => True
  | (_, v) :: fields => v.Readable n ∧ FieldsReadable n fields

end

end Printing

section Quoted

-- A text that is put between quotes: it does not end them, it has no byte that is part of no rune, and it is read as
-- what it stands for.
structure Quotes (w v : Str) : Prop where
  inside : ∀ raw t, lex (.string raw) (w ++ t) = lex (.string (raw ++ w)) t
  whole  : ∀ t, toValid (w ++ t) = w ++ toValid t
  reads  : ∀ t, (units (w ++ t)).map decodeUnits = (units t).map fun us => v ++ decodeUnits us

variable {w w' v v' : Str} {b e a c d : UInt8} {n : Nat}

theorem Quotes.nil : Quotes [] [] where
  inside _ _ := by rw [List.append_nil]; rfl
  whole _    := rfl
  reads _    := rfl

theorem Quotes.append (h : Quotes w v) (h' : Quotes w' v') : Quotes (w ++ w') (v ++ v') where
  inside raw t := by rw [List.append_assoc, h.inside, h'.inside, List.append_assoc]
  whole t      := by rw [List.append_assoc, h.whole, h'.whole, List.append_assoc]
  reads t      := by
    have hf : (fun us => v ++ v' ++ decodeUnits us) = (v ++ ·) ∘ fun us => v' ++ decodeUnits us := by
      funext us
      exact List.append_assoc ..
    have hg : (fun us => v ++ decodeUnits us) = (v ++ ·) ∘ decodeUnits := rfl
    rw [List.append_assoc, h.reads, hg, ← Option.map_map, h'.reads, Option.map_map, hf]

theorem toValid_ascii (h : ∀ b ∈ w, b < 0x80) (t : Str) : toValid (w ++ t) = w ++ toValid t := by
  rw [toValid, pieces_ascii h, List.flatMap_append, List.flatMap_map]
  congr 1
  exact List.flatMap_singleton' w

theorem units_byte (hs : ¬(b < 32 ∨ b = 34 ∨ b = 92)) (t : Str) : units (b :: t) = (units t).map (.byte b :: ·) := by
  rw [units.eq_def]
  split
  case h_1 he => cases he
  case h_2 he =>
    cases he
    exact absurd (.inr (.inr rfl)) hs
  case h_3 he =>
    cases he
    exact absurd (.inr (.inr rfl)) hs
  case h_4 he =>
    cases he
    exact if_neg hs

theorem units_simple (he : e ≠ 117) (hl : simpleEscapes.lookup e = some b) (t : Str) :
    units (92 :: e :: t) = (units t).map (.byte b :: ·) := by
  rw [units.eq_def]
  split
  case h_1 hu => cases hu
  case h_2 hu =>
    cases hu
    exact absurd rfl he
  case h_3 hu =>
    cases hu
    rw [hl]
    rfl
  case h_4 hn hu =>
    cases hu
    exact (hn _ _ rfl rfl).elim

theorem units_code (hc : getu4 a b c d = some n) (t : Str) :
    units (92 :: 117 :: a :: b :: c :: d :: t) = (units t).map (.code n :: ·) := by
  rw [units, hc]
  rfl

theorem decodeUnits_code (hn : ∀ l, isPair n l = false) (us : List Unit) :
    decodeUnits (.code n :: us) = encodeRune n ++ decodeUnits us := by
  rw [decodeUnits.eq_def]
  split
  case h_1 he => cases he
  case h_2 he => cases he
  case h_3 he =>
    cases he
    rw [hn, if_neg (by decide)]
  case h_4 he =>
    cases he
    rfl

theorem lex_plain (hq : b ≠ 34) (he : b ≠ 92) (raw t : Str) : lex (.string raw) (b :: t) = lex (.string (raw ++ [b])) t := by
  rw [lex, if_neg hq, if_neg he]

theorem lex_escaped (e : UInt8) (raw t : Str) : lex (.string raw) (92 :: e :: t) = lex (.string (raw ++ [92, e])) t := by
  rw [lex, if_neg (by decide), if_pos rfl, lex, List.append_assoc]
  rfl

-- What is valid stays so before ASCII.
theorem toValid_before (hn : v ≠ []) (hv : ∀ b ∈ v, b < 0x80) (w t : Str) :
    toValid (w ++ (v ++ t)) = toValid w ++ (v ++ toValid t) := by
  obtain ⟨b, v, rfl⟩ := List.exists_cons_of_ne_nil hn
  have hp : toValid (w ++ b :: (v ++ t)) = toValid w ++ toValid (b :: (v ++ t)) := by
    rw [toValid, pieces_append_ascii (hv b (.head _)), List.flatMap_append]
    rfl
  rw [List.cons_append, hp, ← List.cons_append, toValid_ascii hv]

theorem toValid_toValid (s : Str) : toValid (toValid s) = toValid s := by
  rw [toValid, pieces_toValid, List.flatMap_map]
  refine List.flatMap_congr fun p _ => ?_
  cases p <;> rfl

theorem bad_high {s : Str} (h : .bad b ∈ piecesFrom n s) : ¬b < 0x80 := by
  fun_induction piecesFrom n s
  case case1           => cases h
  case case2 hi        => exact hi h
  case case3 hi        =>
    cases List.mem_cons.mp h
    case inl he => cases he
    case inr hm => exact hi hm
  case case4 a s he hi =>
    cases List.mem_cons.mp h
    case inr hm => exact hi hm
    case inl hb =>
      cases hb
      intro ha
      rw [extra.eq_def, if_pos ha] at he
      cases he

-- ASCII bytes are not touched.
theorem mem_toValid (hb : b < 0x80) {s : Str} : b ∈ toValid s ↔ b ∈ s := by
  have hp : ∀ p ∈ pieces s, (b ∈ p.valid ↔ b ∈ p.bytes) := by
    intro p hp
    cases p
    case rune  => rfl
    case bad c =>
      have hc : b ≠ c := fun he => bad_high hp (he ▸ hb)
      have hv : b ∉ ([0xef, 0xbf, 0xbd] : Str) := by
        simp only [List.mem_cons, List.not_mem_nil, or_false, not_or]
        refine ⟨?_, ?_, ?_⟩ <;> rintro rfl <;> exact absurd hb (by decide)
      exact iff_of_false hv (by simpa [Piece.bytes] using hc)
  have he : b ∈ s ↔ ∃ p ∈ pieces s, b ∈ p.bytes := by
    rw [← List.mem_flatMap, pieces_bytes]
  rw [he, toValid, List.mem_flatMap]
  exact exists_congr fun p => and_congr_right fun hm => hp p hm

theorem Quotes.byte (hb : b < 0x80) (hs : ¬(b < 32 ∨ b = 34 ∨ b = 92)) : Quotes [b] [b] where
  inside raw t := lex_plain (fun h => hs (.inr (.inl h))) (fun h => hs (.inr (.inr h))) raw t
  whole        := toValid_ascii (List.forall_mem_singleton.mpr hb)
  reads t      := by
    rw [List.singleton_append, units_byte hs, Option.map_map]
    rfl

theorem Quotes.simple (he : e ≠ 117) (ha : e < 0x80) (hl : simpleEscapes.lookup e = some b) : Quotes [92, e] [b] where
  inside raw t := lex_escaped e raw t
  whole        := toValid_ascii (List.forall_mem_cons.mpr ⟨by decide, List.forall_mem_singleton.mpr ha⟩)
  reads t      := by
    rw [List.cons_append, List.singleton_append, units_simple he hl, Option.map_map]
    rfl

-- Digits that are written out.
theorem Quotes.code (hd : [a, b, c, d].all fun x => x < 0x80 && x ≠ 34 && x ≠ 92) (hc : getu4 a b c d = some n)
    (hn : ∀ l, isPair n l = false) : Quotes [92, 117, a, b, c, d] (encodeRune n) where
  inside raw t := by
    have hl (raw t : Str) {x : UInt8} (hx : x ∈ [a, b, c, d]) : lex (.string raw) (x :: t) = lex (.string (raw ++ [x])) t := by
      have hd := List.all_eq_true.mp hd x hx
      simp only [Bool.and_eq_true, decide_eq_true_eq] at hd
      exact lex_plain hd.left.right hd.right raw t
    simp only [List.cons_append, List.nil_append]
    rw [lex_escaped, hl _ _ (by simp), hl _ _ (by simp), hl _ _ (by simp), hl _ _ (by simp)]
    simp
  whole        := by
    refine toValid_ascii fun x hx => ?_
    rw [List.mem_cons, List.mem_cons] at hx
    obtain rfl | rfl | hx := hx
    · decide
    · decide
    have hd := List.all_eq_true.mp hd x hx
    simp only [Bool.and_eq_true, decide_eq_true_eq] at hd
    exact hd.left.left
  reads t      := by
    simp only [List.cons_append, List.nil_append]
    rw [units_code hc, Option.map_map]
    congr 1
    funext us
    exact decodeUnits_code hn us

theorem Quotes.escapeByte (hb : b < 0x80) : Quotes (escapeByte b) [b] := by
  have hx : ∀ b : UInt8, getu4 48 48 (hexDigit (b / 16)) (hexDigit (b % 16)) = some b.toNat := by decide +kernel
  have hd : ∀ b : UInt8, b < 0x80 →
      [48, 48, hexDigit (b / 16), hexDigit (b % 16)].all fun x => x < 0x80 && x ≠ 34 && x ≠ 92 := by decide +kernel
  have hr : ∀ b : UInt8, b < 0x80 → encodeRune b.toNat = [b] := by decide +kernel
  rw [JsonText.escapeByte]
  split
  case isTrue h =>
    obtain rfl | rfl := h
    all_goals exact .simple (by decide) (by decide) rfl
  split
  case isTrue h =>
    rw [h]
    exact .simple (by decide) (by decide) rfl
  split
  case isTrue h =>
    rw [h]
    exact .simple (by decide) (by decide) rfl
  split
  case isTrue h =>
    rw [h]
    exact .simple (by decide) (by decide) rfl
  split
  case isTrue h =>
    rw [h]
    exact .simple (by decide) (by decide) rfl
  split
  case isTrue h =>
    rw [h]
    exact .simple (by decide) (by decide) rfl
  split
  case isTrue =>
    have hl (l : Nat) : isPair b.toNat l = false := by
      have hn : b.toNat < 128 := hb
      simp only [isPair, Bool.and_eq_false_iff, decide_eq_false_iff_not]
      omega
    have hc := Quotes.code (hd b hb) (hx b) hl
    rwa [hr b hb] at hc
  case isFalse hq _ _ _ _ _ hn =>
    simp only [not_or] at hq hn
    refine .byte hb ?_
    simp only [not_or]
    exact ⟨hn.left, hq⟩

theorem high_plain (hb : 0x80 ≤ b) : ¬(b < 32 ∨ b = 34 ∨ b = 92) := by
  have hl : 128 ≤ b.toNat := hb
  rw [UInt8.lt_iff_toNat_lt, ← UInt8.toNat_inj, ← UInt8.toNat_inj]
  simp only [UInt8.reduceToNat]
  omega

theorem lex_high (hh : ∀ b ∈ w, 0x80 ≤ b) (raw t : Str) : lex (.string raw) (w ++ t) = lex (.string (raw ++ w)) t := by
  induction w generalizing raw
  case nil         => rw [List.append_nil, List.nil_append]
  case cons b w hi =>
    have hb := high_plain (hh b (.head _))
    simp only [not_or] at hb
    rw [List.cons_append, lex_plain hb.right.left hb.right.right, hi fun c hc => hh c (.tail _ hc), List.append_assoc]
    rfl

theorem units_bytes (hh : ∀ b ∈ w, 0x80 ≤ b) (t : Str) : units (w ++ t) = (units t).map (w.map .byte ++ ·) := by
  induction w
  case nil         => exact (Option.map_id' ..).symm
  case cons b w hi =>
    rw [List.cons_append, units_byte (high_plain (hh b (.head _))), hi fun c hc => hh c (.tail _ hc), Option.map_map]
    rfl

theorem decodeUnits_bytes (w : Str) (us : List Unit) : decodeUnits (w.map .byte ++ us) = w ++ decodeUnits us := by
  induction w
  case nil         => rfl
  case cons b w hi => exact congrArg (b :: ·) hi

theorem Quotes.rune {s bs : Str} (h : .rune bs ∈ pieces s) (hh : ∀ b ∈ bs, 0x80 ≤ b) : Quotes bs bs where
  inside raw t := lex_high hh raw t
  whole t      := by
    rw [toValid, piecesFrom_rune_append h, List.flatMap_cons]
    rfl
  reads t      := by
    have hf : decodeUnits ∘ (bs.map .byte ++ ·) = fun us => bs ++ decodeUnits us := funext (decodeUnits_bytes bs)
    rw [units_bytes hh, Option.map_map, hf]

theorem escapeByte_high : ∀ b : UInt8, 0x80 ≤ b → JsonText.escapeByte b = [b] := by
  decide +kernel

theorem Quotes.escapePiece {s : Str} {p : Piece} (h : p ∈ pieces s) : Quotes (escapePiece p) p.valid := by
  cases p
  case bad     =>
    have hc : getu4 102 102 102 100 = some 0xfffd := by decide
    exact .code (by decide) hc fun _ => rfl
  case rune bs =>
    obtain ⟨b, hb, rfl⟩ | hh := pieces_rune h
    case inl => exact .escapeByte hb
    case inr =>
      have he : JsonText.escapePiece (.rune bs) =
          if bs = [0xe2, 0x80, 0xa8] then str "\\u2028" else if bs = [0xe2, 0x80, 0xa9] then str "\\u2029" else bs := by
        rw [JsonText.escapePiece.eq_def]
        split
        case h_1 b hp =>
          cases hp
          rw [if_neg (by simp), if_neg (by simp)]
          exact escapeByte_high b (hh b (.head _))
        case h_2 hp => cases hp; rfl
        case h_3 hp => cases hp
      rw [he]
      split
      case isTrue h =>
        rw [h]
        have hc : getu4 50 48 50 56 = some 0x2028 := by decide
        exact .code (by decide) hc fun _ => rfl
      split
      case isTrue h =>
        rw [h]
        have hc : getu4 50 48 50 57 = some 0x2029 := by decide
        exact .code (by decide) hc fun _ => rfl
      case isFalse => exact .rune h hh

-- What stands between the quotes is the text, with a replacement for every byte that is part of no rune.
theorem Quotes.escape (s : Str) : Quotes (escape s) (toValid s) := by
  have h (ps : List Piece) (hp : ∀ p ∈ ps, p ∈ pieces s) : Quotes (ps.flatMap JsonText.escapePiece) (ps.flatMap Piece.valid) := by
    induction ps
    case nil          => exact .nil
    case cons p ps hi => exact (Quotes.escapePiece (hp p (.head _))).append (hi fun q hq => hp q (.tail _ hq))
  exact h (pieces s) fun _ hp => hp

theorem unquote_escape (s : Str) : unquote (escape s) = some (toValid s) := by
  have h := Quotes.escape s
  have hw := h.whole []
  have hr := h.reads []
  have hn : toValid [] = [] := rfl
  rw [hn, List.append_nil] at hw
  rw [List.append_nil] at hr
  rw [unquote, hw, hr, units, Option.map_some, decodeUnits, List.append_nil]

theorem lex_quote (s t : Str) : lex .between (quote s ++ t) = (lex .between t).map (.string (escape s) :: ·) := by
  have hl := (Quotes.escape s).inside [] (34 :: t)
  rw [quote, List.cons_append, List.append_assoc, List.singleton_append, lex, if_neg (by decide), if_pos rfl, hl,
    List.nil_append, lex, if_pos rfl]

end Quoted

section Reading

variable {st : State} {w t : Str} {b : UInt8}

-- What ends a value.
def Ends : Str → Prop
  | []     => True
  | b :: _ => isPunct b

theorem ends_punct (h : isPunct b) (t : Str) : Ends (b :: t) :=
  h

-- The same with the bytes by their numbers, which is quicker to evaluate.
theorem isPunct_eq (b : UInt8) : isPunct b = ([123, 125, 91, 93, 44, 58] : Str).contains b := by
  have h : str "\x7b\x7d[],:" = [123, 125, 91, 93, 44, 58] := by decide
  rw [isPunct, h]

theorem isPunct_alone : ∀ b : UInt8, isPunct b → isSpace b = false ∧ b ≠ 34 := by
  simp only [isPunct_eq]
  decide +kernel

-- One more token in front is one more step.
theorem read_of_lex {k : Token} (h : lex .between w = (lex .between t).map (k :: ·)) (st : State) :
    read st w = (step st k).bind (read · t) := by
  rw [read, h, Option.bind_map]
  simp only [Function.comp_def, List.foldlM_cons, Option.bind_eq_bind]
  exact Option.bind_comm ..

theorem lex_punct (hp : isPunct b) (t : Str) : lex .between (b :: t) = (lex .between t).map (.punct b :: ·) := by
  have hb := isPunct_alone b hp
  rw [lex, if_neg (by simp [hb.left]), if_neg hb.right, if_pos hp]

theorem read_punct (hp : isPunct b) (st : State) (t : Str) : read st (b :: t) = (step st (.punct b)).bind (read · t) :=
  read_of_lex (lex_punct hp t) st

theorem read_quote (st : State) (s t : Str) :
    read st (quote s ++ t) = (step st (.string (escape s))).bind (read · t) :=
  read_of_lex (lex_quote s t) st

-- A word without anything in it that ends one.
def Bare (w : Str) : Prop :=
  ∀ b ∈ w, isSpace b = false ∧ b ≠ 34 ∧ isPunct b = false

theorem Bare.of_all (h : w.all fun b => !isSpace b && b ≠ 34 && !isPunct b) : Bare w := by
  intro b hb
  simpa [and_assoc] using List.all_eq_true.mp h b hb

theorem lex_bare (hw : Bare w) (ht : Ends t) (u : Str) :
    lex (.bare u) (w ++ t) = (lex .between t).map (.bare (u ++ w) :: ·) := by
  induction w generalizing u
  case nil         =>
    rw [List.nil_append, List.append_nil]
    cases t
    case nil      => rfl
    case cons b t =>
      have hp : isPunct b := ht
      have hb := isPunct_alone b hp
      rw [lex_punct hp, lex, if_neg (by simp [hb.left]), if_neg hb.right, if_pos hp, Option.map_map]
      rfl
  case cons b w hi =>
    have hb := hw b (.head _)
    rw [List.cons_append, lex, if_neg (by simp [hb.left]), if_neg hb.right.left, if_neg (by simp [hb.right.right]),
      hi fun c hc => hw c (.tail _ hc), List.append_assoc]
    rfl

theorem read_bare (hn : w ≠ []) (hw : Bare w) (ht : Ends t) (st : State) :
    read st (w ++ t) = (step st (.bare w)).bind (read · t) := by
  obtain ⟨b, w, rfl⟩ := List.exists_cons_of_ne_nil hn
  have hb := hw b (.head _)
  refine read_of_lex ?_ st
  rw [List.cons_append, lex, if_neg (by simp [hb.left]), if_neg hb.right.left, if_neg (by simp [hb.right.right]),
    lex_bare (fun c hc => hw c (.tail _ hc)) ht]
  rfl

def NumberByte (b : UInt8) : Prop :=
  Strconv.isDigit b ∨ b ∈ [43, 45, 46, 69, 101]

theorem NumberByte.bare : ∀ b : UInt8, NumberByte b → isSpace b = false ∧ b ≠ 34 ∧ isPunct b = false := by
  simp only [NumberByte, isPunct_eq]
  decide +kernel

theorem exponent_bytes (h : isExponent w) : ∀ b ∈ w, NumberByte b := by
  unfold isExponent at h
  split at h
  case h_1     => exact List.forall_mem_nil _
  case h_2 e t =>
    simp only [Bool.and_eq_true, Bool.or_eq_true, decide_eq_true_eq] at h
    obtain ⟨⟨he, -⟩, hd⟩ := h
    have digits {ds : Str} (h : ds.all Strconv.isDigit) : ∀ b ∈ ds, NumberByte b :=
      fun b hb => .inl (List.all_eq_true.mp h b hb)
    refine List.forall_mem_cons.mpr ⟨.inr (by obtain rfl | rfl := he <;> decide), ?_⟩
    split at hd
    case h_1 => exact List.forall_mem_cons.mpr ⟨.inr (by decide), digits hd⟩
    case h_2 => exact List.forall_mem_cons.mpr ⟨.inr (by decide), digits hd⟩
    case h_3 => exact digits hd

theorem forall_mem_span {p : UInt8 → Bool} {P : UInt8 → Prop} (h : ∀ b, p b → P b) (hd : ∀ b ∈ w.dropWhile p, P b) :
    ∀ b ∈ w, P b := by
  rw [← List.takeWhile_append_dropWhile (p := p) (l := w), List.forall_mem_append]
  exact ⟨fun b hb => h b (List.mem_takeWhile_imp hb), hd⟩

theorem fraction_bytes (h : isFraction w) : ∀ b ∈ w, NumberByte b := by
  unfold isFraction at h
  split at h
  case h_1 =>
    simp only [Bool.and_eq_true] at h
    exact List.forall_mem_cons.mpr ⟨.inr (by decide), forall_mem_span (fun _ => .inl) (exponent_bytes h.right)⟩
  case h_2 => exact exponent_bytes h

theorem isNumber_bare (h : isNumber w) : w ≠ [] ∧ Bare w := by
  simp only [isNumber, Bool.and_eq_true] at h
  have hb := forall_mem_span (fun _ => .inl) (fraction_bytes h.right)
  constructor
  case left  =>
    rintro rfl
    exact absurd h.left (by decide)
  case right =>
    intro b hm
    refine NumberByte.bare b ?_
    unfold Str.trimPrefix at hb
    split at hb
    case isFalse => exact hb b hm
    case isTrue hp =>
      obtain ⟨t, rfl⟩ := Str.hasPrefix_iff.mp hp
      obtain he | ht := List.mem_cons.mp hm
      case inl => exact .inr (by rw [he]; decide)
      case inr => exact hb b ht

theorem scalar_number (h : isNumber w) : scalar w = some (.number w) := by
  have hn {l : Str} (hl : isNumber l = false) : w ≠ l := by
    rintro rfl
    rw [hl] at h
    cases h
  rw [scalar, if_neg (hn (by decide)), if_neg (hn (by decide)), if_neg (hn (by decide)), if_pos h]

mutual

-- A value is read where one has to come, whatever follows it.
theorem read_print (v : Value) (fs : List Frame) (hv : v.Readable fs.length) (t : Str) (ht : Ends t) :
    read (.value fs) (print v ++ t) = read (deliver v.valid fs) t := by
  have word {w : Str} {v : Value} (hn : w ≠ []) (hw : Bare w) (hs : scalar w = some v) :
      read (.value fs) (w ++ t) = read (deliver v fs) t := by
    rw [read_bare hn hw ht, step, hs]
    rfl
  match v with
  | .null          => exact word (by decide) (.of_all (by decide)) rfl
  | .bool true     => exact word (by decide) (.of_all (by decide)) rfl
  | .bool false    => exact word (by decide) (.of_all (by decide)) rfl
  | .number s      => exact word (isNumber_bare hv).left (isNumber_bare hv).right (scalar_number hv)
  | .string s      =>
    rw [print, read_quote, step, unquote_escape]
    rfl
  | .array vs      =>
    rw [print, List.cons_append, List.append_assoc, read_punct (by decide), step, if_pos hv.left, Option.bind_some]
    match vs with
    | []      => exact (read_punct (by decide) ..).trans rfl
    | v :: vs => exact (readAll_print (v :: vs) (List.cons_ne_nil _ _) [] fs hv.right t).trans ((read_punct (by decide) ..).trans rfl)
  | .object fields =>
    rw [print, List.cons_append, List.append_assoc, read_punct (by decide), step, if_pos hv.left, Option.bind_some]
    match fields with
    | []          => exact (read_punct (by decide) ..).trans rfl
    | f :: fields =>
      exact (readFields_print (f :: fields) (List.cons_ne_nil _ _) [] fs hv.right t).trans ((read_punct (by decide) ..).trans rfl)

theorem readAll_print (vs : List Value) (hn : vs ≠ []) (ws : List Value) (fs : List Frame)
    (hv : AllReadable (fs.length + 1) vs) (t : Str) :
    read (.value (.array ws :: fs)) (printAll vs ++ 93 :: t) = read (.element (ws ++ validAll vs) fs) (93 :: t) := by
  match vs with
  | []           => exact absurd rfl hn
  | [v]          => exact read_print v (.array ws :: fs) hv.left (93 :: t) (ends_punct (by decide) t)
  | v :: w :: vs =>
    rw [printAll, List.append_assoc, List.cons_append, read_print v (.array ws :: fs) hv.left _ (ends_punct (by decide) _),
      deliver, read_punct (by decide), step, Option.bind_some,
      readAll_print (w :: vs) (List.cons_ne_nil _ _) (ws ++ [v.valid]) fs hv.right t, List.append_assoc]
    rfl

theorem readFields_print (fields : List (Str × Value)) (hn : fields ≠ []) (ws : List (Str × Value)) (fs : List Frame)
    (hv : FieldsReadable (fs.length + 1) fields) (t : Str) :
    read (.members ws fs) (printFields fields ++ 125 :: t) = read (.member (ws ++ validFields fields) fs) (125 :: t) := by
  have named (k t : Str) : read (.members ws fs) (quote k ++ 58 :: t) = read (.value (.member ws (toValid k) :: fs)) t := by
    rw [read_quote, step, unquote_escape, Option.map_some, Option.bind_some, read_punct (by decide)]
    rfl
  match fields with
  | []                    => exact absurd rfl hn
  | [(k, v)]              =>
    rw [printFields, List.append_assoc, List.cons_append, named]
    exact read_print v (.member ws (toValid k) :: fs) hv.left (125 :: t) (ends_punct (by decide) t)
  | (k, v) :: f :: fields =>
    rw [printFields, List.append_assoc, List.cons_append, named, List.append_assoc, List.cons_append,
      read_print v (.member ws (toValid k) :: fs) hv.left _ (ends_punct (by decide) _), deliver, read_punct (by decide),
      step, Option.bind_some,
      readFields_print (f :: fields) (List.cons_ne_nil _ _) (ws ++ [(toValid k, v.valid)]) fs hv.right t, List.append_assoc]
    rfl

end

theorem parseInt_itoa {n : Int} (hl : -2 ^ 63 ≤ n) (hu : n < 2 ^ 63) : Strconv.parseInt (Strconv.itoa n) = (n, none) := by
  unfold Strconv.itoa
  split
  case isTrue hn  =>
    rw [Strconv.parseInt, Strconv.parseDigits, Strconv.value_decimal, if_neg (by simp [decimal_ne_nil, Strconv.isDigit_decimal]), if_pos rfl,
      if_pos (by omega)]
    congr 1
    omega
  case isFalse hn =>
    rw [Strconv.parseInt_decimal (by omega)]
    congr 1
    omega

-- What is printed is read again, with its texts made valid.
theorem parse_print {v : Value} (h : v.Readable 0) : parse (print v) = some v.valid := by
  have hr := read_print v [] h [] trivial
  rw [List.append_nil] at hr
  rw [parse, hr]
  rfl

theorem validFields_append (l l' : List (Str × Value)) : validFields (l ++ l') = validFields l ++ validFields l' := by
  induction l
  case nil         => rfl
  case cons f l hi => exact congrArg ((toValid f.1, f.2.valid) :: ·) hi

theorem FieldsReadable.append {n : Nat} {l l' : List (Str × Value)} (h : FieldsReadable n l) (h' : FieldsReadable n l') :
    FieldsReadable n (l ++ l') := by
  induction l
  case nil         => exact h'
  case cons f l hi => exact ⟨h.left, hi h.right⟩

theorem allReadable_strings (n : Nat) (l : List Str) : AllReadable n (l.map .string) := by
  induction l
  case nil         => trivial
  case cons s l hi => exact ⟨trivial, hi⟩

theorem validAll_strings (l : List Str) : validAll (l.map .string) = (l.map toValid).map .string := by
  induction l
  case nil         => rfl
  case cons s l hi => exact congrArg (Value.string (toValid s) :: ·) hi

-- A decimal has no zeros in front.
theorem decimal_head (n : Nat) : decimal n = [48] ∨ (decimal n).head? ≠ some 48 := by
  by_contra hn
  simp only [not_or, not_not] at hn
  obtain ⟨hs, hh⟩ := hn
  obtain ⟨w, hw⟩ := List.head?_eq_some_iff.mp hh
  have hv : n = Strconv.value w := by
    have hd := Strconv.value_decimal n
    rw [hw, Strconv.value_cons] at hd
    simpa using hd.symm
  have hd : Strconv.Digits w := fun b hb => Strconv.decimal_Digits n b (hw ▸ .tail _ hb)
  have hl : n < 10 ^ w.length := hv ▸ Strconv.value_lt hd
  have hp : 0 < w.length := List.length_pos_iff.mpr fun h => hs (by rw [hw, h])
  have ht := (Nat.length_toDigits_le_iff (by decide) hp).mpr hl
  have he : (decimal n).length = (Nat.toDigits 10 n).length := List.length_map ..
  rw [hw, List.length_cons] at he
  omega

theorem isNumber_decimal (n : Nat) : isInteger ((decimal n).takeWhile Strconv.isDigit) ∧
    isFraction ((decimal n).dropWhile Strconv.isDigit) := by
  have hd := List.all_eq_true.mp (Strconv.isDigit_decimal n)
  rw [List.takeWhile_eq_self_iff.mpr hd, List.dropWhile_eq_nil_iff.mpr hd]
  refine ⟨?_, rfl⟩
  simpa [isInteger, decimal_ne_nil] using decimal_head n

theorem isNumber_itoa (n : Int) : isNumber (Strconv.itoa n) := by
  unfold isNumber Strconv.itoa
  split
  case isTrue  =>
    have ht := Str.trimPrefix_append [45] (decimal n.natAbs)
    simp only [List.singleton_append] at ht
    simpa [ht] using isNumber_decimal n.natAbs
  case isFalse =>
    have ht : Str.trimPrefix (decimal n.natAbs) [45] = decimal n.natAbs := by
      refine if_neg fun hp => ?_
      obtain ⟨t, ht⟩ := Str.hasPrefix_iff.mp hp
      have hd := (decimal_digits (n := n.natAbs) 45 (ht ▸ .head _)).left
      exact absurd hd (by decide)
    simpa [ht] using isNumber_decimal n.natAbs

end Reading
-- What comes out of quotes has no byte that is part of no rune.
section Unquoted

variable {w t : Str} {us : List Unit} {n : Nat}

def Whole (w : Str) : Prop :=
  ∀ t, toValid (w ++ t) = w ++ toValid t

theorem Whole.valid (h : Whole w) (ht : toValid t = t) : toValid (w ++ t) = w ++ t := by
  rw [h, ht]

theorem whole_of_extra {a : UInt8} {s : Str} (h : ∀ t, extra a (s ++ t) = some s.length) : Whole (a :: s) := by
  intro t
  have hp := piecesFrom_append s t
  rw [toValid, List.cons_append, pieces, piecesFrom, h]
  simp only [List.flatMap_cons, List.take_left, hp]
  rfl

-- The bytes of an encoding by their values.
theorem byte_toNat {m : Nat} (h : m < 256) : (UInt8.ofNat m).toNat = m := by
  rw [UInt8.toNat_ofNat', Nat.mod_eq_of_lt h]

theorem cont_ofNat (m : Nat) : cont (UInt8.ofNat (0x80 + m % 64)) := by
  have h := byte_toNat (m := 0x80 + m % 64) (by omega)
  simp only [cont, Bool.and_eq_true, decide_eq_true_eq, UInt8.le_iff_toNat_le, h, UInt8.reduceToNat]
  omega

theorem whole_encodeRune (n : Nat) : Whole (encodeRune n) := by
  unfold encodeRune
  split
  case isTrue h =>
    refine whole_of_extra fun t => ?_
    rw [extra.eq_def, if_pos]
    · rfl
    · rw [UInt8.lt_iff_toNat_lt, byte_toNat (by omega)]
      exact h
  split
  case isTrue h =>
    refine whole_of_extra fun t => ?_
    have ha := byte_toNat (m := 0xc0 + n / 64) (by omega)
    simp only [List.cons_append, List.nil_append, extra, cont_ofNat, UInt8.lt_iff_toNat_lt, UInt8.le_iff_toNat_le, ha,
      UInt8.reduceToNat, Bool.and_true, Bool.and_eq_true, decide_eq_true_eq]
    rw [if_neg (by omega), if_pos (by omega)]
    rfl
  split
  case isTrue => exact fun t => rfl
  split
  case isTrue hs h =>
    refine whole_of_extra fun t => ?_
    have ha := byte_toNat (m := 0xe0 + n / 4096) (by omega)
    have hb := byte_toNat (m := 0x80 + n / 64 % 64) (by omega)
    simp only [List.cons_append, List.nil_append, extra, cont_ofNat, UInt8.lt_iff_toNat_lt, UInt8.le_iff_toNat_le, ha,
      UInt8.reduceToNat, Bool.and_true, Bool.and_eq_true, decide_eq_true_eq]
    rw [if_neg (by omega), if_neg (by omega), if_pos]
    · rfl
    refine ⟨by omega, ?_⟩
    simp only [Utf8.second, cont_ofNat, UInt8.le_iff_toNat_le, ha, hb, UInt8.reduceToNat, beq_iff_eq, ← UInt8.toNat_inj]
    split_ifs <;> simp only [Bool.and_eq_true, decide_eq_true_eq] <;> omega
  case isFalse hs h =>
    refine whole_of_extra fun t => ?_
    have ha := byte_toNat (m := 0xf0 + n / 262144) (by omega)
    have hb := byte_toNat (m := 0x80 + n / 4096 % 64) (by omega)
    simp only [List.cons_append, List.nil_append, extra, cont_ofNat, UInt8.lt_iff_toNat_lt, UInt8.le_iff_toNat_le, ha,
      UInt8.reduceToNat, Bool.and_true, Bool.and_eq_true, decide_eq_true_eq]
    rw [if_neg (by omega), if_neg (by omega), if_neg (by omega), if_pos]
    · rfl
    refine ⟨by omega, ?_⟩
    simp only [Utf8.second, cont_ofNat, UInt8.le_iff_toNat_le, ha, hb, UInt8.reduceToNat, beq_iff_eq, ← UInt8.toNat_inj]
    split_ifs <;> simp only [Bool.and_eq_true, decide_eq_true_eq] <;> omega

-- The units come to a text without such bytes, also behind half of a pair.
structure Clean (us : List Unit) : Prop where
  here  : toValid (decodeUnits us) = decodeUnits us
  after : ∀ m us', us = .code m :: us' → toValid (decodeUnits us') = decodeUnits us'

theorem Clean.byte {b : UInt8} (h : Clean us) (hb : b < 0x80) : Clean (.byte b :: us) where
  here       := (toValid_ascii (List.forall_mem_singleton.mpr hb) _).trans (congrArg _ h.here)
  after _ _  := nofun

theorem Clean.code (h : Clean us) (n : Nat) : Clean (.code n :: us) where
  after _ _ he := by
    cases he
    exact h.here
  here         := by
    unfold decodeUnits
    split
    case h_1 he           => cases he
    case h_2 he           => cases he
    case h_3 m l us' he   =>
      cases he
      split
      case isTrue  => exact (whole_encodeRune _).valid (h.after l us' rfl)
      case isFalse => exact (whole_encodeRune _).valid h.here
    case h_4 he           =>
      cases he
      exact (whole_encodeRune _).valid h.here

theorem Clean.bytes (h : Clean us) (hw : Whole w) (hn : w ≠ []) : Clean (w.map .byte ++ us) where
  here      := by
    rw [decodeUnits_bytes]
    exact hw.valid h.here
  after _ _ he := by
    cases w
    case nil  => exact absurd rfl hn
    case cons => cases he

theorem hexValue_ascii {b : UInt8} {n : Nat} (h : hexValue b = some n) : b < 0x80 := by
  have hd : ∀ b : UInt8, hexValue b ≠ none → b < 0x80 := by decide +kernel
  exact hd b (by simp [h])

theorem valid_tail {w s : Str} (h : ∀ b ∈ w, b < 0x80) (hv : toValid (w ++ s) = w ++ s) : toValid s = s := by
  rw [toValid_ascii h] at hv
  exact List.append_cancel_left hv

-- A valid text begins with a rune.
theorem pieces_valid {a : UInt8} {s : Str} (hv : toValid (a :: s) = a :: s) :
    ∃ k, .rune (a :: s.take k) ∈ pieces (a :: s) := by
  have hp : pieces (a :: s) = (pieces (a :: s)).map Piece.fixed := by
    rw [← pieces_toValid, hv]
  rw [pieces, piecesFrom] at hp ⊢
  split
  case h_1 k he => exact ⟨k, .head _⟩
  case h_2 he   =>
    rw [he] at hp
    cases (List.cons.inj hp).left

theorem units_clean (n : Nat) (s : Str) (us : List Unit) (hl : s.length ≤ n) (hv : toValid s = s)
    (h : units s = some us) : Clean us := by
  induction n generalizing s us
  case zero      =>
    rw [List.eq_nil_of_length_eq_zero (Nat.le_zero.mp hl)] at h
    cases h
    exact ⟨rfl, fun _ _ => nofun⟩
  case succ n hi =>
    cases s
    case nil      =>
      cases h
      exact ⟨rfl, fun _ _ => nofun⟩
    case cons a s =>
      by_cases ha : a < 0x80
      case pos =>
        have hs : toValid s = s := valid_tail (w := [a]) (List.forall_mem_singleton.mpr ha) hv
        unfold units at h
        split at h
        case h_1 he                    => cases he
        case h_2 a₁ a₂ a₃ a₄ t he      =>
          cases he
          obtain ⟨m, hm, h⟩ := Option.bind_eq_some_iff.mp h
          obtain ⟨us, hu, rfl⟩ := Option.map_eq_some_iff.mp h
          have hx : ∀ b ∈ [117, a₁, a₂, a₃, a₄], b < 0x80 := by
            simp only [getu4, Option.bind_eq_bind, Option.bind_eq_some_iff] at hm
            obtain ⟨_, h₁, _, h₂, _, h₃, _, h₄, _⟩ := hm
            simp [hexValue_ascii h₁, hexValue_ascii h₂, hexValue_ascii h₃, hexValue_ascii h₄]
          have ht : toValid t = t := valid_tail hx hs
          exact (hi t us (by simp at hl; omega) ht hu).code m
        case h_3 e t _ he              =>
          cases he
          obtain ⟨b, hb, h⟩ := Option.bind_eq_some_iff.mp h
          obtain ⟨us, hu, rfl⟩ := Option.map_eq_some_iff.mp h
          have hx : e < 0x80 ∧ b < 0x80 := by
            have hd : ∀ p ∈ simpleEscapes, p.1 < 0x80 ∧ p.2 < 0x80 := by simp [simpleEscapes]
            obtain ⟨l₁, l₂, he, _⟩ := List.lookup_eq_some_iff.mp hb
            exact hd (e, b) (he ▸ List.mem_append_right _ (.head _))
          have ht : toValid t = t := valid_tail (w := [e]) (List.forall_mem_singleton.mpr hx.left) hs
          exact (hi t us (by simp at hl; omega) ht hu).byte hx.right
        case h_4 he                    =>
          cases he
          split at h
          case isTrue  => cases h
          case isFalse =>
            obtain ⟨us, hu, rfl⟩ := Option.map_eq_some_iff.mp h
            exact (hi s us (by simpa using hl) hs hu).byte ha
      case neg =>
        obtain ⟨k, hm⟩ := pieces_valid hv
        have hw : Whole (a :: s.take k) := fun t => by
          rw [toValid, piecesFrom_rune_append hm, List.flatMap_cons]
          rfl
        have hh : ∀ b ∈ a :: s.take k, 0x80 ≤ b := by
          obtain ⟨b, hb, he⟩ | hh := pieces_rune hm
          case inl => exact absurd ((List.cons.inj he).left ▸ hb) ha
          case inr => exact hh
        have hs : a :: s = (a :: s.take k) ++ s.drop k := congrArg (a :: ·) (List.take_append_drop k s).symm
        rw [hs] at h hv
        rw [units_bytes hh] at h
        obtain ⟨us, hu, rfl⟩ := Option.map_eq_some_iff.mp h
        have ht : toValid (s.drop k) = s.drop k := List.append_cancel_left ((hw _).symm.trans hv)
        have hd : (s.drop k).length ≤ n := by
          rw [List.length_drop]
          simp only [List.length_cons] at hl
          omega
        exact (hi (s.drop k) us hd ht hu).bytes hw (List.cons_ne_nil _ _)

theorem unquote_valid {raw s : Str} (h : unquote raw = some s) : toValid s = s := by
  obtain ⟨us, hu, rfl⟩ := Option.map_eq_some_iff.mp h
  exact (units_clean _ _ us le_rfl (toValid_toValid raw) hu).here

end Unquoted
-- What has been read is nested no deeper than it may be, its numbers are numbers, and its texts are valid.
section Read

variable {v : Value} {vs : List Value} {fields : List (Str × Value)} {k : Str} {f : Frame} {fs : List Frame}
  {st st' : State}

def Value.Read (n : Nat) (v : Value) : Prop :=
  v.Readable n ∧ v.valid = v

def Frame.Read (n : Nat) : Frame → Prop
  | .array vs        => AllReadable n vs ∧ validAll vs = vs
  | .member fields k => (FieldsReadable n fields ∧ validFields fields = fields) ∧ toValid k = k

def Stack : List Frame → Prop
  | []      => True
  | f :: fs => f.Read (fs.length + 1) ∧ fs.length < maxNestingDepth ∧ Stack fs

def State.Read : State → Prop
  | .value fs          => Stack fs
  | .element vs fs     => Stack (.array vs :: fs)
  | .member fields fs  => Stack (.member fields [] :: fs)
  | .members fields fs => Stack (.member fields [] :: fs)
  | .name fields k fs  => Stack (.member fields k :: fs)
  | .done v            => v.Read 0

theorem AllReadable.append {n : Nat} {vs ws : List Value} (h : AllReadable n vs) (h' : AllReadable n ws) :
    AllReadable n (vs ++ ws) := by
  induction vs
  case nil          => exact h'
  case cons w vs hi => exact ⟨h.left, hi h.right⟩

theorem validAll_append (vs ws : List Value) : validAll (vs ++ ws) = validAll vs ++ validAll ws := by
  induction vs
  case nil          => rfl
  case cons v vs hi => exact congrArg (v.valid :: ·) hi

theorem deliver_read (h : Stack fs) (hv : v.Read fs.length) : (deliver v fs).Read := by
  cases fs
  case nil       => exact hv
  case cons f fs =>
    cases f
    case array vs        =>
      refine ⟨⟨AllReadable.append h.left.left ⟨hv.left, trivial⟩, ?_⟩, h.right⟩
      rw [validAll_append, h.left.right, validAll, hv.right, validAll]
    case member fields k =>
      refine ⟨⟨⟨FieldsReadable.append h.left.left.left ⟨hv.left, trivial⟩, ?_⟩, rfl⟩, h.right⟩
      rw [validFields_append, h.left.left.right, validFields, hv.right, h.left.right, validFields]

theorem scalar_read {n : Nat} (h : scalar w = some v) : v.Read n := by
  unfold scalar at h
  grind [Value.Read, Value.Readable, Value.valid]

theorem Stack.array (h : Stack (.array vs :: fs)) : (Value.array vs).Read fs.length :=
  ⟨⟨h.right.left, h.left.left⟩, congrArg Value.array h.left.right⟩

theorem Stack.object (h : Stack (.member fields k :: fs)) : (Value.object fields).Read fs.length :=
  ⟨⟨h.right.left, h.left.left.left⟩, congrArg Value.object h.left.left.right⟩

theorem step_read {t : Token} (h : st.Read) (hs : step st t = some st') : st'.Read := by
  unfold step at hs
  split at hs
  case h_1              => cases hs; exact deliver_read h.right.right h.array
  case h_2              => cases hs; exact deliver_read h.right.right h.object
  case h_3 fs raw       =>
    obtain ⟨s, hu, rfl⟩ := Option.map_eq_some_iff.mp hs
    exact deliver_read h ⟨trivial, congrArg Value.string (unquote_valid hu)⟩
  case h_4 fs w         =>
    obtain ⟨v, hv, rfl⟩ := Option.map_eq_some_iff.mp hs
    exact deliver_read h (scalar_read hv)
  case h_5              =>
    split at hs
    case isTrue hd => cases hs; exact ⟨⟨trivial, rfl⟩, hd, h⟩
    case isFalse   => cases hs
  case h_6              =>
    split at hs
    case isTrue hd => cases hs; exact ⟨⟨⟨trivial, rfl⟩, rfl⟩, hd, h⟩
    case isFalse   => cases hs
  case h_7              => cases hs; exact h
  case h_8              => cases hs; exact deliver_read h.right.right h.array
  case h_9              => cases hs; exact h
  case h_10             => cases hs; exact deliver_read h.right.right h.object
  case h_11             =>
    obtain ⟨s, hu, rfl⟩ := Option.map_eq_some_iff.mp hs
    exact ⟨⟨h.left.left, unquote_valid hu⟩, h.right⟩
  case h_12             => cases hs; exact h
  case h_13             => cases hs

theorem parse_read {s : Str} (h : parse s = some v) : v.Read 0 := by
  have run (ts : List Token) (st st' : State) (h : st.Read) (hr : ts.foldlM step st = some st') : st'.Read := by
    induction ts generalizing st
    case nil          => cases hr; exact h
    case cons k ts hi =>
      obtain ⟨st₁, hs, hr⟩ := Option.bind_eq_some_iff.mp hr
      exact hi st₁ (step_read h hs) hr
  unfold parse at h
  split at h
  case h_2      => cases h
  case h_1 v hr =>
    cases h
    obtain ⟨ts, _, hr⟩ := Option.bind_eq_some_iff.mp hr
    exact run ts (.value []) _ trivial hr

-- What was read is written and read again as it is.
theorem parse_print_read (h : v.Read 0) : parse (print v) = some v :=
  (parse_print h.left).trans (congrArg some h.right)

end Read

end Go.JsonText
