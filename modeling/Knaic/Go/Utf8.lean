import Mathlib.Data.List.Flatten
import Mathlib.Data.List.Infix
import Knaic.Go.Basic

namespace Go.Utf8

def cont (b : UInt8) : Bool :=
  0x80 ≤ b && b ≤ 0xbf

-- The bytes that may follow the first byte of an encoding that is longer than two bytes.
def second (a b : UInt8) : Bool :=
  if a == 0xe0 then 0xa0 ≤ b && b ≤ 0xbf
  else if a == 0xed then 0x80 ≤ b && b ≤ 0x9f
  else if a == 0xf0 then 0x90 ≤ b && b ≤ 0xbf
  else if a == 0xf4 then 0x80 ≤ b && b ≤ 0x8f
  else cont b

-- The number of bytes that follow the first byte `a` in the encoding of one rune at the front of
-- `a :: s`, if there is one.
def extra (a : UInt8) (s : Str) : Option Nat :=
  if a < 0x80 then
    some 0
  else
    match s with
    | []     => none
    | b :: s =>
      if 0xc2 ≤ a && a ≤ 0xdf && cont b then
        some 1
      else
        match s with
        | []     => none
        | c :: s =>
          if 0xe0 ≤ a && a ≤ 0xef && second a b && cont c then
            some 2
          else
            match s with
            | []     => none
            | d :: _ =>
              if 0xf0 ≤ a && a ≤ 0xf4 && second a b && cont c && cont d then some 3 else none

-- What a loop over a string sees: the encoding of a rune, or a byte that is part of none.
inductive Piece
  | rune (bs : Str)
  | bad (b : UInt8)
deriving DecidableEq

-- The first argument counts the bytes that belong to the rune before.
def piecesFrom : Nat → Str → List Piece
  | _, []         => []
  | n + 1, _ :: s => piecesFrom n s
  | 0, a :: s     =>
    match extra a s with
    | some n => .rune (a :: s.take n) :: piecesFrom n s
    | none   => .bad a :: piecesFrom 0 s

def pieces (s : Str) : List Piece :=
  piecesFrom 0 s

def runeError : Nat :=
  0xfffd

def Piece.value : Piece → Nat
  | .rune [a]          => a.toNat
  | .rune [a, b]       => a.toNat % 32 * 64 + b.toNat % 64
  | .rune [a, b, c]    => a.toNat % 16 * 4096 + b.toNat % 64 * 64 + c.toNat % 64
  | .rune [a, b, c, d] =>
    a.toNat % 8 * 262144 + b.toNat % 64 * 4096 + c.toNat % 64 * 64 + d.toNat % 64
  | _                  => runeError

-- The runes that a loop over a string yields.
def runes (s : Str) : List Nat :=
  (pieces s).map Piece.value

def Piece.bytes : Piece → Str
  | .rune bs => bs
  | .bad b   => [b]

-- `unicode.IsSpace`
def isSpace (r : Nat) : Bool :=
  [0x09, 0x0a, 0x0b, 0x0c, 0x0d, 0x20, 0x85, 0xa0, 0x1680, 0x2028, 0x2029, 0x202f, 0x205f,
    0x3000].contains r || (0x2000 ≤ r && r ≤ 0x200a)

def Piece.isSpace (p : Piece) : Bool :=
  Utf8.isSpace p.value

-- `strings.TrimSpace`
def trimSpace (s : Str) : Str :=
  let ps := (pieces s).dropWhile Piece.isSpace
  (ps.reverse.dropWhile Piece.isSpace).reverse.flatMap Piece.bytes

-- `strings.Fields`
def fields (s : Str) : List Str :=
  (((pieces s).splitOnP Piece.isSpace).filter (· ≠ [])).map fun ps => ps.flatMap Piece.bytes

-- A text as JSON carries it, with a replacement for every byte that is no part of a rune.
def Piece.valid : Piece → Str
  | .rune bs => bs
  | .bad _   => [0xef, 0xbf, 0xbd]

def toValid (s : Str) : Str :=
  (pieces s).flatMap Piece.valid

-- `strings.ToLower`, where `lower` is `unicode.ToLower` on the encoding of a rune that is not ASCII.
def Piece.lower (lower : Str → Str) : Piece → Str
  | .rune [b] => Str.toLower [b]
  | .rune bs  => lower bs
  | .bad _    => [0xef, 0xbf, 0xbd]

def toLower (lower : Str → Str) (s : Str) : Str :=
  (pieces s).flatMap (Piece.lower lower)

-- Whether a space stands at the end.
def endsInSpace (s : Str) : Bool :=
  (pieces s).getLast?.any Piece.isSpace

theorem piecesFrom_bytes (n : Nat) (s : Str) : (piecesFrom n s).flatMap Piece.bytes = s.drop n := by
  fun_induction piecesFrom n s
  case case1           => simp
  case case2 hi        => simpa using hi
  case case3 n he hi   => simp [hi, Piece.bytes]
  case case4 he hi     => simp [hi, Piece.bytes]

-- The pieces are all of the string.
theorem pieces_bytes (s : Str) : (pieces s).flatMap Piece.bytes = s :=
  piecesFrom_bytes 0 s

theorem piecesFrom_bytes_ne_nil {n : Nat} {s : Str} {p : Piece} (h : p ∈ piecesFrom n s) :
    p.bytes ≠ [] := by
  fun_induction piecesFrom n s
  case case1          => cases h
  case case2 hi       => exact hi h
  case case3 n he hi  =>
    cases List.mem_cons.mp h
    case inl he => simp [he, Piece.bytes]
    case inr hm => exact hi hm
  case case4 he hi    =>
    cases List.mem_cons.mp h
    case inl he => simp [he, Piece.bytes]
    case inr hm => exact hi hm

-- ASCII bytes are runes by themselves.
theorem pieces_ascii {w : Str} (h : ∀ b ∈ w, b < 0x80) (s : Str) :
    pieces (w ++ s) = w.map (fun b => .rune [b]) ++ pieces s := by
  induction w
  case nil         => rfl
  case cons b w hi =>
    have hb := h b List.mem_cons_self
    have hw := hi fun c hc => h c (List.mem_cons_of_mem _ hc)
    simp only [pieces] at hw ⊢
    simp [piecesFrom, extra, hb, hw]

theorem dropWhile_spaces {ps : List Piece} (h : ps.head?.any Piece.isSpace = false) :
    ps.dropWhile Piece.isSpace = ps := by
  cases ps
  case nil  => rfl
  case cons => exact List.dropWhile_cons_of_neg (by simpa using h)

-- Without a space at the front, nothing is taken from the front.
theorem trimSpace_prefix {s : Str} (hf : (pieces s).head?.any Piece.isSpace = false) :
    trimSpace s <+: s := by
  have hd : (pieces s).dropWhile Piece.isSpace = pieces s := dropWhile_spaces hf
  have hp := (List.dropWhile_suffix Piece.isSpace (l := (pieces s).reverse)).reverse
  rw [List.reverse_reverse] at hp
  have hb := hp.flatMap Piece.bytes
  rw [pieces_bytes] at hb
  simpa only [trimSpace, hd] using hb

theorem trimSpace_eq {s : Str} (hf : (pieces s).head?.any Piece.isSpace = false)
    (hl : endsInSpace s = false) : trimSpace s = s := by
  simp only [trimSpace, dropWhile_spaces hf]
  rw [dropWhile_spaces (by simpa [endsInSpace] using hl), List.reverse_reverse, pieces_bytes]

-- A text that begins with a visible ASCII byte is not blank.
theorem trimSpace_ne_nil {b : UInt8} (hb : b < 0x80) (hs : isSpace b.toNat = false) (s : Str) :
    trimSpace (b :: s) ≠ [] := by
  have hp : pieces (b :: s) = .rune [b] :: pieces s := pieces_ascii (w := [b]) (by simpa using hb) s
  have hn : ¬Piece.isSpace (.rune [b]) = true := by simpa [Piece.isSpace, Piece.value] using hs
  simp only [trimSpace, hp, List.dropWhile_cons_of_neg hn, List.reverse_cons, List.dropWhile_append]
  split
  all_goals simp [Piece.bytes]

-- What is left does not contain a last piece that is a space.
theorem trimmed_sublist {qs : List Piece} {p : Piece} (h : p.isSpace) :
    ((((qs ++ [p]).dropWhile Piece.isSpace).reverse.dropWhile Piece.isSpace).reverse).Sublist qs := by
  rw [List.dropWhile_append]
  split
  case isTrue  => simp [h]
  case isFalse =>
    rw [List.reverse_append, List.reverse_singleton, List.singleton_append, List.dropWhile_cons_of_pos h]
    have hs := List.dropWhile_sublist Piece.isSpace (l := (qs.dropWhile Piece.isSpace).reverse)
    have hr := hs.reverse
    rw [List.reverse_reverse] at hr
    exact hr.trans (List.dropWhile_sublist _)

-- A space at the end does not survive.
theorem trimSpace_ne {s : Str} (h : endsInSpace s) : trimSpace s ≠ s := by
  intro he
  have ⟨p, hp, hs⟩ := (Option.any_eq_true _ _).mp h
  have ⟨qs, hq⟩ := List.getLast?_eq_some_iff.mp hp
  have hn : p.bytes ≠ [] := piecesFrom_bytes_ne_nil (List.mem_of_getLast? hp)
  have hle := (List.Sublist.flatMap (@trimmed_sublist qs _ hs) Piece.bytes).length_le
  have hl : s.length = (qs.flatMap Piece.bytes).length + p.bytes.length := by
    rw [← pieces_bytes s, hq]
    simp
  have hp := List.length_pos_iff.mpr hn
  rw [← hq] at hle
  change (trimSpace s).length ≤ _ at hle
  rw [he] at hle
  omega

theorem endsInSpace_append {w : Str} (h : ∀ b ∈ w, b < 0x80) {s : Str} (hs : s ≠ []) :
    endsInSpace (w ++ s) = endsInSpace s := by
  have hn : pieces s ≠ [] := by
    intro hn
    exact hs (by rw [← pieces_bytes s, hn]; rfl)
  have ⟨p, hp⟩ := Option.isSome_iff_exists.mp (List.getLast?_isSome.mpr hn)
  simp [endsInSpace, pieces_ascii h, List.getLast?_append, hp]

theorem toValid_ne_nil {s : Str} (h : s ≠ []) : toValid s ≠ [] := by
  intro hv
  have hb : (pieces s).flatMap Piece.bytes = [] := by
    refine List.flatMap_eq_nil_iff.mpr fun p hp => ?_
    have hn := List.flatMap_eq_nil_iff.mp hv p hp
    cases p
    case rune => exact hn
    case bad  => cases hn
  exact h (by rw [← pieces_bytes s, hb])

theorem cont_high {b : UInt8} (h : cont b) : 0x80 ≤ b := by
  simp only [cont, Bool.and_eq_true, decide_eq_true_eq] at h
  exact h.left

theorem second_high {a b : UInt8} (h : second a b) : 0x80 ≤ b := by
  have le {c : UInt8} (hc : 0x80 ≤ c) (h : c ≤ b) : 0x80 ≤ b := UInt8.le_trans hc h
  unfold second at h
  split at h
  · simp only [Bool.and_eq_true, decide_eq_true_eq] at h
    exact le (by decide) h.left
  split at h
  · simp only [Bool.and_eq_true, decide_eq_true_eq] at h
    exact h.left
  split at h
  · simp only [Bool.and_eq_true, decide_eq_true_eq] at h
    exact le (by decide) h.left
  split at h
  · simp only [Bool.and_eq_true, decide_eq_true_eq] at h
    exact h.left
  · exact cont_high h

-- A rune is one byte of ASCII, or none of its bytes is.
theorem extra_high {a : UInt8} {s : Str} {n : Nat} (h : extra a s = some n) :
    (a < 0x80 ∧ n = 0) ∨ ∀ b ∈ a :: s.take n, 0x80 ≤ b := by
  unfold extra at h
  split at h
  case isTrue ha => exact .inl ⟨ha, (Option.some.inj h).symm⟩
  case isFalse ha =>
    have ha : 0x80 ≤ a := UInt8.not_lt.mp ha
    refine .inr ?_
    split at h
    · cases h
    split at h
    case isTrue hb =>
      cases h
      simp only [Bool.and_eq_true, decide_eq_true_eq] at hb
      simp [ha, cont_high hb.right]
    split at h
    · cases h
    split at h
    case isTrue hb =>
      cases h
      simp only [Bool.and_eq_true, decide_eq_true_eq] at hb
      simp [ha, second_high hb.left.right, cont_high hb.right]
    split at h
    · cases h
    split at h
    case isTrue hb =>
      cases h
      simp only [Bool.and_eq_true, decide_eq_true_eq] at hb
      simp [ha, second_high hb.left.left.right, cont_high hb.left.right, cont_high hb.right]
    · cases h

theorem piecesFrom_rune {n : Nat} {s bs : Str} (h : .rune bs ∈ piecesFrom n s) :
    (∃ b < 0x80, bs = [b]) ∨ ∀ b ∈ bs, 0x80 ≤ b := by
  fun_induction piecesFrom n s
  case case1         => cases h
  case case2 hi      => exact hi h
  case case3 n he hi =>
    rcases List.mem_cons.mp h with hb | hm
    · cases hb
      rcases extra_high he with ⟨ha, rfl⟩ | hb
      · exact .inl ⟨_, ha, rfl⟩
      · exact .inr hb
    · exact hi hm
  case case4 he hi   =>
    rcases List.mem_cons.mp h with hb | hm
    · cases hb
    · exact hi hm

theorem pieces_rune {s bs : Str} (h : .rune bs ∈ pieces s) : (∃ b < 0x80, bs = [b]) ∨ ∀ b ∈ bs, 0x80 ≤ b :=
  piecesFrom_rune h

-- What follows a rune does not matter to it.
theorem extra_take {a : UInt8} {s : Str} {n : Nat} (h : extra a s = some n) (t : Str) :
    n ≤ s.length ∧ extra a (s.take n ++ t) = some n := by
  unfold extra at h
  split at h
  case isTrue ha =>
    cases h
    exact ⟨Nat.zero_le _, by simp [extra, ha]⟩
  case isFalse ha =>
    split at h
    · cases h
    split at h
    case isTrue hb =>
      cases h
      exact ⟨by simp, by simp only [extra, List.take_succ_cons, List.cons_append, if_neg ha, if_pos hb]⟩
    case isFalse hn =>
      split at h
      · cases h
      split at h
      case isTrue hb =>
        cases h
        exact ⟨by simp, by simp only [extra, List.take_succ_cons, List.cons_append, if_neg ha, if_neg hn, if_pos hb]⟩
      case isFalse hn' =>
        split at h
        · cases h
        split at h
        case isTrue hb =>
          cases h
          exact ⟨by simp, by simp only [extra, List.take_succ_cons, List.cons_append, if_neg ha, if_neg hn,
            if_neg hn', if_pos hb]⟩
        case isFalse => cases h

theorem piecesFrom_append (s t : Str) : piecesFrom s.length (s ++ t) = piecesFrom 0 t := by
  induction s
  case nil       => rfl
  case cons s hi => exact hi

-- A rune that takes more than one byte is not ASCII.
theorem extra_value {a : UInt8} {s : Str} {n : Nat} (h : extra a s = some n) :
    (a < 0x80 ∧ n = 0) ∨ 0x80 ≤ (Piece.rune (a :: s.take n)).value := by
  unfold extra at h
  split at h
  case isTrue ha => exact .inl ⟨ha, (Option.some.inj h).symm⟩
  case isFalse =>
    refine .inr ?_
    split at h
    · cases h
    split at h
    case isTrue hb =>
      cases h
      simp only [Bool.and_eq_true, decide_eq_true_eq, UInt8.le_iff_toNat_le] at hb
      simp only [List.take_succ_cons, List.take_zero, Piece.value]
      obtain ⟨⟨hl, hu⟩, -⟩ := hb
      have hl : 0xc2 ≤ a.toNat := hl
      have hu : a.toNat ≤ 0xdf := hu
      omega
    split at h
    · cases h
    split at h
    case isTrue b _ _ _ _ hb =>
      cases h
      simp only [Bool.and_eq_true, decide_eq_true_eq, UInt8.le_iff_toNat_le] at hb
      simp only [List.take_succ_cons, List.take_zero, Piece.value]
      obtain ⟨⟨⟨hl, hu⟩, hs⟩, -⟩ := hb
      have hl : 0xe0 ≤ a.toNat := hl
      have hu : a.toNat ≤ 0xef := hu
      by_cases he : a = 0xe0
      case neg =>
        have hn : a.toNat ≠ 0xe0 := fun h => he (UInt8.toNat_inj.mp h)
        omega
      case pos =>
        subst he
        simp [second, UInt8.le_iff_toNat_le] at hs
        omega
    split at h
    · cases h
    split at h
    case isTrue b _ _ _ _ _ _ hb =>
      cases h
      simp only [Bool.and_eq_true, decide_eq_true_eq, UInt8.le_iff_toNat_le] at hb
      simp only [List.take_succ_cons, List.take_zero, Piece.value]
      obtain ⟨⟨⟨⟨hl, hu⟩, hs⟩, -⟩, -⟩ := hb
      have hl : 0xf0 ≤ a.toNat := hl
      have hu : a.toNat ≤ 0xf4 := hu
      by_cases he : a = 0xf0
      case neg =>
        have hn : a.toNat ≠ 0xf0 := fun h => he (UInt8.toNat_inj.mp h)
        omega
      case pos =>
        subst he
        simp [second, UInt8.le_iff_toNat_le] at hs
        omega
    · cases h

theorem pieces_cons_value (a : UInt8) (s : Str) :
    ∃ p ps, pieces (a :: s) = p :: ps ∧ (p = .rune [a] ∧ a < 0x80 ∧ ps = pieces s ∨ 0x80 ≤ p.value ∧ 0x80 ≤ a) := by
  unfold pieces
  rw [piecesFrom]
  cases he : extra a s
  case none =>
    have hv : 0x80 ≤ runeError := by decide
    refine ⟨_, _, rfl, .inr ⟨hv, ?_⟩⟩
    apply UInt8.not_lt.mp
    intro ha
    simp [extra, ha] at he
  case some n =>
    refine ⟨_, _, rfl, ?_⟩
    rcases extra_value he with ⟨ha, rfl⟩ | hv
    · exact .inl ⟨rfl, ha, rfl⟩
    · refine .inr ⟨hv, ?_⟩
      rcases extra_high he with ⟨ha, rfl⟩ | hb
      · have hl : a.toNat < 0x80 := ha
        simp only [List.take_zero, Piece.value] at hv
        omega
      · exact hb a (.head _)

end Go.Utf8
