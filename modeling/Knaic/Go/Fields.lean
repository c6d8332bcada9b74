import Mathlib.Data.List.DropRight
import Mathlib.Data.List.TakeWhile
import Knaic.Go.Utf8

-- How a string that is trimmed or taken apart at its spaces relates to the parts it is made of.
namespace Go

theorem Str.hasInfix_iff {s p : Str} : s.hasInfix p ↔ p <:+: s := by
  induction s
  case nil         => simp [Str.hasInfix]
  case cons b s hi => rw [Str.hasInfix, Bool.or_eq_true, hi, List.infix_cons_iff, List.isPrefixOf_iff_prefix]

namespace Str

variable {s t w : Str} {b : UInt8}

theorem trimRight_append (s t : Str) (b : UInt8) :
    trimRight (s ++ t) b = if t.trimRight b = [] then s.trimRight b else s ++ t.trimRight b := by
  simp only [trimRight, List.reverse_append, List.dropWhile_append, List.isEmpty_iff, List.reverse_eq_nil_iff]
  split
  case isTrue  => rfl
  case isFalse => simp

theorem trimRight_length (s : Str) (b : UInt8) : (s.trimRight b).length ≤ s.length :=
  (List.rdropWhile_prefix ..).sublist.length_le

-- What ends as a trimmed text does is trimmed.
theorem trimRight_suffix (h : t <:+ s) (hs : s.trimRight b = s) : t.trimRight b = t := by
  have ⟨w, hw⟩ := h
  rw [← hw, trimRight_append] at hs
  split at hs
  case isTrue ht =>
    have hl := congrArg List.length hs
    have hle := trimRight_length w b
    rw [List.length_append] at hl
    have hn : t = [] := List.eq_nil_of_length_eq_zero (by omega)
    rw [ht, hn]
  case isFalse => exact List.append_cancel_left hs

theorem trim_length (s : Str) (b : UInt8) : (s.trim b).length ≤ s.length :=
  (trimRight_length _ b).trans (List.dropWhile_sublist _).length_le

theorem trim_trimRight (s : Str) (b : UInt8) : trimRight (s.trim b) b = s.trim b :=
  List.rdropWhile_idempotent ..

theorem trim_trimLeft (s : Str) (b : UInt8) : trimLeft (s.trim b) b = s.trim b := by
  have hp : s.trim b <+: s.trimLeft b := List.rdropWhile_prefix ..
  have hi : trimLeft (s.trimLeft b) b = s.trimLeft b := List.dropWhile_idempotent ..
  cases ht : s.trim b
  case nil      => rfl
  case cons c u =>
    have ⟨v, hv⟩ := hp
    rw [ht, List.cons_append] at hv
    rw [trimLeft] at hi ⊢
    have hc : ¬(c == b) := by
      intro hc
      rw [← hv, List.dropWhile_cons_of_pos (p := (· == b)) hc] at hi
      have hl := congrArg List.length hi
      have hle := (List.dropWhile_sublist (· == b) (l := u ++ v)).length_le
      rw [List.length_cons] at hl
      omega
    exact List.dropWhile_cons_of_neg hc

theorem trim_trim (s : Str) (b : UInt8) : (s.trim b).trim b = s.trim b := by
  rw [trim, trim_trimLeft, trim_trimRight]

theorem trim_cons (s : Str) (b : UInt8) : trim (b :: s) b = s.trim b := by
  rw [trim, trimLeft, List.dropWhile_cons_of_pos (by simp), trim, trimLeft]

theorem mem_trimLeft {c : UInt8} (h : c ≠ b) : c ∈ s.trimLeft b ↔ c ∈ s := by
  refine ⟨fun hm => (List.dropWhile_sublist _).subset hm, fun hm => ?_⟩
  rw [← List.takeWhile_append_dropWhile (p := (· == b)) (l := s)] at hm
  rcases List.mem_append.mp hm with hm | hm
  · exact absurd (List.mem_takeWhile_imp hm) (by simpa using h)
  · exact hm

theorem mem_trim {c : UInt8} (h : c ≠ b) : c ∈ s.trim b ↔ c ∈ s := by
  have hr : c ∈ trimRight (s.trimLeft b) b ↔ c ∈ trimLeft (s.trimLeft b).reverse b := by
    rw [trimRight, List.mem_reverse]
    rfl
  rw [trim, hr, mem_trimLeft h, List.mem_reverse, mem_trimLeft h]

end Str
namespace Utf8

variable {a : UInt8} {n : Nat} {s t : Str} {p : Piece} {ps qs : List Piece}

theorem extra_append (h : extra a s = some n) (t : Str) : extra a (s ++ t) = some n := by
  have ht := (extra_take h (s.drop n ++ t)).right
  rwa [← List.append_assoc, List.take_append_drop] at ht

theorem extra_of_append (h : extra a (s ++ t) = some n) (hn : n ≤ s.length) : extra a s = some n := by
  have ht := (extra_take h (s.drop n)).right
  rwa [List.take_append_of_le_length hn, List.take_append_drop] at ht

-- A byte of ASCII ends what is before it.
theorem extra_ascii {b : UInt8} (hb : b < 0x80) (h : extra a (s ++ b :: t) = some n) : n ≤ s.length := by
  obtain ⟨-, rfl⟩ | hh := extra_high h
  case inl => exact Nat.zero_le _
  case inr =>
    by_contra hn
    have hm : b ∈ (s ++ b :: t).take n := by
      rw [List.take_append, List.take_cons (by omega)]
      simp
    exact absurd (hh b (.tail _ hm)) (UInt8.not_le.mpr hb)

theorem piecesFrom_append_ascii {b : UInt8} (hb : b < 0x80) (hn : n ≤ s.length) :
    piecesFrom n (s ++ b :: t) = piecesFrom n s ++ pieces (b :: t) := by
  fun_induction piecesFrom n s
  case case1 =>
    cases Nat.le_zero.mp hn
    rfl
  case case2 hi => exact hi (Nat.le_of_succ_le_succ hn)
  case case3 a s n he hi =>
    have hl := (extra_take he []).left
    simp only [List.cons_append, piecesFrom, extra_append he, List.take_append_of_le_length hl, hi hl]
  case case4 a s he hi =>
    have he' : extra a (s ++ b :: t) = none := by
      refine Option.eq_none_iff_forall_ne_some.mpr fun m hm => ?_
      rw [extra_of_append hm (extra_ascii hb hm)] at he
      cases he
    simp only [List.cons_append, piecesFrom, he', hi (Nat.zero_le _)]

theorem pieces_append_ascii {b : UInt8} (hb : b < 0x80) (s t : Str) :
    pieces (s ++ b :: t) = pieces s ++ pieces (b :: t) :=
  piecesFrom_append_ascii hb (Nat.zero_le _)

theorem lower_ascii : ∀ b : UInt8, (if 65 ≤ b ∧ b ≤ 90 then b + 32 else b) < 0x80 → b < 0x80 := by
  decide +kernel

theorem toLower_ascii {lower : Str → Str} {w : Str} (h : ∀ b ∈ w, b < 0x80) (s : Str) :
    toLower lower (w ++ s) = w.toLower ++ toLower lower s := by
  rw [toLower, pieces_ascii h, List.flatMap_append, List.flatMap_map]
  congr 1
  rw [Str.toLower, ← List.flatMap_singleton' (w.map _), List.flatMap_map]
  rfl

-- An end of ASCII is the same end in lower case, whatever is in front of it.
theorem toLower_suffix (lower : Str → Str) {d : Str} (hn : d ≠ []) (hd : ∀ b ∈ d, b < 0x80)
    (h : d <:+ s.toLower) : d <:+ toLower lower s := by
  have ⟨t, ht⟩ := h
  have ⟨u, e, hu, ht', he⟩ := List.map_eq_append_iff.mp ht.symm
  have ha : ∀ b ∈ e, b < 0x80 := by
    intro b hb
    exact lower_ascii b (hd _ (he ▸ List.mem_map_of_mem hb))
  have hl : toLower lower (e ++ []) = Str.toLower e ++ [] := toLower_ascii ha []
  obtain ⟨c, e', rfl⟩ := List.exists_cons_of_ne_nil (l := e) (by rintro rfl; exact hn he.symm)
  rw [List.append_nil, toLower] at hl
  rw [toLower, hu, pieces_append_ascii (ha c (.head _)), List.flatMap_append, hl]
  refine ⟨(pieces u).flatMap (Piece.lower lower), ?_⟩
  rw [← he]
  simp [pieces, Str.toLower]

-- The first piece, and what is behind it, of which less may be there.
theorem pieces_cons (h : pieces s = p :: ps) :
    ∃ t, pieces t = ps ∧ ∀ t', t' <+: t → pieces (p.bytes ++ t') = p :: pieces t' := by
  cases s
  case nil      => cases h
  case cons a s =>
    simp only [pieces, piecesFrom] at h
    split at h
    case h_1 n he =>
      obtain ⟨rfl, rfl⟩ := List.cons.inj h
      obtain ⟨hn, -⟩ := extra_take he []
      have hd := piecesFrom_append (s.take n) (s.drop n)
      rw [List.length_take_of_le hn, List.take_append_drop] at hd
      refine ⟨s.drop n, hd.symm, fun t' _ => ?_⟩
      have ht := (extra_take he t').right
      have hd := piecesFrom_append (s.take n) t'
      rw [List.length_take_of_le hn] at hd
      simp only [pieces, Piece.bytes, List.cons_append, piecesFrom, ht, hd]
      rw [List.take_append_of_le_length (by simp [hn]), List.take_take, Nat.min_self]
    case h_2 he =>
      obtain ⟨rfl, rfl⟩ := List.cons.inj h
      refine ⟨s, rfl, fun t' hp => ?_⟩
      obtain ⟨r, hr⟩ := hp
      have he' : extra a t' = none := by
        refine Option.eq_none_iff_forall_ne_some.mpr fun m hm => ?_
        rw [← hr, extra_append hm r] at he
        cases he
      simp only [pieces, Piece.bytes, List.singleton_append, piecesFrom, he']

theorem pieces_front (h : pieces s = ps ++ qs) : pieces (ps.flatMap Piece.bytes) = ps := by
  induction ps generalizing s
  case nil          => rfl
  case cons p ps hi =>
    rw [List.cons_append] at h
    obtain ⟨t, ht, hp⟩ := pieces_cons h
    have hb : ps.flatMap Piece.bytes <+: t := by
      rw [← pieces_bytes t, ht, List.flatMap_append]
      exact List.prefix_append ..
    rw [List.flatMap_cons, hp _ hb, hi ht]

theorem pieces_suffix (h : pieces s = ps ++ qs) : pieces (qs.flatMap Piece.bytes) = qs := by
  induction ps generalizing s
  case nil          =>
    rw [List.nil_append] at h
    rw [← h, pieces_bytes]
  case cons p ps hi =>
    obtain ⟨t, ht, -⟩ := pieces_cons h
    exact hi ht

-- Pieces that stand together in a string are those of the string that they are by themselves.
theorem pieces_infix (h : ps <:+: pieces s) : pieces (ps.flatMap Piece.bytes) = ps := by
  obtain ⟨l, r, h⟩ := h
  exact pieces_suffix (pieces_front h.symm)

section Trim

theorem trimSpace_bytes (s : Str) :
    pieces (trimSpace s) = (((pieces s).dropWhile Piece.isSpace).reverse.dropWhile Piece.isSpace).reverse := by
  have hd := List.dropWhile_suffix Piece.isSpace (l := pieces s)
  have hr := (List.dropWhile_suffix Piece.isSpace (l := ((pieces s).dropWhile Piece.isSpace).reverse)).reverse
  rw [List.reverse_reverse] at hr
  exact pieces_infix (hr.isInfix.trans hd.isInfix)

-- What is taken from both ends are spaces.
theorem trimSpace_pieces (s : Str) : ∃ l r, pieces s = l ++ (pieces (trimSpace s) ++ r) ∧
    (∀ p ∈ l, p.isSpace) ∧ ∀ p ∈ r, p.isSpace := by
  refine ⟨(pieces s).takeWhile Piece.isSpace,
    (((pieces s).dropWhile Piece.isSpace).reverse.takeWhile Piece.isSpace).reverse, ?_,
    fun _ => List.mem_takeWhile_imp, fun _ hp => List.mem_takeWhile_imp (List.mem_reverse.mp hp)⟩
  rw [trimSpace_bytes, ← List.reverse_append, List.takeWhile_append_dropWhile, List.reverse_reverse,
    List.takeWhile_append_dropWhile]

-- A space is made of bytes that no other ASCII text has.
theorem space_bytes (hp : p ∈ pieces s) (hs : p.isSpace) : ∀ b ∈ p.bytes, b < 0x80 → isSpace b.toNat := by
  cases p
  case bad     => cases hs
  case rune bs =>
    intro b hb hl
    obtain ⟨c, -, rfl⟩ | hh := pieces_rune hp
    case inl =>
      cases List.mem_singleton.mp hb
      exact hs
    case inr => exact absurd (hh b hb) (UInt8.not_le.mpr hl)

theorem infix_right {l c : Str} (hl : ∀ b ∈ t, b ∉ l) (h : t <:+: l ++ c) : t <:+: c := by
  induction l
  case nil         => exact h
  case cons b l hi =>
    rw [List.cons_append, List.infix_cons_iff] at h
    obtain h | h := h
    case inl =>
      cases t
      case nil      => exact List.nil_infix
      case cons b' t =>
        cases (List.cons_prefix_cons.mp h).left
        exact absurd (.head _) (hl b (.head _))
    case inr => exact hi (fun b hb hm => hl b hb (.tail _ hm)) h

theorem infix_left {c r : Str} (hr : ∀ b ∈ t, b ∉ r) (h : t <:+: c ++ r) : t <:+: c := by
  rw [← List.reverse_infix, List.reverse_append] at h
  rw [← List.reverse_infix]
  exact infix_right (fun b hb hm => hr b (List.mem_reverse.mp hb) (List.mem_reverse.mp hm)) h

-- A text of ASCII without spaces is in a string if it is in what is left of it.
theorem trimSpace_infix (ht : ∀ b ∈ t, b < 0x80 ∧ isSpace b.toNat = false) :
    t <:+: trimSpace s ↔ t <:+: s := by
  obtain ⟨l, r, he, hl, hr⟩ := trimSpace_pieces s
  have hs : s = l.flatMap Piece.bytes ++ (trimSpace s ++ r.flatMap Piece.bytes) := by
    have hb := congrArg (List.flatMap Piece.bytes) he
    rwa [List.flatMap_append, List.flatMap_append, pieces_bytes, pieces_bytes] at hb
  have out {qs : List Piece} (hq : ∀ p ∈ qs, p ∈ pieces s ∧ p.isSpace) : ∀ b ∈ t, b ∉ qs.flatMap Piece.bytes := by
    intro b hb hm
    obtain ⟨p, hp, hbp⟩ := List.mem_flatMap.mp hm
    have hsp := space_bytes (hq p hp).left (hq p hp).right b hbp (ht b hb).left
    simp [(ht b hb).right] at hsp
  constructor
  case mp =>
    intro h
    rw [hs]
    exact h.trans ⟨_, _, (List.append_assoc ..)⟩
  case mpr =>
    intro h
    rw [hs] at h
    refine infix_left (out fun p hp => ⟨?_, hr p hp⟩) (infix_right (out fun p hp => ⟨?_, hl p hp⟩) h)
    · rw [he]; simp [hp]
    · rw [he]; simp [hp]

theorem trimSpace_front (s : Str) : ∀ p ∈ (pieces (trimSpace s)).head?, p.isSpace = false := by
  intro p hp
  have hr := (List.dropWhile_suffix Piece.isSpace (l := ((pieces s).dropWhile Piece.isSpace).reverse)).reverse
  rw [List.reverse_reverse, ← trimSpace_bytes] at hr
  obtain ⟨r, hr⟩ := hr
  have hd : ((pieces s).dropWhile Piece.isSpace).head? = some p := by
    rw [← hr, List.head?_append, Option.mem_def.mp hp, Option.some_or]
  have hn := List.head?_dropWhile_not Piece.isSpace (pieces s)
  rw [hd] at hn
  exact hn

-- A word at the front stays there.
theorem trimSpace_word (h : pieces s = ps ++ qs) (hn : ps ≠ []) (hs : ∀ p ∈ ps, p.isSpace = false) :
    ∃ x, pieces (trimSpace s) = ps ++ x ∧ x <+: qs := by
  obtain ⟨l, r, he, hl, hr⟩ := trimSpace_pieces s
  rw [h] at he
  have hl : l = [] := by
    cases l
    case nil      => rfl
    case cons p l =>
      cases ps
      case nil      => exact absurd rfl hn
      case cons q _ =>
        cases (List.cons.inj he).left
        simp [hs _ (.head _)] at hl
  subst hl
  rw [List.nil_append] at he
  obtain ⟨x, ht, hq⟩ | ⟨x, hp, hx⟩ := List.append_eq_append_iff.mp he
  case inl => exact ⟨x, ht, r, hq.symm⟩
  case inr =>
    cases x
    case nil      => exact ⟨[], by simpa using hp.symm, List.nil_prefix⟩
    case cons p _ =>
      have hsp := hr p (by rw [hx]; exact .head _)
      rw [hs p (by rw [hp]; simp)] at hsp
      cases hsp

end Trim
section Lines

variable {l : Str} {ls : List Str}

theorem pieces_line (s t : Str) : pieces (s ++ 10 :: t) = pieces s ++ .rune [10] :: pieces t := by
  rw [pieces_append_ascii (by decide), ← List.singleton_append, pieces_ascii (w := [10]) (by simp)]
  rfl

theorem trimSpace_nil_iff : trimSpace s = [] ↔ ∀ p ∈ pieces s, p.isSpace := by
  constructor
  case mp =>
    intro h
    obtain ⟨l, r, he, hl, hr⟩ := trimSpace_pieces s
    intro p hp
    rw [he, h] at hp
    rcases List.mem_append.mp hp with hp | hp
    · exact hl p hp
    · exact hr p hp
  case mpr =>
    intro h
    rw [trimSpace, List.dropWhile_eq_nil_iff.mpr h]
    rfl

-- Spaces at the ends do not matter.
theorem trimSpace_of_pieces (h : pieces s = ps ++ (pieces t ++ qs)) (hp : ∀ p ∈ ps, p.isSpace)
    (hq : ∀ q ∈ qs, q.isSpace) : trimSpace s = trimSpace t := by
  have hd : qs.dropWhile Piece.isSpace = [] := List.dropWhile_eq_nil_iff.mpr hq
  have hr : qs.reverse.dropWhile Piece.isSpace = [] :=
    List.dropWhile_eq_nil_iff.mpr fun q hm => hq q (List.mem_reverse.mp hm)
  simp only [trimSpace, h]
  rw [List.dropWhile_append, List.dropWhile_eq_nil_iff.mpr hp, if_pos (by rfl), List.dropWhile_append]
  split
  case isTrue he  => rw [hd, List.isEmpty_iff.mp he]
  case isFalse he => rw [List.reverse_append, List.dropWhile_append, hr, if_pos (by rfl)]

theorem trimSpace_trimSpace (s : Str) : trimSpace (trimSpace s) = trimSpace s := by
  obtain ⟨l, r, he, hl, hr⟩ := trimSpace_pieces s
  exact (trimSpace_of_pieces he hl hr).symm

theorem trimSpace_subset : ∀ b ∈ trimSpace s, b ∈ s := by
  intro b hb
  obtain ⟨l, r, he, -, -⟩ := trimSpace_pieces s
  rw [← pieces_bytes s, he, List.flatMap_append, List.flatMap_append, pieces_bytes]
  exact List.mem_append_right _ (List.mem_append_left _ hb)

-- Carriage returns at the end are spaces.
theorem trimSpace_trimRight (s : Str) : trimSpace (Str.trimRight s 13) = trimSpace s := by
  induction s using List.reverseRecOn
  case nil              => rfl
  case append_singleton s b hi =>
    have ht : Str.trimRight (s ++ [b]) 13 = if b == 13 then Str.trimRight s 13 else s ++ [b] :=
      List.rdropWhile_concat (· == 13) s b
    rw [ht]
    split
    case isFalse   => rfl
    case isTrue hb =>
      have hp : pieces (s ++ [b]) = [] ++ (pieces s ++ [.rune [13]]) := by
        rw [eq_of_beq hb, pieces_append_ascii (by decide)]
        rfl
      rw [hi, trimSpace_of_pieces hp (by simp) (by decide)]

-- A blank line at an end does not matter, and a line feed between two lines that are not blank stays.
theorem trimSpace_blank_left (h : trimSpace l = []) (s : Str) : trimSpace (l ++ 10 :: s) = trimSpace s := by
  have hp : pieces (l ++ 10 :: s) = (pieces l ++ [.rune [10]]) ++ (pieces s ++ []) := by
    rw [pieces_line, List.append_assoc, List.append_nil, List.singleton_append]
  refine trimSpace_of_pieces hp (fun p hm => ?_) (by simp)
  rcases List.mem_append.mp hm with hm | hm
  · exact trimSpace_nil_iff.mp h p hm
  · rw [List.mem_singleton.mp hm]
    decide

theorem trimSpace_blank_right (h : trimSpace s = []) (l : Str) : trimSpace (l ++ 10 :: s) = trimSpace l := by
  have hp : pieces (l ++ 10 :: s) = [] ++ (pieces l ++ (.rune [10] :: pieces s)) := pieces_line l s
  refine trimSpace_of_pieces hp (by simp) (fun p hm => ?_)
  rcases List.mem_cons.mp hm with rfl | hm
  · decide
  · exact trimSpace_nil_iff.mp h p hm

theorem dropWhile_ne_nil (h : trimSpace s ≠ []) : (pieces s).dropWhile Piece.isSpace ≠ [] :=
  fun hd => h (trimSpace_nil_iff.mpr (List.dropWhile_eq_nil_iff.mp hd))

theorem mem_trimSpace_lines (hl : trimSpace l ≠ []) (hs : trimSpace s ≠ []) : 10 ∈ trimSpace (l ++ 10 :: s) := by
  have hr : (pieces s).reverse.dropWhile Piece.isSpace ≠ [] := by
    intro hd
    refine hs (trimSpace_nil_iff.mpr fun p hp => ?_)
    exact List.dropWhile_eq_nil_iff.mp hd p (List.mem_reverse.mpr hp)
  simp only [trimSpace, pieces_line]
  rw [List.dropWhile_append, if_neg (by simpa using dropWhile_ne_nil hl), List.reverse_append, List.reverse_cons,
    List.append_assoc, List.dropWhile_append, if_neg (by simpa using hr)]
  simp [Piece.bytes]

theorem intercalate_cons (h : ls ≠ []) (l : Str) : [10].intercalate (l :: ls) = l ++ 10 :: [10].intercalate ls := by
  rw [List.intercalate_cons_of_ne_nil h, List.append_assoc, List.singleton_append]

theorem trimSpace_blank_line (h : trimSpace l = []) (ls : List Str) :
    trimSpace ([10].intercalate (l :: ls)) = trimSpace ([10].intercalate ls) := by
  by_cases hn : ls = []
  case pos => rw [hn, List.intercalate_singleton, h]; rfl
  case neg => rw [intercalate_cons hn, trimSpace_blank_left h]

-- What is left of a text by the number of its lines that are not blank.
theorem trimSpace_lines (ls : List Str) :
    match ls.filter fun l => trimSpace l ≠ [] with
    | []         => trimSpace ([10].intercalate ls) = []
    | [l]        => trimSpace ([10].intercalate ls) = trimSpace l
    | _ :: _ :: _ => 10 ∈ trimSpace ([10].intercalate ls) := by
  induction ls
  case nil          => rfl
  case cons l ls hi =>
    by_cases hl : trimSpace l = []
    case pos => rwa [List.filter_cons_of_neg (by simpa using hl), trimSpace_blank_line hl]
    case neg =>
      rw [List.filter_cons_of_pos (by simpa using hl)]
      by_cases hn : ls = []
      case pos =>
        subst hn
        simp
      case neg =>
        rw [intercalate_cons hn]
        split at hi
        case h_1 hf => simp only [hf, trimSpace_blank_right hi]
        case h_2 m hf =>
          have hm : trimSpace m ≠ [] := by
            have hm : m ∈ ls.filter fun l => trimSpace l ≠ [] := hf ▸ .head _
            simpa using (List.mem_filter.mp hm).right
          simp only [hf]
          exact mem_trimSpace_lines hl (hi ▸ hm)
        case h_3 hf =>
          simp only [hf]
          exact mem_trimSpace_lines hl (List.ne_nil_of_mem hi)

end Lines
section Valid

-- A rune is told from what follows.
theorem piecesFrom_rune_append {bs : Str} (h : .rune bs ∈ piecesFrom n s) (t : Str) :
    pieces (bs ++ t) = .rune bs :: pieces t := by
  fun_induction piecesFrom n s
  case case1         => cases h
  case case2 hi      => exact hi h
  case case3 a s n he hi =>
    rcases List.mem_cons.mp h with hb | hm
    · cases hb
      obtain ⟨hn, ht⟩ := extra_take he t
      have hd := piecesFrom_append (s.take n) t
      rw [List.length_take_of_le hn] at hd
      simp only [pieces, List.cons_append, piecesFrom, ht, hd]
      rw [List.take_append_of_le_length (by simp [hn]), List.take_take, Nat.min_self]
    · exact hi hm
  case case4 he hi   =>
    rcases List.mem_cons.mp h with hb | hm
    · cases hb
    · exact hi hm

def Piece.fixed (p : Piece) : Piece :=
  .rune p.valid

theorem pieces_flatMap_valid (h : ∀ p ∈ ps, p ∈ pieces s) :
    pieces (ps.flatMap Piece.valid) = ps.map Piece.fixed := by
  induction ps
  case nil          => rfl
  case cons p ps hi =>
    have hp : ∀ t, pieces (p.valid ++ t) = p.fixed :: pieces t := by
      intro t
      cases p
      case rune bs => exact piecesFrom_rune_append (h _ (.head _)) t
      case bad     => rfl
    rw [List.flatMap_cons, hp, hi fun p hm => h p (.tail _ hm), List.map_cons]

theorem pieces_toValid (s : Str) : pieces (toValid s) = (pieces s).map Piece.fixed :=
  pieces_flatMap_valid fun _ h => h

@[simp]
theorem fixed_isSpace (p : Piece) : p.fixed.isSpace = p.isSpace := by
  cases p <;> rfl

theorem fixed_bytes (p : Piece) : p.fixed.bytes = p.valid := by
  cases p <;> rfl

theorem trimSpace_toValid (s : Str) : trimSpace (toValid s) = toValid (trimSpace s) := by
  have hc : Piece.isSpace ∘ Piece.fixed = Piece.isSpace := funext fixed_isSpace
  rw [trimSpace, pieces_toValid, toValid, trimSpace_bytes]
  simp only [List.dropWhile_map, ← List.map_reverse, hc, List.flatMap_map, fixed_bytes]

-- A text is valid if it is so without the spaces at its ends.
theorem toValid_trimSpace : toValid (trimSpace s) = trimSpace s ↔ toValid s = s := by
  have valid {ps : List Piece} (h : ∀ p ∈ ps, p.isSpace) : ps.flatMap Piece.valid = ps.flatMap Piece.bytes := by
    refine List.flatMap_congr fun p hp => ?_
    cases p
    case rune => rfl
    case bad  => cases h _ hp
  obtain ⟨l, r, he, hl, hr⟩ := trimSpace_pieces s
  have hs : toValid s = l.flatMap Piece.bytes ++ (toValid (trimSpace s) ++ r.flatMap Piece.bytes) := by
    rw [toValid, he, List.flatMap_append, List.flatMap_append, valid hl, valid hr, toValid]
  have hb : s = l.flatMap Piece.bytes ++ (trimSpace s ++ r.flatMap Piece.bytes) := by
    have hb := congrArg (List.flatMap Piece.bytes) he
    rwa [List.flatMap_append, List.flatMap_append, pieces_bytes, pieces_bytes] at hb
  constructor
  case mp =>
    intro h
    rw [hs, h, ← hb]
  case mpr =>
    intro h
    rw [hs] at h
    conv_rhs at h => rw [hb]
    exact List.append_cancel_right (List.append_cancel_left h)

end Valid
section Fields

variable {α : Type} {f : α → Bool} {xs ys : List α}

theorem splitOnP_head (xs : List α) : (xs.splitOnP f).head? = some (xs.takeWhile (!f ·)) := by
  induction xs
  case nil          => rfl
  case cons x xs hi =>
    rw [List.splitOnP_cons_eq_if_modifyHead]
    cases hx : f x
    case true  => simp [hx]
    case false => simp [hx, List.head?_modifyHead, hi]

-- A part is taken out in one piece, and no separator is in it.
theorem mem_splitOnP (h : xs ∈ ys.splitOnP f) : xs <:+: ys ∧ ∀ x ∈ xs, f x = false := by
  induction ys generalizing xs
  case nil          =>
    cases List.mem_singleton.mp h
    exact ⟨List.infix_refl _, fun _ hx => absurd hx List.not_mem_nil⟩
  case cons y ys hi =>
    rw [List.splitOnP_cons_eq_if_modifyHead] at h
    cases hy : f y
    case true  =>
      rw [if_pos hy] at h
      cases h
      case head   => exact ⟨List.nil_infix, fun _ hx => absurd hx List.not_mem_nil⟩
      case tail h => exact ⟨List.infix_cons (hi h).left, (hi h).right⟩
    case false =>
      rw [if_neg (by simp [hy])] at h
      have hh := splitOnP_head (f := f) ys
      cases hp : ys.splitOnP f
      case nil        => rw [hp] at h; cases h
      case cons z zs  =>
        rw [hp] at h hh
        cases h
        case head   =>
          cases hh
          have hz := (hi (by rw [hp]; exact .head _)).right
          exact ⟨(List.cons_prefix_cons.mpr ⟨rfl, List.takeWhile_prefix _⟩).isInfix,
            List.forall_mem_cons.mpr ⟨hy, hz⟩⟩
        case tail h =>
          have hz := hi (by rw [hp]; exact .tail _ h)
          exact ⟨List.infix_cons hz.left, hz.right⟩

-- A text ends with the labels of another one where it is the other one, or has a separator before it.
theorem splitOn_suffix_iff {s w : Str} {b : UInt8} :
    w.splitOn b <:+ s.splitOn b ↔ s = w ∨ ∃ t, s = t ++ b :: w := by
  constructor
  · intro ⟨ls, h⟩
    have hs : [b].intercalate (s.splitOn b) = s := List.intercalate_splitOn b
    by_cases hl : ls = []
    case pos =>
      rw [hl, List.nil_append] at h
      rw [← h, List.intercalate_splitOn] at hs
      exact .inl hs.symm
    case neg =>
      have hb : ∀ l ∈ ls, b ∉ l := by
        intro l hm hb
        have hm : l ∈ s.splitOn b := h ▸ List.mem_append_left _ hm
        exact absurd ((mem_splitOnP hm).right b hb) (by simp)
      have ht : ([b].intercalate ls ++ b :: w).splitOn b = s.splitOn b := by
        rw [List.splitOn_append_cons_self, List.splitOn_intercalate b hb hl, h]
      refine .inr ⟨[b].intercalate ls, ?_⟩
      rw [← hs, ← ht, List.intercalate_splitOn]
  · rintro (rfl | ⟨t, rfl⟩)
    · exact List.suffix_refl _
    · rw [List.splitOn_append_cons_self]
      exact List.suffix_append ..

-- A field is a part of the string that has no space.
theorem mem_fields (h : t ∈ fields s) : t ≠ [] ∧ (∀ p ∈ pieces t, p.isSpace = false) ∧ t <:+: s := by
  obtain ⟨ps, hp, rfl⟩ := List.mem_map.mp h
  obtain ⟨hm, hn⟩ := List.mem_filter.mp hp
  have ⟨hi, hs⟩ := mem_splitOnP hm
  have he := pieces_infix hi
  refine ⟨fun hb => ?_, by rwa [he], ?_⟩
  · rw [hb] at he
    simp [← he, pieces, piecesFrom] at hn
  · obtain ⟨l, r, hlr⟩ := hi
    exact ⟨l.flatMap Piece.bytes, r.flatMap Piece.bytes, by
      rw [← List.flatMap_append, ← List.flatMap_append, hlr, pieces_bytes]⟩

theorem takeWhile_append_space (hs : ∀ p ∈ ps, p.isSpace = false) (hq : ∀ q ∈ qs.head?, q.isSpace) :
    (ps ++ qs).takeWhile (!Piece.isSpace ·) = ps := by
  rw [List.takeWhile_append_of_pos (by simpa using hs)]
  cases qs
  case nil  => simp
  case cons => simp [hq _ rfl]

-- The first field, if the string begins with it.
theorem fields_head (h : pieces s = ps ++ qs) (hn : ps ≠ []) (hs : ∀ p ∈ ps, p.isSpace = false)
    (hq : ∀ q ∈ qs.head?, q.isSpace) : (fields s).head? = some (ps.flatMap Piece.bytes) := by
  have hh := splitOnP_head (f := Piece.isSpace) (pieces s)
  rw [h, takeWhile_append_space hs hq] at hh
  unfold fields
  rw [h]
  cases hp : (ps ++ qs).splitOnP Piece.isSpace
  case nil  => rw [hp] at hh; cases hh
  case cons =>
    rw [hp] at hh
    cases hh
    simp [hn]

-- The first field of a string that does not begin with a space.
theorem fields_prefix (h : ∀ p ∈ (pieces s).head?, p.isSpace = false) (hf : (fields s).head? = some t) :
    t <+: s := by
  cases hp : pieces s
  case nil       => simp [fields, hp] at hf
  case cons p ps =>
    have hd := List.takeWhile_append_dropWhile (p := (!Piece.isSpace ·)) (l := pieces s)
    have hh := @fields_head s ((pieces s).takeWhile (!Piece.isSpace ·)) _ hd.symm ?_ ?_ ?_
    · rw [hh] at hf
      cases hf
      conv_rhs => rw [← pieces_bytes s]
      exact (List.takeWhile_prefix _).flatMap _
    · rw [hp] at h ⊢
      simp [h p rfl]
    · intro p hp
      simpa using List.mem_takeWhile_imp hp
    · intro q hq
      have hn := List.head?_dropWhile_not (!Piece.isSpace ·) (pieces s)
      rw [Option.mem_def.mp hq] at hn
      simpa using hn

end Fields
end Utf8
end Go
