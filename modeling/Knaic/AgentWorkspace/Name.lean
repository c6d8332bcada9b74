import Mathlib.Data.List.Forall2
import Knaic.Go.Utf8

open Go Utf8

namespace AgentWorkspace

def resourcePrefix : Str :=
  str "knaic-agent-"

-- The function that `WorkspaceName` maps over the owner id.
def slugRune (r : Nat) : UInt8 :=
  if 97 ≤ r && r ≤ 122 then r.toUInt8
  else if 48 ≤ r && r ≤ 57 then r.toUInt8
  else if r = 45 then r.toUInt8
  else if 65 ≤ r && r ≤ 90 then (r + 32).toUInt8
  else 45

def workspaceName (ownerID : Str) : Str :=
  let cleaned := (runes ownerID).map slugRune
  let cleaned := Str.trim cleaned 45
  let cleaned := if cleaned = [] then str "user" else cleaned
  let cleaned := if cleaned.length > 40 then cleaned.take 40 else cleaned
  resourcePrefix ++ cleaned

def ownerLabelValue (ownerID : Str) : Str :=
  (workspaceName ownerID).trimPrefix resourcePrefix

-- The letters and digits of ASCII.
def alnum (r : Nat) : Bool :=
  48 ≤ r && r ≤ 57 || 65 ≤ r && r ≤ 90 || 97 ≤ r && r ≤ 122

def lower (r : Nat) : Nat :=
  if 65 ≤ r && r ≤ 90 then r + 32 else r

-- Two runes that a name does not tell apart: the same letter or digit up to case, or no letters or
-- digits at all.
def Alike (r s : Nat) : Prop :=
  if alnum r && alnum s then lower r = lower s else alnum r = alnum s

-- What is left of an owner id between its first and its last letter or digit.
def core (ownerID : Str) : List Nat :=
  ((runes ownerID).dropWhile (!alnum ·)).reverse.dropWhile (!alnum ·) |>.reverse

def named (ownerID : Str) : List Nat :=
  if core ownerID = [] then [117, 115, 101, 114] else core ownerID

-- Two owner ids whose first forty runes, so trimmed, are pairwise alike. An owner id without letters
-- and digits counts as `user`.
def Confusable (a b : Str) : Prop :=
  List.Forall₂ Alike ((named a).take 40) ((named b).take 40)

theorem slugRune_toNat (r : Nat) : (slugRune r).toNat = if alnum r then lower r else 45 := by
  simp only [slugRune, alnum, lower, Bool.and_eq_true, Bool.or_eq_true, decide_eq_true_eq]
  split_ifs <;> simp [Nat.toUInt8] <;> omega

theorem slugRune_dash (r : Nat) : (slugRune r == 45) = !alnum r := by
  rw [Bool.eq_iff_iff, beq_iff_eq, ← UInt8.toNat_inj, slugRune_toNat]
  simp only [alnum, lower, Bool.and_eq_true, Bool.or_eq_true, decide_eq_true_eq]
  split_ifs <;> simp <;> omega

theorem slugRune_inj (r s : Nat) : slugRune r = slugRune s ↔ Alike r s := by
  rw [← UInt8.toNat_inj, slugRune_toNat, slugRune_toNat, Alike]
  cases hr : alnum r <;> cases hs : alnum s <;> simp
  all_goals
    simp only [alnum, Bool.or_eq_true, Bool.and_eq_true, decide_eq_true_eq] at hr hs
    simp only [lower]
    split_ifs <;> omega

theorem dropWhile_slug (rs : List Nat) :
    (rs.map slugRune).dropWhile (· == 45) = (rs.dropWhile (!alnum ·)).map slugRune := by
  rw [List.dropWhile_map]
  congr
  funext r
  exact slugRune_dash r

theorem trim_slug (rs : List Nat) :
    Str.trim (rs.map slugRune) 45 =
      ((rs.dropWhile (!alnum ·)).reverse.dropWhile (!alnum ·)).reverse.map slugRune := by
  simp only [Str.trim, Str.trimLeft, Str.trimRight, dropWhile_slug, ← List.map_reverse]

theorem workspaceName_eq (ownerID : Str) :
    workspaceName ownerID = resourcePrefix ++ ((named ownerID).take 40).map slugRune := by
  have hn : (if core ownerID = [] then str "user" else (core ownerID).map slugRune) =
      (named ownerID).map slugRune := by
    unfold named
    split
    case isTrue  => decide
    case isFalse => rfl
  have ht (s : Str) : (if s.length > 40 then s.take 40 else s) = s.take 40 := by
    split
    case isTrue  => rfl
    case isFalse => rw [List.take_of_length_le (by omega)]
  simp only [workspaceName, trim_slug, List.map_eq_nil_iff]
  rw [ht, List.map_take, ← hn]
  rfl

theorem workspaceName_inj (a b : Str) : workspaceName a = workspaceName b ↔ Confusable a b := by
  rw [workspaceName_eq, workspaceName_eq, List.append_cancel_left_eq, Confusable,
    ← List.forall₂_eq_eq_eq, List.forall₂_map_left_iff, List.forall₂_map_right_iff]
  simp only [slugRune_inj]

end AgentWorkspace
