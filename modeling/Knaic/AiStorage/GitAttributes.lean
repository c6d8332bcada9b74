import Knaic.AiStorage.GitLab

open Go Effects

namespace AiStorage.GitAttributes

open GitLab

variable (refOf : Str → Option Str) (w : World) (branch path : Str)

-- The attributes on the branch as commits to it have them.
def existing : Option Str :=
  w.files (Utf8.toValid branch) attributes

def lines (b : Str) : List Str :=
  b.splitOn 10

-- The request for the attributes is answered with all of them, or with there being none.
def ReadWhole (d : Draw) : Prop :=
  d.failure = none ∧ ∃ ref ∈ refOf (str "ref=" ++ branch),
    w.files ref attributes = existing w branch ∧
    ∀ b ∈ existing w branch, d.cut = none ∧ b.length ≤ attributesLimit

-- What is read has a line for the path already.
def Found (d : Draw) : Prop :=
  d.failure = none ∧ ∃ ref ∈ refOf (str "ref=" ++ branch), ∃ b ∈ w.files ref attributes,
    tracked path ((d.stream b).bytes.take attributesLimit)

-- If the call succeeds, all lines are still there, and nothing is committed unless all was read.
structure Kept (d : Nat → Draw) : Prop where
  lines   : ((ensureLFSPattern branch path).play (answer refOf) d w).1 = .ok () →
            ∀ b ∈ existing w branch,
            ∃ b' ∈ existing ((ensureLFSPattern branch path).play (answer refOf) d w).2 branch,
            (lines b).Sublist (lines b')
  nothing : ¬ReadWhole refOf w branch (d 0) →
            ((ensureLFSPattern branch path).play (answer refOf) d w).2.commits = w.commits

section Lines

theorem lines_append (a b : Str) : lines (a ++ 10 :: b) = lines a ++ lines b :=
  List.splitOn_append_cons_self ..

theorem lines_nil : lines [] = [[]] :=
  rfl

-- What is added is a line by itself.
theorem updated_lines (b pat : Str) : (lines b).Sublist (lines (updated b pat)) := by
  have hs : str " filter=lfs diff=lfs merge=lfs -text\n" =
      str " filter=lfs diff=lfs merge=lfs -text" ++ 10 :: [] := by decide +kernel
  have added (a : Str) : lines (a ++ pat ++ str " filter=lfs diff=lfs merge=lfs -text\n") =
      lines (a ++ pat ++ str " filter=lfs diff=lfs merge=lfs -text") ++ [[]] := by
    rw [hs, ← List.append_assoc, lines_append, lines_nil]
  unfold updated withNewline
  by_cases hn : b = []
  case pos =>
    subst hn
    simp only [ne_eq, not_true_eq_false, false_and, if_false]
    rw [added, lines_nil]
    exact List.sublist_append_right ..
  case neg =>
    by_cases hl : b.getLast? = some 10
    case pos =>
      obtain ⟨a, rfl⟩ := List.getLast?_eq_some_iff.mp hl
      rw [if_neg fun h => h.right hl, lines_append, lines_nil, List.append_assoc, List.append_assoc,
        List.singleton_append, lines_append, ← List.nil_append (pat ++ _), ← List.append_assoc, added]
      exact (List.Sublist.refl _).append (List.sublist_append_right ..)
    case neg =>
      rw [if_pos ⟨hn, hl⟩, List.append_assoc, List.append_assoc, List.singleton_append, lines_append]
      exact List.sublist_append_left ..

end Lines
section Play

variable {refOf w branch path} {d : Nat → Draw}

-- The commit of what has been read, with the line for the path.
def commit (branch path b : Str) : Call Unit :=
  commitFile branch attributes (str "Mark " ++ path ++ str " as LFS via knaic AI Storage") (updated b path)

theorem ensureLFSPattern_eq : (ensureLFSPattern branch path : Prog ops (Except Error Unit)) =
    .call (.rawFile attributes (str "ref=" ++ branch)) fun
      | .error _ => commit branch path []
      | .ok f    =>
        if tracked path (f.body.bytes.take attributesLimit) then .ret (.ok ())
        else commit branch path (f.body.bytes.take attributesLimit) := by
  refine congrArg (Prog.call _) (funext fun resp => ?_)
  cases resp
  case error => rfl
  case ok f  =>
    show (if tracked path (f.body.bytes.take attributesLimit) then pure ()
      else commit branch path (f.body.bytes.take attributesLimit) : Call Unit) =
      if tracked path (f.body.bytes.take attributesLimit) then .ret (.ok ())
      else commit branch path (f.body.bytes.take attributesLimit)
    split <;> rfl

-- What of the attributes arrives.
def arrived (refOf : Str → Option Str) (w : World) (branch : Str) (d : Draw) : Option Str :=
  match (answer refOf (.rawFile attributes (str "ref=" ++ branch)) d w).1 with
  | .error _ => none
  | .ok f    => some (f.body.bytes.take attributesLimit)

theorem arrived_eq (d : Draw) : arrived refOf w branch d =
    if d.failure = none then
      ((refOf (str "ref=" ++ branch)).bind fun ref => w.files ref attributes).map fun b =>
        (d.stream b).bytes.take attributesLimit
    else none := by
  unfold arrived
  cases hf : d.failure
  case some err => simp [answer, hf]
  case none     =>
    cases hr : refOf (str "ref=" ++ branch)
    case none     => simp [answer, hf, hr]
    case some ref => cases hw : w.files ref attributes <;> simp [answer, hf, hr, hw]

theorem found_iff (d : Draw) : Found refOf w branch path d ↔ ∃ b ∈ arrived refOf w branch d, tracked path b := by
  rw [arrived_eq, Found]
  by_cases hf : d.failure = none
  case neg => simp [hf]
  case pos =>
    cases hr : refOf (str "ref=" ++ branch)
    case none     => simp
    case some ref => cases hw : w.files ref attributes <;> simp [hf, hw]

theorem arrived_whole {d : Draw} (h : ReadWhole refOf w branch d) :
    arrived refOf w branch d = existing w branch := by
  obtain ⟨hf, ref, hr, hw, hb⟩ := h
  rw [arrived_eq, if_pos hf, Option.mem_def.mp hr, Option.bind_some, hw]
  cases he : existing w branch
  case none   => rfl
  case some b =>
    have ⟨hc, hl⟩ := hb b he
    simp [Draw.stream, hc, List.take_of_length_le hl]

theorem ensureLFSPattern_play : (ensureLFSPattern branch path).play (answer refOf) d w =
    match arrived refOf w branch (d 0) with
    | none   => (commit branch path []).play (answer refOf) (fun n => d (n + 1)) w
    | some b =>
      if tracked path b then (.ok (), w)
      else (commit branch path b).play (answer refOf) (fun n => d (n + 1)) w := by
  have hw : (answer refOf (.rawFile attributes (str "ref=" ++ branch)) (d 0) w).2 = w := by
    simp only [answer]
    split
    case h_3 => split <;> rfl
    all_goals rfl
  rw [ensureLFSPattern_eq]
  simp only [Prog.play, hw, arrived]
  cases (answer refOf (.rawFile attributes (str "ref=" ++ branch)) (d 0) w).1
  case error => rfl
  case ok f  => simp only; split <;> rfl

end Play

theorem kept_iff (refOf : Str → Option Str) (w : World) (branch path : Str) (d : Nat → Draw) :
    Kept refOf w branch path d ↔
      ReadWhole refOf w branch (d 0) ∨ Found refOf w branch path (d 0) ∨
      Refused w branch attributes (d 1) (d 2) := by
  constructor
  case mp =>
    intro h
    refine or_iff_not_imp_left.mpr fun hr => or_iff_not_imp_left.mpr fun hf => ?_
    have hc := h.nothing hr
    rw [ensureLFSPattern_play] at hc
    rw [found_iff] at hf
    cases ha : arrived refOf w branch (d 0)
    case none   => rw [ha] at hc; exact commitFile_commits.mp hc
    case some b =>
      have ht : ¬tracked path b := fun ht => hf ⟨b, ha, ht⟩
      simp only [ha, if_neg ht] at hc
      exact commitFile_commits.mp hc
  case mpr =>
    rintro (hr | hf | hc)
    · refine ⟨?_, fun hn => absurd hr hn⟩
      rw [ensureLFSPattern_play, arrived_whole hr]
      intro hok b hb
      rw [Option.mem_def.mp hb] at hok ⊢
      by_cases ht : tracked path b
      case pos => exact ⟨b, by simpa [ht] using hb, List.Sublist.refl _⟩
      case neg =>
        simp only [if_neg ht] at hok ⊢
        exact ⟨_, commitFile_ok hok, updated_lines b path⟩
    · have ⟨b, ha, ht⟩ := (found_iff _).mp hf
      have hp : (ensureLFSPattern branch path).play (answer refOf) d w = (.ok (), w) := by
        rw [ensureLFSPattern_play, Option.mem_def.mp ha]
        exact if_pos ht
      exact ⟨fun _ b hb => ⟨b, by rwa [hp], List.Sublist.refl _⟩, fun _ => by rw [hp]⟩
    · have hp : ((ensureLFSPattern branch path).play (answer refOf) d w).2 = w := by
        rw [ensureLFSPattern_play]
        cases arrived refOf w branch (d 0)
        case none   => exact commitFile_refused hc
        case some b =>
          dsimp only
          split
          case isTrue  => rfl
          case isFalse => exact commitFile_refused hc
      exact ⟨fun _ b hb => ⟨b, by rwa [hp], List.Sublist.refl _⟩, fun _ => by rw [hp]⟩

-- The attributes cannot be read for a moment.
section Unread

def project : World where
  files branch path :=
    if branch = str "main" ∧ path = attributes then some (str "*.bin filter=lfs diff=lfs merge=lfs -text\n")
    else none
  objects _         := none
  commits           := 1

def unread : Nat → Draw
  | 0 => { fine with failure := some (.foreign (str "502 Bad Gateway")) }
  | _ => fine

theorem unread_not_kept : ¬∀ refOf w branch path d, Kept refOf w branch path d := by
  intro h
  have hk := h refOfQuery project (str "main") (str "model.gguf") unread
  exact absurd (hk.nothing fun hr => nomatch hr.left) (by decide)

end Unread
end AiStorage.GitAttributes
