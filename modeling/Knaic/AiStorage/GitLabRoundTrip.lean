import Knaic.AiStorage.GitAttributes

open Go Effects

namespace AiStorage.GitLabRoundTrip

open GitLab

variable (sha256 : Str → Vector UInt8 32) (refOf : Str → Option Str)

def oidOf (content : Str) : Str :=
  hex (sha256 content).toList

-- The branch that an upload commits to.
def committed (branch : Str) : Str :=
  Utf8.toValid (defaultBranch branch)

-- Behind the identifier of the content there is no other object.
def Faithful (w : World) (content : Str) : Prop :=
  ∀ b ∈ w.objects (oidOf sha256 content), b = content

-- Wherever the file is uploaded to, and whatever requests fail: when the upload succeeds, a download
-- from there that nothing disturbs gives exactly the content.
def RoundTrip (path content : Str) (lfs : Bool) : Prop :=
  ∀ w branch msg d, Faithful sha256 w content →
    let upload := (gitLabUpload sha256 path branch msg (.ok content) lfs).play (answer refOf) d w
    upload.1 = .ok () →
    ∃ size, ((gitLabDownload path (committed branch)).play (answer refOf) (fun _ => fine) upload.2).1 =
      .ok (⟨content, none⟩, size)

section Pointer

theorem hexDigit_plain : ∀ n : UInt8, n < 16 → hexDigit n ≠ 10 := by
  decide +kernel

theorem hex_plain (bs : List UInt8) : 10 ∉ hex bs := by
  intro h
  have ⟨b, _, hb⟩ := List.mem_flatMap.mp h
  have hd := hexDigit_plain _ (Url.div_lt b)
  have hm := hexDigit_plain _ (Url.mod_lt b)
  simp only [List.mem_cons, List.not_mem_nil, or_false] at hb
  rcases hb with hb | hb
  · exact hd hb.symm
  · exact hm hb.symm

theorem hex_length (bs : List UInt8) : (hex bs).length = 2 * bs.length := by
  induction bs
  case nil      => rfl
  case cons hi  =>
    simp only [hex, List.flatMap_cons, List.length_append, List.length_cons, List.length_nil] at hi ⊢
    omega

theorem oidOf_length (content : Str) : (oidOf sha256 content).length = 64 := by
  simp [oidOf, hex_length]

theorem splitOn_plain {a : Str} (h : 10 ∉ a) : a.splitOn 10 = [a] := by
  have hj := @List.splitOn_intercalate _ [a] _ _ 10 (by simpa using h) (by simp)
  simpa [List.intercalate] using hj

theorem splitOn_line {a : Str} (h : 10 ∉ a) (b : Str) : (a ++ 10 :: b).splitOn 10 = a :: b.splitOn 10 := by
  rw [List.splitOn_append_cons_self, splitOn_plain h, List.singleton_append]

theorem build_lines {oid : Str} (size : Nat) (ho : 10 ∉ oid) : (buildLFSPointer oid size).splitOn 10 =
    [pointerVersion, str "oid sha256:" ++ oid, str "size " ++ decimal size, []] := by
  have hv : 10 ∉ pointerVersion := by decide
  have hi : 10 ∉ str "oid sha256:" := by decide
  have hs : 10 ∉ str "size " := by decide
  have hd : 10 ∉ decimal size := fun h => absurd (decimal_digits 10 h).left (by decide)
  have hb : buildLFSPointer oid size = pointerVersion ++ 10 :: ((str "oid sha256:" ++ oid) ++
      10 :: ((str "size " ++ decimal size) ++ 10 :: [])) := by
    have h₁ : str "\noid sha256:" = 10 :: str "oid sha256:" := by decide
    have h₂ : str "\nsize " = 10 :: str "size " := by decide
    have h₃ : str "\n" = [10] := by decide
    have h₄ : Strconv.itoa size = decimal size := by simp [Strconv.itoa]
    rw [buildLFSPointer, h₁, h₂, h₃, h₄]
    simp
  rw [hb, splitOn_line hv, splitOn_line (by simp [hi, ho]), splitOn_line (by simp [hs, hd])]
  rfl

-- What has been built is parsed, unless the size is zero.
theorem parse_build {oid : Str} {size : Nat} (ho : 10 ∉ oid) (hn : oid ≠ []) (hl : size < 2 ^ 63) :
    parseLFSPointer (buildLFSPointer oid size) =
      if size = 0 then .error (.new "not a valid LFS pointer") else .ok (oid, (size : Int)) := by
  have h₁ : parseLine ([], 0) pointerVersion = .ok ([], 0) := by decide
  have h₂ : parseLine ([], 0) (str "oid sha256:" ++ oid) = .ok (oid, 0) := by
    rw [parseLine, if_pos (Str.hasPrefix_append ..), Str.trimPrefix_append]
  have h₃ : parseLine (oid, 0) (str "size " ++ decimal size) = .ok (oid, (size : Int)) := by
    have hp : Str.hasPrefix (str "size " ++ decimal size) (str "oid sha256:") = false := rfl
    rw [parseLine, hp, if_neg (by decide), if_pos (Str.hasPrefix_append ..), Str.trimPrefix_append,
      Strconv.parseInt_decimal hl]
  have h₄ : parseLine (oid, (size : Int)) [] = .ok (oid, (size : Int)) := rfl
  have hf : [pointerVersion, str "oid sha256:" ++ oid, str "size " ++ decimal size, []].foldlM parseLine ([], 0) =
      .ok (oid, (size : Int)) := by
    simp only [List.foldlM_cons, List.foldlM_nil, Bind.bind, Except.bind, h₁, h₂, h₃, h₄]
    rfl
  rw [parseLFSPointer, build_lines size ho, hf]
  change (if oid = [] ∨ (size : Int) = 0 then _ else _ : Except Error (Str × Int)) = _
  by_cases hs : size = 0
  case pos => rw [if_pos (.inr (by simpa using hs)), if_pos hs]; rfl
  case neg => rw [if_neg (by simp [hn, hs]), if_neg hs]; rfl

theorem decimal_length {n k : Nat} (hk : 0 < k) (h : n < 10 ^ k) : (decimal n).length ≤ k := by
  simpa [decimal] using (Nat.length_toDigits_le_iff (by decide) hk).mpr h

-- The first read takes in all of a pointer.
theorem build_length {content : Str} (h : content.length < 2 ^ 63) :
    (buildLFSPointer (oidOf sha256 content) content.length).length ≤ pointerProbe := by
  have hd : (decimal content.length).length ≤ 19 := decimal_length (by decide) (by omega)
  have ho := oidOf_length sha256 content
  have hv : pointerVersion.length = 42 := by decide
  have h₁ : (str "\noid sha256:").length = 12 := by decide
  have h₂ : (str "\nsize ").length = 6 := by decide
  have h₃ : (str "\n").length = 1 := by decide
  have h₄ : Strconv.itoa content.length = decimal content.length := by simp [Strconv.itoa]
  simp only [buildLFSPointer, List.length_append, h₄, ho, hv, h₁, h₂, h₃, pointerProbe]
  omega

theorem isLFSPointer_build (oid : Str) (size : Int) : isLFSPointer (buildLFSPointer oid size) := by
  simp only [isLFSPointer, buildLFSPointer, List.append_assoc]
  exact Str.hasPrefix_append ..

theorem isLFSPointer_take (b : Str) : isLFSPointer (b.take pointerProbe) = isLFSPointer b := by
  have hl : pointerVersion.length ≤ pointerProbe := by decide
  refine Bool.eq_iff_iff.mpr ?_
  simp only [isLFSPointer, Str.hasPrefix, List.isPrefixOf_iff_prefix]
  exact ⟨fun h => h.trans (List.take_prefix ..), fun h => List.prefix_take_iff.mpr ⟨h, hl⟩⟩

end Pointer
section Upload

variable {refOf} {w : World} {branch path msg content oid : Str} {size : Int}

-- Nothing but the file is changed.
theorem commitFile_frame (d : Nat → Draw) :
    let w' := ((commitFile branch path msg content).play (answer refOf) d w).2
    w'.objects = w.objects ∧ ∀ b p, p ≠ path → w'.files b p = w.files b p := by
  have hs : ((commitFile branch path msg content).play (answer refOf) d w).2 ∈
      [w, w.put (Utf8.toValid branch) path content,
        (w.put (Utf8.toValid branch) path content).put (Utf8.toValid branch) path content] := by
    cases hf : w.files (Utf8.toValid branch) path
    case some =>
      rw [commitFile_some (by simp [hf])]
      cases (d 1).effective <;> simp
    case none =>
      rw [commitFile_none (by simp [hf])]
      split
      case h_1 => simp
      case h_2 =>
        cases (d 0).takes <;> cases (d 1).effective <;> simp
  simp only [List.mem_cons, List.not_mem_nil, or_false] at hs
  rcases hs with hs | hs | hs
  all_goals
    rw [hs]
    exact ⟨rfl, fun b p hp => by simp only [put_files_ne hp]⟩

theorem commitFile_always : Prog.Always (answer refOf)
    (fun r s => s.objects = w.objects ∧ (∀ b p, p ≠ path → s.files b p = w.files b p) ∧
      (r = .ok () → s.files (Utf8.toValid branch) path = some content))
    (commitFile branch path msg content : Prog ops (Except Error Unit)) w := by
  have : Nonempty Draw := ⟨fine⟩
  refine Prog.always_iff_play.mpr fun d => ?_
  exact ⟨(commitFile_frame d).left, (commitFile_frame d).right, commitFile_ok⟩

theorem ensureLFSPattern_always : Prog.Always (answer refOf)
    (fun _ s => s.objects = w.objects ∧ ∀ b p, p ≠ attributes → s.files b p = w.files b p)
    (ensureLFSPattern branch path : Prog ops (Except Error Unit)) w := by
  have : Nonempty Draw := ⟨fine⟩
  refine Prog.always_iff_play.mpr fun d => ?_
  rw [GitAttributes.ensureLFSPattern_play]
  split
  case h_1 => exact commitFile_frame _
  case h_2 =>
    split
    case isTrue  => exact ⟨rfl, fun _ _ _ => rfl⟩
    case isFalse => exact commitFile_frame _

theorem lfsBatch_eq (operation : String) :
    (lfsBatch operation oid size : Prog ops (Except Error (List LfsObject))) =
    .call .project fun
      | .error err => .ret (.error err)
      | .ok repo   =>
        if repo = [] then .ret (.error (.new "project has no path_with_namespace"))
        else .call (.batch (str "/" ++ repo ++ str ".git/info/lfs/objects/batch")
          ⟨operation, ["basic"], oid, size⟩) .ret := by
  refine congrArg (Prog.call _) (funext fun r => ?_)
  cases r
  case error   => rfl
  case ok repo =>
    by_cases hr : repo = []
    all_goals
      simp only [Prog.bind, ExceptT.bindCont, hr, if_true, if_false]
      rfl

-- There is at most one object in the answer, which is the one that has been asked for.
theorem lfsBatch_always (operation : String) : Prog.Always (answer refOf)
    (fun r s => s = w ∧ ∀ objects, r = .ok objects →
      objects = [] ∨ ∃ d, objects = [w.object d ⟨operation, ["basic"], oid, size⟩])
    (lfsBatch operation oid size : Prog ops (Except Error (List LfsObject))) w := by
  rw [lfsBatch_eq]
  intro d
  simp only [answer]
  cases d.outcome
  case error => exact ⟨rfl, fun _ h => by cases h⟩
  case ok    =>
    simp only [Except.map]
    split
    case isTrue  => exact ⟨rfl, fun _ h => by cases h⟩
    case isFalse =>
      intro d'
      refine ⟨rfl, fun objects h => ?_⟩
      cases ho : d'.outcome
      case error => simp [answer, ho, Except.map] at h
      case ok    =>
        cases hb : d'.bare
        case true  => exact .inl (by simpa [answer, ho, hb, Except.map] using h.symm)
        case false => exact .inr ⟨d', by simpa [answer, ho, hb, Except.map] using h.symm⟩

-- After a successful upload the content is behind the identifier.
theorem lfsUpload_always (hf : ∀ b ∈ w.objects oid, b = content) : Prog.Always (answer refOf)
    (fun r s => s.files = w.files ∧ (r = .ok () → s.objects oid = some content))
    (lfsUpload oid size content : Prog ops (Except Error Unit)) w := by
  rw [lfsUpload, Call.always_seq]
  refine (lfsBatch_always "upload").mono fun r s h => ?_
  obtain ⟨rfl, ho⟩ := h
  cases r
  case error      => exact ⟨rfl, fun h => by cases h⟩
  case ok objects =>
    rcases ho objects rfl with rfl | ⟨d, rfl⟩
    case inl => exact ⟨rfl, fun h => by cases h⟩
    case inr =>
      cases he : d.refusal
      case some err =>
        simp only [Call.next, World.object, he]
        exact ⟨rfl, fun h => by cases h⟩
      case none =>
        cases hb : s.objects oid
        case some b =>
          simp only [Call.next, World.object, he, hb, Option.isSome_some, if_true]
          exact ⟨rfl, fun _ => by rw [hb, hf b hb]⟩
        case none =>
          simp only [Call.next, World.object, he, hb, Option.isSome_none]
          intro d'
          cases hd : d'.failure
          case some err =>
            simp only [answer, hd]
            refine ⟨?_, fun h => by cases h⟩
            split <;> rfl
          case none =>
            simp only [answer, hd, Prog.bind, ExceptT.bindCont]
            by_cases hs : 400 ≤ d'.status
            case pos => simp only [hs, if_true]; exact ⟨rfl, fun h => by cases h⟩
            case neg =>
              simp only [hs, if_false]
              cases d.verify
              case false => exact ⟨rfl, fun _ => Function.update_self ..⟩
              case true  =>
                intro d''
                simp only [answer]
                cases d''.outcome
                case error => exact ⟨rfl, fun h => by cases h⟩
                case ok    => exact ⟨rfl, fun _ => Function.update_self ..⟩

end Upload
section Download

variable {refOf} {w : World} {branch path b : Str}

theorem fine_failure : fine.failure = none :=
  rfl

theorem fine_outcome : fine.outcome = .ok () :=
  rfl

theorem fine_stream (b : Str) : fine.stream b = ⟨b, none⟩ :=
  rfl

theorem fine_object (req : LfsBatchReq) : (w.object fine req).download =
    if (w.objects req.oid).isSome then some ⟨req.oid⟩ else none :=
  rfl

theorem lfsDownload_fine (oid : Str) (size : Int) :
    (lfsDownload oid size).play (answer refOf) (fun _ => fine) w =
      match w.objects oid with
      | none   => (.error (.new "LFS batch returned no download action"), w)
      | some b => (.ok (⟨b, none⟩, size), w) := by
  have hp : fine.repo ≠ [] := by decide
  have hs : ¬400 ≤ fine.status := by decide
  have hb : fine.bare = false := rfl
  rw [lfsDownload, Call.bind_eq, lfsBatch_eq]
  simp only [Prog.bind, Prog.play, answer, fine_outcome, Except.map, if_neg hp, hb, Bool.false_eq_true, if_false,
    Call.next, List.head?_cons, Option.bind_some, fine_object]
  cases ho : w.objects oid
  case none   => rfl
  case some b =>
    simp only [Option.isSome_some, if_true, perform, Call.bind_eq, Prog.perform, Prog.bind, Prog.play, answer,
      fine_failure, ho, Call.next, if_neg hs]
    rfl

theorem committed_ne_nil (branch : Str) : committed branch ≠ [] := by
  refine Utf8.toValid_ne_nil ?_
  unfold defaultBranch
  split
  case isTrue    => decide
  case isFalse h => exact h

section Kinds

variable (hd : refOf (Url.encodeValues [(str "ref", committed branch)]) = some (committed branch))
         (hb : w.files (committed branch) path = some b)
include hd hb

theorem download_plain (hp : isLFSPointer b = false) : ∃ size,
    (gitLabDownload path (committed branch)).play (answer refOf) (fun _ => fine) w = (.ok (⟨b, none⟩, size), w) := by
  rw [gitLabDownload, if_pos (committed_ne_nil branch)]
  simp only [gitlabClient, rawFile, perform, Call.bind_eq, Prog.perform, Prog.bind, Prog.play, answer,
    fine_outcome, fine_failure, fine_stream, Call.next, hd, hb, isLFSPointer_take, hp]
  rcases Strconv.parseInt (decimal b.length) with ⟨v, _ | err⟩
  case none => exact ⟨v, rfl⟩
  case some => exact ⟨-1, rfl⟩

theorem download_pointer (hp : isLFSPointer b) :
    (gitLabDownload path (committed branch)).play (answer refOf) (fun _ => fine) w =
      match parseLFSPointer (b.take pointerProbe) with
      | .error err => (.error (.wrap "parse LFS pointer" err), w)
      | .ok p      => (lfsDownload p.1 p.2).play (answer refOf) (fun _ => fine) w := by
  rw [gitLabDownload, if_pos (committed_ne_nil branch)]
  simp only [gitlabClient, rawFile, perform, Call.bind_eq, Prog.perform, Prog.bind, Prog.play, answer,
    fine_outcome, fine_failure, fine_stream, Call.next, hd, hb, isLFSPointer_take, hp, if_true]
  cases parseLFSPointer (b.take pointerProbe) <;> rfl

end Kinds
end Download
section Both

variable {refOf} {w : World} {path branch msg content : Str}

-- GitLab reads back what has been encoded.
def RefDecoded (refOf : Str → Option Str) : Prop :=
  ∀ ref, refOf (Url.encodeValues [(str "ref", ref)]) = some ref

-- The steps of an upload, after the message and the branch have been filled in.
def steps (path branch msg content : Str) : Bool → Call Unit
  | false => commitFile branch path msg content
  | true  => do
    lfsUpload (oidOf sha256 content) content.length content
    commitFile branch path msg (buildLFSPointer (oidOf sha256 content) content.length)
    ensureLFSPattern branch path

theorem gitLabUpload_eq (path branch msg content : Str) (lfs : Bool) : ∃ msg',
    (gitLabUpload sha256 path branch msg (.ok content) lfs : Prog ops (Except Error Unit)) =
    .call .client (Call.next fun _ => steps sha256 path (defaultBranch branch) msg' content lfs) := by
  refine ⟨if msg = [] then str "Upload " ++ path ++ str " via knaic AI Storage" else msg, ?_⟩
  refine congrArg (Prog.call _) (funext fun r => ?_)
  cases r
  case error => rfl
  case ok    => cases lfs <;> rfl

theorem upload_always {lfs : Bool} {P : World → Prop} (h : ∀ msg', Prog.Always (answer refOf)
    (fun r s => r = .ok () → P s)
    (steps sha256 path (defaultBranch branch) msg' content lfs : Prog ops (Except Error Unit)) w) :
    Prog.Always (answer refOf) (fun r s => r = .ok () → P s)
      (gitLabUpload sha256 path branch msg (.ok content) lfs : Prog ops (Except Error Unit)) w := by
  obtain ⟨msg', hu⟩ := gitLabUpload_eq sha256 path branch msg content lfs
  rw [hu]
  intro d
  simp only [answer]
  cases d.outcome
  case error => exact fun h => by cases h
  case ok    => exact h msg'

theorem plain_round_trip (hd : RefDecoded refOf) (hp : isLFSPointer content = false) :
    RoundTrip sha256 refOf path content false := by
  intro w branch msg d _ upload hok
  have ha := @upload_always sha256 refOf w _ _ msg _ false
    (P := fun s => s.files (committed branch) path = some content)
    fun _ => commitFile_always.mono fun _ _ h => h.right.right
  have ⟨size, h⟩ := download_plain (hd _) (ha.play d hok) hp
  exact ⟨size, by rw [h]⟩

-- The pointer and the object are in place.
def Linked (w : World) (branch path content : Str) : Prop :=
  w.files (Utf8.toValid branch) path = some (buildLFSPointer (oidOf sha256 content) content.length) ∧
  w.objects (oidOf sha256 content) = some content

theorem lfs_always (hf : Faithful sha256 w content) (hp : path ≠ attributes) :
    Prog.Always (answer refOf) (fun r s => r = .ok () → Linked sha256 s branch path content)
      (steps sha256 path branch msg content true : Prog ops (Except Error Unit)) w := by
  rw [steps, Call.always_seq]
  refine (lfsUpload_always hf).mono fun r s hu => ?_
  cases r
  case error => exact fun h => nomatch h
  case ok    =>
    rw [Call.next, Call.always_seq]
    refine commitFile_always.mono fun r s' hc => ?_
    cases r
    case error => exact fun h => nomatch h
    case ok    =>
      refine ensureLFSPattern_always.mono fun r s'' he _ => ⟨?_, ?_⟩
      · rw [he.right _ _ hp, hc.right.right rfl]
      · rw [he.left, hc.left, hu.right rfl]

-- The download of what is linked.
theorem download_linked (hd : RefDecoded refOf) (hl : content.length < 2 ^ 63)
    (h : Linked sha256 w (defaultBranch branch) path content) :
    (gitLabDownload path (committed branch)).play (answer refOf) (fun _ => fine) w =
      if content = [] then (.error (.wrap "parse LFS pointer" (.new "not a valid LFS pointer")), w)
      else (.ok (⟨content, none⟩, content.length), w) := by
  have hn : 10 ∉ oidOf sha256 content := hex_plain _
  have ho : oidOf sha256 content ≠ [] := fun h => by simpa [h] using oidOf_length sha256 content
  rw [download_pointer (hd _) h.left (isLFSPointer_build ..), List.take_of_length_le (build_length sha256 hl),
    parse_build hn ho hl]
  by_cases hc : content = []
  case pos => simp [hc]
  case neg => simp only [List.length_eq_zero_iff, hc, if_false, lfsDownload_fine, h.right]

theorem lfs_round_trip (hd : RefDecoded refOf) (hl : content.length < 2 ^ 63) (hc : content ≠ [])
    (hp : path ≠ attributes) : RoundTrip sha256 refOf path content true := by
  intro w branch msg d hf upload hok
  have ha := @upload_always sha256 refOf w _ branch msg _ _ _
    fun _ => lfs_always sha256 hf hp
  refine ⟨content.length, ?_⟩
  rw [download_linked sha256 hd hl (ha.play d hok), if_neg hc]

end Both
section Fair

variable {refOf} {w : World} {path branch msg content : Str} {cut : Option Nat}

-- Requests succeed, but a body may break off.
def fair (cut : Option Nat) : Draw :=
  { fine with cut := cut }

theorem fair_failure : (fair cut).failure = none :=
  rfl

theorem fair_outcome : (fair cut).outcome = .ok () :=
  rfl

theorem commitFile_fair : ∃ s, (commitFile branch path msg content).play (answer refOf) (fun _ => fair cut) w =
    (.ok (), s) := by
  cases hf : w.files (Utf8.toValid branch) path
  case some => exact ⟨_, by rw [commitFile_some (by simp [hf]), fair_failure]⟩
  case none => exact ⟨_, by rw [commitFile_none (by simp [hf]), fair_failure]⟩

theorem ensureLFSPattern_fair :
    ∃ s, (ensureLFSPattern branch path).play (answer refOf) (fun _ => fair cut) w = (.ok (), s) := by
  rw [GitAttributes.ensureLFSPattern_play]
  split
  case h_1 => exact commitFile_fair
  case h_2 =>
    split
    case isTrue  => exact ⟨_, rfl⟩
    case isFalse => exact commitFile_fair

theorem seq_fair {α β : Type} {p : GitLab.Call α} {a : α} {s : World}
    (h : Prog.play (answer refOf) (p : Prog ops (Except Error α)) (fun _ => fair cut) w = (.ok a, s))
    (f : α → GitLab.Call β) :
    Prog.play (answer refOf) (p >>= f : GitLab.Call β) (fun _ => fair cut) w =
      Prog.play (answer refOf) (f a : Prog ops (Except Error β)) (fun _ => fair cut) s := by
  rw [Call.bind_eq, Prog.play_bind_const, h]
  rfl

theorem lfsBatch_fair (operation : String) (oid : Str) (size : Int) :
    (lfsBatch operation oid size).play (answer refOf) (fun _ => fair cut) w =
      (.ok [w.object (fair cut) ⟨operation, ["basic"], oid, size⟩], w) := by
  have hp : (fair cut).repo ≠ [] := by
    change fine.repo ≠ []
    decide
  have hb : (fair cut).bare = false := rfl
  rw [lfsBatch_eq]
  simp only [Prog.play, answer, fair_outcome, Except.map, if_neg hp, hb, Bool.false_eq_true, if_false]

theorem lfsUpload_fair (oid : Str) (size : Int) :
    ∃ s, (lfsUpload oid size content).play (answer refOf) (fun _ => fair cut) w = (.ok (), s) := by
  rw [lfsUpload, seq_fair (lfsBatch_fair ..)]
  cases ho : w.objects oid
  case some b => exact ⟨w, by simp only [World.object, ho]; rfl⟩
  case none   => exact ⟨_, by simp only [World.object, ho]; rfl⟩

theorem upload_fair (path branch msg content : Str) (lfs : Bool) : ∃ msg',
    (gitLabUpload sha256 path branch msg (.ok content) lfs).play (answer refOf) (fun _ => fair cut) w =
    (steps sha256 path (defaultBranch branch) msg' content lfs).play (answer refOf) (fun _ => fair cut) w := by
  have ⟨msg', hu⟩ := gitLabUpload_eq sha256 path branch msg content lfs
  exact ⟨msg', by rw [hu]; rfl⟩

theorem steps_fair (lfs : Bool) : ∃ s,
    (steps sha256 path branch msg content lfs).play (answer refOf) (fun _ => fair cut) w = (.ok (), s) := by
  cases lfs
  case false => exact commitFile_fair
  case true  =>
    obtain ⟨s, h⟩ := lfsUpload_fair (oidOf sha256 content) content.length
    obtain ⟨s', h'⟩ := commitFile_fair
    rw [steps, seq_fair h, seq_fair h']
    exact ensureLFSPattern_fair

theorem upload_fair_ok (lfs : Bool) :
    ((gitLabUpload sha256 path branch msg (.ok content) lfs).play (answer refOf) (fun _ => fair cut) w).1 = .ok () := by
  obtain ⟨_, hu⟩ := upload_fair sha256 path branch msg content lfs
  obtain ⟨_, hs⟩ := steps_fair sha256 lfs
  rw [hu, hs]

end Fair
section Necessary

variable {refOf} {path content : Str}

def blank : World where
  files _ _ := none
  objects _ := none
  commits   := 0

theorem plain_necessary (hd : RefDecoded refOf) (h : RoundTrip sha256 refOf path content false) :
    isLFSPointer content = false := by
  refine Bool.eq_false_iff.mpr fun hp => ?_
  have ha := @upload_always sha256 refOf blank _ [] [] _ false
    (P := fun s => s.objects = blank.objects ∧ s.files (committed []) path = some content)
    fun _ => commitFile_always.mono fun _ _ h hr => ⟨h.left, h.right.right hr⟩
  have hok := @upload_fair_ok sha256 refOf blank path [] [] content none false
  have ⟨size, hs⟩ := h blank [] [] (fun _ => fair none) (fun _ hb => nomatch hb) hok
  have ⟨ho, hf⟩ := ha.play _ hok
  have hb : blank.objects = fun _ => none := rfl
  rw [download_pointer (hd _) hf hp] at hs
  cases hq : parseLFSPointer (content.take pointerProbe)
  case error err => simp [hq] at hs
  case ok p      => simp [hq, lfsDownload_fine, ho, hb] at hs

theorem lfs_necessary (hd : RefDecoded refOf) (h : RoundTrip sha256 refOf path [] true) : path = attributes := by
  by_contra hp
  have hf : Faithful sha256 blank [] := fun _ hb => nomatch hb
  have ha := @upload_always sha256 refOf _ _ [] [] _ _ _
    fun _ => lfs_always sha256 hf hp
  have hok := @upload_fair_ok sha256 refOf blank path [] [] [] none true
  have ⟨size, hs⟩ := h blank [] [] (fun _ => fair none) hf hok
  rw [download_linked sha256 hd (by decide) (ha.play _ hok), if_pos rfl] at hs
  cases hs

theorem build_take (oid : Str) (size : Int) {n : Nat} (hn : n ≤ 1) :
    (buildLFSPointer oid size).take n = (str "v").take n := by
  have hv : 1 ≤ pointerVersion.length ∧ str "v" = pointerVersion.take 1 := by decide
  have hp : pointerVersion <+: buildLFSPointer oid size := by
    simp only [buildLFSPointer, List.append_assoc]
    exact List.prefix_append ..
  obtain ⟨t, ht⟩ := hp
  rw [← ht, hv.right, List.take_take, Nat.min_eq_left hn, List.take_append_of_le_length (hn.trans hv.left)]

theorem arrived_fair (hd : RefDecoded refOf) {s : World} {n : Nat} (hn : n ≤ 1) {b : Str}
    (h : s.files (Utf8.toValid (defaultBranch [])) attributes = some b) :
    GitAttributes.arrived refOf s (defaultBranch []) (fair (some n)) = some (b.take n) := by
  have hq : str "ref=" ++ defaultBranch [] = Url.encodeValues [(str "ref", str "main")] := by decide
  have hm : Utf8.toValid (defaultBranch []) = str "main" := by decide
  have hl : n ≤ attributesLimit := hn.trans (by decide)
  rw [hm] at h
  rw [GitAttributes.arrived_eq, if_pos fair_failure, hq, hd, Option.bind_some, h, Option.map_some]
  simp only [Draw.stream, fair, List.take_take, Nat.min_eq_right hl]

-- What is left of the pointer where the attributes are themselves the file.
theorem overwritten (hd : RefDecoded refOf) (w : World) {n : Nat} (hn : n ≤ 1) :
    ((gitLabUpload sha256 attributes [] [] (.ok content) true).play (answer refOf) (fun _ => fair (some n)) w).2.files
      (committed []) attributes = some (updated ((str "v").take n) attributes) := by
  obtain ⟨msg, hu⟩ := @upload_fair sha256 refOf w (some n) attributes [] [] content true
  obtain ⟨s, h⟩ := @lfsUpload_fair refOf w content (some n) (oidOf sha256 content) content.length
  obtain ⟨s', h'⟩ := @commitFile_fair refOf s attributes (defaultBranch []) msg
    (buildLFSPointer (oidOf sha256 content) content.length) (some n)
  have hs : s'.files (Utf8.toValid (defaultBranch [])) attributes =
      some (buildLFSPointer (oidOf sha256 content) content.length) := by
    have hc := commitFile_ok (congrArg Prod.fst h')
    rwa [h'] at hc
  have ht : tracked attributes ((str "v").take n) = false := by
    rcases Nat.le_one_iff_eq_zero_or_eq_one.mp hn with rfl | rfl <;> decide
  rw [hu, steps, seq_fair h, seq_fair h', GitAttributes.ensureLFSPattern_play, arrived_fair hd hn hs,
    build_take _ _ hn]
  simp only [ht, Bool.false_eq_true, if_false]
  obtain ⟨s'', h''⟩ := @commitFile_fair refOf s' attributes (defaultBranch [])
    (str "Mark " ++ attributes ++ str " as LFS via knaic AI Storage")
    (updated ((str "v").take n) attributes) (some n)
  exact commitFile_ok (congrArg Prod.fst h'')

theorem attributes_necessary (hd : RefDecoded refOf) : ¬RoundTrip sha256 refOf attributes content true := by
  intro h
  have left {n : Nat} (hn : n ≤ 1) : content = updated ((str "v").take n) attributes := by
    have hok := @upload_fair_ok sha256 refOf blank attributes [] [] content (some n) true
    have ⟨size, hs⟩ := h blank [] [] (fun _ => fair (some n)) (fun _ hb => nomatch hb) hok
    have hp : isLFSPointer (updated ((str "v").take n) attributes) = false := by
      rcases Nat.le_one_iff_eq_zero_or_eq_one.mp hn with rfl | rfl <;> decide
    obtain ⟨size', hs'⟩ := download_plain (hd _) (@overwritten sha256 refOf content hd blank n hn) hp
    rw [hs'] at hs
    injection hs with hs
    injection hs with hs
    injection hs with hs
    exact hs.symm
  have hne : updated ((str "v").take 0) attributes ≠ updated ((str "v").take 1) attributes := by decide
  exact hne ((left (Nat.zero_le 1)).symm.trans (left (Nat.le_refl 1)))

end Necessary

theorem round_trip_iff {refOf} (hd : RefDecoded refOf) {path content : Str} (hl : content.length < 2 ^ 63) (lfs : Bool) :
    RoundTrip sha256 refOf path content lfs ↔
      (lfs = false ∧ isLFSPointer content = false) ∨ (lfs = true ∧ content ≠ [] ∧ path ≠ attributes) := by
  cases lfs
  case false =>
    simp only [true_and, Bool.false_eq_true, false_and, or_false]
    exact ⟨plain_necessary sha256 hd, plain_round_trip sha256 hd⟩
  case true =>
    simp only [Bool.true_eq_false, true_and, false_and, false_or]
    constructor
    case mp =>
      intro h
      have hp : path ≠ attributes := by
        rintro rfl
        exact attributes_necessary sha256 hd h
      refine ⟨?_, hp⟩
      rintro rfl
      exact hp (lfs_necessary sha256 hd h)
    case mpr => exact fun ⟨hc, hp⟩ => lfs_round_trip sha256 hd hl hc hp

-- A query as it is commonly read is read back.
theorem refOfQuery_decoded : RefDecoded refOfQuery := by
  intro ref
  have ht : (Url.encodeValues [(str "ref", ref)]).takeWhile (· ≠ Url.hash) = Url.encodeValues [(str "ref", ref)] :=
    List.takeWhile_eq_self_iff.mpr fun b hb => by simpa using (Url.encodeValues_plain _ b hb).left
  rw [refOfQuery, ht, Url.parseQuery_encodeValues]
  simp

section Probe

def noDigest (_ : Str) : Vector UInt8 32 :=
  .replicate 32 0

theorem round_trip_weights : RoundTrip noDigest refOfQuery (str "model.gguf") (str "GGUF") true ↔
    (true = false ∧ isLFSPointer (str "GGUF") = false) ∨
    (true = true ∧ str "GGUF" ≠ [] ∧ str "model.gguf" ≠ attributes) :=
  round_trip_iff noDigest refOfQuery_decoded (by decide) true

-- An empty file comes back as an error.
theorem empty_not_round_trip : ¬∀ sha256 refOf path content lfs, RefDecoded refOf →
    content.length < 2 ^ 63 → RoundTrip sha256 refOf path content lfs := by
  intro h
  have hr := h noDigest refOfQuery (str "empty.bin") [] true refOfQuery_decoded (by decide)
  exact absurd (lfs_necessary noDigest refOfQuery_decoded hr) (by decide)

end Probe
end AiStorage.GitLabRoundTrip
