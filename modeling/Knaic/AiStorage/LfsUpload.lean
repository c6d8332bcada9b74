import Knaic.AiStorage.GitLabRoundTrip
import Knaic.Effects.Transcript

open Go Effects

-- What an upload with LFS reports, against what GitLab and its LFS server answered.
namespace AiStorage.LfsUpload

open GitLab GitLabRoundTrip

abbrev Log :=
  Transcript ops

variable (log : Log) (sha256 : Str → Vector UInt8 32) (path branch content : Str)

-- The first object that the batch call was answered with.
def Answered (obj : LfsObject) : Prop :=
  ∃ repo req objects, ⟨.batch repo req, .ok objects⟩ ∈ log ∧ objects.head? = some obj

def Uploaded (act : LfsAction) : Prop :=
  ∃ res : LfsResponse, ⟨.upload act content, .ok res⟩ ∈ log ∧ res.statusCode < 400

def Verified (act : LfsAction) (oid : Str) (size : Int) : Prop :=
  ∃ res : LfsResponse, ⟨.verify act oid size, .ok res⟩ ∈ log ∧ res.statusCode < 400

-- The object is the one of the content, without an error, and what it asks for was accepted.
structure Served (obj : LfsObject) : Prop where
  oid      : obj.oid = oidOf sha256 content
  noError  : obj.error = none
  uploaded : ∀ act ∈ obj.upload, Uploaded log content act
  verified : ∀ act ∈ obj.verify, Verified log act (oidOf sha256 content) content.length

-- The pointer was created or updated.
def Committed : Prop :=
  ∃ c : GitLab.Commit, c.branch = defaultBranch branch ∧
    c.content = buildLFSPointer (oidOf sha256 content) content.length ∧
    (⟨.createFile path c, .ok ()⟩ ∈ log ∨ ⟨.updateFile path c, .ok ()⟩ ∈ log)

def Delivered : Prop :=
  (∃ obj, Answered log obj ∧ Served log sha256 content obj) ∧ Committed log sha256 path branch content

-- The object is the one of the content, it asks for a check only of what is uploaded, and no check was
-- turned down.
structure Sound (obj : LfsObject) : Prop where
  oid      : obj.oid = oidOf sha256 content
  verify   : obj.upload = none → obj.verify = none
  accepted : ∀ act oid size, ∀ res : LfsResponse, ⟨.verify act oid size, .ok res⟩ ∈ log → res.statusCode < 400

-- The attributes could neither be created nor updated.
def Unmarked : Prop :=
  ∃ c err, log.getLast? = some ⟨.updateFile attributes c, .error err⟩

-- A request about a file, and not about an object of LFS.
def IsFile : Op → Prop
  | .rawFile _ _ | .createFile _ _ | .updateFile _ _ => True
  | _                                                => False

section Log

variable {log sha256 path branch content} {l : Log} {obj : LfsObject}

-- Requests about files do not matter to what is known of the object.
theorem mem_append_file (h : ∀ e ∈ l, IsFile e.1) {e : (op : ops.Op) × ops.Res op} (he : ¬IsFile e.1) :
    e ∈ log ++ l ↔ e ∈ log := by
  refine ⟨fun hm => ?_, fun hm => List.mem_append_left _ hm⟩
  obtain hm | hm := List.mem_append.mp hm
  case inl => exact hm
  case inr => exact absurd (h e hm) he

theorem answered_append (h : ∀ e ∈ l, IsFile e.1) : Answered (log ++ l) obj ↔ Answered log obj := by
  simp only [Answered]
  refine exists_congr fun repo => exists_congr fun req => exists_congr fun objects => and_congr_left fun _ => ?_
  exact mem_append_file h id

theorem served_append (h : ∀ e ∈ l, IsFile e.1) :
    Served (log ++ l) sha256 content obj ↔ Served log sha256 content obj := by
  have hu (act : LfsAction) : Uploaded (log ++ l) content act ↔ Uploaded log content act :=
    exists_congr fun res => and_congr_left fun _ => mem_append_file h id
  have hv (act : LfsAction) (oid : Str) (size : Int) :
      Verified (log ++ l) act oid size ↔ Verified log act oid size :=
    exists_congr fun res => and_congr_left fun _ => mem_append_file h id
  constructor
  case mp  => exact fun s => ⟨s.oid, s.noError, fun a ha => (hu a).mp (s.uploaded a ha), fun a ha => (hv ..).mp (s.verified a ha)⟩
  case mpr => exact fun s => ⟨s.oid, s.noError, fun a ha => (hu a).mpr (s.uploaded a ha), fun a ha => (hv ..).mpr (s.verified a ha)⟩

theorem sound_append (h : ∀ e ∈ l, IsFile e.1) :
    Sound (log ++ l) sha256 content obj ↔ Sound log sha256 content obj := by
  constructor
  case mp  => exact fun s => ⟨s.oid, s.verify, fun a o n r hm => s.accepted a o n r ((mem_append_file h id).mpr hm)⟩
  case mpr => exact fun s => ⟨s.oid, s.verify, fun a o n r hm => s.accepted a o n r ((mem_append_file h id).mp hm)⟩

end Log
section Steps

variable {sha256 : Str → Vector UInt8 32} {path branch msg content oid : Str} {size : Int} {l : Log}

def IsCommit : Op → Prop
  | .createFile _ _ | .updateFile _ _ => True
  | _                                 => False

theorem not_committed (h : ∀ e ∈ l, ¬IsCommit e.1) : ¬Committed l sha256 path branch content := by
  rintro ⟨c, -, -, hm | hm⟩
  · exact h _ hm trivial
  · exact h _ hm trivial

theorem lfsBatch_transcript (operation : String) : Prog.Always Transcript.record
    (fun r (l : Log) => (∀ e ∈ l, ¬IsCommit e.1) ∧ ∀ objects, r = .ok objects →
      ∃ repo path req, l = [⟨Op.client, .ok ()⟩, ⟨Op.project, .ok repo⟩, ⟨Op.batch path req, .ok objects⟩])
    (lfsBatch operation oid size : Prog ops (Except Error (List LfsObject))) [⟨Op.client, .ok ()⟩] := by
  rw [lfsBatch_eq]
  intro d
  cases hp : d Op.project
  case error err => simp [Transcript.record, hp, Prog.Always, IsCommit]
  case ok repo   =>
    simp only [Transcript.record, hp]
    split
    case isTrue  => simp [Prog.Always, IsCommit]
    case isFalse =>
      intro d'
      refine ⟨by simp [Transcript.record, IsCommit], fun objects ho => ?_⟩
      exact ⟨repo, _, _, congrArg (fun r => ([⟨Op.client, .ok ()⟩, ⟨Op.project, .ok repo⟩, ⟨Op.batch _ _, r⟩] : Log)) ho⟩

-- What the batch call answered, once the rest of the requests are behind it.
theorem answered_batch {repo : Except Error Str} {query : Str} {req : LfsBatchReq} {objects : List LfsObject}
    (hl : ∀ repo req r, (⟨Op.batch repo req, r⟩ : (op : ops.Op) × ops.Res op) ∉ l) {obj : LfsObject} :
    Answered (⟨Op.client, .ok ()⟩ :: ⟨Op.project, repo⟩ :: ⟨Op.batch query req, .ok objects⟩ :: l) obj ↔
      objects.head? = some obj := by
  constructor
  case mp =>
    rintro ⟨repo', req', objects', hm, ho⟩
    rw [List.mem_cons, List.mem_cons, List.mem_cons] at hm
    obtain hm | hm | hm | hm := hm
    · cases hm
    · cases hm
    · cases hm
      exact ho
    · exact absurd hm (hl _ _ _)
  case mpr => exact fun ho => ⟨query, req, objects, by simp, ho⟩

-- With one object in the answer, that is the one to look at.
theorem answered_one {P Q : LfsObject → Prop} {obj : LfsObject} (h : ∀ o, Answered l o ↔ some obj = some o)
    (hpq : P obj ↔ Q obj) : (∃ o, Answered l o ∧ P o) ↔ ∃ o, Answered l o ∧ Q o := by
  simp only [h, Option.some.injEq]
  constructor
  · rintro ⟨_, rfl, hp⟩; exact ⟨_, rfl, hpq.mp hp⟩
  · rintro ⟨_, rfl, hq⟩; exact ⟨_, rfl, hpq.mpr hq⟩

-- Of an object without an error that was uploaded where it asks for it, only the check is left to look at.
theorem served_iff_sound {obj : LfsObject} (he : obj.error = none) (hu : ∀ act ∈ obj.upload, Uploaded l content act)
    (hv : (∀ act ∈ obj.verify, Verified l act (oidOf sha256 content) content.length) ↔
      (obj.upload = none → obj.verify = none) ∧
        ∀ act oid size, ∀ res : LfsResponse, ⟨.verify act oid size, .ok res⟩ ∈ l → res.statusCode < 400) :
    Served l sha256 content obj ↔ Sound l sha256 content obj := by
  constructor
  case mp =>
    intro h
    have ⟨hn, ha⟩ := hv.mp h.verified
    exact ⟨h.oid, hn, ha⟩
  case mpr => exact fun h => ⟨h.oid, he, hu, hv.mpr ⟨h.verify, h.accepted⟩⟩

-- Without a check nothing was verified, and none was turned down.
theorem verified_iff_unasked {obj : LfsObject}
    (hl : ∀ act oid size r, (⟨Op.verify act oid size, r⟩ : (op : ops.Op) × ops.Res op) ∉ l)
    (hv : obj.upload.isSome → obj.verify = none) :
    (∀ act ∈ obj.verify, Verified l act (oidOf sha256 content) content.length) ↔
      (obj.upload = none → obj.verify = none) ∧
        ∀ act oid size, ∀ res : LfsResponse, ⟨.verify act oid size, .ok res⟩ ∈ l → res.statusCode < 400 := by
  constructor
  case mp =>
    intro h
    refine ⟨fun _ => Option.eq_none_iff_forall_ne_some.mpr fun act ha => ?_, fun _ _ _ _ hm => (hl _ _ _ _ hm).elim⟩
    obtain ⟨res, hm, -⟩ := h act ha
    exact hl _ _ _ _ hm
  case mpr =>
    rintro ⟨hn, -⟩ act ha
    have hvn : obj.verify = none := by
      cases hu : obj.upload
      case none   => exact hn hu
      case some _ => exact hv (by simp [hu])
    rw [hvn] at ha
    cases ha

-- With a check, it is the only one that there is.
theorem verified_iff_asked {obj : LfsObject} {v : LfsAction} {res : LfsResponse} (hu : obj.upload.isSome)
    (hv : obj.verify = some v)
    (hm : ⟨Op.verify v (oidOf sha256 content) content.length, .ok res⟩ ∈ l)
    (hl : ∀ act oid size, ∀ r : LfsResponse, ⟨.verify act oid size, .ok r⟩ ∈ l → r = res) :
    (∀ act ∈ obj.verify, Verified l act (oidOf sha256 content) content.length) ↔
      (obj.upload = none → obj.verify = none) ∧
        ∀ act oid size, ∀ res : LfsResponse, ⟨.verify act oid size, .ok res⟩ ∈ l → res.statusCode < 400 := by
  constructor
  case mp =>
    intro h
    refine ⟨fun hn => (by simp [hn] at hu), fun act oid size r hr => ?_⟩
    obtain ⟨r', hr', hlt⟩ := h v hv
    rw [hl _ _ _ r hr, ← hl _ _ _ r' hr']
    exact hlt
  case mpr =>
    rintro ⟨-, ha⟩ act hact
    rw [hv] at hact
    cases hact
    exact ⟨res, hm, ha _ _ _ res hm⟩

-- A call that succeeds has been served the object, but for what it does not look at.
theorem lfsUpload_transcript : Prog.Always Transcript.record
    (fun r (l : Log) => (∀ e ∈ l, ¬IsCommit e.1) ∧ (r = .ok () →
      ((∃ obj, Answered l obj ∧ Served l sha256 content obj) ↔ ∃ obj, Answered l obj ∧ Sound l sha256 content obj)))
    (lfsUpload (oidOf sha256 content) content.length content : Prog ops (Except Error Unit)) [⟨Op.client, .ok ()⟩] := by
  rw [lfsUpload, Call.always_seq]
  refine (lfsBatch_transcript "upload").mono fun r l h => ?_
  obtain ⟨hn, ho⟩ := h
  cases r
  case error      => exact ⟨hn, fun h => by cases h⟩
  case ok objects =>
    obtain ⟨repo, query, req, rfl⟩ := ho objects rfl
    cases objects
    case nil           => exact ⟨hn, fun h => by cases h⟩
    case cons obj rest =>
      cases he : obj.error
      case some err =>
        simp only [Call.next, he]
        exact ⟨hn, fun h => by cases h⟩
      case none     =>
        cases hu : obj.upload
        case none    =>
          simp only [Call.next, he, hu]
          refine ⟨hn, fun _ => answered_one (fun o => answered_batch (by simp)) (served_iff_sound he ?_ ?_)⟩
          case refine_1 => simp [hu]
          case refine_2 => exact verified_iff_unasked (by simp) (by simp [hu])
        case some up =>
          simp only [Call.next, he, hu]
          rw [Call.always_seq]
          intro d
          simp only [Transcript.record]
          have hn' (r : Except Error LfsResponse) : ∀ e ∈ ([⟨Op.client, .ok ()⟩, ⟨Op.project, .ok repo⟩,
              ⟨Op.batch query req, .ok (obj :: rest)⟩] ++ [⟨Op.upload up content, r⟩] : Log), ¬IsCommit e.1 := by
            simp [IsCommit]
          cases hr : d (.upload up content)
          case error err => exact ⟨hn' _, fun h => by cases h⟩
          case ok res    =>
            simp only [Prog.Always, Call.next]
            by_cases hs : 400 ≤ res.statusCode
            case pos =>
              rw [if_pos hs]
              exact ⟨hn' _, fun h => by cases h⟩
            case neg =>
              rw [if_neg hs]
              have hs := Nat.lt_of_not_le hs
              cases hv : obj.verify
              case none   =>
                refine ⟨hn' _, fun _ => answered_one (fun o => answered_batch (by simp)) (served_iff_sound he ?_ ?_)⟩
                case refine_1 => exact fun act ha => ⟨res, by simp [Option.some.inj (hu.symm.trans ha)], hs⟩
                case refine_2 => exact verified_iff_unasked (by simp) fun _ => hv
              case some v =>
                simp only
                rw [Call.always_seq]
                intro d'
                simp only [Transcript.record]
                cases hr' : d' (.verify v (oidOf sha256 content) content.length)
                case error err => exact ⟨by simp [IsCommit], fun h => by cases h⟩
                case ok res'   =>
                  refine ⟨by simp [IsCommit], fun _ => answered_one (fun o => answered_batch (by simp))
                    (served_iff_sound he ?_ ?_)⟩
                  case refine_1 => exact fun act ha => ⟨res, by simp [Option.some.inj (hu.symm.trans ha)], hs⟩
                  case refine_2 =>
                    apply verified_iff_asked (by simp [hu]) hv (List.mem_append_right _ (.head _))
                    rintro act oid size r hm
                    simp at hm
                    exact hm.right

-- A commit succeeds if one of its two requests did.
theorem commitFile_transcript : Prog.Always Transcript.record
    (fun r (l : Log) => (∀ e ∈ l, IsFile e.1) ∧ l ≠ [] ∧
      (r = .ok () → ⟨Op.createFile path ⟨branch, msg, content⟩, .ok ()⟩ ∈ l ∨
        ⟨Op.updateFile path ⟨branch, msg, content⟩, .ok ()⟩ ∈ l) ∧
      (∀ c, ⟨Op.createFile path c, .ok ()⟩ ∈ l ∨ ⟨Op.updateFile path c, .ok ()⟩ ∈ l → r = .ok ()) ∧
      (r = .ok () ↔ ¬∃ c err, l.getLast? = some ⟨Op.updateFile path c, .error err⟩))
    (commitFile branch path msg content : Prog ops (Except Error Unit)) [] := by
  rw [commitFile_eq]
  intro d
  cases hc : d (.createFile path ⟨branch, msg, content⟩)
  case ok        => simp [Transcript.record, hc, Prog.Always, IsFile]
  case error err =>
    simp only [Transcript.record, hc]
    intro d'
    cases hu : d' (.updateFile path ⟨branch, msg, content⟩)
    case ok    => simp [Transcript.record, hu, Prog.Always, IsFile]
    case error => simp [Transcript.record, hu, Prog.Always, IsFile]

-- What is written to the attributes can only fail with its last request.
theorem ensureLFSPattern_transcript : Prog.Always Transcript.record
    (fun r (l : Log) => (∀ e ∈ l, IsFile e.1) ∧ l ≠ [] ∧ (r = .ok () ↔ ¬Unmarked l))
    (ensureLFSPattern branch path : Prog ops (Except Error Unit)) [] := by
  rw [GitAttributes.ensureLFSPattern_eq]
  intro d
  have written (b : Str) (a : Except Error RawFile) : Prog.Always Transcript.record
      (fun r (l : Log) => (∀ e ∈ l, IsFile e.1) ∧ l ≠ [] ∧ (r = .ok () ↔ ¬Unmarked l))
      (GitAttributes.commit branch path b : Prog ops (Except Error Unit))
      [⟨Op.rawFile attributes (str "ref=" ++ branch), a⟩] := by
    rw [Transcript.always_append]
    refine commitFile_transcript.mono fun r l h => ?_
    obtain ⟨hf, hn, -, -, hr⟩ := h
    refine ⟨?_, by simp, ?_⟩
    · simpa [IsFile] using hf
    · rwa [Unmarked, List.getLast?_append_of_ne_nil _ hn]
  cases ha : d (.rawFile attributes (str "ref=" ++ branch))
  case error err => simpa [Transcript.record, ha] using written [] _
  case ok f      =>
    simp only [Transcript.record, ha]
    split
    case isTrue  => simp [Prog.Always, IsFile, Unmarked]
    case isFalse => exact written _ _

-- After the objects have been dealt with: if the pointer is committed, the call succeeds unless the
-- attributes are not.
theorem rest_transcript : Prog.Always Transcript.record
    (fun r (l : Log) => (∀ e ∈ l, IsFile e.1) ∧ (r = .ok () → Committed l sha256 path branch content) ∧
      (Committed l sha256 path branch content → l ≠ [] ∧ (r = .ok () ↔ ¬Unmarked l)))
    (do
      commitFile (defaultBranch branch) path msg (buildLFSPointer (oidOf sha256 content) content.length)
      ensureLFSPattern (defaultBranch branch) path : GitLab.Call Unit) [] := by
  rw [Call.always_seq]
  refine commitFile_transcript.mono fun r l h => ?_
  obtain ⟨hf, hn, hok, hc, -⟩ := h
  cases r
  case error err =>
    have hn : ¬Committed l sha256 path branch content := by
      rintro ⟨c, -, -, hm⟩
      cases hc c hm
    exact ⟨hf, fun h => (by cases h), fun h => absurd h hn⟩
  case ok =>
    simp only [Call.next]
    rw [Transcript.always_append]
    refine ensureLFSPattern_transcript.mono fun r l' h => ?_
    obtain ⟨hf', hn', hr⟩ := h
    have hcm : Committed (l ++ l') sha256 path branch content :=
      ⟨_, rfl, rfl, (hok rfl).imp (List.mem_append_left _) (List.mem_append_left _)⟩
    refine ⟨?_, fun _ => hcm, fun _ => ⟨by simp [hn], ?_⟩⟩
    · exact fun e he => (List.mem_append.mp he).elim (hf e) (hf' e)
    · rwa [Unmarked, List.getLast?_append_of_ne_nil _ hn']

theorem upload_transcript : Prog.Always Transcript.record
    (fun r (l : Log) => (r = .ok () ↔ Delivered l sha256 path branch content) ↔
      (Committed l sha256 path branch content →
        ((∃ obj, Answered l obj ∧ Sound l sha256 content obj) ↔ ¬Unmarked l)))
    (gitLabUpload sha256 path branch msg (.ok content) true : Prog ops (Except Error Unit)) [] := by
  have failed {l : Log} (h : ∀ e ∈ l, ¬IsCommit e.1) (err : Error) :
      ((Except.error err : Except Error Unit) = .ok () ↔ Delivered l sha256 path branch content) ↔
      (Committed l sha256 path branch content →
        ((∃ obj, Answered l obj ∧ Sound l sha256 content obj) ↔ ¬Unmarked l)) := by
    have hc := @not_committed sha256 path branch content _ h
    simp [Delivered, hc]
  obtain ⟨msg', hu⟩ := gitLabUpload_eq sha256 path branch msg content true
  rw [hu]
  intro d
  cases hd : d Op.client
  case error err =>
    simp only [Transcript.record, hd, Call.next]
    exact failed (by simp [IsCommit]) err
  case ok        =>
    simp only [Transcript.record, hd, Call.next, steps]
    rw [Call.always_seq]
    refine lfsUpload_transcript.mono fun r l h => ?_
    obtain ⟨hn, hs⟩ := h
    cases r
    case error err => exact failed hn err
    case ok        =>
      simp only [Call.next]
      rw [Transcript.always_append]
      refine rest_transcript.mono fun r l' h => ?_
      obtain ⟨hf, hok, hc⟩ := h
      have hcm : Committed (l ++ l') sha256 path branch content ↔ Committed l' sha256 path branch content := by
        refine exists_congr fun c => and_congr_right fun _ => and_congr_right fun _ => or_congr ?_ ?_
        · exact List.mem_append.trans (or_iff_right fun hm => hn _ hm trivial)
        · exact List.mem_append.trans (or_iff_right fun hm => hn _ hm trivial)
      have hum (hl : l' ≠ []) : Unmarked (l ++ l') ↔ Unmarked l' := by
        rw [Unmarked, List.getLast?_append_of_ne_nil _ hl, Unmarked]
      simp only [Delivered, answered_append hf, served_append hf, sound_append hf, hs rfl, hcm]
      by_cases hc' : Committed l' sha256 path branch content
      case neg => simp [hc', mt hok hc']
      case pos =>
        obtain ⟨hl, hr⟩ := hc hc'
        simp only [hc', hum hl, hr, and_true, true_imp_iff]
        exact iff_comm

end Steps

-- Whatever is answered, success is reported exactly for what was delivered, if and only if, once the pointer
-- is committed, the object was dealt with soundly exactly where the attributes were written.
theorem honest_iff (sha256 : Str → Vector UInt8 32) (path branch msg : Str) (body : Except Error Str)
    (answers : Nat → (op : ops.Op) → ops.Res op) :
    let run := (gitLabUpload sha256 path branch msg body true).play Transcript.record answers []
    let delivered := ∃ content, body = .ok content ∧ Delivered run.2 sha256 path branch content
    (run.1 = .ok () ↔ delivered) ↔
      ∀ content, body = .ok content → Committed run.2 sha256 path branch content →
        ((∃ obj, Answered run.2 obj ∧ Sound run.2 sha256 content obj) ↔ ¬Unmarked run.2) := by
  intro run delivered
  cases body
  case error err  =>
    have he : (gitLabUpload sha256 path branch msg (.error err) true : Prog ops (Except Error Unit)) =
        .call .client (Call.next fun _ => .ret (.error err)) := by
      refine congrArg (Prog.call _) (funext fun r => ?_)
      cases r <;> rfl
    have hr : run.1 ≠ .ok () := by
      simp only [run, he, Prog.play, Transcript.record]
      cases answers 0 Op.client
      case error => exact fun h => by cases h
      case ok    => exact fun h => by cases h
    simp [delivered, hr]
  case ok content =>
    have h := (@upload_transcript sha256 path branch msg content).play answers
    simpa [delivered, run] using h

-- The LFS server takes the object, and turns it down when it is to check it.
section TurnedDown

def turnedDown : (op : ops.Op) → ops.Res op
  | .client         => .ok ()
  | .rawFile _ _    => .error (.foreign (str "404 Not Found"))
  | .createFile _ _ => .ok ()
  | .updateFile _ _ => .ok ()
  | .project        => .ok (str "ml/models")
  | .batch _ req    => .ok [{
      oid      := req.oid
      size     := req.size
      download := none
      upload   := some ⟨req.oid⟩
      verify   := some ⟨req.oid⟩
      error    := none
    }]
  | .download _     => .ok ⟨404, ⟨[], none⟩⟩
  | .upload _ _     => .ok ⟨200, ⟨[], none⟩⟩
  | .verify _ _ _   => .ok ⟨422, ⟨[], none⟩⟩

theorem turnedDown_reported : ¬∀ sha256 path branch msg body answers,
    let run := (gitLabUpload sha256 path branch msg body true).play Transcript.record answers []
    run.1 = .ok () ↔ ∃ content, body = .ok content ∧ Delivered run.2 sha256 path branch content := by
  intro h
  have hd := (h noDigest (str "model.gguf") (str "main") [] (.ok (str "GGUF")) fun _ => turnedDown).mp (by decide +kernel)
  obtain ⟨content, -, ⟨obj, ⟨repo, req, objects, hm, ho⟩, hs⟩, -⟩ := hd
  obtain hm | ⟨-, hb⟩ := Transcript.play_answered hm
  case inl => cases hm
  case inr =>
    cases hb
    cases ho
    obtain ⟨res, hm, hlt⟩ := hs.verified _ rfl
    obtain hm | ⟨-, hv⟩ := Transcript.play_answered hm
    case inl => cases hm
    case inr =>
      cases hv
      exact absurd hlt (by decide)

end TurnedDown
end AiStorage.LfsUpload
