import Knaic.Effects.Machine
import Knaic.Playground.OpenCodeServer

open Go Effects

namespace Playground.ConfigReload

-- What the runner works on. Beside it, whether the sidecar has taken note of the last change of the
-- configuration file, by a signal or by not running, and whether the last attempt to tell it failed.
structure World where
  providers : List Provider
  files     : Str → Option Str
  snapHash  : Str
  noted     : Bool
  failed    : Bool

-- The error of the system if an operation fails, what a write that fails leaves behind, and what is in
-- /proc.
structure Draw where
  failure : Option Str
  left    : Option Str
  procs   : List ProcEntry

def outcome (d : Draw) : Except Error Unit :=
  match d.failure with
  | none     => .ok ()
  | some err => .error (.foreign err)

variable (r : OpenCodeServerRunner)

namespace World

variable (w : World)

-- A file gets a new content. The sidecar has not taken note of that when it is the configuration.
def put (path : Str) (content : Option Str) : World :=
  { w with
    files := Function.update w.files path content
    noted := w.noted && (path ≠ r.configPath || w.files path = content) }

def tell : World :=
  { w with noted := true, failed := false }

def fail : World :=
  { w with failed := true }

end World

def answer (op : Sidecar.ops.Op) (d : Draw) (w : World) : Sidecar.ops.Res op × World :=
  match op with
  | .providerSnapshot   => (w.providers, w)
  | .snapHash           => (w.snapHash, w)
  | .setSnapHash hash   => ((), { w with snapHash := hash })
  | .mkdirAllFor _      => (outcome d, w)
  | .writeFile path raw =>
    match d.failure with
    | none     => (.ok (), w.put r path (some raw))
    | some err => (.error (.foreign err), w.put r path d.left)
  | .rename old new     =>
    match d.failure with
    | none     => (.ok (), (w.put r new (w.files old)).put r old none)
    | some err => (.error (.foreign err), w)
  | .readProc           =>
    match d.failure with
    | none     => (.ok d.procs, if (d.procs.findSome? r.sidecar?).isNone then w.tell else w)
    | some err => (.error (.foreign err), w.fail)
  | .sigterm _          =>
    match d.failure with
    | none     => (.ok (), w.tell)
    | some err => (.error (.foreign err), w.fail)

-- Changes of the providers, and the calls of the runner. The mutex of the runner keeps the calls
-- apart, and a change during a call comes to the same as one after it, since the call looks at the
-- providers once.
inductive Op
  | change (providers : List Provider)
  | ensureConfig
  | ensureSnapshotCovers (p : Provider)

abbrev ops : Signature where
  Op := Op
  Res
    | .change _               => Unit
    | .ensureConfig           => Except Error Unit
    | .ensureSnapshotCovers _ => Except Error Unit

def machine : Machine ops (Nat → Draw) World where
  answer op d w :=
    match op with
    | .change providers       => ((), { w with providers := providers })
    | .ensureConfig           => Prog.play (answer r) r.ensureConfig d w
    | .ensureSnapshotCovers p => Prog.play (answer r) (r.ensureSnapshotCovers p) d w

-- A call that succeeds leaves the sidecar with the last change of the configuration noted.
def Noted (op : ops.Op) (d : Nat → Draw) (w : World) : Prop :=
  match op with
  | .change _               => True
  | .ensureConfig           =>
    ((machine r).answer .ensureConfig d w).1 = .ok () →
    ((machine r).answer .ensureConfig d w).2.noted
  | .ensureSnapshotCovers p =>
    ((machine r).answer (.ensureSnapshotCovers p) d w).1 = .ok () →
    ((machine r).answer (.ensureSnapshotCovers p) d w).2.noted

-- The hash of what a call would write.
def hashOf (providers : List Provider) : Option Str :=
  match r.marshalIndent (r.buildConfig providers) with
  | .ok raw  => some (r.sha256 raw)
  | .error _ => none

-- After an attempt to tell the sidecar has failed, no call finds the providers as they were then.
def Unrepeated (op : ops.Op) (_d : Nat → Draw) (w : World) : Prop :=
  match op with
  | .change _ => True
  | _         => w.failed → hashOf r w.providers ≠ some w.snapHash

section Decidable

variable (op : ops.Op) (d : Nat → Draw) (w : World)

instance : Decidable (Noted r op d w) := by
  unfold Noted
  split <;> infer_instance

instance : Decidable (Unrepeated r op d w) := by
  unfold Unrepeated
  split <;> infer_instance

end Decidable

-- Between two calls.
structure Inv (w : World) : Prop where
  told : w.noted ∨ w.failed
  idle : r.attached = false ∨ r.configPath = [] → w.noted

-- What holds after a call.
def After (res : Except Error Unit) (w : World) : Prop :=
  Inv r w ∧ (res = .ok () → w.noted)

variable {r} {w : World}

-- What comes of the attempt to tell the sidecar.
inductive Told (res : Except Error Unit) (w : World) : Prop
  | signalled (hr : res = .ok ()) (hw : w.noted)
  | absent (hr : res = .error errSidecarNotRunning) (hw : w.noted)
  | failed (err : Error) (hr : res = .error err) (he : ¬errSidecarNotRunning.is err) (hw : w.failed)

theorem bounce_told (r : OpenCodeServerRunner) (w : World) :
    Prog.Always (answer r) Told r.bounceOpenCodeSidecar w := by
  unfold OpenCodeServerRunner.bounceOpenCodeSidecar
  rw [Call.always_seq]
  intro d
  cases hf : d.failure
  case some err =>
    simp only [answer, hf]
    exact .failed (.foreign err) rfl (fun h => by cases h) rfl
  case none =>
    simp only [answer, hf, Prog.Always, Call.next]
    cases hs : d.procs.findSome? r.sidecar?
    case none     => exact .absent rfl rfl
    case some pid =>
      intro d
      cases hf : d.failure
      case none     => simp only [answer, hf]; exact .signalled rfl rfl
      case some err => simp only [answer, hf]; exact .failed (.wrap _ (.foreign err)) rfl (fun h => by cases h) rfl

-- A write beside the configuration file changes nothing of what the sidecar has to note.
theorem put_tmp_noted (w : World) (content : Option Str) :
    (w.put r (r.configPath ++ str ".tmp") content).noted = w.noted := by
  simp [World.put]

theorem Inv.put_tmp {content : Option Str} (h : Inv r w) :
    Inv r (w.put r (r.configPath ++ str ".tmp") content) where
  told := by rw [put_tmp_noted]; exact h.told
  idle := by rw [put_tmp_noted]; exact h.idle

theorem bounced_always (hc : r.configPath ≠ []) (ha : r.attached = true) : Prog.Always (answer r) (After r)
    (ExceptT.lift (r.bounceOpenCodeSidecar : Prog Sidecar.ops (Except Error Unit)) >>= fun bounced =>
      match bounced with
      | .ok ()     => return
      | .error err =>
        if errSidecarNotRunning.is err then return
        else throw (.wrap "bounce opencode sidecar" err) : Sidecar.Call Unit) w := by
  have hn : ¬(r.attached = false ∨ r.configPath = []) := by simp [hc, ha]
  rw [Call.lift_bind, Prog.always_bind]
  refine (bounce_told r w).mono fun res w ht => ?_
  cases ht
  case signalled hr hw    => subst hr; exact ⟨⟨.inl hw, fun h => absurd h hn⟩, fun _ => hw⟩
  case absent hr hw       => subst hr; exact ⟨⟨.inl hw, fun h => absurd h hn⟩, fun _ => hw⟩
  case failed err hr he hw =>
    subst hr
    show Prog.Always (answer r) (After r) (if errSidecarNotRunning.is err then _ else _ : Sidecar.Call Unit) w
    rw [if_neg he]
    exact ⟨⟨.inr hw, fun h => absurd h hn⟩, nofun⟩

theorem write_always (hi : Inv r w) (hu : w.failed → hashOf r w.providers ≠ some w.snapHash) :
    Prog.Always (answer r) (After r) r.writeConfigLocked w := by
  unfold OpenCodeServerRunner.writeConfigLocked
  split
  case isTrue h  => exact ⟨hi, fun _ => hi.idle (by simpa using h)⟩
  case isFalse h =>
    have hn : r.configPath ≠ [] ∧ r.attached = true := by simpa [and_comm] using h
    rw [Call.lift_bind]
    intro _
    show Prog.Always _ _ (ExceptT.mk (pure (r.marshalIndent (r.buildConfig w.providers))) >>= _ :
      Sidecar.Call Unit) w
    cases hm : r.marshalIndent (r.buildConfig w.providers)
    case error err => exact ⟨hi, nofun⟩
    case ok raw    =>
      rw [Call.ok_seq, Call.lift_bind]
      intro _
      show Prog.Always _ _ (if r.sha256 raw = w.snapHash then _ else _ : Sidecar.Call Unit) w
      split
      case isTrue hs  => exact ⟨hi, fun _ => hi.told.resolve_right fun hf => hu hf (by simp [hashOf, hm, hs])⟩
      case isFalse hs =>
        intro d
        cases hf : d.failure
        case some err => simp only [answer, outcome, hf]; exact ⟨hi, nofun⟩
        case none =>
          simp only [answer, outcome, hf]
          intro d
          cases hf : d.failure
          case some err => simp only [answer, hf]; exact ⟨hi.put_tmp, nofun⟩
          case none =>
            simp only [answer, hf]
            intro d
            cases hf : d.failure
            case some err => simp only [answer, hf]; exact ⟨hi.put_tmp, nofun⟩
            case none =>
              simp only [answer, hf]
              intro _
              exact bounced_always hn.left hn.right

theorem ensureConfig_always (hi : Inv r w) (hu : w.failed → hashOf r w.providers ≠ some w.snapHash) :
    Prog.Always (answer r) (After r) r.ensureConfig w := by
  unfold OpenCodeServerRunner.ensureConfig
  split
  case isTrue h  => exact ⟨hi, fun _ => hi.idle (.inr h)⟩
  case isFalse h => exact write_always hi hu

theorem step_noted (op : ops.Op) (d : Nat → Draw) (w : World) (hi : Inv r w) (hu : Unrepeated r op d w) :
    Noted r op d w ∧ Inv r ((machine r).answer op d w).2 := by
  cases op
  case change ps => exact ⟨trivial, hi.told, hi.idle⟩
  case ensureConfig =>
    have ha := (ensureConfig_always hi hu).play d
    exact ⟨ha.right, ha.left⟩
  case ensureSnapshotCovers p =>
    have ha := (write_always hi hu).play d
    exact ⟨ha.right, ha.left⟩

-- The runner as it is made, whatever files there are.
def initial (providers : List Provider) (files : Str → Option Str) : World where
  providers := providers
  files     := files
  snapHash  := []
  noted     := true
  failed    := false

-- The signal fails once, while there are no providers.
section Unnoticed

-- What is printed for a runner without providers, and its hash.
def empty : Str :=
  str "\x7b
  \"$schema\": \"https://opencode.ai/config.json\",
  \"agent\": \x7b
    \"knaic-readonly\": \x7b
      \"description\": \"Read-only chat agent for knaic LLM playground.\",
      \"mode\": \"primary\",
      \"permission\": \x7b
        \"bash\": \"deny\",
        \"edit\": \"deny\",
        \"glob\": \"deny\",
        \"grep\": \"deny\",
        \"list\": \"deny\",
        \"read\": \"deny\",
        \"todowrite\": \"deny\",
        \"webfetch\": \"deny\",
        \"websearch\": \"deny\",
        \"write\": \"deny\"
      \x7d,
      \"prompt\": \"You are the knaic Playground Agent.\\nYou may inspect Kubernetes and AI platform state with the knaic MCP tools.\\nYou must stay read-only: do not create, update, patch, delete, scale, restart, or mutate resources.\\nWhen using tools, explain what you checked and summarize the evidence.\\nEnabled skills: \",
      \"tools\": \x7b
        \"*\": false
      \x7d
    \x7d
  \x7d,
  \"provider\": \x7b
    \"knaic\": \x7b
      \"models\": \x7b
        \"placeholder/none\": \x7b
          \"name\": \"no providers configured\",
          \"tool_call\": false
        \x7d
      \x7d,
      \"name\": \"Knaic\",
      \"npm\": \"@ai-sdk/openai-compatible\",
      \"options\": \x7b
        \"apiKey\": \"secret\",
        \"baseURL\": \"http://127.0.0.1:8080/api/v1/internal/openai/v1\"
      \x7d
    \x7d
  \x7d
\x7d"

def runner : OpenCodeServerRunner where
  configPath      := str "/etc/oc/opencode.json"
  proxyURL        := str "http://127.0.0.1:8080/api/v1/internal/openai/v1"
  internalToken   := str "secret"
  agentName       := str "knaic-readonly"
  attached        := true
  self            := 1
  marshalIndent _ := .ok empty
  sha256 _        := str "5387f78e76668209ae528b81f6769b7037da9e125657f8bad7a567ee49460d32"

def opencode : ProcEntry where
  name    := str "7"
  cmdline := .ok (str "opencode" ++ 0 :: str "serve" ++ [0])

def fine : Draw where
  failure := none
  left    := none
  procs   := [opencode]

-- The operation with the given number is not permitted.
def failing (n k : Nat) : Draw :=
  if k = n then { fine with failure := some (str "operation not permitted") } else fine

end Unnoticed
end Playground.ConfigReload
