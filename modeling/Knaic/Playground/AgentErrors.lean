import Knaic.Effects.Transcript
import Knaic.Go.Json
import Knaic.Playground.AgentSessions

open Go Effects

-- What becomes of an error in an answer of opencode.
namespace Playground.AgentErrors

-- An answer as it is decoded. A field that is missing is `nil`.
structure MessageResponse where
  info  : Entries Json
  parts : List (Entries Json)
  error : Json

namespace MessageResponse

variable (resp : MessageResponse)

-- A value other than `nil`.
def given : Json → Option Json
  | .null => none
  | e     => some e

def infoError : Option Json :=
  (resp.info.get (str "error")).bind given

def part (fields : Entries Json) : MessagePart where
  kind := ((fields.get (str "type")).bind Json.string?).getD []
  text := ((fields.get (str "text")).bind Json.string?).getD []
  tool := ((fields.get (str "tool")).bind Json.string?).getD []

-- The answer with its errors as `%v` prints them.
def envelope (sprint : Json → Str) : Envelope where
  infoError := resp.infoError.map sprint
  parts     := resp.parts.map part
  error     := (given resp.error).map sprint

-- An error is in one of two places.
def CarriesError : Prop :=
  resp.error ≠ .null ∨ resp.infoError ≠ none

-- No part is a text that says something.
def NoText : Prop :=
  ∀ fields ∈ resp.parts, AgentRunner.saw (part fields) = false

end MessageResponse

-- The runner with what decoding and printing do.
def runner (agentName : Str) (decodeSession : Str → Except Error Str) (unmarshal : Str → Option MessageResponse)
    (sprint : Json → Str) : AgentRunner where
  agentName      := agentName
  decodeSession  := decodeSession
  decodeEnvelope := fun raw => (unmarshal raw).map (·.envelope sprint)

def placeholder : AgentEvent :=
  AgentRunner.event (str "final") (str "agent produced no assistant text")

abbrev Log :=
  Transcript Agent.ops

namespace Log

variable (log : Log)

-- The bodies that opencode answered messages with.
def received : List Str :=
  log.filterMap fun
    | ⟨.inr (.postMessage _ _), .ok (.ok raw)⟩ => some raw
    | _                                        => none

def emitted : List AgentEvent :=
  log.filterMap fun
    | ⟨.inr (.emit ev), _⟩ => some ev
    | _                    => none

-- The messages that the store was asked to append.
def saved : List AgentMessage :=
  log.filterMap fun
    | ⟨.inr (.appendMessage _ msg), _⟩ => some msg
    | _                                => none

-- The error reaches the caller, nothing stands in for an answer, and none is stored.
structure StaysError : Prop where
  error       : ∃ ev ∈ log.emitted, ev.kind = str "error"
  placeholder : placeholder ∉ log.emitted
  persisted   : ∀ msg ∈ log.saved, msg.role ≠ str "assistant"

end Log

-- An operation that neither asks opencode for an answer nor tells anyone about it.
def Quiet : Agent.ops.Op → Prop
  | .inr (.postMessage _ _)   => False
  | .inr (.emit _)            => False
  | .inr (.appendMessage _ _) => False
  | _                         => True

-- The log of a call that only looks things up.
structure Silent (log : Log) : Prop where
  received : log.received = []
  emitted  : log.emitted = []
  saved    : log.saved = []

theorem Silent.of_quiet {log : Log} (h : ∀ e ∈ log, Quiet e.1) : Silent log := by
  constructor
  all_goals
    refine List.filterMap_eq_nil_iff.mpr fun e he => ?_
    have hq := h e he
    split
    case h_1 => exact hq.elim
    case h_2 => rfl

namespace Log

variable {log log' : Log}

@[simp]
theorem saved_nil : saved [] = [] :=
  rfl

@[simp]
theorem received_append : received (log ++ log') = log.received ++ log'.received :=
  List.filterMap_append

@[simp]
theorem emitted_append : emitted (log ++ log') = log.emitted ++ log'.emitted :=
  List.filterMap_append

@[simp]
theorem saved_append : saved (log ++ log') = log.saved ++ log'.saved :=
  List.filterMap_append

end Log

-- The log of events that go to the caller.
structure Emits (evs : List AgentEvent) (log : Log) : Prop where
  received : log.received = []
  emitted  : log.emitted = evs
  saved    : log.saved = []

open Transcript (record)

section Runner

variable {r : AgentRunner} {req : AgentRunnerRequest}

theorem emitAll_log (evs : List AgentEvent) : Prog.Always record
    (fun res log => res = .ok () ∧ Emits evs log) (AgentRunner.emitAll evs) [] := by
  induction evs
  case nil => exact ⟨rfl, rfl, rfl, rfl⟩
  case cons ev evs hi =>
    intro d
    refine Transcript.always_append.mpr (Prog.Always.mono hi fun res log h => ?_)
    exact ⟨h.left, h.right.received, congrArg (ev :: ·) h.right.emitted, h.right.saved⟩

theorem ensureOpenCodeSession_quiet : Prog.Only Quiet (r.ensureOpenCodeSession req) := by
  unfold AgentRunner.ensureOpenCodeSession
  split
  case isTrue  => trivial
  case isFalse =>
    refine Call.only_seq (Call.only_mapError (Prog.Only.perform trivial)) fun body => ?_
    cases r.decodeSession body
    case error err => trivial
    case ok id     =>
      refine Call.only_guard fun _ => ?_
      split
      case isTrue  => exact ⟨trivial, fun _ => trivial⟩
      case isFalse => trivial

-- What is returned beside the log: the events of the one answer that was received.
def Ran (r : AgentRunner) : Except Error (List AgentEvent) → Log → Prop
  | .ok evs, log  => evs = log.emitted ∧ log.saved = [] ∧
    ∃ raw, log.received = [raw] ∧ log.emitted = r.eventsFromMessageResponse raw
  | .error _, log => log.received = []

-- What opencode answered a message with, beside the log of asking.
structure Heard (res : Except Error (Except Error Str)) (log : Log) : Prop where
  received : log.received = match res with | .ok (.ok raw) => [raw] | _ => []
  emitted  : log.emitted = []
  saved    : log.saved = []

theorem message_log (id : Str) (body : MessageBody) (f : Error → Error) :
    Prog.Always record Heard ((Agent.postMessage id body).mapError f) [] := by
  refine Call.always_mapError.mpr fun d => ?_
  show Heard ((d (.inr (.postMessage id body))).mapError f) [⟨_, d (.inr (.postMessage id body))⟩]
  generalize d (.inr (.postMessage id body)) = a
  cases a
  case error err => exact ⟨rfl, rfl, rfl⟩
  case ok resp   => cases resp <;> exact ⟨rfl, rfl, rfl⟩

theorem postMessage_log (id : Str) : Prog.Always record (Ran r) (r.postMessage id req) [] := by
  refine Transcript.always_seq (message_log id _ _) fun res log h => ?_
  cases res
  case error err =>
    show Log.received (log ++ []) = []
    simpa using h.received
  case ok resp =>
    cases resp
    case error err =>
      show Log.received (log ++ []) = []
      simpa using h.received
    case ok raw    =>
      refine Transcript.always_seq (emitAll_log (r.eventsFromMessageResponse raw)) fun res log' h' => ?_
      obtain ⟨rfl, h'⟩ := h'
      show Ran r (.ok _) (log ++ (log' ++ []))
      simp [Ran, h.received, h.emitted, h.saved, h'.received, h'.emitted, h'.saved]

theorem Ran.after (res : Except Error (List AgentEvent)) (log log' : Log) (hq : ∀ e ∈ log, Quiet e.1)
    (h : Ran r res log') : Ran r res (log ++ log') := by
  have hs := Silent.of_quiet hq
  cases res <;> simpa [Ran, hs.received, hs.emitted, hs.saved] using h

theorem run_log : Prog.Always record (Ran r) (r.run req) [] := by
  unfold AgentRunner.run
  split
  case isTrue  => rfl
  case isFalse =>
    have hc : Prog.Only Quiet (Agent.ensureSnapshotCovers req.provider) := Prog.Only.perform trivial
    refine Transcript.always_after hc Ran.after (fun _ => rfl) fun _ => ?_
    exact Transcript.always_after ensureOpenCodeSession_quiet Ran.after (fun _ => rfl) postMessage_log

-- A turn in which an answer was received: its events are the ones that are emitted, and what they say
-- in the end is stored behind the message of the user unless it is blank.
structure Turn (r : AgentRunner) (msg raw : Str) (log : Log) : Prop where
  received : log.received = [raw]
  emitted  : log.emitted = r.eventsFromMessageResponse raw
  saved    : log.saved = newMessage (str "user") msg ::
             if Utf8.trimSpace (finalText (r.eventsFromMessageResponse raw)) = [] then []
             else [newMessage (str "assistant") (finalText (r.eventsFromMessageResponse raw))]

-- What a call of `RunAgent` is in the end.
def Turned (r : AgentRunner) (msg : Str) (_ : Except Error Unit) (log : Log) : Prop :=
  log.received = [] ∨ ∃ raw, Turn r msg raw log

theorem Turned.after {msg : Str} (res : Except Error Unit) (log log' : Log) (hq : ∀ e ∈ log, Quiet e.1)
    (h : Turned r msg res log') : Turned r msg res (log ++ log') := by
  have hs := Silent.of_quiet hq
  refine h.imp (fun h => by simp [hs.received, h]) ?_
  rintro ⟨raw, h⟩
  refine ⟨raw, ?_, ?_, ?_⟩
  case refine_1 => simp [hs.received, h.received]
  case refine_2 => simp [hs.emitted, h.emitted]
  case refine_3 => rw [Log.saved_append, hs.saved, h.saved, List.nil_append]

-- The log of messages that are stored.
structure Saves (msgs : List AgentMessage) (log : Log) : Prop where
  received : log.received = []
  emitted  : log.emitted = []
  saved    : log.saved = msgs

theorem append_log (sessionID : Str) (msg : AgentMessage) : Prog.Always record
    (fun _ log => Saves [msg] log) (Agent.appendMessage sessionID msg) [] :=
  fun _ => ⟨rfl, rfl, rfl⟩

-- What is said in the end is stored unless it is blank.
theorem final_log (sessionID : Str) (evs : List AgentEvent) : Prog.Always record
    (fun _ log => Saves (if Utf8.trimSpace (finalText evs) = [] then []
      else [newMessage (str "assistant") (finalText evs)]) log)
    (if Utf8.trimSpace (finalText evs) = [] then pure ()
      else Agent.appendMessage sessionID (newMessage (str "assistant") (finalText evs)) : Agent.Call Unit) [] := by
  generalize finalText evs = text
  split
  case isTrue  => exact ⟨rfl, rfl, rfl⟩
  case isFalse => exact append_log _ _

-- However things are answered, a call of `RunAgent` is such a turn, or no answer was received.
theorem runAgent_log (u : Option Auth.User) (sessionID message : Str) (ctx : AgentRunContext) :
    Prog.Always record (Turned r (Utf8.trimSpace message)) (runAgent r u sessionID message ctx) [] := by
  unfold runAgent
  dsimp only
  split
  case isTrue  => exact .inl rfl
  case isFalse =>
    have hg : Prog.Only Quiet (Agent.getSession (ownerFromUser u) sessionID) := Prog.Only.perform trivial
    refine Transcript.always_after hg Turned.after (fun _ => .inl rfl) fun session => ?_
    have hp : Prog.Only Quiet (Agent.providerForChat session.providerID) :=
      Prog.Only.lift (Prog.only_any _)
    refine Transcript.always_after hp Turned.after (fun _ => .inl rfl) fun provider => ?_
    refine Transcript.always_seq (append_log _ _) fun res log ha => ?_
    obtain ⟨hr, he, hs⟩ := ha
    cases res
    case error err => exact .inl (by simpa using hr)
    case ok        =>
      refine Transcript.always_seq run_log fun res log' h => ?_
      cases res
      case error err =>
        have h : Log.received log' = [] := h
        exact .inl (by simp [hr, h])
      case ok evs    =>
        obtain ⟨hv, hs', raw, hr', he'⟩ := h
        have hv := hv.trans he'
        refine (final_log session.id evs).mono fun res log'' hf => .inr ⟨raw, ?_, ?_, ?_⟩
        case refine_1 => simp [hr, hr', hf.received]
        case refine_2 => simp [he, he', hf.emitted]
        case refine_3 => simp [hs, hs', hf.saved, hv]

end Runner

-- A call by itself, each operation answered as the service would in one state.
section Obliging

def vllm : Provider where
  id          := str "llm-000001"
  name        := str "vllm"
  source      := sourceExternal
  ns          := []
  endpoint    := str "http://vllm.ml/v1"
  apiKey      := []
  model       := str "qwen"
  description := []
  status      := statusReady

def session : AgentSession where
  id              := str "agent-00000000"
  owner           := []
  ns              := str "ml"
  providerID      := str "llm-000001"
  openCodeSession := str "ses_a"
  title           := str "New agent session"
  skills          := some []
  createdAt       := Time.zero
  updatedAt       := Time.zero
  messages        := []

-- Everything goes well, and opencode answers the message with `raw`.
def oblige (raw : Str) : (op : Agent.ops.Op) → Agent.ops.Res op
  | .inl (.create _)               => vllm
  | .inl (.patch _ _)              => .ok vllm
  | .inl (.delete _)               => .ok ()
  | .inl (.provider _)             => some vllm
  | .inl (.cachedModels _)         => none
  | .inl (.cacheModels _ _)        => ()
  | .inl (.send _)                 => .ok ⟨200, [], []⟩
  | .inr (.listSessions _ _)       => [session]
  | .inr (.createSession _)        => session
  | .inr (.getSession _ _)         => .ok session
  | .inr (.deleteSession _ _)      => .ok ()
  | .inr (.setOpenCodeSession _ _) => .ok ()
  | .inr (.appendMessage _ _)      => .ok ()
  | .inr (.ensureSnapshotCovers _) => .ok ()
  | .inr .postSession              => .ok []
  | .inr (.postMessage _ _)        => .ok (.ok raw)
  | .inr (.emit _)                 => ()

-- What a call of `RunAgent` writes down then.
def obliged (r : AgentRunner) (raw : Str) : Log :=
  (Prog.play record (runAgent r none (str "agent-00000000") (str "hello") ⟨[], [], []⟩) (fun _ => oblige raw) []).2

theorem run_obliged (r : AgentRunner) (raw : Str) (req : AgentRunnerRequest) (log : Log)
    (hp : req.provider = vllm) (hs : req.openCodeSession = str "ses_a") :
    ⟨.inr (.postMessage (str "ses_a") ⟨r.agentName, messageModel req.provider, req.message⟩), .ok (.ok raw)⟩ ∈
      (Prog.play record (r.run req) (fun _ => oblige raw) log).2 := by
  unfold AgentRunner.run
  rw [if_neg (by rw [hp]; decide), Transcript.play_seq_ok (a := ()) (h := by rfl),
    AgentRunner.ensureOpenCodeSession, if_pos (by rw [hs]; decide),
    Transcript.play_seq_ok (a := req.openCodeSession) (h := by rfl), hs, AgentRunner.postMessage]
  refine Transcript.play_mem_seq ?_
  exact List.mem_append_right _ List.mem_cons_self

theorem obliged_received (r : AgentRunner) (raw : Str) : raw ∈ (obliged r raw).received := by
  unfold obliged runAgent
  dsimp only
  rw [if_neg (by decide), Transcript.play_seq_ok (a := session) (h := rfl),
    Transcript.play_seq_ok (a := vllm) (h := by rfl), Transcript.play_seq_ok (a := ()) (h := by rfl)]
  refine List.mem_filterMap.mpr ⟨_, Transcript.play_mem_seq (run_obliged r raw _ _ ?_ ?_), rfl⟩
  all_goals rfl

end Obliging

section Response

variable {agentName : Str} {decodeSession : Str → Except Error Str} {unmarshal : Str → Option MessageResponse}
  {sprint : Json → Str} {raw : Str} {resp : MessageResponse}

-- A part without text is no final event.
theorem partEvents_notFinal {part : MessagePart} (h : AgentRunner.saw part = false) :
    ∀ ev ∈ AgentRunner.partEvents part, ev.kind ≠ str "final" := by
  unfold AgentRunner.partEvents
  unfold AgentRunner.saw at h
  split_ifs <;> simp_all [AgentRunner.event]

-- What an answer says apart from a stand-in.
def told (sprint : Json → Str) (resp : MessageResponse) : List AgentEvent :=
  (((MessageResponse.given resp.error).map sprint).map (AgentRunner.event (str "error"))).toList ++
  ((resp.infoError.map sprint).map (AgentRunner.event (str "error"))).toList ++
  (resp.parts.map MessageResponse.part).flatMap AgentRunner.partEvents

theorem told_notFinal (sprint : Json → Str) (ht : resp.NoText) : ∀ ev ∈ told sprint resp, ev.kind ≠ str "final" := by
  have printed (e : Option Str) : ∀ ev ∈ (e.map (AgentRunner.event (str "error"))).toList,
      ev.kind ≠ str "final" := by
    cases e <;> simp [AgentRunner.event]
  intro ev he
  obtain he | he := List.mem_append.mp he
  case inl =>
    obtain he | he := List.mem_append.mp he
    case inl => exact printed _ ev he
    case inr => exact printed _ ev he
  case inr =>
    have ⟨part, hp, he⟩ := List.mem_flatMap.mp he
    have ⟨fields, hf, hp⟩ := List.mem_map.mp hp
    exact partEvents_notFinal (hp ▸ ht fields hf) ev he

theorem told_error (he : resp.CarriesError) : ∃ ev ∈ told sprint resp, ev.kind = str "error" := by
  obtain he | he := he
  case inl =>
    obtain ⟨e, h⟩ : ∃ e, MessageResponse.given resp.error = some e := by
      cases h : resp.error <;> simp_all [MessageResponse.given]
    exact ⟨AgentRunner.event (str "error") (sprint e), by simp [told, h], rfl⟩
  case inr =>
    obtain ⟨e, h⟩ := Option.ne_none_iff_exists'.mp he
    exact ⟨AgentRunner.event (str "error") (sprint e), by simp [told, h], rfl⟩

-- Without text, the stand-in is at the end unless there is an error at the top.
theorem events_noText (agentName : Str) (decodeSession : Str → Except Error Str) (sprint : Json → Str)
    (hb : Utf8.trimSpace raw ≠ []) (hu : unmarshal raw = some resp) (ht : resp.NoText) :
    (runner agentName decodeSession unmarshal sprint).eventsFromMessageResponse raw =
      told sprint resp ++ if (MessageResponse.given resp.error).isNone then [placeholder] else [] := by
  have hs : (resp.parts.map MessageResponse.part).any AgentRunner.saw = false := by
    simpa [MessageResponse.NoText] using ht
  simp only [AgentRunner.eventsFromMessageResponse, runner, hb, hu, if_false, Option.map_some,
    MessageResponse.envelope, hs, Bool.not_false, Bool.true_and, Option.isNone_map, told, placeholder]

theorem finalText_nil {evs : List AgentEvent} (h : ∀ ev ∈ evs, ev.kind ≠ str "final") : finalText evs = [] := by
  have hf : (evs.filter fun ev => ev.kind = str "final") = [] :=
    List.filter_eq_nil_iff.mpr fun ev he => by simpa using h ev he
  rw [finalText, hf, List.flatMap_nil]

-- With an error at the top, a turn ends without an answer.
theorem Turn.staysError {msg : Str} {log : Log} (h : Turn (runner agentName decodeSession unmarshal sprint) msg raw log)
    (hb : Utf8.trimSpace raw ≠ []) (hu : unmarshal raw = some resp) (ht : resp.NoText) (he : resp.error ≠ .null) :
    log.StaysError := by
  have hg : (MessageResponse.given resp.error).isNone = false := by
    cases h : resp.error <;> simp_all [MessageResponse.given]
  have hv := events_noText agentName decodeSession sprint hb hu ht
  simp only [hg, Bool.false_eq_true, if_false, List.append_nil] at hv
  have hn := told_notFinal sprint ht
  constructor
  case error       => exact h.emitted ▸ hv ▸ told_error (.inl he)
  case placeholder => exact fun hp => hn _ (hv ▸ h.emitted ▸ hp) rfl
  case persisted   =>
    intro m hm
    rw [h.saved, hv, finalText_nil hn, if_pos (show Utf8.trimSpace [] = [] from rfl)] at hm
    obtain rfl := List.mem_singleton.mp hm
    simp [newMessage]

-- Without one, it ends with the stand-in.
theorem Turn.stands_in {msg : Str} {log : Log} (h : Turn (runner agentName decodeSession unmarshal sprint) msg raw log)
    (hb : Utf8.trimSpace raw ≠ []) (hu : unmarshal raw = some resp) (ht : resp.NoText) (he : resp.error = .null) :
    placeholder ∈ log.emitted := by
  have hv := events_noText agentName decodeSession sprint hb hu ht
  rw [h.emitted, hv, he]
  exact List.mem_append_right _ List.mem_cons_self

-- The error of an answer without text stays one in every call of `RunAgent` exactly if it is at the top.
theorem error_stays_iff (agentName : Str) (decodeSession : Str → Except Error Str) (sprint : Json → Str)
    (blank : ∀ raw, Utf8.trimSpace raw = [] → unmarshal raw = none) (hu : unmarshal raw = some resp)
    (_ : resp.CarriesError) (ht : resp.NoText) :
    (∀ u sessionID message ctx answers,
      let log := (Prog.play record
        (runAgent (runner agentName decodeSession unmarshal sprint) u sessionID message ctx) answers []).2
      raw ∈ Log.received log → Log.StaysError log) ↔
    resp.error ≠ .null := by
  have hb : Utf8.trimSpace raw ≠ [] := by
    intro hb
    cases (blank raw hb).symm.trans hu
  have turned (u : Option Auth.User) (sessionID message : Str) (ctx : AgentRunContext)
      (answers : Nat → (op : Agent.ops.Op) → Agent.ops.Res op) :
      let r := runner agentName decodeSession unmarshal sprint
      let log := (Prog.play record (runAgent r u sessionID message ctx) answers []).2
      raw ∈ Log.received log → Turn r (Utf8.trimSpace message) raw log := by
    intro r log hr
    obtain hn | ⟨raw', h⟩ := (runAgent_log (r := r) u sessionID message ctx).play answers
    case inl => exact absurd (hn ▸ hr) List.not_mem_nil
    case inr =>
      obtain rfl := List.mem_singleton.mp (h.received ▸ hr)
      exact h
  constructor
  case mp =>
    intro h hn
    have hr := obliged_received (runner agentName decodeSession unmarshal sprint) raw
    have hs := h none (str "agent-00000000") (str "hello") ⟨[], [], []⟩ (fun _ => oblige raw) hr
    exact hs.placeholder ((turned _ _ _ _ _ hr).stands_in hb hu ht hn)
  case mpr =>
    intro hn u sessionID message ctx answers log hr
    exact (turned u sessionID message ctx answers hr).staysError hb hu ht hn

end Response

section Limited

-- Two answers of a model provider that refuses, each with what it decodes to.
def atTop : Str × MessageResponse where
  fst := str "\x7b\"parts\":[],\"error\":\"rate limited\"\x7d"
  snd := { info := [], parts := [], error := .string (str "rate limited") }

def inInfo : Str × MessageResponse where
  fst := str "\x7b\"info\":\x7b\"error\":\"rate limited\"\x7d,\"parts\":[]\x7d"
  snd := { info := [(str "error", .string (str "rate limited"))], parts := [], error := .null }

def known (raw : Str) : Option MessageResponse :=
  if raw = atTop.1 then some atTop.2 else if raw = inInfo.1 then some inInfo.2 else none

-- `%v` of a string is the string itself.
def print (e : Json) : Str :=
  e.string?.getD []

theorem known_blank (raw : Str) (h : Utf8.trimSpace raw = []) : known raw = none := by
  have ht : raw ≠ atTop.1 := fun he => absurd (he ▸ h) (by decide)
  have hi : raw ≠ inInfo.1 := fun he => absurd (he ▸ h) (by decide)
  simp [known, ht, hi]

theorem error_at_top_stays :
    (∀ u sessionID message ctx answers,
      let log := (Prog.play record
        (runAgent (runner (str "knaic-readonly") .ok known print) u sessionID message ctx) answers []).2
      atTop.1 ∈ Log.received log → Log.StaysError log) ↔
    atTop.2.error ≠ .null :=
  error_stays_iff _ _ _ known_blank rfl (.inl nofun) nofun

theorem error_in_info_stored : ¬∀ (agentName : Str) (decodeSession : Str → Except Error Str) (sprint : Json → Str)
    (unmarshal : Str → Option MessageResponse) (raw : Str) (resp : MessageResponse),
    (∀ raw, Utf8.trimSpace raw = [] → unmarshal raw = none) → unmarshal raw = some resp →
    resp.CarriesError → resp.NoText → ∀ u sessionID message ctx answers,
      let log := (Prog.play record
        (runAgent (runner agentName decodeSession unmarshal sprint) u sessionID message ctx) answers []).2
      raw ∈ Log.received log → Log.StaysError log := by
  intro h
  have hs := h (str "knaic-readonly") .ok print known inInfo.1 inInfo.2 known_blank (by rfl) (.inr nofun) nofun
    none (str "agent-00000000") (str "hello") ⟨[], [], []⟩ (fun _ => oblige inInfo.1) (obliged_received _ _)
  have hm := hs.persisted (newMessage (str "assistant") (str "agent produced no assistant text"))
  exact hm (List.mem_cons_of_mem _ List.mem_cons_self) rfl

end Limited
end Playground.AgentErrors
