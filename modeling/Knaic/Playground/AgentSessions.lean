import Knaic.Playground.AgentStore
import Knaic.Playground.OpenCodeServer

open Go Effects

namespace Playground

open Auth

structure CreateAgentSessionRequest where
  ns         : Str
  providerID : Str
  title      : Str
  skills     : Option (List Str)

structure AgentRunContext where
  apiBaseURL : Str
  userToken  : Str
  ns         : Str

structure AgentEvent where
  kind     : Str
  text     : Str
  toolName : Str

structure AgentRunnerRequest where
  sessionID       : Str
  openCodeSession : Str
  message         : Str
  provider        : Provider
  userToken       : Str
  ns              : Str
  skills          : Option (List Str)
  apiBaseURL      : Str

-- What is posted to opencode as a message.
structure MessageBody where
  agent : Str
  model : MessageModel
  text  : Str

-- A part of an answer of opencode: what it says of its kind, its text and its tool.
structure MessagePart where
  kind : Str
  text : Str
  tool : Str

-- An answer of opencode, with the errors as they are printed.
structure Envelope where
  infoError : Option Str
  parts     : List MessagePart
  error     : Option Str

namespace Agent

-- What a call of the service about agent sessions does beside looking up providers: the operations of
-- the store, the check of the configuration, the two requests to opencode, and events for the caller.
inductive Op
  | listSessions (owner ns : Str)
  | createSession (session : AgentSession)
  | getSession (owner id : Str)
  | deleteSession (owner id : Str)
  | setOpenCodeSession (sessionID openCodeID : Str)
  | appendMessage (sessionID : Str) (msg : AgentMessage)
  | ensureSnapshotCovers (p : Provider)
  | postSession
  | postMessage (openCodeID : Str) (body : MessageBody)
  | emit (ev : AgentEvent)

abbrev own : Signature where
  Op := Op
  Res
    | .listSessions _ _       => List AgentSession
    | .createSession _        => AgentSession
    | .getSession _ _         => Except Error AgentSession
    | .deleteSession _ _      => Except Error Unit
    | .setOpenCodeSession _ _ => Except Error Unit
    | .appendMessage _ _      => Except Error Unit
    | .ensureSnapshotCovers _ => Except Error Unit
    | .postSession            => Except Error Str
    | .postMessage _ _        => Except Error (Except Error Str)
    | .emit _                 => Unit

abbrev ops : Signature :=
  Playground.ops.extend own

abbrev Call :=
  Effects.Call ops Error

def perform (op : Op) : Prog ops (own.Res op) :=
  @Prog.extra Playground.ops own op

def getSession (owner id : Str) : Call AgentSession :=
  perform (.getSession owner id)

def deleteSession (owner id : Str) : Call Unit :=
  perform (.deleteSession owner id)

def appendMessage (sessionID : Str) (msg : AgentMessage) : Call Unit :=
  perform (.appendMessage sessionID msg)

def ensureSnapshotCovers (p : Provider) : Call Unit :=
  perform (.ensureSnapshotCovers p)

def postSession : Call Str :=
  perform .postSession

-- The answer is there before its body is read.
def postMessage (openCodeID : Str) (body : MessageBody) : Call (Except Error Str) :=
  perform (.postMessage openCodeID body)

def emit (ev : AgentEvent) : Call Unit :=
  ExceptT.lift (perform (.emit ev))

def providerForChat (id : Str) : Call Provider :=
  Call.lift (Service.providerForChat id)

structure State where
  providers : Playground.State
  store     : MemoryAgentStore

-- What an operation finds beside the state: random bytes, how the check of the configuration goes, and
-- what opencode answers.
structure Draw extends upstream : Playground.Draw where
  random  : Vector UInt8 4
  covered : Except Error Unit
  session : Except Error Str
  message : Except Error (Except Error Str)

def answer (s : Service) (op : ops.Op) (d : Draw) (st : State) : ops.Res op × State :=
  match op with
  | .inl op                                       =>
    let a := s.answer op d.upstream st.providers
    (a.1, { st with providers := a.2 })
  | .inr (.listSessions owner ns)                 => (st.store.listSessions owner ns, st)
  | .inr (.createSession session)                 =>
    let a := st.store.createSession session d.now d.random
    (a.1, { st with store := a.2 })
  | .inr (.getSession owner id)                   => (st.store.getSession owner id, st)
  | .inr (.deleteSession owner id)                =>
    let a := st.store.deleteSession owner id
    (a.1, { st with store := a.2 })
  | .inr (.setOpenCodeSession sessionID openCode) =>
    let a := st.store.setOpenCodeSession sessionID openCode d.now
    (a.1, { st with store := a.2 })
  | .inr (.appendMessage sessionID msg)           =>
    let a := st.store.appendMessage sessionID msg d.now d.random
    (a.1, { st with store := a.2 })
  | .inr (.ensureSnapshotCovers _)                => (d.covered, st)
  | .inr .postSession                             => (d.session, st)
  | .inr (.postMessage _ _)                       => (d.message, st)
  | .inr (.emit _)                                => ((), st)

end Agent

-- The runner by what it makes of the answers of opencode. It stores the sessions of opencode with the
-- agent sessions.
structure AgentRunner where
  agentName      : Str
  decodeSession  : Str → Except Error Str
  decodeEnvelope : Str → Option Envelope

namespace AgentRunner

variable (r : AgentRunner)

def ensureOpenCodeSession (req : AgentRunnerRequest) : Agent.Call Str :=
  if req.openCodeSession.hasPrefix (str "ses_") then
    return req.openCodeSession
  else do
    let body ← Agent.postSession.mapError (.wrap "create opencode session")
    match r.decodeSession body with
    | .error err => throw (.wrap "decode opencode session" err)
    | .ok id     =>
      if id = [] then
        throw (.new "opencode session created without an id")
      else
        if req.sessionID ≠ [] then
          let _ ← ExceptT.lift (Agent.perform (.setOpenCodeSession req.sessionID id))
        return id

def event (kind text : Str) : AgentEvent where
  kind     := kind
  text     := text
  toolName := []

def partEvents (part : MessagePart) : List AgentEvent :=
  if part.kind = str "text" then
    if Utf8.trimSpace part.text = [] then [] else [event (str "final") part.text]
  else if part.kind = str "reasoning" then
    if Utf8.trimSpace part.text = [] then [] else [event (str "thought") part.text]
  else if part.kind = str "tool" then
    [{ kind := str "thought", text := str "tool: " ++ part.tool, toolName := part.tool }]
  else if part.kind = str "error" then
    [event (str "error") part.text]
  else
    []

-- Whether the part counts as text of the assistant.
def saw (part : MessagePart) : Bool :=
  part.kind = str "text" && Utf8.trimSpace part.text ≠ []

def eventsFromMessageResponse (raw : Str) : List AgentEvent :=
  if Utf8.trimSpace raw = [] then
    [event (str "final") (str "agent returned no output")]
  else
    match r.decodeEnvelope raw with
    | none     => [event (str "error") (Utf8.trimSpace raw)]
    | some env =>
      (env.error.map (event (str "error"))).toList ++
      (env.infoError.map (event (str "error"))).toList ++
      env.parts.flatMap partEvents ++
      if !env.parts.any saw && env.error.isNone then
        [event (str "final") (str "agent produced no assistant text")]
      else
        []

-- The events go to the caller one after the other.
def emitAll (evs : List AgentEvent) : Agent.Call Unit :=
  evs.forM Agent.emit

def postMessage (openCodeID : Str) (req : AgentRunnerRequest) : Agent.Call (List AgentEvent) := do
  let resp ← (Agent.postMessage openCodeID {
    agent := r.agentName
    model := messageModel req.provider
    text  := req.message
  }).mapError (.wrap "opencode message")
  match resp with
  | .error err => throw (.wrap "read opencode response" err)
  | .ok raw    => do
    emitAll (r.eventsFromMessageResponse raw)
    return r.eventsFromMessageResponse raw

def run (req : AgentRunnerRequest) : Agent.Call (List AgentEvent) :=
  if req.provider.id = [] ∨ req.provider.model = [] then
    throw (.new "provider id and model are required")
  else do
    Agent.ensureSnapshotCovers req.provider
    let sessionID ← r.ensureOpenCodeSession req
    r.postMessage sessionID req

end AgentRunner

def listAgentSessions (u : Option User) (ns : Str) : Agent.Call (List AgentSession) :=
  ExceptT.lift (Agent.perform (.listSessions (ownerFromUser u) ns))

def createAgentSession (u : Option User) (req : CreateAgentSessionRequest) : Agent.Call AgentSession :=
  if req.providerID = [] then
    throw (.new "providerId is required")
  else do
    let _ ← Agent.providerForChat req.providerID
    let title := Utf8.trimSpace req.title
    ExceptT.lift (Agent.perform (.createSession {
      id              := []
      owner           := ownerFromUser u
      ns              := req.ns
      providerID      := req.providerID
      openCodeSession := []
      title           := if title = [] then str "New agent session" else title
      skills          := req.skills
      createdAt       := Time.zero
      updatedAt       := Time.zero
      messages        := []
    }))

def getAgentSession (u : Option User) (id : Str) : Agent.Call AgentSession :=
  Agent.getSession (ownerFromUser u) id

def deleteAgentSession (u : Option User) (id : Str) : Agent.Call Unit :=
  Agent.deleteSession (ownerFromUser u) id

-- A message before the store gives it an identifier and a time.
def newMessage (role content : Str) : AgentMessage where
  id        := []
  role      := role
  content   := content
  createdAt := Time.zero

-- The texts of the final events.
def finalText (evs : List AgentEvent) : Str :=
  (evs.filter fun ev => ev.kind = str "final").flatMap AgentEvent.text

def runAgent (r : AgentRunner) (u : Option User) (sessionID message : Str) (ctx : AgentRunContext) :
    Agent.Call Unit := do
  let msg := Utf8.trimSpace message
  if msg = [] then
    throw (.new "message is required")
  else
    let session ← Agent.getSession (ownerFromUser u) sessionID
    let provider ← Agent.providerForChat session.providerID
    Agent.appendMessage session.id (newMessage (str "user") msg)
    let evs ← r.run {
      sessionID       := session.id
      openCodeSession := session.openCodeSession
      message         := msg
      provider        := provider
      userToken       := ctx.userToken
      ns              := if ctx.ns ≠ [] then ctx.ns else session.ns
      skills          := session.skills
      apiBaseURL      := ctx.apiBaseURL
    }
    let final := finalText evs
    if Utf8.trimSpace final = [] then
      return
    else
      Agent.appendMessage session.id (newMessage (str "assistant") final)

end Playground
