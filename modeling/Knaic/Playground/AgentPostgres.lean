import Knaic.Playground.AgentStore
import Knaic.Sql.Database
import Knaic.Sql.Table

open Go Sql

namespace Playground

structure AgentSessionRow where
  id              : Str
  owner           : Str
  ns              : Str
  providerID      : Str
  openCodeSession : Str
  title           : Str
  skills          : Option (List Str)
  createdAt       : Time
  updatedAt       : Time
deriving DecidableEq

structure AgentMessageRow where
  id        : Str
  sessionID : Str
  role      : Str
  content   : Str
  createdAt : Time
deriving DecidableEq

def AgentSessionRow.toSession (r : AgentSessionRow) : AgentSession where
  id              := r.id
  owner           := r.owner
  ns              := r.ns
  providerID      := r.providerID
  openCodeSession := r.openCodeSession
  title           := r.title
  skills          := r.skills
  createdAt       := r.createdAt
  updatedAt       := r.updatedAt
  messages        := []

def AgentMessageRow.toMessage (r : AgentMessageRow) : AgentMessage where
  id        := r.id
  role      := r.role
  content   := r.content
  createdAt := r.createdAt

structure PostgresAgentStore where
  sessions : Table AgentSessionRow
  messages : Table AgentMessageRow

-- The tables of the schema
def newPostgresAgentStore : PostgresAgentStore :=
  ⟨∅, ∅⟩

namespace PostgresAgentStore

def sessionSchema : Schema AgentSessionRow Unit where
  key     := AgentSessionRow.id
  check r := if r.skills.isNone then some notNullViolation else none
  uniques := []

def messageSchema : Schema AgentMessageRow Unit where
  key     := AgentMessageRow.id
  check _ := none
  uniques := []

-- What is filled in before a session or a message is written.
def stamp (session : AgentSession) (now : Time) (random : Vector UInt8 4) : AgentSession :=
  let id := if session.id = [] then newID "agent" random else session.id
  let createdAt := if session.createdAt.isZero then now else session.createdAt
  let updatedAt := if session.updatedAt.isZero then createdAt else session.updatedAt
  { session with id, createdAt, updatedAt }

def stampMessage (msg : AgentMessage) (now : Time) (random : Vector UInt8 4) : AgentMessage :=
  let id := if msg.id = [] then newID "msg" random else msg.id
  let createdAt := if msg.createdAt.isZero then now else msg.createdAt
  { msg with id, createdAt }

-- What a query orders rows by, where `<` comes first.
def listLess (db : Database) (a b : AgentSessionRow) : Bool :=
  if a.updatedAt ≠ b.updatedAt then b.updatedAt.before a.updatedAt else db.less a.id b.id

def messageLess (a b : AgentMessageRow) : Bool :=
  a.createdAt.before b.createdAt

variable (db : Database)

-- The parameters of the insertions, as they are kept. Without skills the driver writes NULL.
def sessionRow (session : AgentSession) : Except Code AgentSessionRow := do
  db.texts [session.id, session.owner, session.ns, session.providerID, session.openCodeSession,
    session.title]
  db.texts (session.skills.getD [])
  let created ← db.instant session.createdAt
  let updated ← db.instant session.updatedAt
  return {
    id              := session.id
    owner           := session.owner
    ns              := session.ns
    providerID      := session.providerID
    openCodeSession := session.openCodeSession
    title           := session.title
    skills          := session.skills
    createdAt       := created
    updatedAt       := updated }

def messageRow (sessionID : Str) (msg : AgentMessage) : Except Code AgentMessageRow := do
  db.texts [msg.id, sessionID, msg.role, msg.content]
  let created ← db.instant msg.createdAt
  return {
    id        := msg.id
    sessionID := sessionID
    role      := msg.role
    content   := msg.content
    createdAt := created }

-- Every message refers to a session.
def insertMessage (t : PostgresAgentStore) (r : AgentMessageRow) : Except Code PostgresAgentStore := do
  let messages ← messageSchema.insert t.messages r
  if (t.sessions.lookup r.sessionID).isNone then throw foreignKeyViolation
  return { t with messages }

-- `UPDATE … WHERE id = $1`, with the number of rows that are affected.
def updateSession (t : PostgresAgentStore) (id : Str) (set : AgentSessionRow → AgentSessionRow) :
    Except Code (Nat × PostgresAgentStore) := do
  let sessions ← sessionSchema.update t.sessions id set
  return (if (t.sessions.lookup id).isSome then 1 else 0, { t with sessions })

def listSessions (t : PostgresAgentStore) (scan : Scan AgentSessionRow) (owner ns : Str) :
    Except Error (List AgentSession) := do
  (db.texts [owner, ns]).mapError .foreign
  let rows := scan.select t.sessions (fun r => r.owner == owner && (ns == [] || r.ns == ns)) (listLess db)
  return rows.map AgentSessionRow.toSession

def createSession (t : PostgresAgentStore) (session : AgentSession) (now : Time)
    (random : Vector UInt8 4) : Except Error (AgentSession × PostgresAgentStore) := do
  let session := stamp session now random
  let sessions ← (sessionRow db session >>= sessionSchema.insert t.sessions).mapError .foreign
  return (session, { t with sessions })

def getSession (t : PostgresAgentStore) (scan : Scan AgentMessageRow) (owner id : Str) :
    Except Error AgentSession := do
  (db.texts [owner, id]).mapError .foreign
  match (t.sessions.lookup id).filter fun r => r.owner = owner with
  | none   => throw errNotFound
  | some r =>
    (db.texts [id]).mapError .foreign
    let msgs := scan.select t.messages (fun m => m.sessionID == id) messageLess
    return { r.toSession with messages := msgs.map AgentMessageRow.toMessage }

-- The messages of the session go with it.
def deleteSession (t : PostgresAgentStore) (owner id : Str) : Except Error (Unit × PostgresAgentStore) := do
  (db.texts [owner, id]).mapError .foreign
  match (t.sessions.lookup id).filter fun r => r.owner = owner with
  | none   => throw errNotFound
  | some _ =>
    return ((), {
      sessions := t.sessions.erase id
      messages := cascade t.messages fun m => m.sessionID == id })

def setOpenCodeSession (t : PostgresAgentStore) (sessionID openCodeID : Str) (now : Time) :
    Except Error (Unit × PostgresAgentStore) := do
  (db.texts [sessionID, openCodeID]).mapError .foreign
  let updated ← (db.instant now).mapError .foreign
  let (n, t) ← (t.updateSession sessionID fun r =>
    { r with openCodeSession := openCodeID, updatedAt := updated }).mapError .foreign
  if n = 0 then throw errNotFound
  return ((), t)

-- A transaction that fails leaves the tables as they were.
def appendMessage (t : PostgresAgentStore) (sessionID : Str) (msg : AgentMessage) (now : Time)
    (random : Vector UInt8 4) : Except Error (Unit × PostgresAgentStore) := do
  let msg := stampMessage msg now random
  (db.texts [sessionID]).mapError .foreign
  let updated ← (db.instant msg.createdAt).mapError .foreign
  let (n, t) ← (t.updateSession sessionID fun r => { r with updatedAt := updated }).mapError .foreign
  if n = 0 then throw errNotFound
  let t ← (messageRow db sessionID msg >>= t.insertMessage).mapError .foreign
  return ((), t)

end PostgresAgentStore
end Playground
