import Knaic.Auth.User
import Knaic.Go.Sort
import Knaic.Playground.Service

open Go Effects

namespace Playground

open Auth

structure AgentMessage where
  id        : Str
  role      : Str
  content   : Str
  createdAt : Time
deriving DecidableEq

structure AgentSession where
  id              : Str
  owner           : Str
  ns              : Str
  providerID      : Str
  openCodeSession : Str
  title           : Str
  skills          : Option (List Str)
  createdAt       : Time
  updatedAt       : Time
  messages        : List AgentMessage
deriving DecidableEq

def ownerFromUser : Option User → Str
  | none   => []
  | some u =>
    if u.subject ≠ [] then u.subject
    else if u.email ≠ [] then u.email
    else u.name

structure MemoryAgentStore where
  sessions : Go.Map AgentSession
  messages : Go.Map (List AgentMessage)
  counter  : Nat

def newMemoryAgentStore : MemoryAgentStore :=
  ⟨∅, ∅, 0⟩

-- `newID` with the bytes that it has drawn.
def newID (kind : String) (random : Vector UInt8 4) : Str :=
  str kind ++ str "-" ++ hex random.toList

namespace MemoryAgentStore

variable (s : MemoryAgentStore)

def Listed (owner ns : Str) (session : AgentSession) : Bool :=
  session.owner = owner && (ns = [] || session.ns = ns)

def listLess (a b : AgentSession) : Bool :=
  if a.updatedAt ≠ b.updatedAt then b.updatedAt.before a.updatedAt else a.id < b.id

def listSessions (owner ns : Str) : List AgentSession :=
  (s.sessions.sorted (Listed owner ns) listLess).map fun session => { session with messages := [] }

def createSession (session : AgentSession) (now : Time) (random : Vector UInt8 4) :
    AgentSession × MemoryAgentStore :=
  let id := if session.id = [] then newID "agent" random else session.id
  let createdAt := if session.createdAt.isZero then now else session.createdAt
  let updatedAt := if session.updatedAt.isZero then createdAt else session.updatedAt
  let session := { session with id, createdAt, updatedAt }
  (session, { s with counter := s.counter + 1, sessions := s.sessions.insert id session })

def getSession (owner id : Str) : Except Error AgentSession :=
  match s.sessions.lookup id with
  | none         => .error errNotFound
  | some session =>
    if session.owner ≠ owner then
      .error errNotFound
    else
      .ok { session with messages := (s.messages.lookup id).getD [] }

def deleteSession (owner id : Str) : Except Error Unit × MemoryAgentStore :=
  match s.sessions.lookup id with
  | none         => (.error errNotFound, s)
  | some session =>
    if session.owner ≠ owner then
      (.error errNotFound, s)
    else
      (.ok (), { s with sessions := s.sessions.erase id, messages := s.messages.erase id })

def setOpenCodeSession (sessionID openCodeID : Str) (now : Time) : Except Error Unit × MemoryAgentStore :=
  match s.sessions.lookup sessionID with
  | none         => (.error errNotFound, s)
  | some session =>
    let session := { session with openCodeSession := openCodeID, updatedAt := now }
    (.ok (), { s with sessions := s.sessions.insert sessionID session })

def appendMessage (sessionID : Str) (msg : AgentMessage) (now : Time) (random : Vector UInt8 4) :
    Except Error Unit × MemoryAgentStore :=
  match s.sessions.lookup sessionID with
  | none         => (.error errNotFound, s)
  | some session =>
    let id := if msg.id = [] then newID "msg" random else msg.id
    let createdAt := if msg.createdAt.isZero then now else msg.createdAt
    let msg := { msg with id, createdAt }
    (.ok (), { s with
      messages := s.messages.insert sessionID ((s.messages.lookup sessionID).getD [] ++ [msg])
      sessions := s.sessions.insert sessionID { session with updatedAt := createdAt } })

-- A session of an owner with its messages.
def view (owner id : Str) : Option (AgentSession × List AgentMessage) :=
  ((s.sessions.lookup id).filter fun session => session.owner = owner).map fun session =>
    (session, (s.messages.lookup id).getD [])

section Lookup

variable {s} {now : Time} {random : Vector UInt8 4}

-- A change of the session that is kept under an identifier.
theorem lookup_changed {sessions : Go.Map AgentSession} {sid : Str} {session : AgentSession}
    (hl : sessions.lookup sid = some session) (f : AgentSession → AgentSession) (id : Str) :
    (sessions.insert sid (f session)).lookup id =
      (sessions.lookup id).map fun a => if id = sid then f a else a := by
  by_cases he : id = sid
  case pos => subst he; simp [Finmap.lookup_insert, hl]
  case neg => simp [Finmap.lookup_insert_of_ne _ he, he]

theorem map_unchanged {sessions : Go.Map AgentSession} {sid : Str} (hl : sessions.lookup sid = none)
    (f : AgentSession → AgentSession) (id : Str) :
    sessions.lookup id = (sessions.lookup id).map fun a => if id = sid then f a else a := by
  by_cases he : id = sid
  case pos => subst he; simp [hl]
  case neg => simp [he]

theorem setOpenCodeSession_lookup (sid openCode id : Str) :
    (s.setOpenCodeSession sid openCode now).2.sessions.lookup id =
      (s.sessions.lookup id).map fun a =>
        if id = sid then { a with openCodeSession := openCode, updatedAt := now } else a := by
  unfold setOpenCodeSession
  split
  case h_1 hl => exact map_unchanged hl _ id
  case h_2 hl => exact lookup_changed hl (fun a => { a with openCodeSession := openCode, updatedAt := now }) id

theorem appendMessage_lookup (sid : Str) (msg : AgentMessage) (id : Str) :
    (s.appendMessage sid msg now random).2.sessions.lookup id =
      (s.sessions.lookup id).map fun a =>
        if id = sid then
          { a with updatedAt := if msg.createdAt.isZero then now else msg.createdAt }
        else a := by
  unfold appendMessage
  split
  case h_1 hl => exact map_unchanged hl _ id
  case h_2 hl =>
    exact lookup_changed hl
      (fun a => { a with updatedAt := if msg.createdAt.isZero then now else msg.createdAt }) id

theorem setOpenCodeSession_messages (sid openCode : Str) :
    (s.setOpenCodeSession sid openCode now).2.messages = s.messages := by
  unfold setOpenCodeSession
  split <;> rfl

-- Messages are added where there is a session.
theorem appendMessage_messages {sid : Str} {msg : AgentMessage} {id : Str}
    (h : (s.appendMessage sid msg now random).2.messages.lookup id ≠ none) :
    s.messages.lookup id ≠ none ∨ (s.sessions.lookup id).isSome := by
  unfold appendMessage at h
  split at h
  case h_1      => exact .inl h
  case h_2 a hl =>
    by_cases he : id = sid
    case pos =>
      subst he
      exact .inr (Option.isSome_iff_exists.mpr ⟨a, hl⟩)
    case neg =>
      rw [Finmap.lookup_insert_of_ne _ he] at h
      exact .inl h

theorem getSession_eq (owner id : Str) :
    s.getSession owner id = match s.view owner id with
      | none               => .error errNotFound
      | some (a, messages) => .ok { a with messages := messages } := by
  unfold getSession view
  cases s.sessions.lookup id
  case none   => rfl
  case some a => by_cases ho : a.owner = owner <;> simp [Option.filter, ho]

theorem deleteSession_eq (owner id : Str) :
    (s.deleteSession owner id).1 = match s.view owner id with
      | none   => .error errNotFound
      | some _ => .ok () := by
  unfold deleteSession view
  cases s.sessions.lookup id
  case none   => rfl
  case some a => by_cases ho : a.owner = owner <;> simp [Option.filter, ho]

theorem view_some {owner id : Str} {v : AgentSession × List AgentMessage} (h : s.view owner id = some v) :
    s.sessions.lookup id = some v.1 ∧ v.1.owner = owner := by
  have ⟨a, ha, he⟩ := Option.map_eq_some_iff.mp h
  have ⟨hl, ho⟩    := Option.filter_eq_some_iff.mp ha
  subst he
  exact ⟨hl, of_decide_eq_true ho⟩

-- Where only the owner has a session, a look at all sessions is one at those of the owner.
theorem view_none {owner id : Str} (h : ∀ a, s.sessions.lookup id = some a → a.owner = owner) :
    s.view owner id = none ↔ s.sessions.lookup id = none := by
  unfold view
  cases hl : s.sessions.lookup id
  case none   => simp
  case some a => simp [Option.filter, h a hl]

theorem view_other {owner owner' id : Str} (h : ∀ a, s.sessions.lookup id = some a → a.owner = owner)
    (hn : owner' ≠ owner) : s.view owner' id = none := by
  unfold view
  cases hl : s.sessions.lookup id
  case none   => rfl
  case some a => simp [Option.filter, h a hl, hn.symm]

-- What is listed for an owner are sessions of the owner.
theorem listSessions_congr {t : MemoryAgentStore} {owner : Str} (h : s.view owner = t.view owner) (ns : Str) :
    s.listSessions owner ns = t.listSessions owner ns := by
  have owned (u : MemoryAgentStore) (id : Str) :
      (u.sessions.lookup id).filter (Listed owner ns) =
        ((u.view owner id).map Prod.fst).filter (Listed owner ns) := by
    unfold view
    cases u.sessions.lookup id
    case none   => rfl
    case some a => by_cases ho : a.owner = owner <;> simp [Option.filter, ho, Listed]
  have hl : s.sessions.sorted (Listed owner ns) listLess = t.sessions.sorted (Listed owner ns) listLess :=
    Map.sorted_congr fun id => by rw [owned s, owned t, h]
  rw [listSessions, listSessions, hl]

-- Where only the owner has a session, the answers tell no more than the sessions of the owner do.
theorem setOpenCodeSession_congr {t : MemoryAgentStore} {owner sid : Str} (h : s.view owner = t.view owner)
    (hs : ∀ a, s.sessions.lookup sid = some a → a.owner = owner)
    (ht : ∀ a, t.sessions.lookup sid = some a → a.owner = owner) (openCode : Str) :
    (s.setOpenCodeSession sid openCode now).1 = (t.setOpenCodeSession sid openCode now).1 := by
  have hn : s.sessions.lookup sid = none ↔ t.sessions.lookup sid = none := by
    rw [← view_none hs, ← view_none ht, h]
  unfold setOpenCodeSession
  cases hl : s.sessions.lookup sid <;> cases hl' : t.sessions.lookup sid <;> simp_all

theorem appendMessage_congr {t : MemoryAgentStore} {owner sid : Str} (h : s.view owner = t.view owner)
    (hs : ∀ a, s.sessions.lookup sid = some a → a.owner = owner)
    (ht : ∀ a, t.sessions.lookup sid = some a → a.owner = owner) (msg : AgentMessage) :
    (s.appendMessage sid msg now random).1 = (t.appendMessage sid msg now random).1 := by
  have hn : s.sessions.lookup sid = none ↔ t.sessions.lookup sid = none := by
    rw [← view_none hs, ← view_none ht, h]
  unfold appendMessage
  cases hl : s.sessions.lookup sid <;> cases hl' : t.sessions.lookup sid <;> simp_all

theorem view_create {session : AgentSession} {id : Str} (hi : session.id = [])
    (hm : s.messages.lookup (newID "agent" random) = none) (owner : Str) :
    (s.createSession session now random).2.view owner id =
      if id = newID "agent" random then
        if session.owner = owner then some ((s.createSession session now random).1, []) else none
      else s.view owner id := by
  simp only [view, createSession, hi, if_true]
  by_cases he : id = newID "agent" random
  case neg => rw [Finmap.lookup_insert_of_ne _ he, if_neg he]
  case pos =>
    subst he
    rw [Finmap.lookup_insert, hm, if_pos rfl]
    by_cases ho : session.owner = owner <;> simp [Option.filter, ho]

-- Nothing is deleted where the owner has nothing.
theorem deleteSession_none {owner id : Str} (h : s.view owner id = none) :
    (s.deleteSession owner id).2 = s := by
  unfold deleteSession
  cases hl : s.sessions.lookup id
  case none   => rfl
  case some a =>
    have ho : a.owner ≠ owner := by
      rintro rfl
      simp [view, hl, Option.filter] at h
    simp only [if_pos ho]

theorem deleteSession_some {owner id : Str} {v : AgentSession × List AgentMessage}
    (h : s.view owner id = some v) : (s.deleteSession owner id).2 =
      { s with sessions := s.sessions.erase id, messages := s.messages.erase id } := by
  unfold deleteSession
  cases hl : s.sessions.lookup id
  case none   => simp [view, hl] at h
  case some a =>
    have ho : ¬a.owner ≠ owner := by
      intro ho
      simp [view, hl, Option.filter, ho] at h
    simp only [if_neg ho]

theorem view_delete (owner owner' id id' : Str) :
    (s.deleteSession owner id).2.view owner' id' =
      if id' = id ∧ owner' = owner then none else s.view owner' id' := by
  cases hv : s.view owner id
  case none =>
    rw [deleteSession_none hv]
    split
    case isFalse   => rfl
    case isTrue he => rwa [he.left, he.right]
  case some v =>
    rw [deleteSession_some hv]
    by_cases he : id' = id
    case neg => simp [view, he, Finmap.lookup_erase_ne he]
    case pos =>
      subst he
      have hn : owner' ≠ owner → s.view owner' id' = none := by
        intro ho
        refine view_other (fun a hl => ?_) ho
        by_contra hne
        simp [view, hl, Option.filter, hne] at hv
      by_cases ho : owner' = owner
      case pos => simp [view, ho, Finmap.lookup_erase]
      case neg => rw [hn ho, ite_self]; simp [view, Finmap.lookup_erase]

theorem view_setOpenCode (sid openCode owner id : Str) :
    (s.setOpenCodeSession sid openCode now).2.view owner id = (s.view owner id).map fun v =>
      if id = sid then ({ v.1 with openCodeSession := openCode, updatedAt := now }, v.2) else v := by
  rw [view, setOpenCodeSession_lookup, setOpenCodeSession_messages, view]
  cases s.sessions.lookup id
  case none   => rfl
  case some a =>
    by_cases ho : a.owner = owner <;> by_cases he : id = sid <;> simp [Option.filter, ho, he]

theorem view_append (sid : Str) (msg : AgentMessage) (owner id : Str) :
    (s.appendMessage sid msg now random).2.view owner id = (s.view owner id).map fun v =>
      if id = sid then
        ({ v.1 with updatedAt := if msg.createdAt.isZero then now else msg.createdAt },
          v.2 ++ [{ msg with
            id        := if msg.id = [] then newID "msg" random else msg.id
            createdAt := if msg.createdAt.isZero then now else msg.createdAt }])
      else v := by
  rw [view, appendMessage_lookup, view]
  by_cases he : id = sid
  case neg =>
    have hm : (s.appendMessage sid msg now random).2.messages.lookup id = s.messages.lookup id := by
      unfold appendMessage
      split
      case h_1 => rfl
      case h_2 => exact Finmap.lookup_insert_of_ne _ he
    rw [hm]
    cases s.sessions.lookup id
    case none   => rfl
    case some a => by_cases ho : a.owner = owner <;> simp [Option.filter, ho, he]
  case pos =>
    subst he
    cases hl : s.sessions.lookup id
    case none   => rfl
    case some a =>
      by_cases ho : a.owner = owner <;>
        simp [Option.filter, ho, appendMessage, hl, Finmap.lookup_insert]

end Lookup
end MemoryAgentStore
end Playground
