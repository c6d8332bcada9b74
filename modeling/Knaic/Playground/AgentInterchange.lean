import Knaic.Effects.Machine
import Knaic.Playground.AgentPostgres

open Go Effects Sql

namespace Playground.AgentStore

inductive Op
  | listSessions (owner ns : Str)
  | createSession (session : AgentSession)
  | getSession (owner id : Str)
  | deleteSession (owner id : Str)
  | setOpenCodeSession (sessionID openCodeID : Str)
  | appendMessage (sessionID : Str) (msg : AgentMessage)

abbrev ops : Signature where
  Op := Op
  Res
    | .listSessions _ _                   => Except Error (List AgentSession)
    | .createSession _ | .getSession _ _  => Except Error AgentSession
    | .deleteSession _ _                  => Except Error Unit
    | .setOpenCodeSession _ _             => Except Error Unit
    | .appendMessage _ _                  => Except Error Unit

-- What an operation draws: the time, random bytes, and the orders in which its queries read.
structure Draw where
  now      : Time
  random   : Vector UInt8 4
  sessions : Scan AgentSessionRow
  messages : Scan AgentMessageRow

def memory : Machine ops Draw MemoryAgentStore where
  answer op d s :=
    match op with
    | .listSessions owner ns     => (.ok (s.listSessions owner ns), s)
    | .createSession session     =>
      let a := s.createSession session d.now d.random
      (.ok a.1, a.2)
    | .getSession owner id       => (s.getSession owner id, s)
    | .deleteSession owner id    => s.deleteSession owner id
    | .setOpenCodeSession id oid => s.setOpenCodeSession id oid d.now
    | .appendMessage id msg      => s.appendMessage id msg d.now d.random

def postgres (db : Database) : Machine ops Draw PostgresAgentStore where
  answer op d t :=
    match op with
    | .listSessions owner ns     => (t.listSessions db d.sessions owner ns, t)
    | .createSession session     => commit t (t.createSession db session d.now d.random)
    | .getSession owner id       => (t.getSession db d.messages owner id, t)
    | .deleteSession owner id    => commit t (t.deleteSession db owner id)
    | .setOpenCodeSession id oid => commit t (t.setOpenCodeSession db id oid d.now)
    | .appendMessage id msg      => commit t (t.appendMessage db id msg d.now d.random)

-- What the columns of the tables take.
structure Storable (session : AgentSession) : Prop where
  text    : ∀ s ∈ [session.id, session.owner, session.ns, session.providerID,
            session.openCodeSession, session.title], storableText s
  skills  : session.skills.isSome
  skill   : ∀ s ∈ session.skills.getD [], storableText s
  created : storableTime session.createdAt
  updated : storableTime session.updatedAt

instance (session : AgentSession) : Decidable (Storable session) :=
  decidable_of_iff
    ((∀ s ∈ [session.id, session.owner, session.ns, session.providerID, session.openCodeSession,
      session.title], storableText s) ∧ session.skills.isSome ∧
      (∀ s ∈ session.skills.getD [], storableText s) ∧ storableTime session.createdAt ∧
      storableTime session.updatedAt)
    ⟨fun h => ⟨h.1, h.2.1, h.2.2.1, h.2.2.2.1, h.2.2.2.2⟩,
      fun h => ⟨h.text, h.skills, h.skill, h.created, h.updated⟩⟩

def taken (s : MemoryAgentStore) (id : Str) : Bool :=
  s.messages.exists? fun ms => ms.any fun m => m.id == id

-- The steps that the rules of the tables leave alone: all values fit the columns, no identifier is
-- used again, and no two messages that are read together have the same time or come before their time.
def Common : ops.Op → Draw → MemoryAgentStore → Prop
  | .listSessions owner ns, _, _     => storableText owner ∧ storableText ns
  | .createSession session, d, s     =>
    Storable (PostgresAgentStore.stamp session d.now d.random) ∧
    s.sessions.lookup (PostgresAgentStore.stamp session d.now d.random).id = none
  | .getSession owner id, _, s       =>
    storableText owner ∧ storableText id ∧ ∀ a ∈ s.sessions.lookup id, a.owner = owner →
      ((s.messages.lookup id).getD []).Pairwise fun m m' => m.createdAt.before m'.createdAt
  | .deleteSession owner id, _, _    => storableText owner ∧ storableText id
  | .setOpenCodeSession id oid, d, _ => storableText id ∧ storableText oid ∧ storableTime d.now
  | .appendMessage id msg, d, s      =>
    let msg := PostgresAgentStore.stampMessage msg d.now d.random
    storableText id ∧ storableTime msg.createdAt ∧ ((s.sessions.lookup id).isSome →
      (∀ s ∈ [msg.id, msg.role, msg.content], storableText s) ∧ ¬taken s msg.id)

instance (op : ops.Op) (d : Draw) (s : MemoryAgentStore) : Decidable (Common op d s) :=
  match op with
  | .listSessions _ _       => inferInstanceAs (Decidable (_ ∧ _))
  | .createSession _        => inferInstanceAs (Decidable (_ ∧ _))
  | .getSession _ id        => inferInstanceAs (Decidable (_ ∧ _ ∧ ∀ a ∈ s.sessions.lookup id, _))
  | .deleteSession _ _      => inferInstanceAs (Decidable (_ ∧ _))
  | .setOpenCodeSession _ _ => inferInstanceAs (Decidable (_ ∧ _ ∧ _))
  | .appendMessage _ _      => inferInstanceAs (Decidable (_ ∧ _ ∧ (_ → _)))

-- A row of a session, and of a message of a session.
def sessionRow (a : AgentSession) : AgentSessionRow where
  id              := a.id
  owner           := a.owner
  ns              := a.ns
  providerID      := a.providerID
  openCodeSession := a.openCodeSession
  title           := a.title
  skills          := a.skills
  createdAt       := a.createdAt
  updatedAt       := a.updatedAt

def messageRow (sessionID : Str) (m : AgentMessage) : AgentMessageRow where
  id        := m.id
  sessionID := sessionID
  role      := m.role
  content   := m.content
  createdAt := m.createdAt

-- The messages of a session, from the first to the last.
def history (messages : Go.Map (List AgentMessage)) (id : Str) : List AgentMessage :=
  (messages.lookup id).getD []

-- The tables hold what the maps hold.
structure Same (s : MemoryAgentStore) (t : PostgresAgentStore) : Prop where
  sessions : ∀ id, t.sessions.lookup id = (s.sessions.lookup id).map sessionRow
  key      : ∀ id a, s.sessions.lookup id = some a → a.id = id
  skills   : ∀ id a, s.sessions.lookup id = some a → a.skills.isSome
  messages : ∀ mid r, t.messages.lookup mid = some r ↔
             ∃ sid, ∃ m ∈ history s.messages sid, m.id = mid ∧ r = messageRow sid m
  ids      : ∀ sid, ((history s.messages sid).map AgentMessage.id).Nodup

section Steps

open PostgresAgentStore (sessionSchema messageSchema stamp stampMessage)

variable {db : Database} {s : MemoryAgentStore} {t : PostgresAgentStore} {d : Draw} {id : Str}

theorem not_taken {Row U : Type} [DecidableEq U] {S : Schema Row U} (hu : S.uniques = [])
    (t : Table Row) (r : Row) : S.taken t r = false := by
  rw [← Bool.not_eq_true, Schema.taken_iff, hu]
  simp

theorem session_not_taken (t : Table AgentSessionRow) (r : AgentSessionRow) :
    sessionSchema.taken t r = false :=
  not_taken rfl t r

theorem message_not_taken (t : Table AgentMessageRow) (r : AgentMessageRow) :
    messageSchema.taken t r = false :=
  not_taken rfl t r

theorem Same.lookup (h : Same s t) (id : Str) :
    t.sessions.lookup id = none ↔ s.sessions.lookup id = none := by
  simp [h.sessions]

-- A row that an update leaves with its skills passes the checks again.
theorem updateSession_some (h : Same s t) {a : AgentSession} (hl : s.sessions.lookup id = some a)
    (set : AgentSessionRow → AgentSessionRow) (hs : ∀ r, (set r).skills = r.skills) :
    t.updateSession id set =
      .ok (1, { t with sessions := t.sessions.insert id (set (sessionRow a)) }) := by
  have ht : t.sessions.lookup id = some (sessionRow a) := by rw [h.sessions, hl]; rfl
  have hk : sessionSchema.check (set (sessionRow a)) = none := by
    have hsome : (sessionRow a).skills.isSome := h.skills id a hl
    refine if_neg ?_
    rw [hs, Option.isNone_iff_eq_none]
    exact Option.isSome_iff_ne_none.mp hsome
  simp only [PostgresAgentStore.updateSession, Schema.update, ht, hk, session_not_taken]
  rfl

theorem updateSession_none (h : Same s t) (hl : s.sessions.lookup id = none)
    (set : AgentSessionRow → AgentSessionRow) : t.updateSession id set = .ok (0, t) := by
  have ht : t.sessions.lookup id = none := (h.lookup id).mpr hl
  simp only [PostgresAgentStore.updateSession, Schema.update, ht]
  rfl

-- A session comes into both stores, or takes the place of the one with its identifier.
theorem Same.put (h : Same s t) {b : AgentSession} (hi : b.id = id) (hs : b.skills.isSome) (c : Nat) :
    Same ⟨s.sessions.insert id b, s.messages, c⟩
      ⟨t.sessions.insert id (sessionRow b), t.messages⟩ where
  sessions id' := by
    by_cases he : id' = id
    case pos => subst he; simp [Finmap.lookup_insert]
    case neg => simp [Finmap.lookup_insert_of_ne _ he, h.sessions]
  key id' c hc := by
    cases Map.lookup_insert_some hc
    case inl he => rw [he.left, he.right, hi]
    case inr hc => exact h.key id' c hc
  skills id' c hc := by
    cases Map.lookup_insert_some hc
    case inl he => rw [he.right]; exact hs
    case inr hc => exact h.skills id' c hc
  messages := h.messages
  ids      := h.ids

theorem setOpenCodeSession_same (hd : db.Documented) (h : Same s t) {oid : Str}
    (hc : Common (.setOpenCodeSession id oid) d s) :
    let a := s.setOpenCodeSession id oid d.now
    let b := commit t (t.setOpenCodeSession db id oid d.now)
    b.1 = a.1 ∧ Same a.2 b.2 := by
  obtain ⟨hi, ho, hn⟩ := hc
  have ht : db.texts [id, oid] = .ok () := db.texts_ok hd (by simp [hi, ho])
  simp only [PostgresAgentStore.setOpenCodeSession, ht, hd.instant _ hn, Except.mapError, ok_bind,
    MemoryAgentStore.setOpenCodeSession]
  cases hl : s.sessions.lookup id
  case none =>
    rw [updateSession_none h hl]
    exact ⟨rfl, h⟩
  case some a =>
    rw [updateSession_some h hl (fun r => { r with openCodeSession := oid, updatedAt := d.now })
      fun _ => rfl]
    exact ⟨rfl, h.put (b := { a with openCodeSession := oid, updatedAt := d.now }) (h.key id a hl) (h.skills id a hl) _⟩

theorem createSession_same (hd : db.Documented) (h : Same s t) {session : AgentSession}
    (hc : Common (.createSession session) d s) :
    let a := s.createSession session d.now d.random
    let b := commit t (t.createSession db session d.now d.random)
    b.1 = .ok a.1 ∧ Same a.2 b.2 := by
  obtain ⟨hst, hl⟩ := hc
  generalize hb : stamp session d.now d.random = b at hst hl
  have ht : t.sessions.lookup b.id = none := (h.lookup b.id).mpr hl
  have hrow : PostgresAgentStore.sessionRow db b = .ok (sessionRow b) := by
    simp only [PostgresAgentStore.sessionRow]
    rw [db.texts_ok hd hst.text, db.texts_ok hd hst.skill, hd.instant _ hst.created,
      hd.instant _ hst.updated]
    rfl
  have hk : sessionSchema.check (sessionRow b) = none := by
    refine if_neg ?_
    rw [Option.isNone_iff_eq_none]
    exact Option.isSome_iff_ne_none.mp hst.skills
  have hins : sessionSchema.insert t.sessions (sessionRow b) =
      .ok (t.sessions.insert b.id (sessionRow b)) := by
    have hfree : t.sessions.lookup (sessionSchema.key (sessionRow b)) = none := ht
    simp only [Schema.insert, hk, session_not_taken, hfree]
    rfl
  have hm : s.createSession session d.now d.random =
      (b, { s with counter := s.counter + 1, sessions := s.sessions.insert b.id b }) := by
    subst hb
    rfl
  simp only [PostgresAgentStore.createSession, hb, hrow, ok_bind, hins, hm]
  exact ⟨rfl, h.put rfl hst.skills _⟩

section History

variable (messages : Go.Map (List AgentMessage)) (m : AgentMessage) (id sid : Str)

theorem history_erase : history (messages.erase id) sid = if sid = id then [] else history messages sid := by
  unfold history
  split
  case isTrue he   => rw [he, Finmap.lookup_erase]; rfl
  case isFalse hne => rw [Finmap.lookup_erase_ne hne]

theorem history_append : history (messages.insert id (history messages id ++ [m])) sid =
    if sid = id then history messages id ++ [m] else history messages sid := by
  split
  case isTrue he   => rw [he, history, Finmap.lookup_insert]; rfl
  case isFalse hne => rw [history, Finmap.lookup_insert_of_ne _ hne, history]

end History

theorem not_taken_iff {mid : Str} : ¬taken s mid ↔ ∀ sid, ∀ m ∈ history s.messages sid, m.id ≠ mid := by
  rw [taken, Map.exists_iff]
  constructor
  case mp =>
    intro hn sid m hm hi
    cases hl : s.messages.lookup sid
    case none    => simp [history, hl] at hm
    case some ms =>
      rw [history, hl] at hm
      exact hn ⟨sid, ms, hl, List.any_eq_true.mpr ⟨m, hm, by simp [hi]⟩⟩
  case mpr =>
    rintro hn ⟨sid, ms, hl, ha⟩
    obtain ⟨m, hm, hi⟩ := List.any_eq_true.mp ha
    exact hn sid m (by rwa [history, hl]) (by simpa using hi)

-- A session goes from both stores with its messages.
theorem Same.delete (h : Same s t) (id : Str) :
    Same { s with sessions := s.sessions.erase id, messages := s.messages.erase id }
      ⟨t.sessions.erase id, cascade t.messages fun m => m.sessionID == id⟩ where
  sessions id' := by
    by_cases he : id' = id
    case pos => subst he; simp [Finmap.lookup_erase]
    case neg => simp [Finmap.lookup_erase_ne he, h.sessions]
  key id' c hc    := h.key id' c (Map.lookup_erase_some hc)
  skills id' c hc := h.skills id' c (Map.lookup_erase_some hc)
  messages mid r := by
    rw [lookup_cascade, Option.filter_eq_some_iff, h.messages]
    constructor
    case mp =>
      rintro ⟨⟨sid, m, hm, hi, hr⟩, hn⟩
      have hne : sid ≠ id := by simpa [hr, messageRow] using hn
      exact ⟨sid, m, by rwa [history_erase, if_neg hne], hi, hr⟩
    case mpr =>
      rintro ⟨sid, m, hm, hi, hr⟩
      rw [history_erase] at hm
      split at hm
      case isTrue      => cases hm
      case isFalse hne => exact ⟨⟨sid, m, hm, hi, hr⟩, by simpa [hr, messageRow] using hne⟩
  ids sid := by
    rw [history_erase]
    split
    case isTrue  => exact List.nodup_nil
    case isFalse => exact h.ids sid

theorem deleteSession_same (hd : db.Documented) (h : Same s t) {owner : Str}
    (hc : Common (.deleteSession owner id) d s) :
    let a := s.deleteSession owner id
    let b := commit t (t.deleteSession db owner id)
    b.1 = a.1 ∧ Same a.2 b.2 := by
  obtain ⟨ho, hi⟩ := hc
  have ht : db.texts [owner, id] = .ok () := db.texts_ok hd (by simp [ho, hi])
  simp only [PostgresAgentStore.deleteSession, ht, Except.mapError, ok_bind, h.sessions,
    MemoryAgentStore.deleteSession]
  cases hl : s.sessions.lookup id
  case none   => exact ⟨rfl, h⟩
  case some a =>
    by_cases hown : a.owner = owner
    case neg =>
      have hf : (some (sessionRow a)).filter (fun r => r.owner = owner) = none := by
        simp [Option.filter, sessionRow, hown]
      simp only [Option.map_some, hf, if_pos hown]
      exact ⟨rfl, h⟩
    case pos =>
      have hf : (some (sessionRow a)).filter (fun r => r.owner = owner) = some (sessionRow a) := by
        simp [Option.filter, sessionRow, hown]
      simp only [Option.map_some, hf, hown, ne_eq, not_true, if_false]
      exact ⟨rfl, h.delete id⟩

-- A message comes into both stores, for a session that they have.
theorem Same.append (h : Same s t) {m : AgentMessage} (hn : ¬taken s m.id) :
    Same { s with messages := s.messages.insert id (history s.messages id ++ [m]) }
      { t with messages := t.messages.insert m.id (messageRow id m) } where
  sessions := h.sessions
  key      := h.key
  skills   := h.skills
  messages mid r := by
    rw [not_taken_iff] at hn
    by_cases he : mid = m.id
    case pos =>
      subst he
      rw [Finmap.lookup_insert]
      constructor
      case mp =>
        intro hr
        exact ⟨id, m, by simp [history_append], rfl, (Option.some.inj hr).symm⟩
      case mpr =>
        rintro ⟨sid, m', hm, hi, hr⟩
        rw [history_append] at hm
        split at hm
        case isFalse  => exact absurd hi (hn sid m' hm)
        case isTrue he =>
          cases List.mem_append.mp hm
          case inl hm => exact absurd hi (hn id m' hm)
          case inr hm => rw [hr, he, List.mem_singleton.mp hm]
    case neg =>
      rw [Finmap.lookup_insert_of_ne _ he, h.messages]
      constructor
      case mp =>
        rintro ⟨sid, m', hm, hi, hr⟩
        refine ⟨sid, m', ?_, hi, hr⟩
        rw [history_append]
        split
        case isTrue hs  => exact List.mem_append_left _ (hs ▸ hm)
        case isFalse    => exact hm
      case mpr =>
        rintro ⟨sid, m', hm, hi, hr⟩
        refine ⟨sid, m', ?_, hi, hr⟩
        rw [history_append] at hm
        split at hm
        case isFalse   => exact hm
        case isTrue hs =>
          cases List.mem_append.mp hm
          case inl hm => exact hs ▸ hm
          case inr hm =>
            rw [List.mem_singleton.mp hm] at hi
            exact absurd hi.symm he
  ids sid := by
    rw [not_taken_iff] at hn
    rw [history_append]
    split
    case isFalse => exact h.ids sid
    case isTrue =>
      rw [List.map_append, List.map_singleton]
      refine (h.ids id).append (List.nodup_singleton _) ?_
      intro x hx hx'
      obtain ⟨m', hm, hi⟩ := List.mem_map.mp hx
      exact hn id m' hm (hi.trans (List.mem_singleton.mp hx'))

theorem insertMessage_ok (h : Same s t) {m : AgentMessage} (hl : (s.sessions.lookup id).isSome)
    (hn : ¬taken s m.id) : t.insertMessage (messageRow id m) =
      .ok { t with messages := t.messages.insert m.id (messageRow id m) } := by
  have hfree : t.messages.lookup (messageSchema.key (messageRow id m)) = none := by
    rw [Option.eq_none_iff_forall_ne_some]
    intro r hr
    obtain ⟨sid, m', hm, hi, -⟩ := (h.messages _ r).mp hr
    exact not_taken_iff.mp hn sid m' hm hi
  have hses : (t.sessions.lookup (messageRow id m).sessionID).isNone = false := by
    show (t.sessions.lookup id).isNone = false
    rw [h.sessions, Option.isNone_map]
    simpa using hl
  have hk : messageSchema.check (messageRow id m) = none := rfl
  simp only [PostgresAgentStore.insertMessage, Schema.insert, hk, hfree, message_not_taken]
  simp only [Option.isSome_none, Bool.false_or, Bool.false_eq_true, if_false, ok_bind, hses]
  rfl

theorem appendMessage_same (hd : db.Documented) (h : Same s t) {msg : AgentMessage}
    (hc : Common (.appendMessage id msg) d s) :
    let a := s.appendMessage id msg d.now d.random
    let b := commit t (t.appendMessage db id msg d.now d.random)
    b.1 = a.1 ∧ Same a.2 b.2 := by
  obtain ⟨hi, ht, hs⟩ := hc
  have hti : db.texts [id] = .ok () := db.texts_ok hd (by simp [hi])
  have hms : s.appendMessage id msg d.now d.random =
      (s.sessions.lookup id).elim (.error errNotFound, s) fun a =>
        let m := stampMessage msg d.now d.random
        (.ok (), { s with
          messages := s.messages.insert id (history s.messages id ++ [m])
          sessions := s.sessions.insert id { a with updatedAt := m.createdAt } }) := by
    unfold MemoryAgentStore.appendMessage
    cases s.sessions.lookup id <;> rfl
  generalize hm : stampMessage msg d.now d.random = m at ht hs hms
  simp only [PostgresAgentStore.appendMessage, hm, hti, hd.instant _ ht, Except.mapError, ok_bind, hms]
  cases hl : s.sessions.lookup id
  case none =>
    rw [updateSession_none h hl]
    exact ⟨rfl, h⟩
  case some a =>
    obtain ⟨htx, hn⟩ := hs (by simp [hl])
    have hrow : PostgresAgentStore.messageRow db id m = .ok (messageRow id m) := by
      have htm : db.texts [m.id, id, m.role, m.content] = .ok () := by
        refine db.texts_ok hd fun x hx => ?_
        simp only [List.mem_cons, List.not_mem_nil, or_false] at hx htx
        grind
      rw [PostgresAgentStore.messageRow, htm, hd.instant _ ht]
      rfl
    have hput := h.put (b := { a with updatedAt := m.createdAt }) (h.key id a hl) (h.skills id a hl)
      s.counter
    have hup : t.updateSession id (fun r => { r with updatedAt := m.createdAt }) =
        .ok (1, ⟨t.sessions.insert id (sessionRow { a with updatedAt := m.createdAt }), t.messages⟩) :=
      updateSession_some h hl _ fun _ => rfl
    have hins := insertMessage_ok hput (by rw [Finmap.lookup_insert]; rfl) hn
    simp only [hup, ok_bind, hrow, hins]
    exact ⟨rfl, hput.append hn⟩

theorem toSession_row (a : AgentSession) : (sessionRow a).toSession = { a with messages := [] } :=
  rfl

-- The rows of the messages of a session, in some order.
theorem rows_perm (h : Same s t) (id : Str) : ((history s.messages id).map (messageRow id)).Perm
    ((Map.values t.messages).filter fun m => m.sessionID == id) := by
  have hkey : ∀ mid r, t.messages.lookup mid = some r → r.id = mid := by
    intro mid r hr
    obtain ⟨sid, m, -, hi, rfl⟩ := (h.messages mid r).mp hr
    exact hi
  refine (List.perm_ext_iff_of_nodup ?_ ((nodup_values hkey).filter _)).mpr fun r => ?_
  case refine_1 =>
    have hid : ((history s.messages id).map (messageRow id)).map AgentMessageRow.id =
        (history s.messages id).map AgentMessage.id := by
      rw [List.map_map]
      rfl
    exact .of_map AgentMessageRow.id (hid ▸ h.ids id)
  case refine_2 =>
    rw [List.mem_filter, Map.mem_values, List.mem_map]
    constructor
    case mp =>
      rintro ⟨m, hm, rfl⟩
      exact ⟨⟨m.id, (h.messages _ _).mpr ⟨id, m, hm, rfl, rfl⟩⟩, by simp [messageRow]⟩
    case mpr =>
      rintro ⟨⟨mid, hr⟩, hs⟩
      obtain ⟨sid, m, hm, -, rfl⟩ := (h.messages mid r).mp hr
      have he : sid = id := by simpa [messageRow] using hs
      exact ⟨m, he ▸ hm, by rw [he]⟩

theorem getSession_same (hd : db.Documented) (h : Same s t) {owner : Str}
    (hc : Common (.getSession owner id) d s) :
    t.getSession db d.messages owner id = s.getSession owner id := by
  obtain ⟨ho, hi, hp⟩ := hc
  have ht : db.texts [owner, id] = .ok () := db.texts_ok hd (by simp [ho, hi])
  have hti : db.texts [id] = .ok () := db.texts_ok hd (by simp [hi])
  simp only [PostgresAgentStore.getSession, ht, hti, Except.mapError, ok_bind, h.sessions,
    MemoryAgentStore.getSession]
  cases hl : s.sessions.lookup id
  case none   => rfl
  case some a =>
    by_cases hown : a.owner = owner
    case neg =>
      have hf : (some (sessionRow a)).filter (fun r => r.owner = owner) = none := by
        simp [Option.filter, sessionRow, hown]
      simp only [Option.map_some, hf, if_pos hown]
      rfl
    case pos =>
      have hf : (some (sessionRow a)).filter (fun r => r.owner = owner) = some (sessionRow a) := by
        simp [Option.filter, sessionRow, hown]
      have hsel : d.messages.select t.messages (fun m => m.sessionID == id)
          PostgresAgentStore.messageLess = (history s.messages id).map (messageRow id) := by
        refine Scan.select_unique (fun m => m.createdAt.rank) (fun a b => Time.before_iff)
          (rows_perm h id) ?_
        rw [List.pairwise_map]
        exact (hp a hl hown).imp fun hlt => Time.before_iff.mp hlt
      simp only [Option.map_some, hf, hsel, hown, ne_eq, not_true, if_false, toSession_row,
        List.map_map]
      have hback : (history s.messages id).map (AgentMessageRow.toMessage ∘ messageRow id) =
          history s.messages id := List.map_id' _
      rw [hback]
      rfl

theorem listSessions_same (hd : db.Documented) (hb : db.Bytewise) (h : Same s t) {owner ns : Str}
    (hc : Common (.listSessions owner ns) d s) :
    t.listSessions db d.sessions owner ns = .ok (s.listSessions owner ns) := by
  obtain ⟨ho, hn⟩ := hc
  have ht : db.texts [owner, ns] = .ok () := db.texts_ok hd (by simp [ho, hn])
  have hless (a b : AgentSession) : MemoryAgentStore.listLess a b ↔
      a.updatedAt.newest a.id < b.updatedAt.newest b.id := Time.newest_iff
  have hless' (a b : AgentSessionRow) : PostgresAgentStore.listLess db a b ↔
      a.updatedAt.newest a.id < b.updatedAt.newest b.id := by
    rw [PostgresAgentStore.listLess, hb]
    exact Time.newest_iff
  have hinj : ∀ k k' a b, t.sessions.lookup k = some a → t.sessions.lookup k' = some b →
      a.updatedAt.newest a.id = b.updatedAt.newest b.id → a = b := by
    intro k k' a b ha hb he
    have hkey : ∀ k r, t.sessions.lookup k = some r → r.id = k := by
      intro k r hr
      rw [h.sessions] at hr
      obtain ⟨a, hl, rfl⟩ := Option.map_eq_some_iff.mp hr
      exact h.key k a hl
    have hi : a.id = b.id := (Prod.mk.inj (toLex.injective he)).right
    have hk : k = k' := (hkey k a ha).symm.trans (hi.trans (hkey k' b hb))
    subst hk
    exact Option.some.inj (ha.symm.trans hb)
  -- both listings are the rows in the only order that there is
  let keep := fun r : AgentSessionRow => r.owner == owner && (ns == [] || r.ns == ns)
  have hmem : (s.sessions.sorted (MemoryAgentStore.Listed owner ns) MemoryAgentStore.listLess).map
      sessionRow = t.sessions.sorted keep (PostgresAgentStore.listLess db) := by
    refine Map.sorted_unique _ hless' hinj ?_ ?_
    case refine_1 =>
      have hkept : keep ∘ sessionRow = MemoryAgentStore.Listed owner ns := by
        funext a
        exact Bool.eq_iff_iff.mpr (by simp [keep, sessionRow, MemoryAgentStore.Listed])
      rw [Map.values_map h.sessions, List.filter_map, hkept]
      exact (List.perm_insertionSort ..).map _
    case refine_2 =>
      have hs : (s.sessions.sorted (MemoryAgentStore.Listed owner ns)
          MemoryAgentStore.listLess).Pairwise fun a b => !MemoryAgentStore.listLess b a :=
        Scan.byKey.select_sorted hless
      refine List.pairwise_map.mpr (hs.imp fun {a b} hab => ?_)
      rw [not_less_iff hless] at hab
      exact (not_less_iff hless' _ _).mpr hab
  have hsel : d.sessions.select t.sessions keep (PostgresAgentStore.listLess db) =
      t.sessions.sorted keep (PostgresAgentStore.listLess db) :=
    Map.sorted_unique _ hless' hinj Scan.select_perm (Scan.select_sorted hless')
  simp only [PostgresAgentStore.listSessions, ht, Except.mapError, ok_bind]
  rw [show d.sessions.select t.sessions _ _ = _ from hsel, ← hmem, List.map_map]
  rfl

theorem postgres_follows (hd : db.Documented) (hb : db.Bytewise) :
    Machine.Follows memory (postgres db) Sigma.mk Common Same where
  alike op d s t h hc := by
    refine congrArg (Sigma.mk op) ?_
    cases op
    case listSessions owner ns         => exact (listSessions_same hd hb h hc).symm
    case createSession session         => exact (createSession_same hd h hc).left.symm
    case getSession owner id           => exact (getSession_same hd h hc).symm
    case deleteSession owner id        => exact (deleteSession_same hd h hc).left.symm
    case setOpenCodeSession id oid     => exact (setOpenCodeSession_same hd h hc).left.symm
    case appendMessage id msg          => exact (appendMessage_same hd h hc).left.symm
  keeps op d s t h hc := by
    cases op
    case listSessions owner ns         => exact h
    case createSession session         => exact (createSession_same hd h hc).right
    case getSession owner id           => exact h
    case deleteSession owner id        => exact (deleteSession_same hd h hc).right
    case setOpenCodeSession id oid     => exact (setOpenCodeSession_same hd h hc).right
    case appendMessage id msg          => exact (appendMessage_same hd h hc).right

end Steps

theorem same_new : Same newMemoryAgentStore newPostgresAgentStore where
  sessions _     := rfl
  key _ _ h      := by cases (Finmap.lookup_empty _).symm.trans h
  skills _ _ h   := by cases (Finmap.lookup_empty _).symm.trans h
  messages mid r := by
    constructor
    case mp => intro h; cases (Finmap.lookup_empty _).symm.trans h
    case mpr =>
      rintro ⟨sid, m, hm, -⟩
      have he : history newMemoryAgentStore.messages sid = [] := rfl
      rw [he] at hm
      cases hm
  ids sid        := List.nodup_nil

-- A session that has no identifier yet.
def opened (skills : Option (List Str)) : AgentSession where
  id              := []
  owner           := str "ada"
  ns              := str "team"
  providerID      := str "llm-1"
  openCodeSession := []
  title           := str "New agent session"
  skills          := skills
  createdAt       := Time.zero
  updatedAt       := Time.zero
  messages        := []

def message (role : String) : AgentMessage where
  id        := []
  role      := str role
  content   := str "hello"
  createdAt := Time.zero

def drawn (sec : Int64) (random : UInt8) : Draw where
  now      := ⟨sec, 0⟩
  random   := .replicate 4 random
  sessions := .byKey
  messages := .byKey

def conversation : List (ops.Op × Draw) := [
  (.createSession (opened (some [])), drawn 1 1),
  (.appendMessage (str "agent-01010101") (message "user"), drawn 2 2),
  (.appendMessage (str "agent-01010101") (message "assistant"), drawn 3 3),
  (.appendMessage (str "agent-00000000") (message "user"), drawn 3 3),
  (.setOpenCodeSession (str "agent-01010101") (str "ses_1"), drawn 4 4),
  (.getSession (str "ada") (str "agent-01010101"), drawn 5 5),
  (.getSession (str "bob") (str "agent-01010101"), drawn 5 5),
  (.listSessions (str "ada") [], drawn 6 6),
  (.deleteSession (str "ada") (str "agent-01010101"), drawn 7 7)]

def created : Sigma ops.Res → Bool
  | ⟨.createSession _, .ok _⟩ => true
  | _                         => false

end Playground.AgentStore
