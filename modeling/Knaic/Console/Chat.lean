import Mathlib.Data.List.Infix
import Mathlib.Data.List.Nodup
import Knaic.Effects.Events
import Knaic.Js.Text

open Js Effects

namespace Console.Chat

inductive Role
  | system
  | user
  | assistant
  | tool
deriving DecidableEq

-- `stream` and `received` are not in the source: the stream that was started for the message, and the
-- chunks that were appended to it, each with the stream that it came from.
structure ChatMessage where
  role     : Role
  content  : Str
  stream   : Option Nat
  received : List (Nat × Str)
deriving DecidableEq

inductive StreamState
  | running
  | aborted
  | ended
deriving DecidableEq

-- A call of `streamChat` with the chunks that it has delivered.
structure Stream where
  state  : StreamState
  chunks : List Str

structure Provider where
  name   : Str
  status : Str

-- `rendered` are the messages that the handlers see. `turn` is not in the source: the stream that was
-- started last, if the conversation has not been cleared since.
structure Page where
  messages  : List ChatMessage
  rendered  : List ChatMessage
  input     : Str
  provider  : Option Provider
  streaming : Bool
  cancelRef : Option Nat
  streams   : List Stream
  failed    : Bool
  turn      : Option Nat

def Page.initial : Page where
  messages  := []
  rendered  := []
  input     := []
  provider  := none
  streaming := false
  cancelRef := none
  streams   := []
  failed    := false
  turn      := none

inductive Event
  | setInput (text : Str)
  | setProvider (p : Option Provider)
  | render
  | pressEnter (shift : Bool)
  | clickSend
  | clickStop
  | clickClear
  | chunk (n : Nat) (text : Str)
  | done (n : Nat)
  | fail (n : Nat)

namespace Page

def send (s : Page) : Page :=
  match s.provider with
  | none   => s
  | some p =>
    if s.input.trim = [] || p.status ≠ str "Ready" then
      s
    else
      let n := s.streams.length
      { s with
        messages  := s.rendered ++ [
          { role := .user, content := s.input.trim, stream := none, received := [] },
          { role := .assistant, content := [], stream := some n, received := [] }
        ]
        input     := []
        streaming := true
        cancelRef := some n
        streams   := s.streams ++ [{ state := .running, chunks := [] }]
        turn      := some n }

def Running (s : Page) (n : Nat) : Prop :=
  (s.streams[n]?).map Stream.state = some .running

instance (s : Page) (n : Nat) : Decidable (s.Running n) :=
  inferInstanceAs (Decidable (_ = _))

-- `setMessages(prev => …)` in `onChunk`, which fails when there is no last message.
def appendToLast (s : Page) (n : Nat) (text : Str) : Page :=
  match s.messages.getLast? with
  | none      => { s with failed := true }
  | some last =>
    { s with messages := s.messages.dropLast ++ [{ last with
        content  := last.content ++ text
        received := last.received ++ [(n, text)] }] }

def onChunk (s : Page) (n : Nat) (text : Str) : Page :=
  if s.Running n then
    { s with streams := s.streams.modify n fun st => { st with chunks := st.chunks ++ [text] } }
      |>.appendToLast n text
  else
    s

def setState (s : Page) (n : Nat) (state : StreamState) : Page :=
  { s with streams := s.streams.modify n fun st => { st with state } }

def stop (s : Page) : Page :=
  let s := { s with streaming := false }
  match s.cancelRef with
  | none   => s
  | some n => if s.Running n then s.setState n .aborted else s

def onDone (s : Page) (n : Nat) : Page :=
  if s.Running n then { s.setState n .ended with streaming := false } else s

def onFail (s : Page) (n : Nat) : Page :=
  if (s.streams[n]?).map Stream.state = some .ended then s
  else { s.setState n .ended with streaming := false }

def handle (s : Page) : Event → Page
  | .setInput text    => { s with input := text }
  | .setProvider p    => { s with provider := p }
  | .render           => { s with rendered := s.messages }
  | .pressEnter shift => if shift then s else s.send
  | .clickSend        => if s.streaming then s else s.send
  | .clickStop        => if s.streaming then s.stop else s
  | .clickClear       => { s with messages := [], turn := none }
  | .chunk n text     => s.onChunk n text
  | .done n           => s.onDone n
  | .fail n           => s.onFail n

-- With the page down, nothing happens any more.
def step (s : Page) (e : Event) : Page :=
  if s.failed then s else s.handle e

end Page

def chunksOf (streams : List Stream) (n : Nat) : Option (List Str) :=
  (streams[n]?).map Stream.chunks

-- An assistant message is what a prefix of the chunks of its own stream spells. Nothing was appended
-- to another message.
def Sound (streams : List Stream) (m : ChatMessage) : Prop :=
  if m.role = .assistant then
    ∃ n chunks, m.stream = some n ∧ chunksOf streams n = some chunks ∧
      (m.received <+: chunks.map fun text => (n, text)) ∧
      m.content = (m.received.map Prod.snd).flatten
  else
    m.stream = none ∧ m.received = []

structure Placed (streams : List Stream) (messages : List ChatMessage) : Prop where
  sound : ∀ m ∈ messages, Sound streams m
  once  : (messages.filterMap ChatMessage.stream).Nodup

structure Lands (s : Page) : Prop where
  up     : s.failed = false
  placed : Placed s.streams s.messages

-- A chunk arrives only from the stream that was started last, with nothing cleared since.
def InTurn (s : Page) : Event → Prop
  | .chunk n _ => s.Running n → s.turn = some n
  | _          => True

instance (s : Page) : (e : Event) → Decidable (InTurn s e)
  | .chunk n _ => inferInstanceAs (Decidable (s.Running n → s.turn = some n))
  | .setInput _ | .setProvider _ | .render | .pressEnter _ | .clickSend | .clickStop | .clickClear
  | .done _ | .fail _ => isTrue trivial

-- The last message is the one of the stream whose turn it is, with all its chunks.
def Current (s : Page) : Prop :=
  match s.turn with
  | none   => s.messages = []
  | some n => ∃ ms last chunks, s.messages = ms ++ [last] ∧ last.role = .assistant ∧
                last.stream = some n ∧ chunksOf s.streams n = some chunks ∧
                last.received = chunks.map fun text => (n, text)

structure Inv (s : Page) : Prop where
  up       : s.failed = false
  messages : Placed s.streams s.messages
  rendered : Placed s.streams s.rendered
  current  : Current s

section Placed

variable {streams streams' : List Stream} {ms : List ChatMessage} {m : ChatMessage} {n : Nat}
variable {chunks : List Str}

theorem placed_nil : Placed streams [] where
  sound := fun _ hm => by cases hm
  once  := List.nodup_nil

theorem placed_snoc_iff :
    Placed streams (ms ++ [m]) ↔
    Placed streams ms ∧ Sound streams m ∧ ∀ n, m.stream = some n → ∀ m' ∈ ms, m'.stream ≠ some n := by
  constructor
  case mp =>
    rintro ⟨hs, ho⟩
    rw [List.filterMap_append, List.nodup_append] at ho
    refine ⟨⟨fun m' hm => hs m' (List.mem_append_left _ hm), ho.left⟩, hs m (by simp), ?_⟩
    intro n hn m' hm he
    exact ho.right.right n (List.mem_filterMap.mpr ⟨m', hm, he⟩) n (by simp [hn]) rfl
  case mpr =>
    rintro ⟨h, hm, hn⟩
    constructor
    case sound =>
      intro m' hm'
      obtain hm' | hm' := List.mem_append.mp hm'
      case inl => exact h.sound m' hm'
      case inr => rwa [List.mem_singleton.mp hm']
    case once =>
      rw [List.filterMap_append, List.nodup_append]
      refine ⟨h.once, by cases hs : m.stream <;> simp [hs], fun n hl k hk => ?_⟩
      rintro rfl
      obtain ⟨m', hm', he⟩ := List.mem_filterMap.mp hl
      refine hn n ?_ m' hm' he
      simpa using hk

-- What a change of the streams keeps: each of them is still there, with the same chunks or more.
def Extended (streams streams' : List Stream) : Prop :=
  ∀ n chunks, chunksOf streams n = some chunks →
    ∃ chunks', chunksOf streams' n = some chunks' ∧ chunks <+: chunks'

theorem Sound.extend (h : Sound streams m) (he : Extended streams streams') : Sound streams' m := by
  unfold Sound at h ⊢
  split at h
  case isFalse hr => simpa [hr] using h
  case isTrue hr  =>
    obtain ⟨n, chunks, hs, hn, hp, hc⟩ := h
    obtain ⟨chunks', hn', hc'⟩ := he n chunks hn
    rw [if_pos hr]
    exact ⟨n, chunks', hs, hn', hp.trans (hc'.map _), hc⟩

theorem Placed.extend (h : Placed streams ms) (he : Extended streams streams') : Placed streams' ms where
  sound m hm := (h.sound m hm).extend he
  once       := h.once

theorem chunksOf_lt (h : chunksOf streams n = some chunks) : n < streams.length := by
  obtain ⟨st, hs, -⟩ := Option.map_eq_some_iff.mp h
  exact (List.getElem?_eq_some_iff.mp hs).choose

theorem chunksOf_modify (f : Stream → Stream) (n k : Nat) :
    chunksOf (streams.modify n f) k =
    if n = k then (streams[k]?).map fun st => (f st).chunks else chunksOf streams k := by
  rw [chunksOf, List.getElem?_modify]
  split
  case isTrue  => simp [Function.comp_def]
  case isFalse => simp [chunksOf]

theorem extended_append (st : Stream) : Extended streams (streams ++ [st]) := by
  intro n chunks hn
  refine ⟨chunks, ?_, List.prefix_rfl⟩
  rw [chunksOf, List.getElem?_append_left (chunksOf_lt hn)]
  exact hn

theorem extended_of_eq (h : ∀ n, chunksOf streams' n = chunksOf streams n) :
    Extended streams streams' :=
  fun n chunks hn => ⟨chunks, (h n).trans hn, List.prefix_rfl⟩

-- A stream that has a message has been started.
theorem Sound.started (h : Sound streams m) (hn : m.stream = some n) : n < streams.length := by
  unfold Sound at h
  split at h
  case isTrue =>
    obtain ⟨k, chunks, hk, hl, -⟩ := h
    cases hn.symm.trans hk
    exact chunksOf_lt hl
  case isFalse => cases hn.symm.trans h.left

end Placed

section Steps

variable {s : Page} {n : Nat} {text : Str}

theorem inv_initial : Inv Page.initial where
  up       := rfl
  messages := placed_nil
  rendered := placed_nil
  current  := rfl

theorem chunksOf_setState (state : StreamState) (k : Nat) :
    chunksOf (s.setState n state).streams k = chunksOf s.streams k := by
  simp only [Page.setState]
  rw [chunksOf_modify]
  split <;> rfl

theorem Inv.setState (h : Inv s) (state : StreamState) : Inv (s.setState n state) where
  up       := h.up
  messages := h.messages.extend (extended_of_eq (chunksOf_setState state))
  rendered := h.rendered.extend (extended_of_eq (chunksOf_setState state))
  current  := by
    have hc := h.current
    simp only [Current, chunksOf_setState] at hc ⊢
    exact hc

theorem Inv.streaming (h : Inv s) (b : Bool) : Inv { s with streaming := b } :=
  ⟨h.up, h.messages, h.rendered, h.current⟩

theorem Inv.placed_send (h : Inv s) (text : Str) :
    Placed (s.streams ++ [⟨.running, []⟩])
      ((s.rendered ++ [⟨.user, text, none, []⟩]) ++ [⟨.assistant, [], some s.streams.length, []⟩]) := by
  have hr := h.rendered.extend (extended_append ⟨.running, []⟩)
  have hu : Placed (s.streams ++ [⟨.running, []⟩]) (s.rendered ++ [⟨.user, text, none, []⟩]) :=
    placed_snoc_iff.mpr ⟨hr, ⟨rfl, rfl⟩, fun n hn => by cases hn⟩
  refine placed_snoc_iff.mpr ⟨hu, ⟨s.streams.length, [], rfl, by simp [chunksOf], List.prefix_rfl, rfl⟩, ?_⟩
  intro n hn m hm he
  cases hn
  obtain hm | hm := List.mem_append.mp hm
  case inl => exact absurd ((h.rendered.sound m hm).started he) (Nat.lt_irrefl _)
  case inr =>
    cases List.mem_singleton.mp hm
    cases he

theorem Inv.send (h : Inv s) : Inv s.send := by
  unfold Page.send
  split
  case h_1 => exact h
  case h_2 =>
    split
    case isTrue  => exact h
    case isFalse =>
      have hp := h.placed_send s.input.trim
      rw [List.append_assoc] at hp
      refine ⟨h.up, hp, h.rendered.extend (extended_append _), ?_⟩
      exact ⟨s.rendered ++ [_], _, [], by simp; exact ⟨rfl, rfl⟩, rfl, rfl, by simp [chunksOf], rfl⟩

theorem Inv.stop (h : Inv s) : Inv s.stop := by
  unfold Page.stop
  simp only
  split
  case h_1 => exact h.streaming false
  case h_2 =>
    split
    case isTrue  => exact (h.streaming false).setState .aborted
    case isFalse => exact h.streaming false

def delivered (streams : List Stream) (n : Nat) (text : Str) : List Stream :=
  streams.modify n fun st => { st with chunks := st.chunks ++ [text] }

theorem onChunk_snoc {ms : List ChatMessage} {last : ChatMessage} (hr : s.Running n)
    (hm : s.messages = ms ++ [last]) :
    s.onChunk n text = { s with
      streams  := delivered s.streams n text
      messages := ms ++ [{ last with
        content  := last.content ++ text
        received := last.received ++ [(n, text)] }] } := by
  simp [Page.onChunk, hr, Page.appendToLast, hm, delivered]

theorem onChunk_nil (hr : s.Running n) (hm : s.messages = []) : (s.onChunk n text).failed = true := by
  simp [Page.onChunk, hr, Page.appendToLast, hm]

theorem chunksOf_delivered (streams : List Stream) (text : Str) (k : Nat) :
    chunksOf (delivered streams n text) k =
    if n = k then (chunksOf streams k).map (· ++ [text]) else chunksOf streams k := by
  rw [delivered, chunksOf_modify]
  simp [chunksOf, Function.comp_def]

theorem extended_delivered : Extended s.streams (delivered s.streams n text) := by
  intro k chunks hk
  rw [chunksOf_delivered, hk]
  split
  case isTrue  => exact ⟨chunks ++ [text], rfl, List.prefix_append ..⟩
  case isFalse => exact ⟨chunks, rfl, List.prefix_rfl⟩

-- A chunk of the stream whose turn it is.
theorem Inv.onChunk (h : Inv s) (ht : s.Running n → s.turn = some n) : Inv (s.onChunk n text) := by
  by_cases hr : s.Running n
  case neg => simpa [Page.onChunk, hr] using h
  case pos =>
    have hc := h.current
    simp only [Current, ht hr] at hc
    obtain ⟨ms, last, chunks, hm, ha, hs, hk, hl⟩ := hc
    have hk' : chunksOf (delivered s.streams n text) n = some (chunks ++ [text]) := by
      simp [chunksOf_delivered, hk]
    have hp := h.messages
    rw [hm] at hp
    obtain ⟨hp, hlast, ho⟩ := placed_snoc_iff.mp hp
    simp only [Sound, ha, if_true] at hlast
    obtain ⟨-, -, -, -, -, hcont⟩ := hlast
    rw [onChunk_snoc hr hm]
    refine ⟨h.up, placed_snoc_iff.mpr ⟨hp.extend extended_delivered, ?_, ho⟩,
      h.rendered.extend extended_delivered, ?_⟩
    case refine_1 =>
      simp only [Sound, ha, if_true]
      exact ⟨n, _, hs, hk', by simp [hl], by simp [hcont]⟩
    case refine_2 =>
      simp only [Current, ht hr]
      exact ⟨ms, _, _, rfl, ha, hs, hk', by simp [hl]⟩

-- Any other chunk is attached to the message of another stream, or there is none to attach it to.
theorem Inv.misplaced (h : Inv s) (hr : s.Running n) (ht : s.turn ≠ some n) :
    ¬Lands (s.onChunk n text) := by
  intro hl
  have hc := h.current
  unfold Current at hc
  split at hc
  case h_1 => cases hl.up.symm.trans (onChunk_nil hr hc)
  case h_2 k hk =>
    obtain ⟨ms, last, chunks, hm, ha, hs, -, -⟩ := hc
    rw [onChunk_snoc hr hm] at hl
    have hlast := hl.placed.sound _ (List.mem_append_right _ (.head _))
    simp only [Sound, ha, if_true] at hlast
    obtain ⟨k', chunks', hk', -, hp, -⟩ := hlast
    cases hs.symm.trans hk'
    have hmem := hp.subset (List.mem_append_right _ (.head _))
    obtain ⟨_, -, he⟩ := List.mem_map.mp hmem
    cases he
    exact ht hk

theorem Inv.step_eq (h : Inv s) (e : Event) : s.step e = s.handle e :=
  if_neg (by simp [h.up])

theorem Inv.step {e : Event} (h : Inv s) (ha : InTurn s e) : Inv (s.step e) := by
  rw [h.step_eq]
  cases e
  case setInput    => exact ⟨h.up, h.messages, h.rendered, h.current⟩
  case setProvider => exact ⟨h.up, h.messages, h.rendered, h.current⟩
  case render      => exact ⟨h.up, h.messages, h.messages, h.current⟩
  case pressEnter =>
    simp only [Page.handle]
    split
    case isTrue  => exact h
    case isFalse => exact h.send
  case clickSend =>
    simp only [Page.handle]
    split
    case isTrue  => exact h
    case isFalse => exact h.send
  case clickStop =>
    simp only [Page.handle]
    split
    case isTrue  => exact h.stop
    case isFalse => exact h
  case clickClear  => exact ⟨h.up, placed_nil, h.rendered, rfl⟩
  case chunk       => exact h.onChunk ha
  case done n =>
    simp only [Page.handle, Page.onDone]
    split
    case isTrue  => exact (h.setState .ended).streaming false
    case isFalse => exact h
  case fail n =>
    simp only [Page.handle, Page.onFail]
    split
    case isTrue  => exact h
    case isFalse => exact (h.setState .ended).streaming false

theorem Inv.out {e : Event} (h : Inv s) (ha : ¬InTurn s e) : ¬Lands (s.step e) := by
  rw [h.step_eq]
  cases e
  case chunk n text =>
    simp only [InTurn, Classical.not_imp] at ha
    exact h.misplaced ha.left ha.right
  all_goals exact absurd trivial ha

end Steps

theorem replies_land_iff (es : List Event) :
    Events.Reached Page.step Lands Page.initial es ↔ Events.Taken Page.step InTurn Page.initial es :=
  Events.reached_iff_taken inv_initial (fun _ h => ⟨h.up, h.messages⟩) (fun _ _ => Inv.step)
    fun _ _ => Inv.out

-- Sent with the Enter key, answered, cleared, and answered again.
def clearedWhileStreaming : List Event :=
  [
    .setProvider (some ⟨str "vllm", str "Ready"⟩), .setInput (str "hello"), .pressEnter false,
    .chunk 0 (str "Hi"), .clickClear, .chunk 0 (str "!")
  ]

theorem clear_fails : ¬∀ es, Events.Reached Page.step Lands Page.initial es := by
  intro h
  have hl := (h clearedWhileStreaming).last.up
  revert hl
  decide

end Console.Chat
