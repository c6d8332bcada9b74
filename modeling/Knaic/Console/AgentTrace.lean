import Mathlib.Data.List.Basic
import Knaic.Effects.Events
import Knaic.Go.Basic

open Go Effects

-- The page of the agent, with what writes its trace: streams, the ends of runs, and reloads. Texts are given by their
-- bytes, and there is an API to talk to.
namespace Console.AgentTrace

inductive EventKind
  | thought
  | action
  | observation
  | final
  | error
deriving DecidableEq

inductive StepKind
  | event (kind : EventKind)
  | user
deriving DecidableEq

structure AgentEvent where
  kind     : EventKind
  text     : Str
  toolName : Option Str

structure AgentStep where
  kind     : StepKind
  text     : Str
  toolName : Option Str
deriving DecidableEq

structure Message where
  role    : Str
  content : Str

structure Session where
  id       : Str
  messages : List Message

def normalizeEvent (event : AgentEvent) : AgentStep :=
  ⟨.event event.kind, event.text, event.toolName⟩

-- A name that is empty counts as missing.
def unnamed (step : AgentStep) : Bool :=
  step.toolName = none || step.toolName = some []

def appendAgentEvent (prev : List AgentStep) (event : AgentEvent) : List AgentStep :=
  let step := normalizeEvent event
  match prev.getLast? with
  | none      => prev ++ [step]
  | some last =>
    if step.kind = .event .final ∧ last.kind = .event .final ∧ unnamed step then
      prev.dropLast ++ [{ last with text := last.text ++ step.text }]
    else prev ++ [step]

def stepsFromSession (session : Session) : List AgentStep :=
  session.messages.map fun msg => ⟨if msg.role = str "user" then .user else .event .final, msg.content, none⟩

-- What a run waits for: its session, the list that has it, its stream, the session as the server has it then, and the
-- list once more. The prompt is shown when the stream begins.
inductive Phase
  | creating (prompt : Str)
  | naming (prompt : Str)
  | streaming
  | fetching
  | refreshing
  | over
deriving DecidableEq

structure Run where
  session  : Str
  hadError : Bool
  phase    : Phase

-- `loading` is the session that the effect is reloading. `received` is not in the source: the errors that the run
-- that was started last has streamed, if the user has not cleared the trace or chosen a session since.
structure Page where
  sessionID : Str
  steps     : List AgentStep
  busy      : Bool
  loading   : Option Str
  runs      : List Run
  received  : List AgentStep

def Page.initial : Page :=
  ⟨[], [], false, none, [], []⟩

-- The user starts a run with a prompt that is not blank, stops what runs, chooses a session or clears the trace. The
-- streams, the requests of runs and the reloads are answered in any order, and lists of sessions choose one, too.
inductive Event
  | start (prompt : Str)
  | stop
  | select (id : Str)
  | clear
  | event (n : Nat) (ev : AgentEvent)
  | resolve (n : Nat) (session : Session)
  | reject (n : Nat)
  | loaded (session : Session)
  | loadFailed
  | listed (id : Str)

namespace Page

def setRun (s : Page) (n : Nat) (r : Run) : Page :=
  { s with runs := s.runs.set n r }

def prompted (s : Page) (prompt : Str) : Page :=
  { s with steps := s.steps ++ [⟨.user, prompt, none⟩] }

def start (s : Page) (prompt : Str) : Page :=
  let s := { s with busy := true, received := [] }
  if s.sessionID = [] then { s with runs := s.runs ++ [⟨[], false, .creating prompt⟩] }
  else Page.prompted { s with runs := s.runs ++ [⟨s.sessionID, false, .streaming⟩] } prompt

def onEvent (s : Page) (n : Nat) (r : Run) (ev : AgentEvent) : Page :=
  let failed := ev.kind = .error
  { s.setRun n { r with hadError := r.hadError || failed } with
    steps    := appendAgentEvent s.steps ev
    received := if failed ∧ n + 1 = s.runs.length then s.received ++ [normalizeEvent ev] else s.received }

-- The next part of `run`, once what it waits for is there.
def resolve (s : Page) (n : Nat) (r : Run) (session : Session) : Page :=
  match r.phase with
  | .creating prompt => { s.setRun n ⟨session.id, r.hadError, .naming prompt⟩ with steps := [] }
  | .naming prompt   => { s.setRun n { r with phase := .streaming } with sessionID := r.session }.prompted prompt
  | .streaming       => s.setRun n { r with phase := .fetching }
  | .fetching        =>
    { s.setRun n { r with phase := .refreshing } with
      steps := if r.hadError then s.steps else stepsFromSession session }
  | .refreshing      => { s.setRun n { r with phase := .over } with sessionID := r.session, busy := false }
  | .over            => s

def reject (s : Page) (n : Nat) (r : Run) : Page :=
  if r.phase = .over then s else { s.setRun n { r with phase := .over } with busy := false }

def handle (s : Page) : Event → Page
  | .start prompt      => s.start prompt
  | .stop              => { s with busy := false }
  | .select id         => { s with sessionID := id, received := [] }
  | .clear             => { s with steps := [], received := [] }
  | .event n ev        =>
    match s.runs[n]? with
    | some r => if r.phase = .streaming then s.onEvent n r ev else s
    | none   => s
  | .resolve n session =>
    match s.runs[n]? with
    | some r => s.resolve n r session
    | none   => s
  | .reject n          =>
    match s.runs[n]? with
    | some r => s.reject n r
    | none   => s
  | .loaded session    =>
    if s.loading = none then s else { s with steps := stepsFromSession session, loading := none }
  | .loadFailed        => { s with loading := none }
  | .listed id         => { s with sessionID := id }

-- The effect of the session, which runs when the session or the busy flag has changed. It takes back the reload of the
-- time before.
def effect (s s' : Page) : Page :=
  if s.busy = s'.busy ∧ s.sessionID = s'.sessionID then s'
  else if s'.busy then { s' with loading := none }
  else if s'.sessionID = [] then { s' with steps := [], loading := none }
  else { s' with loading := some s'.sessionID }

def step (s : Page) (e : Event) : Page :=
  s.effect (s.handle e)

end Page

-- Every error that was received is in the trace.
def Kept (s : Page) : Prop :=
  ∀ e ∈ s.received, e ∈ s.steps

-- The trace gives way to a session: one that was reloaded or made, or the one of a run without errors.
def Reloads (s : Page) : Event → Prop
  | .loaded _    => s.loading ≠ none
  | .resolve n _ => ∃ r, s.runs[n]? = some r ∧
      ((∃ prompt, r.phase = .creating prompt) ∨ r.phase = .fetching ∧ r.hadError = false)
  | _            => False

-- The effect runs and finds no session.
def Empties (s s' : Page) : Prop :=
  ¬(s.busy = s'.busy ∧ s.sessionID = s'.sessionID) ∧ s'.busy = false ∧ s'.sessionID = []

-- Once an error was received, nothing takes the place of the trace until the user has it so.
def Calm (s : Page) (e : Event) : Prop :=
  match e with
  | .start _ | .select _ | .clear => True
  | e => s.received ≠ [] → ¬Reloads s e ∧ ¬Empties s (s.handle e)

section Trace

variable {s s' : Page} {e : Event} {a : AgentStep} {prev : List AgentStep}

-- A final step may grow, but errors stay as they are.
theorem append_keeps (h : a ∈ prev) (ha : a.kind = .event .error) (event : AgentEvent) :
    a ∈ appendAgentEvent prev event := by
  simp only [appendAgentEvent]
  split
  case h_1           => exact List.mem_append_left _ h
  case h_2 last hl =>
    split
    case isFalse   => exact List.mem_append_left _ h
    case isTrue hf =>
      rw [← List.dropLast_append_getLast? last hl] at h
      rcases List.mem_append.mp h with hm | hm
      · exact List.mem_append_left _ hm
      · rw [List.mem_singleton.mp hm, hf.right.left] at ha
        cases ha

theorem append_error {event : AgentEvent} (h : event.kind = .error) :
    normalizeEvent event ∈ appendAgentEvent prev event := by
  simp only [appendAgentEvent]
  split
  case h_1 => simp
  case h_2 => simp [normalizeEvent, h]

theorem stepsFromSession_no_error (session : Session) : ∀ a ∈ stepsFromSession session, a.kind ≠ .event .error := by
  intro a ha
  obtain ⟨msg, -, rfl⟩ := List.mem_map.mp ha
  dsimp only
  split <;> decide

-- What the effect does to the trace.
theorem effect_received : (s.effect s').received = s'.received := by
  unfold Page.effect
  repeat' split
  all_goals rfl

theorem effect_steps (h : ¬Empties s s') : (s.effect s').steps = s'.steps := by
  unfold Page.effect
  split
  case isTrue     => rfl
  case isFalse hc =>
    split
    case isTrue     => rfl
    case isFalse hb =>
      split
      case isTrue hi => exact absurd ⟨hc, by simpa using hb, hi⟩ h
      case isFalse   => rfl

theorem effect_empties (h : Empties s s') : (s.effect s').steps = [] := by
  rw [Page.effect, if_neg h.left, if_neg (by simp [h.right.left]), if_pos h.right.right]

structure Inv (s : Page) : Prop where
  kept   : Kept s
  errors : ∀ a ∈ s.received, a.kind = .event .error

theorem Inv.none (h : s.received = []) : Inv s := by
  constructor
  all_goals
    intro a ha
    rw [h] at ha
    cases ha

-- A step after which the same errors have been received, and the trace has them.
theorem Inv.same (h : Inv s) (hr : s'.received = s.received)
    (hs : ∀ a ∈ s.steps, a.kind = .event .error → a ∈ s'.steps) : Inv s' := by
  constructor
  case kept =>
    intro a ha
    rw [hr] at ha
    exact hs a (h.kept a ha) (h.errors a ha)
  case errors =>
    rw [hr]
    exact h.errors

theorem Inv.onEvent (h : Inv s) (n : Nat) (r : Run) (ev : AgentEvent) : Inv (s.onEvent n r ev) := by
  have hk : ∀ a ∈ s.received, a ∈ appendAgentEvent s.steps ev :=
    fun a ha => append_keeps (h.kept a ha) (h.errors a ha) ev
  constructor
  case kept =>
    intro a ha
    simp only [Page.onEvent] at ha ⊢
    split at ha
    case isFalse   => exact hk a ha
    case isTrue hn =>
      rcases List.mem_append.mp ha with hm | hm
      · exact hk a hm
      · rw [List.mem_singleton.mp hm]
        exact append_error hn.left
  case errors =>
    intro a ha
    simp only [Page.onEvent] at ha
    split at ha
    case isFalse   => exact h.errors a ha
    case isTrue hn =>
      rcases List.mem_append.mp ha with hm | hm
      · exact h.errors a hm
      · rw [List.mem_singleton.mp hm, normalizeEvent, hn.left]

-- What the page does by itself, apart from the events of streams.
def Quiet : Event → Prop
  | .start _ | .select _ | .clear | .event _ _ => False
  | _ => True

theorem resolve_received (n : Nat) (r : Run) (session : Session) : (s.resolve n r session).received = s.received := by
  unfold Page.resolve
  split <;> rfl

theorem handle_received (hq : Quiet e) : (s.handle e).received = s.received := by
  cases e
  case start | select | clear | event => exact hq.elim
  case resolve n session =>
    simp only [Page.handle]
    split
    case h_1 => exact resolve_received ..
    case h_2 => rfl
  case reject n =>
    simp only [Page.handle]
    split
    case h_1 =>
      unfold Page.reject
      split <;> rfl
    case h_2 => rfl
  case loaded =>
    simp only [Page.handle]
    split <;> rfl
  all_goals rfl

-- Without a reload, all that happens to the trace is that a prompt is added.
theorem handle_steps (hq : Quiet e) (hr : ¬Reloads s e) : ∀ a ∈ s.steps, a ∈ (s.handle e).steps := by
  intro a ha
  cases e
  case start | select | clear | event => exact hq.elim
  case resolve n session =>
    simp only [Page.handle]
    split
    case h_2      => exact ha
    case h_1 r hn =>
      unfold Page.resolve
      split
      case h_1 prompt hp => exact absurd ⟨r, hn, .inl ⟨prompt, hp⟩⟩ hr
      case h_2           => exact List.mem_append_left _ ha
      case h_4 hp        =>
        have he : r.hadError = true := by
          by_contra he
          exact hr ⟨r, hn, .inr ⟨hp, by simpa using he⟩⟩
        simpa [he] using ha
      all_goals exact ha
  case reject n =>
    simp only [Page.handle]
    split
    case h_1 =>
      unfold Page.reject
      split <;> exact ha
    case h_2 => exact ha
  case loaded =>
    simp only [Page.handle]
    split
    case isTrue     => exact ha
    case isFalse hl => exact absurd hl hr
  all_goals exact ha

theorem reloads_no_error (hr : Reloads s e) : ∀ a ∈ (s.handle e).steps, a.kind ≠ .event .error := by
  cases e
  case loaded session =>
    have hl : s.loading ≠ none := hr
    simp only [Page.handle, if_neg hl]
    exact stepsFromSession_no_error session
  case resolve n session =>
    obtain ⟨r, hn, ⟨prompt, hp⟩ | ⟨hp, he⟩⟩ := hr
    case inl =>
      simp only [Page.handle, hn, Page.resolve, hp]
      intro a ha
      cases ha
    case inr =>
      simp only [Page.handle, hn, Page.resolve, hp, he]
      exact stepsFromSession_no_error session
  all_goals exact hr.elim

theorem Inv.step (h : Inv s) (hc : Calm s e) : Inv (s.step e) := by
  have hquiet (hq : Quiet e) (hc : s.received ≠ [] → ¬Reloads s e ∧ ¬Empties s (s.handle e)) : Inv (s.step e) := by
    have hr : (s.step e).received = s.received := effect_received.trans (handle_received hq)
    by_cases hn : s.received = []
    case pos => exact .none (hr.trans hn)
    case neg =>
      have ⟨hr', he⟩ := hc hn
      refine h.same hr fun a ha _ => ?_
      rw [Page.step, effect_steps he]
      exact handle_steps hq hr' a ha
  cases e
  case start prompt =>
    apply Inv.none
    rw [Page.step, effect_received]
    simp only [Page.handle, Page.start]
    split <;> rfl
  case select id => exact .none effect_received
  case clear     => exact .none effect_received
  case event n ev =>
    have hs : Inv (s.handle (.event n ev)) ∧ (s.handle (.event n ev)).busy = s.busy ∧
        (s.handle (.event n ev)).sessionID = s.sessionID := by
      simp only [Page.handle]
      split
      case h_2   => exact ⟨h, rfl, rfl⟩
      case h_1 r _ =>
        split
        case isTrue  => exact ⟨h.onEvent n r ev, rfl, rfl⟩
        case isFalse => exact ⟨h, rfl, rfl⟩
    rw [Page.step, Page.effect, if_pos ⟨hs.right.left.symm, hs.right.right.symm⟩]
    exact hs.left
  all_goals exact hquiet trivial hc

-- What takes the place of the trace has no errors in it.
theorem Inv.lost (h : Inv s) (hc : ¬Calm s e) : ¬Kept (s.step e) := by
  have hlost (hq : Quiet e) (hc : ¬(s.received ≠ [] → ¬Reloads s e ∧ ¬Empties s (s.handle e))) :
      ¬Kept (s.step e) := by
    obtain ⟨hn, hr⟩ := Classical.not_imp.mp hc
    have hs : ∀ a ∈ (s.step e).steps, a.kind ≠ .event .error := by
      by_cases he : Empties s (s.handle e)
      case pos =>
        rw [Page.step, effect_empties he]
        intro a ha
        cases ha
      case neg =>
        rw [Page.step, effect_steps he]
        exact reloads_no_error (by_contra fun hr' => hr ⟨hr', he⟩)
    obtain ⟨a, ha⟩ := List.exists_mem_of_ne_nil _ hn
    intro hk
    have hm : a ∈ (s.step e).received := by
      rw [Page.step, effect_received, handle_received hq]
      exact ha
    exact hs a (hk a hm) (h.errors a ha)
  cases e
  case start | select | clear => exact absurd trivial hc
  case event n ev =>
    refine absurd (fun _ => ⟨id, fun he => he.left ?_⟩) hc
    simp only [Page.handle]
    split
    case h_2 => exact ⟨rfl, rfl⟩
    case h_1 => split <;> exact ⟨rfl, rfl⟩
  all_goals exact hlost trivial hc

-- When a run ends, its session is reloaded.
theorem end_reloads {n : Nat} {r : Run} (hn : s.runs[n]? = some r) (hp : r.phase = .refreshing) (hb : s.busy = true)
    (hs : r.session ≠ []) (session : Session) : (s.step (.resolve n session)).loading = some r.session := by
  simp only [Page.step, Page.handle, hn, Page.resolve, hp, Page.effect, hb]
  simp [hs]

end Trace

-- In every state of the page every error of the last run is in the trace, if and only if nothing takes the place of the
-- trace after an error.
theorem agent_errors_kept_iff (es : List Event) :
    Events.Reached Page.step Kept Page.initial es ↔ Events.Taken Page.step Calm Page.initial es :=
  Events.reached_iff_taken (.none rfl) (fun _ h => h.kept) (fun _ _ => Inv.step) fun _ _ => Inv.lost

-- A run that fails, up to the reload that its end sets off.
def failedRun : List Event :=
  let session : Session := ⟨str "s1", [⟨str "user", str "why is my pod pending?"⟩]⟩
  [
    .select (str "s1"), .loaded session, .start (str "why is my pod pending?"),
    .event 0 ⟨.error, str "provider is down", none⟩, .resolve 0 session, .resolve 0 session, .resolve 0 session,
    .loaded session
  ]

theorem error_reloaded : ¬∀ es, Events.Reached Page.step Kept Page.initial es := by
  intro h
  have hk := (h failedRun).last
  revert hk
  unfold Kept
  decide

end Console.AgentTrace
