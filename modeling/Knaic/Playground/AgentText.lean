import Knaic.Console.AgentTrace
import Knaic.Go.Fields
import Knaic.Go.Scanner
import Knaic.Playground.AgentSessions

open Go Utf8 Console

-- A text that opencode prints on its way to the store and to the page: the runner makes an event of every line,
-- and both of them put the events together again.
namespace Playground.OpenCodeRunner

open AgentRunner (event)
open AgentTrace (AgentStep appendAgentEvent)

-- What the command prints, and what is wrong with its end.
structure Cli where
  stdout  : Str
  stderr  : Str
  waitErr : Option Str

-- What a pipe is read into. The pipes are read to their ends.
structure Stream where
  events : List AgentEvent
  raw    : Str
  err    : Option Error

def limit : Nat :=
  1024 * 1024

def scan (s : Str) : Scanner.Scan :=
  Scanner.scanLines limit s none

def trimmed (s : Str) : List Str :=
  (scan s).lines.map fun line => line.trimRight 13

def streamOpenCodeStdout (s : Str) : Stream where
  events := ((trimmed s).filter fun line => trimSpace line ≠ []).map (event (str "final"))
  raw    := Scanner.unlines (trimmed s)
  err    := (scan s).err

def isBenignOpenCodeNoise (line : Str) : Bool :=
  line.hasPrefix (str "Performing one time database migration") ||
  line = str "sqlite-migration:done" ||
  line = str "Database migration complete." ||
  line.hasInfix (str "background dependency install failed") ||
  line.hasInfix (str "service=tool.registry") ||
  line.hasInfix (str "service=bus")

def classifyOpenCodeLog (line : Str) : Str :=
  if line.hasPrefix (str "ERROR") || line.hasInfix (str " ERROR ") || line.hasPrefix (str "FATAL") then
    str "error"
  else if line.hasPrefix (str "WARN") || line.hasInfix (str " WARN ") then
    str "thought"
  else if line.hasPrefix (str "INFO") || line.hasPrefix (str "DEBUG") then
    str "thought"
  else
    str "thought"

def logEvents (line : Str) : List AgentEvent :=
  let line := trimSpace line
  if line = [] then []
  else if isBenignOpenCodeNoise line then []
  else if classifyOpenCodeLog line = [] then []
  else [event (classifyOpenCodeLog line) line]

def streamOpenCodeStderr (s : Str) : Stream where
  events := (trimmed s).flatMap logEvents
  raw    := Scanner.unlines (trimmed s)
  err    := (scan s).err

-- The last bytes of a text.
def tail (s : Str) (n : Nat) : Str :=
  if s.length ≤ n then s else str "…" ++ s.drop (s.length - n)

-- Two lists that are written to at the same time, by whose turn it is.
def interleave {α : Type} : List Bool → List α → List α → List α
  | [], xs, ys               => xs ++ ys
  | _ :: _, [], ys           => ys
  | _ :: _, xs, []           => xs
  | true :: ts, x :: xs, ys  => x :: interleave ts xs ys
  | false :: ts, xs, y :: ys => y :: interleave ts xs ys

-- What stands in for the text where there is none.
def silentBody (out err : Str) : Str :=
  let body := trimSpace (tail out 2048 ++ [10] ++ tail err 2048)
  if body = [] then str "agent produced no output (opencode exit 0, empty stdout/stderr)" else body

-- The events of a run, and its error. The two pipes are read at the same time.
def run (cli : Cli) (turns : List Bool) : List AgentEvent × Option Error :=
  let out := streamOpenCodeStdout cli.stdout
  let err := streamOpenCodeStderr cli.stderr
  let evs := interleave turns out.events err.events
  match out.err, cli.waitErr with
  | some parseErr, _   => (evs, some parseErr)
  | none, some waitErr =>
    let said := if tail err.raw 2048 ≠ [] then tail err.raw 2048 else tail out.raw 2048
    (evs, some (.errorf "%s: %s" [trimSpace said, waitErr]))
  | none, none         =>
    if out.events = [] then (evs ++ [event (str "final") (silentBody out.raw err.raw)], none) else (evs, none)

-- What is appended to the session in the end.
def assistantMessage (result : List AgentEvent × Option Error) : Option AgentMessage :=
  match result.2 with
  | some _ => none
  | none   =>
    let final := finalText result.1
    if trimSpace final ≠ [] then some (newMessage (str "assistant") final) else none

-- No event of the runner is of another kind.
def kindOf (kind : Str) : AgentTrace.EventKind :=
  if kind = str "final" then .final
  else if kind = str "error" then .error
  else .thought

-- An event as JSON carries it.
def wire (ev : AgentEvent) : AgentTrace.AgentEvent where
  kind     := kindOf ev.kind
  text     := toValid ev.text
  toolName := if ev.toolName = [] then none else some (toValid ev.toolName)

-- The trace with the prompt of a run and the events of the run.
def steps (before : List AgentStep) (prompt : Str) (evs : List AgentEvent) : List AgentStep :=
  (evs.map wire).foldl appendAgentEvent (before ++ [⟨.user, prompt, none⟩])

-- What the assistant says in the run.
def bubbles (before : List AgentStep) (prompt : Str) (evs : List AgentEvent) : List AgentStep :=
  ((steps before prompt evs).drop (before.length + 1)).filter fun step => step.kind = .event .final

-- The message that is stored and the bubble that is shown are the text, apart from the spaces at its ends.
structure Survives (text : Str) (before : List AgentStep) (prompt : Str) (result : List AgentEvent × Option Error) :
    Prop where
  persisted : ∃ msg, assistantMessage result = some msg ∧ trimSpace msg.content = trimSpace text
  shown     : ∃ step, bubbles before prompt result.1 = [step] ∧ trimSpace step.text = trimSpace text

-- The lines of a text that are not blank.
def spoken (text : Str) : List Str :=
  (Scanner.rawLines text).filter fun line => trimSpace line ≠ []

section Lines

variable {s line : Str}

theorem trimRight_dropCR (line : Str) : Str.trimRight (Scanner.dropCR line) 13 = line.trimRight 13 := by
  unfold Scanner.dropCR
  split
  case isFalse   => rfl
  case isTrue hl =>
    have ⟨d, hd⟩ := List.getLast?_eq_some_iff.mp hl
    rw [hd, List.dropLast_concat]
    exact (List.rdropWhile_concat_pos (· == 13) d 13 rfl).symm

theorem trimmed_eq (h : ∀ line ∈ Scanner.rawLines s, line.length < limit) :
    trimmed s = (Scanner.rawLines s).map fun line => line.trimRight 13 := by
  have hall : ∀ line ∈ Scanner.rawLines s, decide (line.length < limit) = true := by
    simpa using h
  simp only [trimmed, scan, Scanner.scanLines, List.takeWhile_eq_self_iff.mpr hall, List.map_map]
  exact List.map_congr_left fun line _ => trimRight_dropCR line

-- The events of a text are its lines.
theorem stdout_events (h : ∀ line ∈ Scanner.rawLines s, line.length < limit) :
    (streamOpenCodeStdout s).events =
      (spoken s).map fun line => event (str "final") (line.trimRight 13) := by
  simp only [streamOpenCodeStdout, trimmed_eq h, spoken, List.filter_map, List.map_map, Function.comp_def,
    trimSpace_trimRight]

theorem stdout_err (h : ∀ line ∈ Scanner.rawLines s, line.length < limit) : (streamOpenCodeStdout s).err = none := by
  rw [streamOpenCodeStdout, scan, Scanner.scanLines, if_pos (by simpa using h)]

theorem spoken_eq (s : Str) : spoken s = (s.splitOn 10).filter fun line => trimSpace line ≠ [] := by
  unfold spoken Scanner.rawLines
  dsimp only
  split
  case isFalse   => rfl
  case isTrue hl =>
    have ⟨d, hd⟩ := List.getLast?_eq_some_iff.mp hl
    rw [hd, List.dropLast_concat, List.filter_append]
    simp [trimSpace, pieces, piecesFrom]

theorem spoken_no_feed (h : line ∈ spoken s) : 10 ∉ line := by
  rw [spoken_eq] at h
  intro hm
  exact absurd ((mem_splitOnP (List.mem_of_mem_filter h)).right 10 hm) (by simp)

-- What is left of a text whose lines are put together again.
theorem text_lines (s : Str) :
    match spoken s with
    | []          => trimSpace s = []
    | [line]      => trimSpace s = trimSpace line
    | _ :: _ :: _ => 10 ∈ trimSpace s := by
  have h := trimSpace_lines (s.splitOn 10)
  rwa [List.intercalate_splitOn, ← spoken_eq] at h

end Lines
section Events

variable {α : Type} {f : α → Bool} {xs ys : List α}

theorem interleave_filter (hx : ∀ x ∈ xs, f x) (hy : ∀ y ∈ ys, f y = false) (turns : List Bool) :
    (interleave turns xs ys).filter f = xs := by
  have hn {ys : List α} (hy : ∀ y ∈ ys, f y = false) : ys.filter f = [] :=
    List.filter_eq_nil_iff.mpr fun y hm => by simp [hy y hm]
  fun_induction interleave turns xs ys
  case case1 => rw [List.filter_append, List.filter_eq_self.mpr hx, hn hy, List.append_nil]
  case case2 => exact hn hy
  case case3 => exact List.filter_eq_self.mpr hx
  case case4 hi =>
    rw [List.filter_cons_of_pos (hx _ (.head _)), hi (fun x hm => hx x (.tail _ hm)) hy]
  case case5 hi =>
    rw [List.filter_cons_of_neg (by simp [hy _ (.head _)]), hi hx fun y hm => hy y (.tail _ hm)]

-- Whether an event belongs to what the assistant says.
def isFinal (ev : AgentEvent) : Bool :=
  ev.kind = str "final"

theorem classify_ne_final (line : Str) : classifyOpenCodeLog line ≠ str "final" := by
  unfold classifyOpenCodeLog
  repeat' split
  all_goals decide

theorem logEvents_not_final (line : Str) : ∀ ev ∈ logEvents line, isFinal ev = false := by
  intro ev hm
  unfold logEvents at hm
  dsimp only at hm
  split at hm
  · cases hm
  split at hm
  · cases hm
  split at hm
  · cases hm
  rw [List.mem_singleton.mp hm]
  exact decide_eq_false (classify_ne_final _)

theorem stderr_not_final (s : Str) : ∀ ev ∈ (streamOpenCodeStderr s).events, isFinal ev = false := by
  intro ev hm
  have ⟨line, _, hl⟩ := List.mem_flatMap.mp hm
  exact logEvents_not_final line ev hl

theorem stdout_final (s : Str) : ∀ ev ∈ (streamOpenCodeStdout s).events, isFinal ev := by
  intro ev hm
  obtain ⟨line, -, rfl⟩ := List.mem_map.mp hm
  exact decide_eq_true rfl

theorem kindOf_final {kind : Str} : kindOf kind = .final ↔ kind = str "final" := by
  unfold kindOf
  repeat' split
  all_goals simp_all

end Events
section Trace

variable {prev before : List AgentStep} {prompt : Str} {ev : AgentEvent} {evs : List AgentEvent}

-- The step of an event by itself.
def stepOf (ev : AgentEvent) : AgentStep :=
  AgentTrace.normalizeEvent (wire ev)

theorem stepOf_final : (stepOf ev).kind = .event .final ↔ isFinal ev := by
  simp [stepOf, AgentTrace.normalizeEvent, wire, kindOf_final, isFinal]

-- Only what the assistant says goes on, and only where it has just spoken.
theorem append_alone (h : isFinal ev = false ∨ ∀ last, prev.getLast? = some last → last.kind ≠ .event .final) :
    appendAgentEvent prev (wire ev) = prev ++ [stepOf ev] := by
  unfold appendAgentEvent
  dsimp only
  split
  case h_1         => rfl
  case h_2 last hl =>
    refine if_neg fun hf => ?_
    rcases h with h | h
    · rw [stepOf_final.mp hf.left] at h
      cases h
    · exact h last hl hf.right.left

theorem foldl_not_final (h : ∀ ev ∈ evs, isFinal ev = false) (prev : List AgentStep) :
    (evs.map wire).foldl appendAgentEvent prev = prev ++ evs.map stepOf := by
  induction evs generalizing prev
  case nil            => simp
  case cons ev evs hi =>
    rw [List.map_cons, List.foldl_cons, append_alone (.inl (h ev (.head _))), hi fun ev hm => h ev (.tail _ hm),
      List.append_assoc, List.singleton_append, List.map_cons]

theorem stepOf_not_final (h : ∀ ev ∈ evs, isFinal ev = false) : ∀ a ∈ evs.map stepOf, a.kind ≠ .event .final := by
  intro a ha hf
  obtain ⟨ev, hm, rfl⟩ := List.mem_map.mp ha
  rw [stepOf_final, h ev hm] at hf
  cases hf

-- A run in which the assistant speaks once has one bubble.
theorem bubbles_one (h : evs.filter isFinal = [ev]) (before : List AgentStep) (prompt : Str) :
    bubbles before prompt evs = [stepOf ev] := by
  let user : AgentStep := ⟨.user, prompt, none⟩
  have ⟨pre, post, he, hpre, hev, hpost⟩ := List.filter_eq_cons_iff.mp h
  have hpre : ∀ ev ∈ pre, isFinal ev = false := by simpa using hpre
  have hpost : ∀ ev ∈ post, isFinal ev = false := by simpa using List.filter_eq_nil_iff.mp hpost
  have hlast : ∀ last, (before ++ [user] ++ pre.map stepOf).getLast? = some last → last.kind ≠ .event .final := by
    intro last hl
    rw [List.append_assoc, List.getLast?_append, List.singleton_append] at hl
    have hm : last ∈ user :: pre.map stepOf := by
      rw [List.getLast?_cons, Option.some_or] at hl
      exact List.mem_of_getLast? (List.getLast?_cons.trans hl)
    rcases List.mem_cons.mp hm with rfl | hm
    · simp [user]
    · exact stepOf_not_final hpre last hm
  have hs : steps before prompt evs =
      (before ++ [user]) ++ (pre.map stepOf ++ ([stepOf ev] ++ post.map stepOf)) := by
    rw [steps, he, List.map_append, List.map_cons, List.foldl_append, List.foldl_cons, foldl_not_final hpre,
      append_alone (.inr hlast), foldl_not_final hpost]
    simp only [List.append_assoc, user]
  have others {evs : List AgentEvent} (h : ∀ ev ∈ evs, isFinal ev = false) :
      (evs.map stepOf).filter (fun step => step.kind = .event .final) = [] :=
    List.filter_eq_nil_iff.mpr fun a hm => by simpa using stepOf_not_final h a hm
  rw [bubbles, hs, List.drop_left' (by simp), List.filter_append, List.filter_append, others hpre, others hpost,
    List.filter_singleton, List.nil_append, List.append_nil]
  simp [stepOf_final.mpr hev]

end Trace

section Run

variable {cli : Cli} {turns : List Bool} {line : Str}

@[simp]
theorem event_text (kind text : Str) : (event kind text).text = text :=
  rfl

theorem finalText_eq (evs : List AgentEvent) : finalText evs = (evs.filter isFinal).flatMap AgentEvent.text :=
  rfl

-- The runs in which an answer is stored.
theorem run_ok (h : ∀ line ∈ Scanner.rawLines cli.stdout, line.length < limit) (hw : cli.waitErr = none)
    (turns : List Bool) :
    (run cli turns).2 = none ∧ (run cli turns).1.filter isFinal =
      if spoken cli.stdout = [] then
        [event (str "final") (silentBody (streamOpenCodeStdout cli.stdout).raw (streamOpenCodeStderr cli.stderr).raw)]
      else
        (spoken cli.stdout).map fun line => event (str "final") (line.trimRight 13) := by
  have hi := interleave_filter (stdout_final cli.stdout) (stderr_not_final cli.stderr) turns
  simp only [run, stdout_err h, hw]
  rw [stdout_events h] at hi ⊢
  by_cases hs : spoken cli.stdout = []
  case pos =>
    simp only [hs, List.map_nil, if_true] at hi ⊢
    rw [List.filter_append, hi]
    exact ⟨trivial, rfl⟩
  case neg =>
    simp only [List.map_eq_nil_iff, if_neg hs]
    exact ⟨trivial, hi⟩

theorem silentBody_ne_nil (out err : Str) : trimSpace (silentBody out err) ≠ [] := by
  unfold silentBody
  dsimp only
  split
  case isTrue     => decide
  case isFalse hn => rwa [trimSpace_trimSpace]

theorem assistantMessage_some {result : List AgentEvent × Option Error} {msg : AgentMessage}
    (h : assistantMessage result = some msg) : result.2 = none ∧ msg.content = finalText result.1 := by
  unfold assistantMessage at h
  split at h
  case h_1    => cases h
  case h_2 he =>
    dsimp only at h
    split at h
    case isFalse => cases h
    case isTrue  =>
      cases h
      exact ⟨he, rfl⟩

theorem assistantMessage_of {result : List AgentEvent × Option Error} (he : result.2 = none)
    (hn : trimSpace (finalText result.1) ≠ []) :
    assistantMessage result = some (newMessage (str "assistant") (finalText result.1)) := by
  simp only [assistantMessage, he, if_pos hn]

theorem run_failed (h : (run cli turns).2 = none) : cli.waitErr = none := by
  unfold run at h
  dsimp only at h
  split at h
  case h_1 => cases h
  case h_2 => cases h
  case h_3 hw => exact hw

-- A text with one line becomes that line.
theorem run_one (h : ∀ line ∈ Scanner.rawLines cli.stdout, line.length < limit) (hw : cli.waitErr = none)
    (hs : spoken cli.stdout = [line]) (turns : List Bool) :
    (run cli turns).2 = none ∧
    (run cli turns).1.filter isFinal = [event (str "final") (line.trimRight 13)] ∧
    trimSpace (line.trimRight 13) = trimSpace cli.stdout := by
  have ⟨he, hf⟩ := run_ok h hw turns
  have hl := text_lines cli.stdout
  rw [if_neg (by simp [hs]), hs] at hf
  simp only [hs] at hl
  exact ⟨he, hf, (trimSpace_trimRight line).trans hl.symm⟩

-- Where a message is stored, one line at most has become text.
theorem spoken_of_persisted (h : ∀ line ∈ Scanner.rawLines cli.stdout, line.length < limit)
    (hw : cli.waitErr = none) (ht : trimSpace (finalText (run cli turns).1) = trimSpace cli.stdout) :
    ∃ line, spoken cli.stdout = [line] := by
  have hf := (run_ok h hw turns).right
  have hl := text_lines cli.stdout
  rw [finalText_eq, hf] at ht
  cases hs : spoken cli.stdout
  case nil             =>
    simp only [hs, if_true, List.flatMap_singleton, event_text] at hl ht
    rw [hl] at ht
    exact (silentBody_ne_nil _ _ ht).elim
  case cons line lines =>
    cases lines
    case nil            => exact ⟨line, rfl⟩
    case cons _ lines =>
      simp only [hs] at hl
      rw [← ht, if_neg (by simp [hs])] at hl
      have ⟨ev, hm, hb⟩ := List.mem_flatMap.mp (trimSpace_subset _ hl)
      obtain ⟨line, hline, rfl⟩ := List.mem_map.mp hm
      exact absurd ((List.rdropWhile_prefix ..).subset hb) (spoken_no_feed hline)

end Run

end Playground.OpenCodeRunner
