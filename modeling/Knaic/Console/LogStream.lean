import Mathlib.Data.Set.List
import Knaic.Js.Cut
import Knaic.Js.TextDecoder
import Knaic.K8sRes.Logs
import Knaic.Playground.McpTools

open Js
open Playground.Mcp (joinLines stripSSE)

namespace Console

inductive LogEvent
  | line (text : Str)
  | ended
  | error (name message : Str)
deriving DecidableEq

-- How the reading of a body stops.
inductive Reading
  | done
  | rejected (name message : Str)

structure LogResponse where
  ok     : Bool
  status : Nat
  body   : Option (List Go.Str × Reading)

def blankLine : Str :=
  [newline, newline]

-- One line of a frame. The flag tells whether it is the end of the stream.
def readFrame : List Str → List LogEvent × Bool
  | []            => ([], false)
  | line :: lines =>
    if (str "data: ").isPrefixOf line then
      let r := readFrame lines
      (.line (line.drop 6) :: r.1, r.2)
    else if (str "event: end").isPrefixOf line then
      ([.ended], true)
    else
      readFrame lines

-- The frames that are complete, and what is left of the buffer unless the stream has ended.
def readFrames (buf : Str) : List LogEvent × Option Str :=
  match _h : cut blankLine buf with
  | none   => ([], some buf)
  | some r =>
    let es := readFrame (Str.split r.1 newline)
    if es.2 then
      (es.1, none)
    else
      let q := readFrames r.2
      (es.1 ++ q.1, q.2)
termination_by buf.length
decreasing_by exact cut_length _h (by decide)

-- The error handler says nothing when it was the caller who stopped.
def failed (name message : Str) : List LogEvent :=
  if name = str "AbortError" then [] else [.error name message]

def readChunks (decoder : TextDecoder) (buf : Str) : List Go.Str → Reading → List LogEvent
  | [], .done                   => [.ended]
  | [], .rejected name message  => failed name message
  | value :: chunks, fin        =>
    let d := decoder.decode value
    let r := readFrames (buf ++ d.2)
    match r.2 with
    | none     => r.1
    | some buf => r.1 ++ readChunks d.1 buf chunks fin

def streamLogEndpoint (apiEnabled : Bool) (fetchWithAuth : Except (Str × Str) LogResponse) :
    List LogEvent :=
  if ¬apiEnabled then
    [.error (str "Error") (str "API not configured — cannot stream logs")]
  else
    match fetchWithAuth with
    | .error e => failed e.1 e.2
    | .ok res  =>
      match res.ok, res.body with
      | true, some (chunks, fin) => readChunks .new [] chunks fin
      | _, _ =>
        failed (str "Error") (str "logs HTTP " ++ (Nat.toDigits 10 res.status).map fun c =>
          UInt16.ofNat c.toNat)

-- The frames as texts.
def dataText (s : Str) : Str :=
  str "data: " ++ s

def endText : Str :=
  str "event: end" ++ newline :: str "data: "

def streamText (texts : List Str) : Str :=
  (texts.flatMap fun s => dataText s ++ blankLine) ++ endText ++ blankLine

section Frames

variable {s : Str}

theorem newline_dataText (h : newline ∉ s) : newline ∉ dataText s := by
  rw [dataText, List.mem_append, not_or]
  exact ⟨by decide, h⟩

-- A frame of one line has no blank line in it or at its end.
theorem blankLine_dataText (h : newline ∉ s) : ¬blankLine <:+: dataText s ++ [newline] := by
  intro hi
  have hc := hi.sublist.count_le newline
  rw [List.count_append, List.count_eq_zero.mpr (newline_dataText h)] at hc
  exact absurd hc (by decide)

theorem blankLine_endText : ¬blankLine <:+: endText ++ [newline] := by
  decide

theorem readFrame_dataText (h : newline ∉ s) :
    readFrame (Str.split (dataText s) newline) = ([.line s], false) := by
  rw [Str.split, List.splitOn_eq_singleton (newline_dataText h)]
  have hl : (str "data: ").length = 6 := by decide
  have hd : (str "data: " ++ s).drop 6 = s := by
    rw [← hl]
    exact List.drop_left
  simp [readFrame, dataText, hd]

theorem readFrame_endText : readFrame (Str.split endText newline) = ([.ended], true) := by
  decide

theorem readFrames_none {buf : Str} (h : cut blankLine buf = none) :
    readFrames buf = ([], some buf) := by
  rw [readFrames]
  split
  case h_1     => rfl
  case h_2 he  => simp [h] at he

theorem readFrames_some {buf : Str} {r : Str × Str} (h : cut blankLine buf = some r) :
    readFrames buf =
      if (readFrame (Str.split r.1 newline)).2 then
        ((readFrame (Str.split r.1 newline)).1, none)
      else
        ((readFrame (Str.split r.1 newline)).1 ++ (readFrames r.2).1, (readFrames r.2).2) := by
  rw [readFrames]
  split
  case h_1 he  => simp [h] at he
  case h_2 he  =>
    cases Option.some.inj (h.symm.trans he)
    rfl

-- What the reader has of the frames of some texts: all of them, or those of the first ones with
-- the rest still to come.
inductive Received (q : Str) (texts : List Str) : List LogEvent × Option Str → Prop
  | all  : Received q texts (texts.map .line ++ [.ended], none)
  | part (fs : List Str) {ss : List Str} {buf : Str} (split : texts = fs ++ ss)
      (pending : cut blankLine buf = none) (rest : buf ++ q = streamText ss) :
      Received q texts (fs.map .line, some buf)

theorem readFrames_received {texts : List Str} (h : ∀ s ∈ texts, newline ∉ s) {p q : Str}
    (hp : p ++ q = streamText texts) : Received q texts (readFrames p) := by
  induction texts generalizing p
  case nil =>
    cases cut_received (by decide) blankLine_endText (s := []) (by simpa [streamText] using hp)
    case inl hc =>
      rw [readFrames_none hc]
      exact .part [] rfl hc hp
    case inr hr =>
      obtain ⟨r, hc, -⟩ := hr
      rw [readFrames_some hc, readFrame_endText]
      exact .all
  case cons s texts hi =>
    have hs := h s (.head _)
    have ht : p ++ q = dataText s ++ blankLine ++ streamText texts := by
      simpa [streamText] using hp
    cases cut_received (by decide) (blankLine_dataText hs) ht
    case inl hc =>
      rw [readFrames_none hc]
      exact .part [] rfl hc hp
    case inr hr =>
      obtain ⟨r, hc, hrest⟩ := hr
      rw [readFrames_some hc, readFrame_dataText hs]
      generalize he : readFrames r = e
      have hrec := hi (fun t ht => h t (.tail _ ht)) hrest
      rw [he] at hrec
      cases hrec
      case all                         => exact .all
      case part fs ss buf hsp hcp hrst => exact .part (s :: fs) (by simp [hsp]) hcp hrst

-- A text of frames is not received as a whole without the reader noticing.
theorem cut_streamText {texts : List Str} (h : ∀ s ∈ texts, newline ∉ s) :
    cut blankLine (streamText texts) ≠ none := by
  cases texts
  case nil => decide
  case cons s texts =>
    have hc := cut_append (by decide) (blankLine_dataText (h s (.head _))) (streamText texts)
    have ht : streamText (s :: texts) = dataText s ++ blankLine ++ streamText texts := by
      simp [streamText]
    rw [ht, hc]
    exact Option.some_ne_none _

-- By induction on the chunks, with the frames that have not been complete before.
theorem readChunks_streamText {texts : List Str} (h : ∀ s ∈ texts, newline ∉ s)
    {d : TextDecoder} {buf : Str} {chunks : List Go.Str} (hb : cut blankLine buf = none)
    (ht : buf ++ (d.decode chunks.flatten).2 = streamText texts) (fin : Reading) :
    readChunks d buf chunks fin = texts.map .line ++ [.ended] := by
  induction chunks generalizing texts d buf
  case nil =>
    rw [List.flatten_nil, TextDecoder.decode, List.append_nil] at ht
    exact absurd (ht ▸ hb) (cut_streamText h)
  case cons value chunks hi =>
    rw [List.flatten_cons, TextDecoder.decode_append, ← List.append_assoc] at ht
    have hr := readFrames_received h ht
    rw [readChunks]
    generalize readFrames (buf ++ (d.decode value).2) = r at hr
    cases hr
    case all => rfl
    case part fs ss buf hs hc hrest =>
      have hss : ∀ s ∈ ss, newline ∉ s := fun s hm => h s (hs ▸ List.mem_append_right _ hm)
      simp [hi hss hc hrest, hs]

end Frames

-- The response with the stream, in whichever chunks it arrives and whatever comes after it.
def received (sent : K8sRes.Sent) (chunks : List Go.Str) (fin : Reading) : LogResponse where
  ok     := sent.head.any fun h => 200 ≤ h.2 && h.2 ≤ 299
  status := (sent.head.map Prod.snd).getD 0
  body   := some (chunks, fin)

-- The browser gives exactly these lines to its caller, and then the end.
def BrowserYields (sent : K8sRes.Sent) (lines : List Go.Str) : Prop :=
  ∀ chunks fin, chunks.flatten = sent.body → ∃ texts : List Str, List.Forall₂ Spells texts lines ∧
    streamLogEndpoint true (.ok (received sent chunks fin)) = texts.map .line ++ [.ended]

-- The tool gives them to its caller as one text.
def ToolYields (sent : K8sRes.Sent) (lines : List Go.Str) : Prop :=
  stripSSE sent.body = joinLines lines

structure RoundTrip (sent : K8sRes.Sent) (lines : List Go.Str) : Prop where
  tool    : ToolYields sent lines
  browser : BrowserYields sent lines

section Lines

open K8sRes (Sent dataFrame endFrame)

variable {lines : List Go.Str}

-- The stream as characters, which are sent as bytes and read as code units.
def streamChars (texts : List (List Char)) : List Char :=
  (texts.flatMap fun t => "data: ".toList ++ t ++ "\n\n".toList) ++ "event: end\ndata: \n\n".toList

theorem utf8_streamChars {texts : List (List Char)} (hr : ∀ t ∈ texts, 13 ∉ utf8 t)
    (hn : ∀ t ∈ texts, 10 ∉ utf8 t) :
    utf8 (streamChars texts) = (texts.map utf8).flatMap dataFrame ++ endFrame := by
  have hf : ∀ t ∈ texts, utf8 ("data: ".toList ++ t ++ "\n\n".toList) = dataFrame (utf8 t) := by
    intro t ht
    rw [dataFrame, K8sRes.sseEscape_self (hr t ht) (hn t ht), utf8_append, utf8_append]
    rfl
  rw [streamChars, utf8_append, utf8_flatMap, List.flatMap_map, List.flatMap_congr hf]
  rfl

theorem utf16_streamChars (texts : List (List Char)) :
    utf16 (streamChars texts) = streamText (texts.map utf16) := by
  have hf : ∀ t ∈ texts, utf16 ("data: ".toList ++ t ++ "\n\n".toList) =
      dataText (utf16 t) ++ blankLine := by
    intro t _
    rw [utf16_append, utf16_append]
    rfl
  rw [streamChars, utf16_append, utf16_flatMap, streamText, List.flatMap_map,
    List.flatMap_congr hf, List.append_assoc]
  rfl

theorem head_streamChars (texts : List (List Char)) :
    ∀ c ∈ (streamChars texts).head?, c.toNat ≠ byteOrderMark := by
  cases texts <;> simp [streamChars, byteOrderMark]

-- The browser reads every text that is sent, however the bytes arrive.
theorem streamLogEndpoint_texts {texts : List (List Char)} (hr : ∀ t ∈ texts, 13 ∉ utf8 t)
    (hn : ∀ t ∈ texts, 10 ∉ utf8 t) {chunks : List Go.Str}
    (hc : chunks.flatten = (texts.map utf8).flatMap dataFrame ++ endFrame) (fin : Reading) :
    readChunks .new [] chunks fin = (texts.map utf16).map .line ++ [.ended] := by
  apply readChunks_streamText
  case h =>
    intro s hs
    obtain ⟨t, ht, he⟩ := List.mem_map.mp hs
    rw [← he]
    exact newline_utf16 (hn t ht)
  case hb => rfl
  case ht =>
    rw [List.nil_append, hc, ← utf8_streamChars hr hn,
      TextDecoder.decode_new (head_streamChars texts), utf16_streamChars]

theorem spells_valid {texts : List Str} (h : List.Forall₂ Spells texts lines) :
    ∀ l ∈ lines, ∃ t, l = utf8 t := by
  induction h
  case nil           => simp
  case cons hs _ hi  =>
    obtain ⟨t, -, ht⟩ := hs
    exact List.forall_mem_cons.mpr ⟨⟨t, ht⟩, hi⟩

theorem browserYields_iff (sent : Sent) (hs : sent.body = lines.flatMap dataFrame ++ endFrame)
    (hok : (sent.head.any fun h => 200 ≤ h.2 && h.2 ≤ 299) = true)
    (hr : ∀ l ∈ lines, 13 ∉ l) (hn : ∀ l ∈ lines, 10 ∉ l) :
    BrowserYields sent lines ↔ ∀ l ∈ lines, ∃ t, l = utf8 t := by
  constructor
  case mp =>
    intro h
    obtain ⟨texts, hf, -⟩ := h [sent.body] .done (by simp)
    exact spells_valid hf
  case mpr =>
    intro h chunks fin hc
    have hrange : lines ∈ Set.range (List.map utf8) := by
      rw [Set.range_list_map]
      exact fun l hl => (h l hl).imp fun t ht => ht.symm
    obtain ⟨texts, rfl⟩ := hrange
    have hr' : ∀ t ∈ texts, 13 ∉ utf8 t := fun t ht => hr _ (List.mem_map_of_mem ht)
    have hn' : ∀ t ∈ texts, 10 ∉ utf8 t := fun t ht => hn _ (List.mem_map_of_mem ht)
    refine ⟨texts.map utf16, ?_, ?_⟩
    case refine_1 =>
      rw [List.forall₂_map_left_iff, List.forall₂_map_right_iff, List.forall₂_same]
      exact fun t _ => ⟨t, rfl, rfl⟩
    case refine_2 =>
      simp only [streamLogEndpoint, received, hok]
      exact streamLogEndpoint_texts hr' hn' (hc.trans hs) fin

-- The tool takes the data of the last event for a line.
theorem filter_frames (hr : ∀ l ∈ lines, 13 ∉ l) (hn : ∀ l ∈ lines, 10 ∉ l) :
    ((lines.flatMap dataFrame ++ endFrame).splitOn 10).filter
      (fun line => Go.Str.hasPrefix line (Go.str "data: ")) =
    (lines ++ [[]]).map (Go.str "data: " ++ ·) := by
  induction lines
  case nil => decide
  case cons l ls hi =>
    have hl : 10 ∉ Go.str "data: " ++ l := by
      rw [List.mem_append, not_or]
      exact ⟨by decide, hn l (.head _)⟩
    have hls := hi (fun m hm => hr m (.tail _ hm)) fun m hm => hn m (.tail _ hm)
    have hp : Go.Str.hasPrefix (Go.str "data: " ++ l) (Go.str "data: ") = true :=
      Go.Str.hasPrefix_append ..
    have hb : Go.Str.hasPrefix [] (Go.str "data: ") = false := by decide
    have hs (s : Go.Str) : (10 :: s).splitOn 10 = [] :: s.splitOn 10 :=
      List.splitOn_append_cons_self_of_not_mem List.not_mem_nil s
    rw [List.flatMap_cons, dataFrame, K8sRes.sseEscape_self (hr l (.head _)) (hn l (.head _)),
      List.append_assoc, List.append_assoc _ [10, 10], List.cons_append,
      List.splitOn_append_cons_self_of_not_mem hl, List.singleton_append, hs]
    simp only [List.filter_cons, hp, hb, if_true, Bool.false_eq_true, if_false, hls,
      List.cons_append, List.map_cons]

theorem stripSSE_frames (hr : ∀ l ∈ lines, 13 ∉ l) (hn : ∀ l ∈ lines, 10 ∉ l) :
    stripSSE (lines.flatMap dataFrame ++ endFrame) = joinLines (lines ++ [[]]) := by
  have hm : (lines ++ [[]]).map ((fun line => Go.Str.trimPrefix line (Go.str "data: ")) ∘
      (Go.str "data: " ++ ·)) = lines ++ [[]] :=
    (List.map_congr_left fun l _ => Go.Str.trimPrefix_append _ l).trans (List.map_id' _)
  simp only [stripSSE, filter_frames hr hn, List.map_map, hm]
  exact if_neg (by simp)

theorem joinLines_concat (h : lines ≠ []) : joinLines (lines ++ [[]]) = joinLines lines ++ [10] := by
  induction lines
  case nil => exact absurd rfl h
  case cons l ls hi =>
    simp only [joinLines] at hi ⊢
    cases ls
    case nil          => simp
    case cons l' ls   =>
      rw [List.cons_append, List.intercalate_cons_of_ne_nil (by simp), hi (by simp),
        List.intercalate_cons_cons, List.append_assoc, List.append_assoc, List.append_assoc]

theorem toolYields_iff (sent : Sent) (hs : sent.body = lines.flatMap dataFrame ++ endFrame)
    (hr : ∀ l ∈ lines, 13 ∉ l) (hn : ∀ l ∈ lines, 10 ∉ l) : ToolYields sent lines ↔ lines = [] := by
  rw [ToolYields, hs, stripSSE_frames hr hn]
  constructor
  case mpr => rintro rfl; rfl
  case mp =>
    intro h
    by_contra hne
    rw [joinLines_concat hne] at h
    simp at h

-- The two readers of one log.
theorem streamPodLogs_roundTrip_iff
    {getLogs : Go.Str → Go.Str → K8sRes.PodLogOptions → Except Go.Error K8sRes.LogBody}
    {w : K8sRes.Client} {ns name : Go.Str} {opts : K8sRes.LogOptions} (hw : w.Stays)
    (hlog : getLogs ns name opts.podOptions = .ok ⟨Go.Scanner.unlines lines, none⟩)
    (hr : ∀ l ∈ lines, 13 ∉ l) (hn : ∀ l ∈ lines, 10 ∉ l)
    (hm : ∀ l ∈ lines, l.length < K8sRes.maxLogLine) (h : Go.Http.Header) :
    let sent := (K8sRes.streamPodLogs getLogs w h ns name opts).1
    (RoundTrip sent lines ↔ lines = []) ∧
      (BrowserYields sent lines ↔ ∀ l ∈ lines, ∃ t, l = utf8 t) := by
  have hsent := congrArg Prod.fst (K8sRes.streamPodLogs_stays hw hlog hn hr hm h)
  rw [hsent]
  have hb := browserYields_iff ⟨some (K8sRes.streamHeader h, 200), _⟩ rfl (by simp) hr hn
  have ht := toolYields_iff ⟨some (K8sRes.streamHeader h, 200), _⟩ rfl hr hn
  refine ⟨⟨fun hrt => ht.mp hrt.tool, fun he => ⟨ht.mpr he, hb.mpr ?_⟩⟩, hb⟩
  subst he
  simp

end Lines

-- A log of one line, read by a client that stays.
def readyLog (_ _ : Go.Str) (_ : K8sRes.PodLogOptions) : Except Go.Error K8sRes.LogBody :=
  .ok ⟨Go.str "ready" ++ [10], none⟩

def steady : K8sRes.Client where
  flusher    := true
  writeErr _ := none
  ctxErr _   := none

def wholeLog : K8sRes.LogOptions where
  container    := []
  follow       := false
  tailLines    := 100
  previous     := false
  sinceSeconds := 0

def readySent : K8sRes.Sent :=
  (K8sRes.streamPodLogs readyLog steady ∅ (Go.str "team-a") (Go.str "pod-0") wholeLog).1

theorem streamPodLogs_roundTrip_ready :
    (RoundTrip readySent [Go.str "ready"] ↔ [Go.str "ready"] = []) ∧
      (BrowserYields readySent [Go.str "ready"] ↔ ∀ l ∈ [Go.str "ready"], ∃ t, l = utf8 t) :=
  streamPodLogs_roundTrip_iff ⟨rfl, fun _ => rfl, fun _ => rfl⟩ rfl
    (by decide) (by decide) (by decide) ∅

-- The tool's answer has an empty line more than the log.
theorem tool_adds_line : ¬RoundTrip readySent [Go.str "ready"] := by
  intro h
  have ht : stripSSE readySent.body = joinLines [Go.str "ready"] := h.tool
  revert ht
  decide

end Console
