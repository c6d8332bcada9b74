import Knaic.Go.Http
import Knaic.Go.Scanner

open Go

namespace K8sRes

structure LogOptions where
  container    : Str
  follow       : Bool
  tailLines    : Int
  previous     : Bool
  sinceSeconds : Int

structure PodLogOptions where
  container    : Str
  follow       : Bool
  previous     : Bool
  tailLines    : Option Int
  sinceSeconds : Option Int

-- What the Kubernetes API sends of a log, and how reading it ended if not with its end.
structure LogBody where
  bytes   : Str
  readErr : Option Error

-- The client of a stream: whether it can flush, and what a write fails with and what its context
-- says when so much was written to it.
structure Client where
  flusher  : Bool
  writeErr : Str → Option Error
  ctxErr   : Str → Option Error

-- What a client has been sent. There is no head until the status is written.
structure Sent where
  head : Option (Http.Header × Nat)
  body : Str

def LogOptions.podOptions (opts : LogOptions) : PodLogOptions where
  container    := opts.container
  follow       := opts.follow
  previous     := opts.previous
  tailLines    := if opts.tailLines > 0 then some opts.tailLines else none
  sinceSeconds := if opts.sinceSeconds > 0 then some opts.sinceSeconds else none

def sseEscape (s : Str) : Str :=
  s.flatMap fun c => if c = 13 then [] else if c = 10 then [32] else [c]

def dataFrame (line : Str) : Str :=
  str "data: " ++ sseEscape line ++ [10, 10]

def endFrame : Str :=
  str "event: end" ++ [10] ++ str "data: " ++ [10, 10]

def maxLogLine : Nat :=
  1024 * 1024

-- The loop over the scanner, from what was written before.
def writeLines (w : Client) (written : Str) : List Str → Str × Option Error
  | []            => (written, none)
  | line :: lines =>
    match w.writeErr written with
    | some err => (written, some err)
    | none     =>
      let written := written ++ dataFrame line
      match w.ctxErr written with
      | some err => (written, some err)
      | none     => writeLines w written lines

def streamBody (w : Client) (rc : LogBody) : Str × Option Error :=
  let scan := Scanner.scanLines maxLogLine rc.bytes rc.readErr
  match writeLines w [] scan.lines with
  | (written, some err) => (written, some err)
  | (written, none)     =>
    match scan.err with
    | some err => (written, some err)
    | none     => (if w.writeErr written = none then written ++ endFrame else written, none)

def streamHeader (h : Http.Header) : Http.Header :=
  (((h.set (str "Content-Type") (str "text/event-stream")).set (str "Cache-Control")
    (str "no-cache")).set (str "Connection") (str "keep-alive")).set (str "X-Accel-Buffering") (str "no")

def streamPodLogs (getLogs : Str → Str → PodLogOptions → Except Error LogBody) (w : Client)
    (h : Http.Header) (ns name : Str) (opts : LogOptions) : Sent × Option Error :=
  if ¬w.flusher then
    (⟨none, []⟩, some (.new "streaming unsupported (no http.Flusher)"))
  else
    match getLogs ns name opts.podOptions with
    | .error err => (⟨none, []⟩, some err)
    | .ok rc     =>
      let (body, err) := streamBody w rc
      (⟨some (streamHeader h, 200), body⟩, err)

-- A client that does not go away.
structure Client.Stays (w : Client) : Prop where
  flusher  : w.flusher = true
  writeErr : ∀ s, w.writeErr s = none
  ctxErr   : ∀ s, w.ctxErr s = none

theorem sseEscape_self {l : Str} (hr : 13 ∉ l) (hn : 10 ∉ l) : sseEscape l = l := by
  have hc : ∀ c ∈ l, (if c = 13 then [] else if c = 10 then [32] else [c]) = [c] := by
    intro c hm
    have h13 : c ≠ 13 := ne_of_mem_of_not_mem hm hr
    have h10 : c ≠ 10 := ne_of_mem_of_not_mem hm hn
    rw [if_neg h13, if_neg h10]
  rw [sseEscape, List.flatMap_congr hc, List.flatMap_singleton']

theorem writeLines_stays {w : Client} (hw : w.Stays) (written : Str) (lines : List Str) :
    writeLines w written lines = (written ++ lines.flatMap dataFrame, none) := by
  induction lines generalizing written
  case nil             => simp [writeLines]
  case cons line ls hi => simp [writeLines, hw.writeErr, hw.ctxErr, hi]

-- Whoever goes away has got the front of what the others get.
theorem writeLines_prefix (w : Client) (written : Str) (lines : List Str) :
    ∃ s, (writeLines w written lines).1 = written ++ s ∧ s <+: lines.flatMap dataFrame ∧
      ((writeLines w written lines).2 = none → s = lines.flatMap dataFrame) := by
  induction lines generalizing written
  case nil             => exact ⟨[], by simp [writeLines]⟩
  case cons line ls hi =>
    rw [writeLines, List.flatMap_cons]
    cases w.writeErr written
    case some err => exact ⟨[], by simp⟩
    case none     =>
      simp only
      cases w.ctxErr (written ++ dataFrame line)
      case some err => exact ⟨dataFrame line, by simp⟩
      case none     =>
        obtain ⟨s, hs, hp, hf⟩ := hi (written ++ dataFrame line)
        refine ⟨dataFrame line ++ s, by simp [hs], ?_, fun h => by rw [hf h]⟩
        exact (List.prefix_append_right_inj _).mpr hp

theorem streamBody_prefix (w : Client) (rc : LogBody) : (streamBody w rc).1 <+:
    (Scanner.scanLines maxLogLine rc.bytes rc.readErr).lines.flatMap dataFrame ++ endFrame := by
  generalize hscan : Scanner.scanLines maxLogLine rc.bytes rc.readErr = scan
  obtain ⟨s, hs, hp, hf⟩ := writeLines_prefix w [] scan.lines
  have hfront := hp.trans (List.prefix_append _ endFrame)
  rw [List.nil_append] at hs
  rw [streamBody, hscan]
  split
  case h_1 he => rwa [← hs, he] at hfront
  case h_2 he =>
    split
    case h_1 => rwa [← hs, he] at hfront
    case h_2 =>
      rw [he] at hs hf
      simp only [← hf rfl, ← hs]
      split
      case isTrue  => exact List.prefix_rfl
      case isFalse => exact List.prefix_append ..

-- The whole log, line by line, when it can be read to its end.
theorem streamPodLogs_stays {getLogs : Str → Str → PodLogOptions → Except Error LogBody}
    {w : Client} {ns name : Str} {opts : LogOptions} {lines : List Str} (hw : w.Stays)
    (hlog : getLogs ns name opts.podOptions = .ok ⟨Scanner.unlines lines, none⟩)
    (hn : ∀ l ∈ lines, 10 ∉ l) (hr : ∀ l ∈ lines, 13 ∉ l) (hm : ∀ l ∈ lines, l.length < maxLogLine)
    (h : Http.Header) : streamPodLogs getLogs w h ns name opts =
      (⟨some (streamHeader h, 200), lines.flatMap dataFrame ++ endFrame⟩, none) := by
  simp [streamPodLogs, hw.flusher, hlog, streamBody, Scanner.scanLines_unlines hn hr hm,
    writeLines_stays hw, hw.writeErr]

end K8sRes
