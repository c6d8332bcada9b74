import Knaic.Console.LogStream
import Knaic.Go.Float64
import Knaic.Js.EventStream

namespace Js

inductive Json
  | null
  | bool (b : Bool)
  | number (f : Go.Float64)
  | string (s : Str)
  | array (l : List Json)
  | object (fields : List (Str × Json))

namespace Json

-- A property that is an own one or missing.
def member (name : Str) : Json → Option Json
  | object fields => (fields.find? fun e => e.1 = name).map Prod.snd
  | array l       => if name = str "0" then l.head? else none
  | string s      => if name = str "0" then s.head?.map fun c => string [c] else none
  | _             => none

-- `a ?? b`
def orElse : Option Json → Json → Json
  | none, b | some null, b => b
  | some a, _              => a

def truthy : Json → Bool
  | null     => false
  | bool b   => b
  | number f => f ≠ 0 ∧ f ≠ 0x8000000000000000
  | string s => s ≠ []
  | _        => true

end Json
end Js

open Js Js.EventStream

namespace Console.StreamReaders

-- What the caller has been given, and how the call ended: with `onDone` or with an error.
structure Streamed where
  given : List Json
  fin   : Except (Str × Str) Unit

-- `parse` is `JSON.parse`.
variable (parse : Str → Option Json)

-- `parsed.choices?.[0]?.delta?.content ?? parsed.choices?.[0]?.message?.content ?? ''`
def chunkOf (parsed : Json) : Json :=
  let choice := (parsed.member (str "choices")).bind (Json.member (str "0"))
  let delta   := (choice.bind (Json.member (str "delta"))).bind (Json.member (str "content"))
  let message := (choice.bind (Json.member (str "message"))).bind (Json.member (str "content"))
  Json.orElse delta (Json.orElse message (.string []))

def chatData (data : Str) : List Json :=
  if data = [] ∨ data = str "[DONE]" then []
  else
    match parse data with
    -- `null` has no property at all
    | none | some .null => [.string data]
    | some parsed       => if (chunkOf parsed).truthy then [chunkOf parsed] else []

def chatLine (line : Str) : List Json :=
  if (str "data: ").isPrefixOf line then chatData parse (Str.trim (line.drop 6)) else []

def chatFrame (frame : Str) : List Json :=
  (Str.split frame newline).flatMap (chatLine parse)

def final (text : Str) : Json :=
  .object [(str "kind", .string (str "final")), (str "text", .string text)]

def agentData (data : Str) : List Json :=
  if data = [] then []
  else
    match parse data with
    | none       => [final data]
    | some event => [event]

def frameData (lines : List Str) : Str :=
  Str.join ((lines.filter (str "data: ").isPrefixOf).map (·.drop 6)) newline

def agentFrame (frame : Str) : List Json :=
  agentData parse (Str.trim (frameData (Str.split frame newline)))

theorem blankLine_ne_nil : blankLine ≠ [] :=
  List.cons_ne_nil _ _

-- The loop of both.
def readChunks (onFrame : Str → List Json) (decoder : TextDecoder) (buf : Str) :
    List Go.Str → Reading → Streamed
  | [], .done                  => ⟨[], .ok ()⟩
  | [], .rejected name message => ⟨[], .error (name, message)⟩
  | value :: chunks, fin       =>
    let d := decoder.decode value
    let r := frames blankLine_ne_nil (buf ++ d.2)
    let q := readChunks onFrame d.1 r.2 chunks fin
    ⟨r.1.flatMap onFrame ++ q.given, q.fin⟩

def stream (onFrame : Str → List Json) (label : Str) (fetchWithAuth : Except (Str × Str) LogResponse) :
    Streamed :=
  match fetchWithAuth with
  | .error e => ⟨[], .error e⟩
  | .ok res  =>
    match res.ok, res.body with
    | true, some (chunks, fin) => readChunks onFrame .new [] chunks fin
    | _, _ =>
      ⟨[], .error (str "Error", label ++ str " HTTP " ++ (Nat.toDigits 10 res.status).map fun c =>
        UInt16.ofNat c.toNat)⟩

def streamChat (fetchWithAuth : Except (Str × Str) LogResponse) : Streamed :=
  stream (chatFrame parse) (str "chat") fetchWithAuth

def streamAgentSession (fetchWithAuth : Except (Str × Str) LogResponse) : Streamed :=
  stream (agentFrame parse) (str "agent") fetchWithAuth

-- The response with a stream, in whichever chunks it arrives.
def streamed (chunks : List Go.Str) : Except (Str × Str) LogResponse :=
  .ok ⟨true, 200, some (chunks, .done)⟩

-- What the events of the stream are to give: the contents of their data in the order of the events.
def chatContents (s : EventStream) : List Json :=
  (events [] s.lines).flatMap fun vs => chatData parse (Str.trim (eventData vs))

def agentEvents (s : EventStream) : List Json :=
  (events [] s.lines).flatMap fun vs => agentData parse (Str.trim (eventData vs))

def ChatLossless (s : EventStream) : Prop :=
  ∀ chunks, s.SentAs chunks.flatten →
    streamChat parse (streamed chunks) = ⟨chatContents parse s, .ok ()⟩

def AgentLossless (s : EventStream) : Prop :=
  ∀ chunks, s.SentAs chunks.flatten →
    streamAgentSession parse (streamed chunks) = ⟨agentEvents parse s, .ok ()⟩

-- Whether the reader takes the line for one of data.
def spaced (l : Line) : Bool :=
  (str "data: ").isPrefixOf l.text

def lineContents (l : Line) : List Json :=
  l.data?.toList.flatMap fun v => chatData parse (Str.trim v)

-- The data lines of an event have its contents one by one. Those with contents have the blank after
-- the colon, and an empty line with a bare line feed comes after them.
structure ChatKept (s : EventStream) : Prop where
  apart  : ∀ vs ∈ events [] s.lines, chatData parse (Str.trim (eventData vs)) =
    vs.flatMap fun v => chatData parse (Str.trim v)
  spaced : ∀ b ∈ s.framed, ∀ l ∈ b, lineContents parse l ≠ [] → spaced l
  closed : ∀ l ∈ s.unframed, lineContents parse l = []

def Shows (vs : List Str) : Prop :=
  Str.trim (eventData vs) ≠ []

instance : DecidablePred Shows :=
  fun vs => inferInstanceAs (Decidable (Str.trim (eventData vs) ≠ []))

-- No two events with data in a row without an empty line with a bare line feed between them, and such
-- a line after the last one. The lines of an event that begin with `data` and a blank, as they are
-- between two line feeds, are read as the data of the event.
structure AgentKept (s : EventStream) : Prop where
  apart  : ∀ b ∈ s.framed, ((events [] b).filter Shows).length ≤ 1
  spaced : ∀ b ∈ s.framed, ∀ vs ∈ events [] b, Shows vs →
    agentData parse (Str.trim (frameData (b.map Line.raw))) = agentData parse (Str.trim (eventData vs))
  closed : ∀ vs ∈ events [] s.unframed, ¬Shows vs

-- Each event has at most one line with data.
def OneLine (s : EventStream) : Prop :=
  ∀ vs ∈ events [] s.lines, (vs.filter fun v => Str.trim v ≠ []).length ≤ 1

def hasData (l : Line) : Bool :=
  l.data?.any (Str.trim · ≠ [])

-- For events of one line: at most one line with data between two empty lines with a bare line feed, and
-- such a line after the last one. All of them have the blank after the colon.
structure Plain (s : EventStream) : Prop where
  apart  : ∀ b ∈ s.framed, (b.filter hasData).length ≤ 1
  spaced : ∀ b ∈ s.framed, ∀ l ∈ b, hasData l → spaced l
  closed : ∀ l ∈ s.unframed, ¬hasData l

section Trim

variable {v w : Str}

theorem trim_eq_nil : Str.trim v = [] ↔ ∀ c ∈ v, isSpace c := by
  rw [Str.trim, List.rdropWhile_eq_nil_iff]
  constructor
  case mp =>
    intro h
    rw [← List.dropWhile_eq_nil_iff]
    by_contra hn
    have hf := List.head_dropWhile_not isSpace hn
    rw [h _ (List.head_mem hn)] at hf
    cases hf
  case mpr => exact fun h c hc => h c ((List.dropWhile_sublist _).subset hc)

theorem trim_append_left (h : Str.trim w = []) : Str.trim (w ++ v) = Str.trim v := by
  rw [Str.trim, List.dropWhile_append_of_pos (trim_eq_nil.mp h), Str.trim]

theorem trim_append_right (h : Str.trim w = []) : Str.trim (v ++ w) = Str.trim v := by
  have hw := trim_eq_nil.mp h
  by_cases hv : Str.trim v = []
  case pos => rw [trim_append_left hv, h, hv]
  case neg =>
    have hd : v.dropWhile isSpace ≠ [] := by
      intro hn
      rw [Str.trim, hn] at hv
      exact hv rfl
    rw [Str.trim, Str.trim, List.dropWhile_append, if_neg (by simpa using hd), List.rdropWhile,
      List.reverse_append, List.dropWhile_append_of_pos (by simpa using hw), List.rdropWhile]

theorem trim_join_eq_nil {vs : List Str} :
    Str.trim (Str.join vs newline) = [] ↔ ∀ v ∈ vs, Str.trim v = [] := by
  simp only [trim_eq_nil]
  induction vs
  case nil => simp [Str.join]
  case cons v vs hi =>
    cases vs
    case nil       => simp [Str.join]
    case cons w vs =>
      simp only [Str.join] at hi
      rw [Str.join, List.intercalate_cons_cons, List.forall_mem_cons, ← hi]
      simp only [List.mem_append, List.mem_singleton]
      constructor
      case mp  => exact fun h => ⟨fun c hc => h c (.inl (.inl hc)), fun c hc => h c (.inr hc)⟩
      case mpr =>
        rintro h c ((hc | rfl) | hc)
        case inl.inl => exact h.left c hc
        case inl.inr => decide
        case inr     => exact h.right c hc

-- Around one line with data, blank ones make no difference.
theorem trim_join {β : Type} {f : Str → List β} (hf : f [] = []) {vs : List Str}
    (h : (vs.filter fun v => Str.trim v ≠ []).length ≤ 1) :
    f (Str.trim (Str.join vs newline)) = vs.flatMap fun v => f (Str.trim v) := by
  induction vs
  case nil => exact hf
  case cons v vs hi =>
    cases vs
    case nil       => simp [Str.join]
    case cons w vs =>
      have hj : Str.join (v :: w :: vs) newline = v ++ ([newline] ++ Str.join (w :: vs) newline) := by
        rw [Str.join, List.intercalate_cons_cons, List.append_assoc, Str.join]
      have hnl : Str.trim [newline] = [] := by decide
      rw [hj, List.flatMap_cons]
      by_cases hv : Str.trim v = []
      case pos =>
        rw [List.filter_cons_of_neg (by simpa using hv)] at h
        rw [trim_append_left hv, trim_append_left hnl, hi h, hv, hf, List.nil_append]
      case neg =>
        rw [List.filter_cons_of_pos (by simpa using hv), List.length_cons] at h
        have he : (w :: vs).filter (fun v => Str.trim v ≠ []) = [] :=
          List.eq_nil_of_length_eq_zero (by omega)
        have hb : ∀ u ∈ w :: vs, Str.trim u = [] := by simpa using he
        have hr : Str.trim ([newline] ++ Str.join (w :: vs) newline) = [] := by
          rw [trim_append_left hnl]
          exact trim_join_eq_nil.mpr hb
        have hn : ((w :: vs).flatMap fun u => f (Str.trim u)) = [] :=
          List.flatMap_eq_nil_iff.mpr fun u hu => by rw [hb u hu, hf]
        rw [trim_append_right hr, hn, List.append_nil]

end Trim

section Reading

variable {parse} {onFrame : Str → List Json} {s : EventStream} {l : Line} {b : List Line}

-- The frames of all that has been received, in whichever chunks.
theorem readChunks_eq {buf : Str} (hb : frames blankLine_ne_nil buf = ([], buf))
    (d : TextDecoder) (chunks : List Go.Str) :
    readChunks onFrame d buf chunks .done =
      ⟨(frames blankLine_ne_nil (buf ++ (d.decode chunks.flatten).2)).1.flatMap onFrame,
        .ok ()⟩ := by
  induction chunks generalizing d buf
  case nil => simp [readChunks, TextDecoder.decode, hb]
  case cons value chunks hi =>
    rw [readChunks, hi (frames_rest _ _), List.flatten_cons, TextDecoder.decode_append,
      ← List.append_assoc, frames_append _ (buf ++ (d.decode value).2), List.flatMap_append]

theorem readChunks_sentAs {chunks : List Go.Str} (h : s.SentAs chunks.flatten) :
    readChunks onFrame .new [] chunks .done =
      ⟨s.framed.flatMap fun b => onFrame (Str.join (b.map Line.raw) newline), .ok ()⟩ := by
  have ha : Apart newline (unlines newline Line.raw []) := List.isChain_nil
  have hf : (frames blankLine_ne_nil (unlines newline Line.raw s.lines)).1 =
      s.framed.map fun b => Str.join (b.map Line.raw) newline :=
    frames_unlines blankLine_ne_nil (fun l hl => newline_raw (s.breaks l hl).left) ha
  rw [readChunks_eq (frames_none rfl), List.nil_append, h, text, hf, List.flatMap_map]

theorem split_block (h : b ∈ s.framed) :
    Str.split (Str.join (b.map Line.raw) newline) newline = b.map Line.raw := by
  obtain ⟨hn, hl⟩ := blocks_mem h
  apply List.splitOn_intercalate
  case hx  =>
    intro r hr
    obtain ⟨l, hm, he⟩ := List.mem_map.mp hr
    rw [← he]
    exact newline_raw (s.breaks l (hl l hm)).left
  case hls => simpa using hn

theorem streamChat_sentAs {chunks : List Go.Str} (h : s.SentAs chunks.flatten) :
    streamChat parse (streamed chunks) =
      ⟨s.framed.flatMap fun b => b.flatMap fun l => chatLine parse l.raw, .ok ()⟩ := by
  have hf : ∀ b ∈ s.framed, chatFrame parse (Str.join (b.map Line.raw) newline) =
      b.flatMap fun l => chatLine parse l.raw := by
    intro b hb
    rw [chatFrame, split_block hb, List.flatMap_map]
  exact (readChunks_sentAs h).trans (by rw [List.flatMap_congr hf])

theorem streamAgentSession_sentAs {chunks : List Go.Str} (h : s.SentAs chunks.flatten) :
    streamAgentSession parse (streamed chunks) =
      ⟨s.framed.flatMap fun b => agentData parse (Str.trim (frameData (b.map Line.raw))), .ok ()⟩ := by
  have hf : ∀ b ∈ s.framed, agentFrame parse (Str.join (b.map Line.raw) newline) =
      agentData parse (Str.trim (frameData (b.map Line.raw))) := by
    intro b hb
    rw [agentFrame, split_block hb]
  exact (readChunks_sentAs h).trans (by rw [List.flatMap_congr hf])

-- A line that is taken for one of data is one, and only its end is different.
theorem data?_spaced (h : spaced l) : l.data? = some (l.text.drop 6) := by
  have hp : str "data: " <+: l.text := by simpa [spaced] using h
  have hd : str "data:" <+: l.text := (List.prefix_append (str "data:") [32]).trans hp
  simp [Line.data?, List.isPrefixOf_iff_prefix.mpr hp, List.isPrefixOf_iff_prefix.mpr hd]

theorem prefix_raw : (str "data: ").isPrefixOf l.raw = spaced l := by
  rw [Line.raw]
  split
  case isFalse => rfl
  case isTrue  =>
    rw [Bool.eq_iff_iff, spaced, List.isPrefixOf_iff_prefix, List.isPrefixOf_iff_prefix]
    constructor
    case mpr => exact fun h => h.trans (List.prefix_append ..)
    case mp  =>
      intro h
      cases (List.prefix_concat_iff.mp h)
      case inl he =>
        have hl := congrArg List.getLast? he
        simp [str, carriageReturn] at hl
      case inr hp => exact hp

theorem trim_raw (h : spaced l) : Str.trim (l.raw.drop 6) = Str.trim (l.text.drop 6) := by
  have hp : str "data: " <+: l.text := by simpa [spaced] using h
  have hle : 6 ≤ l.text.length := hp.length_le
  rw [Line.raw]
  split
  case isFalse => rfl
  case isTrue  =>
    rw [List.drop_append_of_le_length hle]
    exact trim_append_right (by decide)

theorem chatLine_raw : chatLine parse l.raw = if spaced l then lineContents parse l else [] := by
  rw [chatLine, prefix_raw]
  split
  case isFalse  => rfl
  case isTrue h => simp [lineContents, data?_spaced h, trim_raw h]

theorem exists_chunks (s : EventStream) : ∃ chunks : List Go.Str, s.SentAs chunks.flatten := by
  obtain ⟨bytes, hs⟩ := exists_sentAs s
  exact ⟨[bytes], by simpa using hs⟩

-- One way of sending a stream tells about all.
theorem chatLossless_eq : ChatLossless parse s ↔
    (s.framed.flatMap fun b => b.flatMap fun l => chatLine parse l.raw) = chatContents parse s := by
  constructor
  case mp =>
    intro h
    obtain ⟨chunks, hs⟩ := exists_chunks s
    exact congrArg Streamed.given ((streamChat_sentAs hs).symm.trans (h chunks hs))
  case mpr =>
    intro h chunks hs
    rw [streamChat_sentAs hs, h]

theorem agentLossless_eq : AgentLossless parse s ↔
    (s.framed.flatMap fun b => agentData parse (Str.trim (frameData (b.map Line.raw)))) =
      agentEvents parse s := by
  constructor
  case mp =>
    intro h
    obtain ⟨chunks, hs⟩ := exists_chunks s
    exact congrArg Streamed.given ((streamAgentSession_sentAs hs).symm.trans (h chunks hs))
  case mpr =>
    intro h chunks hs
    rw [streamAgentSession_sentAs hs, h]

theorem lineContents_blank (h : l.raw = []) : lineContents parse l = [] := by
  have hd : l.data? = none := by
    rw [Line.data?, raw_eq_nil h]
    decide
  rw [lineContents, hd]
  rfl

theorem chatContents_eq (ha : ∀ vs ∈ events [] s.lines, chatData parse (Str.trim (eventData vs)) =
    vs.flatMap fun v => chatData parse (Str.trim v)) :
    chatContents parse s = (s.framed.flatMap fun b => b.flatMap (lineContents parse)) ++
      s.unframed.flatMap (lineContents parse) := by
  have hb : s.lines.flatMap (lineContents parse) =
      (s.framed.flatMap fun b => b.flatMap (lineContents parse)) ++
        s.unframed.flatMap (lineContents parse) :=
    blocks_flatMap (f := List.flatMap (lineContents parse))
      (fun p l ls h => by simp [lineContents_blank h]) [] s.lines
  rw [← hb, chatContents, List.flatMap_congr ha, ← List.flatMap_assoc, List.flatMap_id',
    events_flatten, List.nil_append, List.flatMap_assoc]
  rfl

theorem chatLossless_iff (ha : ∀ vs ∈ events [] s.lines, chatData parse (Str.trim (eventData vs)) =
    vs.flatMap fun v => chatData parse (Str.trim v)) :
    ChatLossless parse s ↔ ChatKept parse s := by
  have hline : ∀ l : Line, (chatLine parse l.raw).length ≤ (lineContents parse l).length := by
    intro l
    rw [chatLine_raw]
    split
    case isTrue  => exact Nat.le_refl _
    case isFalse => exact Nat.zero_le _
  have hkept : ∀ l : Line, chatLine parse l.raw = lineContents parse l ↔
      (lineContents parse l ≠ [] → spaced l) := by
    intro l
    rw [chatLine_raw]
    split
    case isTrue h  => simp [h]
    case isFalse h =>
      rw [eq_comm]
      simp [h]
  have hblock : ∀ b : List Line, (b.flatMap fun l => chatLine parse l.raw) =
      b.flatMap (lineContents parse) ↔ ∀ l ∈ b, lineContents parse l ≠ [] → spaced l := by
    intro b
    have he := flatMap_eq_iff (l := b) (t := []) fun l _ => hline l
    simpa [hkept] using he
  have hlength : ∀ b ∈ s.framed, (b.flatMap fun l => chatLine parse l.raw).length ≤
      (b.flatMap (lineContents parse)).length :=
    fun b _ => flatMap_length_le fun l _ => hline l
  rw [chatLossless_eq, chatContents_eq ha, flatMap_eq_iff hlength, List.flatMap_eq_nil_iff]
  simp only [hblock]
  constructor
  case mp  => exact fun h => ⟨ha, h.left, h.right⟩
  case mpr => exact fun h => ⟨h.spaced, h.closed⟩

end Reading

section Events

variable {parse} {s : EventStream} {b : List Line} {es : List (List Str)} {vs : List Str} {data : Str}

def eventOf (parse : Str → Option Json) (vs : List Str) : List Json :=
  agentData parse (Str.trim (eventData vs))

theorem agentData_eq_nil : agentData parse data = [] ↔ data = [] := by
  rw [agentData]
  split
  case isTrue h  => simp [h]
  case isFalse h => split <;> simp [h]

theorem agentData_length_le : (agentData parse data).length ≤ 1 := by
  rw [agentData]
  split
  case isTrue  => exact Nat.zero_le _
  case isFalse => split <;> exact Nat.le_refl _

theorem eventOf_length (parse : Str → Option Json) (es : List (List Str)) :
    (es.flatMap (eventOf parse)).length = (es.filter Shows).length := by
  induction es
  case nil => rfl
  case cons vs es hi =>
    rw [List.flatMap_cons, List.length_append, hi, List.filter_cons]
    by_cases hs : Shows vs
    case neg =>
      have he : eventOf parse vs = [] := agentData_eq_nil.mpr (Classical.not_not.mp hs)
      simp [hs, he]
    case pos =>
      have he : eventOf parse vs ≠ [] := fun he => hs (agentData_eq_nil.mp he)
      have hl : (eventOf parse vs).length = 1 :=
        Nat.le_antisymm agentData_length_le (List.length_pos_of_ne_nil he)
      simp [hs, hl, Nat.add_comm]

theorem eventOf_none : es.flatMap (eventOf parse) = [] ↔ ∀ vs ∈ es, ¬Shows vs := by
  rw [List.flatMap_eq_nil_iff]
  simp only [eventOf, agentData_eq_nil, Shows, Classical.not_not]

theorem eventOf_one (h : (es.filter Shows).length ≤ 1) (hm : vs ∈ es) (hs : Shows vs) :
    es.flatMap (eventOf parse) = eventOf parse vs := by
  induction es
  case nil => cases hm
  case cons us es hi =>
    rw [List.filter_cons] at h
    rw [List.flatMap_cons]
    cases hm
    case head =>
      rw [if_pos (by simpa using hs), List.length_cons] at h
      have hn : es.flatMap (eventOf parse) = [] := by
        apply List.eq_nil_of_length_eq_zero
        rw [eventOf_length]
        omega
      rw [hn, List.append_nil]
    case tail hm =>
      have hpos : 0 < (es.filter Shows).length :=
        List.length_pos_of_mem (List.mem_filter.mpr ⟨hm, by simpa using hs⟩)
      have hu : ¬Shows us := by
        intro hu
        rw [if_pos (by simpa using hu), List.length_cons] at h
        omega
      rw [if_neg (by simpa using hu)] at h
      have he : eventOf parse us = [] := agentData_eq_nil.mpr (Classical.not_not.mp hu)
      rw [he, List.nil_append, hi h hm]

-- What is read of a block is in one of its events.
theorem frameData_none (h : ∀ vs ∈ events [] b, ¬Shows vs) :
    Str.trim (frameData (b.map Line.raw)) = [] := by
  apply trim_join_eq_nil.mpr
  intro w hw
  obtain ⟨r, hr, he⟩ := List.mem_map.mp hw
  obtain ⟨hr, hp⟩ := List.mem_filter.mp hr
  obtain ⟨l, hl, rfl⟩ := List.mem_map.mp hr
  rw [prefix_raw] at hp
  have hd : l.text.drop 6 ∈ (events [] b).flatten := by
    rw [events_flatten, List.nil_append, List.mem_flatMap]
    exact ⟨l, hl, by simp [data?_spaced hp]⟩
  obtain ⟨vs, hvs, hv⟩ := List.mem_flatten.mp hd
  have hn : Str.trim (eventData vs) = [] := Classical.not_not.mp (h vs hvs)
  rw [← he, trim_raw hp]
  exact trim_join_eq_nil.mp hn _ hv

-- A block is read as its events are.
theorem block_iff : agentData parse (Str.trim (frameData (b.map Line.raw))) =
    (events [] b).flatMap (eventOf parse) ↔
    ((events [] b).filter Shows).length ≤ 1 ∧ ∀ vs ∈ events [] b, Shows vs →
      agentData parse (Str.trim (frameData (b.map Line.raw))) = eventOf parse vs := by
  constructor
  case mp =>
    intro h
    have hl : ((events [] b).filter Shows).length ≤ 1 := by
      rw [← eventOf_length parse, ← h]
      exact agentData_length_le
    exact ⟨hl, fun vs hm hs => h.trans (eventOf_one hl hm hs)⟩
  case mpr =>
    intro h
    by_cases hn : ∀ vs ∈ events [] b, ¬Shows vs
    case pos => rw [eventOf_none.mpr hn, agentData_eq_nil.mpr (frameData_none hn)]
    case neg =>
      obtain ⟨vs, hm, hs⟩ : ∃ vs ∈ events [] b, Shows vs := by simpa using hn
      rw [h.right vs hm hs, eventOf_one h.left hm hs]

theorem block_length_le : (agentData parse (Str.trim (frameData (b.map Line.raw)))).length ≤
    ((events [] b).flatMap (eventOf parse)).length := by
  by_cases hn : ∀ vs ∈ events [] b, ¬Shows vs
  case pos => simp [agentData_eq_nil.mpr (frameData_none hn)]
  case neg =>
    have he : (events [] b).flatMap (eventOf parse) ≠ [] := fun he => hn (eventOf_none.mp he)
    exact agentData_length_le.trans (List.length_pos_of_ne_nil he)

theorem agentLossless_iff : AgentLossless parse s ↔ AgentKept parse s := by
  have he : agentEvents parse s = (s.framed.flatMap fun b => (events [] b).flatMap (eventOf parse)) ++
      (events [] s.unframed).flatMap (eventOf parse) :=
    blocks_flatMap (f := fun ls => (events [] ls).flatMap (eventOf parse))
      (fun p l ls h => by simp [events_append (raw_eq_nil h)]) [] s.lines
  rw [agentLossless_eq, he, flatMap_eq_iff fun b _ => block_length_le, eventOf_none]
  simp only [block_iff]
  constructor
  case mp  => exact fun h => ⟨fun b hb => (h.left b hb).left, fun b hb => (h.left b hb).right, h.right⟩
  case mpr => exact fun h => ⟨fun b hb => ⟨h.apart b hb, h.spaced b hb⟩, h.closed⟩

end Events

section OneLine

variable {parse} {s : EventStream} {b : List Line} {es : List (List Str)}

def IsOneLine (vs : List Str) : Prop :=
  (vs.filter fun v => Str.trim v ≠ []).length ≤ 1

-- The events of a stream are those of its blocks and those after them.
theorem events_blocks (s : EventStream) :
    events [] s.lines = s.framed.flatMap (events []) ++ events [] s.unframed :=
  blocks_flatMap (fun p _ ls h => events_append (raw_eq_nil h) [] p ls) [] s.lines

theorem hasData_filter : (b.filter hasData).length =
    ((events [] b).flatten.filter fun v => Str.trim v ≠ []).length := by
  rw [events_flatten, List.nil_append]
  induction b
  case nil => rfl
  case cons l b hi =>
    rw [List.flatMap_cons, List.filter_append, List.length_append, ← hi, List.filter_cons, hasData]
    cases l.data?
    case none   => simp
    case some v => by_cases hv : Str.trim v = [] <;> simp [hv, Nat.add_comm]

theorem flatten_filter (h : ∀ vs ∈ es, IsOneLine vs) :
    (es.flatten.filter fun v => Str.trim v ≠ []).length = (es.filter Shows).length := by
  induction es
  case nil => rfl
  case cons vs es hi =>
    have hvs := h vs (.head _)
    rw [List.flatten_cons, List.filter_append, List.length_append, hi fun us hu => h us (.tail _ hu),
      List.filter_cons]
    by_cases hs : Shows vs
    case neg =>
      have hn : ∀ v ∈ vs, Str.trim v = [] := trim_join_eq_nil.mp (Classical.not_not.mp hs)
      have he : vs.filter (fun v => Str.trim v ≠ []) = [] := by simpa using hn
      rw [he, if_neg (by simpa using hs)]
      exact Nat.zero_add _
    case pos =>
      have he : vs.filter (fun v => Str.trim v ≠ []) ≠ [] := by
        intro he
        have hn : ∀ v ∈ vs, Str.trim v = [] := by simpa using he
        exact hs (trim_join_eq_nil.mpr hn)
      have hl : (vs.filter fun v => Str.trim v ≠ []).length = 1 :=
        Nat.le_antisymm hvs (List.length_pos_of_ne_nil he)
      rw [hl, if_pos (by simpa using hs), List.length_cons, Nat.add_comm]

theorem shows_iff (h : ∀ vs ∈ events [] b, IsOneLine vs) :
    ((events [] b).filter Shows).length = (b.filter hasData).length := by
  rw [hasData_filter, flatten_filter h]

-- Both the events and what is read are the data lines of the block, one by one.
theorem eventOf_lines (h : ∀ vs ∈ events [] b, IsOneLine vs) : (events [] b).flatMap (eventOf parse) =
    b.flatMap fun l => l.data?.toList.flatMap fun v => agentData parse (Str.trim v) := by
  have hf : agentData parse [] = [] := agentData_eq_nil.mpr rfl
  have he : ∀ vs ∈ events [] b, eventOf parse vs = vs.flatMap fun v => agentData parse (Str.trim v) :=
    fun vs hvs => trim_join hf (h vs hvs)
  rw [List.flatMap_congr he, ← List.flatMap_assoc, List.flatMap_id', events_flatten, List.nil_append,
    List.flatMap_assoc]

theorem frameData_lines (hl : (b.filter hasData).length ≤ 1) (hs : ∀ l ∈ b, hasData l → spaced l) :
    agentData parse (Str.trim (frameData (b.map Line.raw))) =
      b.flatMap fun l => l.data?.toList.flatMap fun v => agentData parse (Str.trim v) := by
  have hf : agentData parse [] = [] := agentData_eq_nil.mpr rfl
  have hp : ((b.map Line.raw).filter (str "data: ").isPrefixOf).map (·.drop 6) =
      (b.filter spaced).map fun l => l.raw.drop 6 := by
    have hc : (str "data: ").isPrefixOf ∘ Line.raw = spaced := funext fun l => prefix_raw
    rw [List.filter_map, hc, List.map_map]
    rfl
  have hone : (((b.filter spaced).map fun l => l.raw.drop 6).filter
      fun v => Str.trim v ≠ []).length ≤ 1 := by
    rw [List.filter_map, List.length_map, List.filter_filter]
    refine (List.Sublist.length_le (List.monotone_filter_right b fun l hd => ?_)).trans hl
    obtain ⟨hv, hsp⟩ := Bool.and_eq_true_iff.mp hd
    rw [hasData, data?_spaced hsp]
    simpa [trim_raw hsp] using hv
  have hread : ∀ l ∈ b, (if spaced l then agentData parse (Str.trim (l.raw.drop 6)) else []) =
      l.data?.toList.flatMap fun v => agentData parse (Str.trim v) := by
    intro l hm
    split
    case isTrue hsp  => simp [trim_raw hsp, data?_spaced hsp]
    case isFalse hsp =>
      have hd : ¬hasData l := fun hd => hsp (hs l hm hd)
      rw [hasData] at hd
      cases hv : l.data?
      case none   => rfl
      case some v =>
        have ht : Str.trim v = [] := by simpa [hv] using hd
        simp [ht, hf]
  rw [frameData, hp, trim_join hf hone, List.flatMap_map, ← List.flatMap_congr hread]
  clear hone hread hs hl hp
  induction b
  case nil => rfl
  case cons l b hi =>
    rw [List.filter_cons, List.flatMap_cons, ← hi]
    split <;> simp

theorem eq_of_filter_length_le_one {α : Type} {p : α → Bool} {l : List α} (h : (l.filter p).length ≤ 1)
    {x y : α} (hx : x ∈ l) (hy : y ∈ l) (hpx : p x) (hpy : p y) : x = y := by
  have hx : x ∈ l.filter p := List.mem_filter.mpr ⟨hx, hpx⟩
  have hy : y ∈ l.filter p := List.mem_filter.mpr ⟨hy, hpy⟩
  generalize l.filter p = q at h hx hy
  match q with
  | []  => cases hx
  | [z] => rw [List.mem_singleton.mp hx, List.mem_singleton.mp hy]

theorem hasData_iff : (∃ vs ∈ events [] b, Shows vs) ↔ ∃ l ∈ b, hasData l := by
  have hm : ∀ v, v ∈ (events [] b).flatten ↔ ∃ l ∈ b, l.data? = some v := by
    intro v
    rw [events_flatten, List.nil_append, List.mem_flatMap]
    simp
  constructor
  case mp =>
    rintro ⟨vs, hvs, hs⟩
    have hn : ¬∀ v ∈ vs, Str.trim v = [] := fun hn => hs (trim_join_eq_nil.mpr hn)
    obtain ⟨v, hv, ht⟩ : ∃ v ∈ vs, Str.trim v ≠ [] := by simpa using hn
    obtain ⟨l, hl, hd⟩ := (hm v).mp (List.mem_flatten.mpr ⟨vs, hvs, hv⟩)
    exact ⟨l, hl, by simp [hasData, hd, ht]⟩
  case mpr =>
    rintro ⟨l, hl, hd⟩
    cases hv : l.data?
    case none   => simp [hasData, hv] at hd
    case some v =>
      have ht : Str.trim v ≠ [] := by simpa [hasData, hv] using hd
      obtain ⟨vs, hvs, hmem⟩ := List.mem_flatten.mp ((hm v).mpr ⟨l, hl, hv⟩)
      exact ⟨vs, hvs, fun hn => ht (trim_join_eq_nil.mp hn v hmem)⟩

-- A block whose events are given has its line with data read.
theorem spaced_of_given (hl : (b.filter hasData).length ≤ 1)
    (hg : ∀ vs ∈ events [] b, Shows vs →
      agentData parse (Str.trim (frameData (b.map Line.raw))) = eventOf parse vs)
    {l : Line} (hm : l ∈ b) (hd : hasData l) : spaced l := by
  obtain ⟨vs, hvs, hs⟩ := hasData_iff.mpr ⟨l, hm, hd⟩
  have hne : Str.trim (frameData (b.map Line.raw)) ≠ [] := by
    intro hn
    have he := hg vs hvs hs
    rw [hn, agentData_eq_nil.mpr rfl] at he
    exact hs (agentData_eq_nil.mp he.symm)
  by_contra hsp
  apply hne
  apply trim_join_eq_nil.mpr
  intro w hw
  obtain ⟨r, hr, he⟩ := List.mem_map.mp hw
  obtain ⟨hr, hp⟩ := List.mem_filter.mp hr
  obtain ⟨m, hmb, rfl⟩ := List.mem_map.mp hr
  rw [prefix_raw] at hp
  rw [← he, trim_raw hp]
  by_contra hv
  have hmd : hasData m := by simpa [hasData, data?_spaced hp] using hv
  exact hsp (eq_of_filter_length_le_one hl hm hmb hd hmd ▸ hp)

theorem chatData_oneLine (h : OneLine s) : ∀ vs ∈ events [] s.lines,
    chatData parse (Str.trim (eventData vs)) = vs.flatMap fun v => chatData parse (Str.trim v) := by
  have hf : chatData parse [] = [] := if_pos (.inl rfl)
  exact fun vs hvs => trim_join hf (h vs hvs)

theorem lineContents_none {l : Line} (h : ¬hasData l) : lineContents parse l = [] := by
  have hf : chatData parse [] = [] := if_pos (.inl rfl)
  rw [hasData] at h
  rw [lineContents]
  cases hv : l.data?
  case none   => rfl
  case some v =>
    have ht : Str.trim v = [] := by simpa [hv] using h
    simp [ht, hf]

theorem Plain.chatKept (h : OneLine s) (hp : Plain s) : ChatKept parse s where
  apart            := chatData_oneLine h
  spaced b hb l hl := fun hc => hp.spaced b hb l hl (Classical.byContradiction fun hd =>
    hc (lineContents_none hd))
  closed l hl      := lineContents_none (hp.closed l hl)

theorem agentKept_iff (h : OneLine s) : AgentKept parse s ↔ Plain s := by
  have hb : ∀ b ∈ s.framed, ∀ vs ∈ events [] b, IsOneLine vs := by
    intro b hb vs hvs
    apply h
    rw [events_blocks]
    exact List.mem_append_left _ (List.mem_flatMap.mpr ⟨b, hb, hvs⟩)
  have hclosed : (∀ vs ∈ events [] s.unframed, ¬Shows vs) ↔ ∀ l ∈ s.unframed, ¬hasData l := by
    have hd := not_congr (hasData_iff (b := s.unframed))
    simpa using hd
  constructor
  case mp =>
    intro hk
    have hl : ∀ b ∈ s.framed, (b.filter hasData).length ≤ 1 :=
      fun b hm => shows_iff (hb b hm) ▸ hk.apart b hm
    exact ⟨hl, fun b hm l => spaced_of_given (hl b hm) (hk.spaced b hm), hclosed.mp hk.closed⟩
  case mpr =>
    intro hp
    have hr : ∀ b ∈ s.framed, agentData parse (Str.trim (frameData (b.map Line.raw))) =
        (events [] b).flatMap (eventOf parse) :=
      fun b hm => (frameData_lines (hp.apart b hm) (hp.spaced b hm)).trans
        (eventOf_lines (hb b hm)).symm
    exact ⟨fun b hm => (block_iff.mp (hr b hm)).left, fun b hm => (block_iff.mp (hr b hm)).right,
      hclosed.mpr hp.closed⟩

end OneLine

-- Both readers give what the events of a stream are, in whichever chunks it arrives, if it has the form
-- that they read, and only then if each of its events has one line.
theorem streams_lossless_iff (s : EventStream) :
    (ChatKept parse s → ChatLossless parse s) ∧ (AgentLossless parse s ↔ AgentKept parse s) ∧
    (OneLine s → (ChatLossless parse s ↔ ChatKept parse s) ∧ (AgentLossless parse s ↔ Plain s)) := by
  refine ⟨fun hk => (chatLossless_iff hk.apart).mpr hk, agentLossless_iff, fun h => ⟨?_, ?_⟩⟩
  case refine_1 => exact chatLossless_iff (chatData_oneLine h)
  case refine_2 => exact agentLossless_iff.trans (agentKept_iff h)

-- One event, with line feeds and a blank after the colon, or with other ends of its lines.
def greeting (crlf : Bool) : EventStream where
  lines   := [⟨str "data: hi", crlf⟩, ⟨[], crlf⟩]
  breaks  := by
    intro l hl
    cases crlf
    all_goals
      revert l
      decide
  spelled := by
    intro l hl
    obtain rfl | hl := List.mem_cons.mp hl
    case inl => exact ⟨"data: hi".toList, rfl⟩
    case inr =>
      rw [List.mem_singleton.mp hl]
      exact ⟨[], rfl⟩

theorem streams_lossless_greeting : ChatLossless (fun _ => none) (greeting false) ∧
    AgentLossless (fun _ => none) (greeting false) := by
  have h := streams_lossless_iff (fun _ => none) (greeting false)
  have hone : OneLine (greeting false) := by
    unfold OneLine
    decide
  have hp : Plain (greeting false) := ⟨by decide, by decide, by decide⟩
  exact ⟨h.left (hp.chatKept hone), (h.right.right hone).right.mpr hp⟩

-- With other ends of the lines, it is lost.
theorem streams_lose_greeting : ¬ ∀ s : EventStream, ChatLossless (fun _ => none) s ∧
    AgentLossless (fun _ => none) s := by
  intro h
  have ha := agentLossless_eq.mp (h (greeting true)).right
  cases ha

end Console.StreamReaders
