import Knaic.Effects.Reads
import Knaic.Go.JsonAny
import Knaic.Playground.McpTools

open Go Go.JsonText Effects

namespace Playground.Mcp

-- What the standard library makes of numbers and of errors.
structure Formats extends Floats where
  error       : Error → Str
  decodeError : Option Value → Error

-- Null is what an id or an argument is that there is none of.
structure RpcRequest where
  jsonrpc : Str
  id      : Json
  method  : Str
  params  : Option Value

inductive RpcRequest.Field
  | jsonrpc | id | method | params
deriving DecidableEq

namespace RpcRequest

def Field.key : Field → Str
  | jsonrpc => str "jsonrpc"
  | id      => str "id"
  | method  => str "method"
  | params  => str "params"

def Field.all : List Field :=
  [jsonrpc, id, method, params]

def zero : RpcRequest where
  jsonrpc := []
  id      := .null
  method  := []
  params  := none

variable (lib : Formats)

def set (r : RpcRequest) (v : Value) : Field → Option RpcRequest
  | .jsonrpc => (stringOver r.jsonrpc v).map fun s => { r with jsonrpc := s }
  | .id      => (toAny lib.toFloats v).map fun j => { r with id := j }
  | .method  => (stringOver r.method v).map fun s => { r with method := s }
  | .params  => some { r with params := some v }

def unmarshal (raw : Str) : Option RpcRequest :=
  (parse raw).bind (decodeFields Field.all Field.key (set lib) zero)

end RpcRequest

structure ToolCall where
  name      : Str
  arguments : Entries Json

inductive ToolCall.Field
  | name | arguments
deriving DecidableEq

namespace ToolCall

def Field.key : Field → Str
  | name      => str "name"
  | arguments => str "arguments"

def Field.all : List Field :=
  [name, arguments]

variable (lib : Formats)

def set (c : ToolCall) (v : Value) : Field → Option ToolCall
  | .name      => (stringOver c.name v).map fun s => { c with name := s }
  | .arguments =>
    match v with
    | .object fields => (toAnyFields lib.toFloats c.arguments fields).map fun m => { c with arguments := m }
    | .null          => some { c with arguments := [] }
    | _              => none

def unmarshal (params : Option Value) : Except Error ToolCall :=
  match params.bind (decodeFields Field.all Field.key (set lib) ⟨[], []⟩) with
  | some c => .ok c
  | none   => .error (lib.decodeError params)

end ToolCall

def property (type desc : String) : Json :=
  .ofFields [("type", .string (str type)), ("description", .string (str desc))]

def stringProp (desc : String) : Json :=
  property "string" desc

def tool (name description : String) (properties : List (String × Json)) (required : List String) : Json :=
  .ofFields [
    ("name", .string (str name)),
    ("description", .string (str description)),
    ("inputSchema", .ofFields ([("type", .string (str "object")), ("properties", .ofFields properties)] ++
      if required = [] then [] else [("required", .array (required.map fun s => .string (str s)))]))
  ]

def mcpTools : Json :=
  .array [
    tool "k8s_list" "List read-only Kubernetes resources in a namespace." [
      ("resource", stringProp "Resource slug, e.g. pods, deployments, inferenceservices."),
      ("namespace", stringProp "Namespace. Defaults to selected namespace.")
    ] ["resource"],
    tool "k8s_yaml" "Fetch read-only YAML for a Kubernetes resource." [
      ("resource", stringProp "Resource slug."),
      ("namespace", stringProp "Namespace. Defaults to selected namespace."),
      ("name", stringProp "Object name.")
    ] ["resource", "name"],
    tool "pod_logs" "Fetch recent pod logs without following." [
      ("namespace", stringProp "Namespace. Defaults to selected namespace."),
      ("pod", stringProp "Pod name."),
      ("container", stringProp "Container name."),
      ("tailLines", property "number" "Number of log lines.")
    ] ["pod"],
    tool "model_search" "Search public and namespace-private model metadata." [
      ("query", stringProp "Case-insensitive search query."),
      ("namespace", stringProp "Namespace for private models.")
    ] [],
    tool "prometheus_query" "Query resource usage metrics through knaic monitoring." [
      ("scope", stringProp "cluster, namespace, node, or pod."),
      ("target", stringProp "Scope target when required."),
      ("resource", stringProp "cpu, memory, gpu, disk, or network."),
      ("kind", stringProp "usage, requests, or limits.")
    ] []
  ]

section Serving

variable (lib : Formats) (s : MCPServer)

def handle (method : Str) (params : Option Value) : Mcp.Call Json :=
  if method = str "initialize" then
    return .ofFields [
      ("protocolVersion", .string (str "2024-11-05")),
      ("capabilities", .ofFields [("tools", .object [])]),
      ("serverInfo", .ofFields [("name", .string (str "knaic-tools")), ("version", .string (str "0.1.0"))])
    ]
  else if method = str "tools/list" then
    return .ofFields [("tools", mcpTools)]
  else if method = str "tools/call" then do
    let call ← ExceptT.mk (pure (ToolCall.unmarshal lib params))
    let text ← s.callTool call.name call.arguments
    return .ofFields [("content", .array [.ofFields [("type", .string (str "text")), ("text", .string text)]])]
  else
    throw (.errorf "unsupported MCP method %q" [method])

def rpcResponse (id : Json) (r : Except Error Json) : Value :=
  .object [
    (str "jsonrpc", .string (str "2.0")),
    (str "id", ofAny lib.toFloats id),
    match r with
    | .ok result => (str "result", ofAny lib.toFloats result)
    | .error e   => (str "error", .object [(str "code", .number (str "-32000")), (str "message", .string (lib.error e))])
  ]

def frame (raw : Str) : Str :=
  str "Content-Length: " ++ decimal raw.length ++ str "\r\n\r\n" ++ raw

def writeMCPMessage (msg : Value) : Str :=
  frame (print msg)

inductive ReadError
  | eof
  | unexpectedEOF
  | missingContentLength
deriving DecidableEq

-- A line with its end, and what is left.
def readLine (r : Str) : Option (Str × Str) :=
  if 10 ∈ r then some (r.takeWhile (· ≠ 10) ++ [10], (r.dropWhile (· ≠ 10)).drop 1) else none

theorem readLine_length {r line rest : Str} (h : readLine r = some (line, rest)) : rest.length < r.length := by
  unfold readLine at h
  split at h
  case isFalse => cases h
  case isTrue hm =>
    cases h
    have hl := congrArg List.length (List.takeWhile_append_dropWhile (p := fun b : UInt8 => decide (b ≠ 10)) (l := r))
    have hn : r.dropWhile (fun b : UInt8 => decide (b ≠ 10)) ≠ [] := by
      intro hd
      exact absurd (List.dropWhile_eq_nil_iff.mp hd 10 hm) (by decide)
    have hp := List.length_pos_iff.mpr hn
    rw [List.length_append] at hl
    rw [List.length_drop]
    omega

-- `strings.EqualFold` where no letter of the other text has a fold that is not ASCII.
def isContentLength (name : Str) : Bool :=
  Str.toLower name = str "content-length"

def headerLength (contentLength : Int) (line : Str) : Int :=
  if 58 ∈ line ∧ isContentLength (Utf8.trimSpace (line.takeWhile (· ≠ 58))) then
    (Strconv.parseInt (Utf8.trimSpace ((line.dropWhile (· ≠ 58)).drop 1))).1
  else
    contentLength

def readHeaders (contentLength : Int) (r : Str) : Except ReadError (Int × Str) :=
  match _h : readLine r with
  | none              => .error .eof
  | some (line, rest) =>
    let line := Utf8.trimSpace line
    if line = [] then .ok (contentLength, rest) else readHeaders (headerLength contentLength line) rest
termination_by r.length
decreasing_by exact readLine_length _h

-- `io.ReadFull`
def readFull (n : Nat) (r : Str) : Except ReadError (Str × Str) :=
  if n ≤ r.length then .ok (r.take n, r.drop n)
  else if r = [] then .error .eof
  else .error .unexpectedEOF

def readMCPMessage (r : Str) : Except ReadError (Str × Str) :=
  match r with
  | []       => .error .eof
  | 123 :: _ =>
    match readLine r with
    | none              => .error .eof
    | some (line, rest) => .ok (Utf8.trimSpace line, rest)
  | _        =>
    match readHeaders 0 r with
    | .error e                   => .error e
    | .ok (contentLength, rest) =>
      if contentLength ≤ 0 then .error .missingContentLength else readFull contentLength.toNat rest

theorem readHeaders_length {n m : Int} {r rest : Str} (h : readHeaders n r = .ok (m, rest)) : rest.length < r.length := by
  fun_induction readHeaders n r
  case case1          => cases h
  case case2 hl _ _   => cases h; exact readLine_length hl
  case case3 hl _ _ hi => exact (hi h).trans (readLine_length hl)

-- Something is read with every message.
theorem readMCPMessage_length {r raw rest : Str} (h : readMCPMessage r = .ok (raw, rest)) : rest.length < r.length := by
  unfold readMCPMessage at h
  split at h
  case h_1 => cases h
  case h_2 =>
    split at h
    case h_1    => cases h
    case h_2 hl => cases h; exact readLine_length hl
  case h_3 =>
    split at h
    case h_1    => cases h
    case h_2 hl =>
      split at h
      case isTrue  => cases h
      case isFalse =>
        unfold readFull at h
        split at h
        case isTrue =>
          cases h
          rw [List.length_drop]
          exact (Nat.sub_le ..).trans_lt (readHeaders_length hl)
        case isFalse => split at h <;> cases h

-- `Serve`, with what has been written so far. What is read is told apart from how it is answered by nothing but the
-- end of the stream.
def serve (r out : Str) : Prog Mcp.ops (Str × Option ReadError) :=
  match _h : readMCPMessage r with
  | .error .eof      => .ret (out, none)
  | .error e         => .ret (out, some e)
  | .ok (raw, rest)  =>
    match RpcRequest.unmarshal lib raw with
    | none     => serve rest out
    | some req =>
      match req.id with
      | .null => serve rest out
      | id    =>
        Prog.bind (handle lib s req.method req.params) fun r =>
          serve rest (out ++ writeMCPMessage (rpcResponse lib id r))
termination_by r.length
decreasing_by all_goals exact readMCPMessage_length _h

-- What is read from a stream, one message after the other, until there is no other one.
def messages (r : Str) : List Str × ReadError :=
  match _h : readMCPMessage r with
  | .error e        => ([], e)
  | .ok (raw, rest) => ((raw :: (messages rest).1), (messages rest).2)
termination_by r.length
decreasing_by all_goals exact readMCPMessage_length _h

end Serving

section Frames

-- A message as it is sent: on a line of its own, or behind headers.
inductive Sent
  | line (text : Str)
  | sized (headers : List Str) (blank body : Str)

namespace Sent

def ended (line : Str) : Str :=
  line ++ [10]

def render : Sent → Str
  | line text                => ended text
  | sized headers blank body => headers.flatMap ended ++ (ended blank ++ body)

def raw : Sent → Str
  | line text    => Utf8.trimSpace (ended text)
  | sized _ _ body => body

def lengthOf (headers : List Str) (n : Int) : Int :=
  headers.foldl (fun n line => headerLength n (Utf8.trimSpace (ended line))) n

def WellFormed : Sent → Prop
  | line text                => text.head? = some 123 ∧ 10 ∉ text
  | sized headers blank body =>
    (∀ line ∈ headers, 10 ∉ line ∧ Utf8.trimSpace (ended line) ≠ []) ∧ (headers.headD []).head? ≠ some 123 ∧
      10 ∉ blank ∧ Utf8.trimSpace (ended blank) = [] ∧ lengthOf headers 0 = body.length ∧ body ≠ []

end Sent

open Sent

variable {f : Sent} {fs : List Sent} {rest tail : Str}

theorem readLine_ended {line : Str} (h : 10 ∉ line) (rest : Str) : readLine (ended line ++ rest) = some (ended line, rest) := by
  have hp : ∀ b ∈ line, decide (b ≠ 10) = true := by
    intro b hb
    exact decide_eq_true fun he => h (he ▸ hb)
  rw [readLine, ended, List.append_assoc, List.takeWhile_append_of_pos hp, List.dropWhile_append_of_pos hp]
  simp

theorem readHeaders_ended {headers : List Str} {blank : Str} (h : ∀ line ∈ headers, 10 ∉ line ∧ Utf8.trimSpace (ended line) ≠ [])
    (hb : 10 ∉ blank) (he : Utf8.trimSpace (ended blank) = []) (n : Int) (rest : Str) :
    readHeaders n (headers.flatMap ended ++ (ended blank ++ rest)) = .ok (lengthOf headers n, rest) := by
  induction headers generalizing n
  case nil               =>
    rw [List.flatMap_nil, List.nil_append, readHeaders, readLine_ended hb]
    simp [he, lengthOf]
  case cons line headers hi =>
    obtain ⟨hl, hn⟩ := h line (.head _)
    rw [List.flatMap_cons, List.append_assoc, readHeaders, readLine_ended hl]
    simp only [hn, if_false]
    exact hi (fun l hm => h l (.tail _ hm)) _

theorem head_ended {line : Str} (h : line.head? ≠ some 123) (rest : Str) : (ended line ++ rest).head? ≠ some 123 := by
  cases line
  case nil  => simp [ended]
  case cons => exact h

theorem head_blank {blank : Str} (h : Utf8.trimSpace (ended blank) = []) : blank.head? ≠ some 123 := by
  intro hb
  obtain ⟨t, rfl⟩ := List.head?_eq_some_iff.mp hb
  exact Utf8.trimSpace_ne_nil (by decide) (by decide) _ h

theorem readMCPMessage_headers {r : Str} (h : r.head? ≠ some 123) {n : Int} (hr : readHeaders 0 r = .ok (n, rest)) :
    readMCPMessage r = if n ≤ 0 then .error .missingContentLength else readFull n.toNat rest := by
  unfold readMCPMessage
  split
  case h_1   =>
    rw [readHeaders] at hr
    cases hr
  case h_2 t => exact absurd rfl h
  case h_3   => rw [hr]

-- A message is read as it was sent, whatever follows it.
theorem read_render (h : f.WellFormed) (rest : Str) : readMCPMessage (f.render ++ rest) = .ok (f.raw, rest) := by
  cases f
  case line text                =>
    obtain ⟨hh, hn⟩ := h
    obtain ⟨t, rfl⟩ := List.head?_eq_some_iff.mp hh
    have hl := readLine_ended hn rest
    simp only [ended, List.cons_append] at hl
    simp only [render, ended, List.cons_append, readMCPMessage, hl]
    rfl
  case sized headers blank body =>
    obtain ⟨hl, hh, hb, he, hn, hne⟩ := h
    have hr := readHeaders_ended hl hb he 0 (body ++ rest)
    have hf : (headers.flatMap ended ++ (ended blank ++ (body ++ rest))).head? ≠ some 123 := by
      cases headers
      case nil  => exact head_ended (head_blank he) _
      case cons =>
        rw [List.flatMap_cons, List.append_assoc]
        exact head_ended hh _
    have hp := List.length_pos_iff.mpr hne
    rw [render, List.append_assoc, List.append_assoc, readMCPMessage_headers hf hr, hn, if_neg (by omega), readFull,
      Int.toNat_natCast, if_pos (by simp), List.take_left, List.drop_left]
    rfl

-- What the server ends with: the end of the stream, a line that is not ended, which is lost, or a blank line, which is
-- taken for the end of headers.
inductive Ends : Str → Option ReadError → Prop
  | done : Ends [] none
  | unended {text : Str} (h : text.head? = some 123) (hn : 10 ∉ text) : Ends text none
  | blank {line : Str} (h : Utf8.trimSpace (ended line) = []) (hn : 10 ∉ line) (rest : Str) :
    Ends (ended line ++ rest) (some .missingContentLength)

theorem Ends.read {e : Option ReadError} (h : Ends tail e) : readMCPMessage tail = .error (e.getD .eof) := by
  cases h
  case done                 => rfl
  case unended hh hn        =>
    obtain ⟨t, rfl⟩ := List.head?_eq_some_iff.mp hh
    rw [readMCPMessage, readLine, if_neg hn]
    rfl
  case blank line h hn rest =>
    have hr : readHeaders 0 (List.flatMap ended [] ++ (ended line ++ rest)) = .ok (0, rest) :=
      readHeaders_ended (by simp) hn h 0 rest
    rw [List.flatMap_nil, List.nil_append] at hr
    rw [readMCPMessage_headers (head_ended (head_blank h) rest) hr]
    rfl

theorem messages_ok {r raw : Str} (h : readMCPMessage r = .ok (raw, rest)) :
    messages r = (raw :: (messages rest).1, (messages rest).2) := by
  rw [messages]
  split
  case h_1 he => cases h.symm.trans he
  case h_2 he =>
    cases h.symm.trans he
    rfl

theorem messages_render (h : ∀ f ∈ fs, f.WellFormed) (tail : Str) :
    messages (fs.flatMap render ++ tail) = (fs.map raw ++ (messages tail).1, (messages tail).2) := by
  induction fs
  case nil          => rfl
  case cons f fs hi =>
    rw [List.flatMap_cons, List.append_assoc, messages_ok (read_render (h f (.head _)) _),
      hi fun g hm => h g (.tail _ hm)]
    rfl

-- The message that is written is one with headers.
theorem frame_render (raw : Str) : frame raw = (sized [str "Content-Length: " ++ decimal raw.length ++ [13]] [13] raw).render := by
  have he : str "\r\n\r\n" = [13, 10, 13, 10] := by decide
  rw [frame, render, he]
  simp [ended]

-- ASCII text without spaces at its ends is what is left of it between spaces.
theorem trimSpace_ascii {front core back : Str} (hc : ∀ b ∈ core, b < 0x80)
    (hf : ∀ b ∈ front, b < 0x80 ∧ Utf8.isSpace b.toNat) (hb : ∀ b ∈ back, b < 0x80 ∧ Utf8.isSpace b.toNat)
    (hh : ∀ b ∈ core.head?, Utf8.isSpace b.toNat = false) (hl : ∀ b ∈ core.getLast?, Utf8.isSpace b.toNat = false) :
    Utf8.trimSpace (front ++ (core ++ back)) = core := by
  have ascii {w : Str} (h : ∀ b ∈ w, b < 0x80) : Utf8.pieces w = w.map fun b => .rune [b] := by
    have hp := Utf8.pieces_ascii h []
    have hn : Utf8.pieces [] = [] := rfl
    rwa [hn, List.append_nil, List.append_nil] at hp
  have spaces {w : Str} (h : ∀ b ∈ w, b < 0x80 ∧ Utf8.isSpace b.toNat) :
      ∀ p ∈ w.map fun b => Utf8.Piece.rune [b], p.isSpace :=
    List.forall_mem_map.mpr fun b hb => (h b hb).right
  have hp : Utf8.pieces (front ++ (core ++ back)) =
      front.map (fun b => .rune [b]) ++ (Utf8.pieces core ++ back.map fun b => .rune [b]) := by
    rw [Utf8.pieces_ascii fun b hm => (hf b hm).left, Utf8.pieces_ascii hc, ascii hc, ascii fun b hm => (hb b hm).left]
  rw [Utf8.trimSpace_of_pieces hp (spaces hf) (spaces hb)]
  refine Utf8.trimSpace_eq ?_ ?_
  · rw [ascii hc, List.head?_map]
    cases h : core.head?
    case none   => rfl
    case some b => exact hh b h
  · rw [Utf8.endsInSpace, ascii hc, List.getLast?_map]
    cases h : core.getLast?
    case none   => rfl
    case some b => exact hl b h

theorem decimal_plain (n : Nat) : ∀ b ∈ decimal n, b < 0x80 ∧ Utf8.isSpace b.toNat = false ∧ b ≠ 10 ∧ b ≠ 58 := by
  have hd : ∀ b : UInt8, 48 ≤ b ∧ b ≤ 57 → b < 0x80 ∧ Utf8.isSpace b.toNat = false ∧ b ≠ 10 ∧ b ≠ 58 := by
    decide +kernel
  exact fun b hb => hd b (decimal_digits b hb)

theorem frame_wellFormed {raw : Str} (hn : raw ≠ []) (hl : raw.length < 2 ^ 63) :
    (sized [str "Content-Length: " ++ decimal raw.length ++ [13]] [13] raw).WellFormed := by
  have hk : str "Content-Length: " = str "Content-Length" ++ [58, 32] := by decide
  have hd := decimal_plain raw.length
  have hp : ∀ b ∈ str "Content-Length: ", b < 0x80 ∧ b ≠ 10 := by
    have ha : (str "Content-Length: ").all fun b => b < 0x80 && b ≠ 10 := by decide
    simpa using ha
  have he : ended (str "Content-Length: " ++ decimal raw.length ++ [13]) =
      [] ++ ((str "Content-Length: " ++ decimal raw.length) ++ [13, 10]) := by
    simp [ended]
  have ht : Utf8.trimSpace (ended (str "Content-Length: " ++ decimal raw.length ++ [13])) =
      str "Content-Length: " ++ decimal raw.length := by
    rw [he]
    refine trimSpace_ascii ?_ (List.forall_mem_nil _) (by simp; decide) ?_ ?_
    · exact List.forall_mem_append.mpr ⟨fun b hb => (hp b hb).left, fun b hb => (hd b hb).left⟩
    · intro b hb
      have hc : (str "Content-Length: " ++ decimal raw.length).head? = some 67 := rfl
      rw [hc] at hb
      cases hb
      decide
    · intro b hb
      rw [List.getLast?_append_of_ne_nil _ (decimal_ne_nil _)] at hb
      exact (hd b (List.mem_of_getLast? hb)).right.left
  have hv : Utf8.trimSpace (32 :: decimal raw.length) = decimal raw.length := by
    have hv : Utf8.trimSpace ([32] ++ (decimal raw.length ++ [])) = decimal raw.length := by
      refine trimSpace_ascii (fun b hb => (hd b hb).left) (by simp; decide) (List.forall_mem_nil _) ?_ ?_
      · exact fun b hb => (hd b (List.mem_of_head? hb)).right.left
      · exact fun b hb => (hd b (List.mem_of_getLast? hb)).right.left
    rwa [List.append_nil, List.singleton_append] at hv
  have hc : headerLength 0 (str "Content-Length: " ++ decimal raw.length) = raw.length := by
    have ha : str "Content-Length: " ++ decimal raw.length = str "Content-Length" ++ 58 :: 32 :: decimal raw.length := by
      rw [hk, List.append_assoc]
      rfl
    obtain ⟨h₁, h₂⟩ := Url.cut_at (a := str "Content-Length") (c := 58) (by decide) (32 :: decimal raw.length)
    have hn : isContentLength (Utf8.trimSpace (str "Content-Length")) := by decide
    rw [ha, headerLength, h₁, h₂, if_pos ⟨by simp, hn⟩, List.drop_one, List.tail_cons, hv, Strconv.parseInt_decimal hl]
  have hh : (str "Content-Length: " ++ decimal raw.length ++ [13]).head? = some 67 := rfl
  refine ⟨?_, by rw [List.headD_cons, hh]; decide, by decide, by decide, ?_, hn⟩
  · refine List.forall_mem_singleton.mpr ⟨?_, ?_⟩
    · simp only [List.mem_append, List.mem_singleton, not_or]
      exact ⟨⟨fun h => (hp 10 h).right rfl, fun h => (hd 10 h).right.right.left rfl⟩, by decide⟩
    · rw [ht]
      simp [str]
  · rw [lengthOf, List.foldl_cons, ht, hc, List.foldl_nil]

-- What was written is read, one message after the other.
theorem messages_written {vs : List Value} (h : ∀ v ∈ vs, print v ≠ [] ∧ (print v).length < 2 ^ 63) :
    messages (vs.flatMap writeMCPMessage) = (vs.map print, .eof) := by
  let behind (v : Value) : Sent :=
    sized [str "Content-Length: " ++ decimal (print v).length ++ [13]] [13] (print v)
  have hw : ∀ f ∈ vs.map behind, f.WellFormed :=
    List.forall_mem_map.mpr fun v hv => frame_wellFormed (h v hv).left (h v hv).right
  have hr := messages_render hw []
  have hf : (vs.map behind).flatMap render = vs.flatMap writeMCPMessage := by
    rw [List.flatMap_map]
    exact List.flatMap_congr fun v _ => (frame_render (print v)).symm
  have he : messages [] = ([], .eof) := by
    rw [messages]
    rfl
  rw [List.append_nil, hf, he, List.append_nil, List.map_map] at hr
  exact hr

end Frames

-- What is written is nested no deeper than what was read.
section Readable

variable {lib : Formats} {n : Nat}

theorem ofAnyFields_set {m : Entries Json} {k : Str} {j : Json} (hm : FieldsReadable n (ofAnyFields lib.toFloats m))
    (hj : (ofAny lib.toFloats j).Readable n) : FieldsReadable n (ofAnyFields lib.toFloats (m.set k j)) := by
  induction m
  case nil         => exact ⟨hj, trivial⟩
  case cons e m hi =>
    rw [Entries.set]
    split
    case isTrue  => exact ⟨hj, hm⟩
    case isFalse =>
      split
      case isTrue  => exact ⟨hj, hm.right⟩
      case isFalse => exact ⟨hm.left, hi hm.right⟩

theorem ofFields_readable {l : List (String × Json)} (hn : n < maxNestingDepth)
    (h : ∀ e ∈ l, (ofAny lib.toFloats e.2).Readable (n + 1)) : (ofAny lib.toFloats (.ofFields l)).Readable n := by
  have hf (l : List (String × Json)) (m : Entries Json) (hm : FieldsReadable (n + 1) (ofAnyFields lib.toFloats m))
      (h : ∀ e ∈ l, (ofAny lib.toFloats e.2).Readable (n + 1)) :
      FieldsReadable (n + 1) (ofAnyFields lib.toFloats (l.foldl (fun o e => Entries.set o (str e.1) e.2) m)) := by
    induction l generalizing m
    case nil         => exact hm
    case cons e l hi => exact hi _ (ofAnyFields_set hm (h e (.head _))) fun f hf => h f (.tail _ hf)
  exact ⟨hn, hf l [] trivial h⟩

theorem array_readable {l : List Json} (hn : n < maxNestingDepth) (h : ∀ j ∈ l, (ofAny lib.toFloats j).Readable (n + 1)) :
    (ofAny lib.toFloats (.array l)).Readable n := by
  have hl (l : List Json) (h : ∀ j ∈ l, (ofAny lib.toFloats j).Readable (n + 1)) : AllReadable (n + 1) (ofAnyAll lib.toFloats l) := by
    induction l
    case nil         => trivial
    case cons j l hi => exact ⟨h j (.head _), hi fun j hm => h j (.tail _ hm)⟩
  exact ⟨hn, hl l h⟩

theorem set_read (hl : lib.Exact) {r r' : RpcRequest} {v : Value} {f : RpcRequest.Field} (h : r.set lib v f = some r')
    (hr : (ofAny lib.toFloats r.id).Read n) (hv : v.Read n) : (ofAny lib.toFloats r'.id).Read n := by
  cases f
  case jsonrpc =>
    obtain ⟨s, _, rfl⟩ := Option.map_eq_some_iff.mp h
    exact hr
  case id      =>
    obtain ⟨j, hj, rfl⟩ := Option.map_eq_some_iff.mp h
    exact toAny_read hl n v j hj hv
  case method  =>
    obtain ⟨s, _, rfl⟩ := Option.map_eq_some_iff.mp h
    exact hr
  case params  =>
    cases h
    exact hr

theorem id_read (hl : lib.Exact) {raw : Str} {req : RpcRequest} (h : RpcRequest.unmarshal lib raw = some req) :
    (ofAny lib.toFloats req.id).Read 1 := by
  have run (fields : List (Str × Value)) (r r' : RpcRequest) (hr : (ofAny lib.toFloats r.id).Read 1)
      (hf : FieldsReadable 1 fields) (hv : validFields fields = fields)
      (h : fields.foldlM (setMember RpcRequest.Field.all RpcRequest.Field.key (RpcRequest.set lib)) r = some r') :
      (ofAny lib.toFloats r'.id).Read 1 := by
    induction fields generalizing r
    case nil              => cases h; exact hr
    case cons m fields hi =>
      obtain ⟨r₁, hm, h⟩ := Option.bind_eq_some_iff.mp h
      obtain ⟨he, hv⟩ := List.cons.inj hv
      refine hi r₁ ?_ hf.right hv h
      unfold setMember at hm
      split at hm
      case h_1 => exact set_read hl hm hr ⟨hf.left, (Prod.mk.inj he).right⟩
      case h_2 => cases hm; exact hr
  obtain ⟨v, hp, h⟩ := Option.bind_eq_some_iff.mp h
  have hv := parse_read hp
  unfold decodeFields at h
  split at h
  case h_1 fields => exact run fields .zero _ ⟨trivial, rfl⟩ hv.left.right (Value.object.inj hv.right) h
  case h_2        => cases h; exact ⟨trivial, rfl⟩
  case h_3        => cases h

theorem tool_readable (name description : String) {properties : List (String × Json)} (required : List String)
    (h : ∀ e ∈ properties, ∃ type desc, e.2 = property type desc) :
    (ofAny lib.toFloats (tool name description properties required)).Readable 3 := by
  have text (n : Nat) (s : String) : (ofAny lib.toFloats (.string (str s))).Readable n := trivial
  have hp : ∀ e ∈ properties, (ofAny lib.toFloats e.2).Readable 6 := by
    intro e he
    obtain ⟨type, desc, he⟩ := h e he
    rw [he]
    exact ofFields_readable (by decide) (List.forall_mem_cons.mpr ⟨text .., List.forall_mem_singleton.mpr (text ..)⟩)
  have hr : (ofAny lib.toFloats (.array (required.map fun s => .string (str s)))).Readable 5 :=
    array_readable (by decide) (List.forall_mem_map.mpr fun s _ => text 6 s)
  refine ofFields_readable (by decide) ?_
  refine List.forall_mem_cons.mpr ⟨text .., List.forall_mem_cons.mpr ⟨text .., List.forall_mem_singleton.mpr ?_⟩⟩
  refine ofFields_readable (by decide) (List.forall_mem_append.mpr ⟨?_, ?_⟩)
  · exact List.forall_mem_cons.mpr ⟨text .., List.forall_mem_singleton.mpr (ofFields_readable (by decide) hp)⟩
  · split
    case isTrue  => exact List.forall_mem_nil _
    case isFalse => exact List.forall_mem_singleton.mpr hr

theorem mcpTools_readable : (ofAny lib.toFloats mcpTools).Readable 2 := by
  rw [mcpTools]
  refine array_readable (by decide) ?_
  simp only [List.forall_mem_cons]
  refine ⟨tool_readable _ _ _ ?_, tool_readable _ _ _ ?_, tool_readable _ _ _ ?_, tool_readable _ _ _ ?_,
    tool_readable _ _ _ ?_, List.forall_mem_nil _⟩
  all_goals
    simp only [List.forall_mem_cons, List.not_mem_nil, false_imp_iff, implies_true, and_true]
    and_intros
    all_goals exact ⟨_, _, rfl⟩

-- Every result can be read, whatever a tool is answered.
theorem handle_readable (s : MCPServer) (method : Str) (params : Option Value) (sent : List Request) :
    Prog.Always answer (fun r _ => ∀ j, r = .ok j → (ofAny lib.toFloats j).Readable 1) (handle lib s method params) sent := by
  have text (n : Nat) (s : Str) : (ofAny lib.toFloats (.string s)).Readable n := trivial
  have two {n : Nat} {e e' : String × Json} (hn : n < maxNestingDepth) (h : (ofAny lib.toFloats e.2).Readable (n + 1))
      (h' : (ofAny lib.toFloats e'.2).Readable (n + 1)) : (ofAny lib.toFloats (.ofFields [e, e'])).Readable n :=
    ofFields_readable hn (List.forall_mem_cons.mpr ⟨h, List.forall_mem_singleton.mpr h'⟩)
  have one {n : Nat} {e : String × Json} (hn : n < maxNestingDepth) (h : (ofAny lib.toFloats e.2).Readable (n + 1)) :
      (ofAny lib.toFloats (.ofFields [e])).Readable n :=
    ofFields_readable hn (List.forall_mem_singleton.mpr h)
  have answered (s : Str) : (ofAny lib.toFloats (.ofFields [("content", .array
      [.ofFields [("type", .string (str "text")), ("text", .string s)]])])).Readable 1 :=
    one (by decide) (array_readable (by decide) (List.forall_mem_singleton.mpr (two (by decide) (text ..) (text ..))))
  unfold handle
  split
  case isTrue =>
    rintro j ⟨⟩
    refine ofFields_readable (by decide) (List.forall_mem_cons.mpr ⟨text .., List.forall_mem_cons.mpr ⟨?_, ?_⟩⟩)
    · exact one (by decide) ⟨by decide, trivial⟩
    · exact List.forall_mem_singleton.mpr (two (by decide) (text ..) (text ..))
  split
  case isTrue =>
    rintro j ⟨⟩
    exact one (by decide) mcpTools_readable
  split
  case isTrue =>
    cases ToolCall.unmarshal lib params
    case error e =>
      rintro j ⟨⟩
    case ok call =>
      rw [Call.ok_seq]
      refine Call.always_seq.mpr (Prog.always_of_forall _ fun r sent => ?_)
      cases r
      case error e =>
        rintro j ⟨⟩
      case ok text =>
        rintro j ⟨⟩
        exact answered text
  case isFalse =>
    rintro j ⟨⟩

end Readable

-- How a stream is served.
section Serve

variable {lib : Formats} {s : MCPServer} {fs : List Sent} {r rest tail raw out : Str} {e : Option ReadError}

def isNull : Json → Bool
  | .null => true
  | _     => false

-- The requests among the messages that have an id.
def asked (lib : Formats) (raws : List Str) : List RpcRequest :=
  (raws.filterMap (RpcRequest.unmarshal lib)).filter fun req => !isNull req.id

-- The text is the answer to the request: it has the id of that, and a result or an error.
def Answers (lib : Formats) (req : RpcRequest) (text : Str) : Prop :=
  ∃ body : Str × Value, parse text = some (.object [(str "jsonrpc", .string (str "2.0")),
    (str "id", ofAny lib.toFloats req.id), body]) ∧ (body.1 = str "result" ∨ body.1 = str "error")

theorem answers_response {req : RpcRequest} {res : Except Error Json} (hi : (ofAny lib.toFloats req.id).Read 1)
    (hr : ∀ j, res = .ok j → (ofAny lib.toFloats j).Readable 1) : Answers lib req (print (rpcResponse lib req.id res)) := by
  have hv : Utf8.toValid (str "jsonrpc") = str "jsonrpc" ∧ Utf8.toValid (str "2.0") = str "2.0" ∧
      Utf8.toValid (str "id") = str "id" ∧ Utf8.toValid (str "result") = str "result" ∧
      Utf8.toValid (str "error") = str "error" := by
    decide
  have hn : isNumber (str "-32000") := by decide
  cases res
  case ok j    =>
    have hp : (rpcResponse lib req.id (.ok j)).Readable 0 := ⟨by decide, trivial, hi.left, hr j rfl, trivial⟩
    refine ⟨(str "result", (ofAny lib.toFloats j).valid), ?_, .inl rfl⟩
    rw [parse_print hp]
    simp only [rpcResponse, Value.valid, validFields, hv, hi.right]
  case error e =>
    have hp : (rpcResponse lib req.id (.error e)).Readable 0 :=
      ⟨by decide, trivial, hi.left, ⟨by decide, hn, trivial, trivial⟩, trivial⟩
    refine ⟨(str "error", Value.valid (.object [(str "code", .number (str "-32000")),
      (str "message", .string (lib.error e))])), ?_, .inr rfl⟩
    rw [parse_print hp]
    simp only [rpcResponse, Value.valid, validFields, hv, hi.right]

theorem serve_end (h : readMCPMessage r = .error (e.getD .eof)) (he : e ≠ some .eof) :
    serve lib s r out = .ret (out, e) := by
  rw [serve]
  split
  case h_1 hr =>
    cases e
    case none   => rfl
    case some e =>
      cases h.symm.trans hr
      exact absurd rfl he
  case h_2 hn hr =>
    cases e
    case none   =>
      cases h.symm.trans hr
      exact absurd rfl hn
    case some e =>
      cases h.symm.trans hr
      rfl
  case h_3 hr => cases h.symm.trans hr

theorem serve_next (h : readMCPMessage r = .ok (raw, rest)) : serve lib s r out =
    match RpcRequest.unmarshal lib raw with
    | none     => serve lib s rest out
    | some req =>
      if isNull req.id then serve lib s rest out
      else
        Prog.bind (handle lib s req.method req.params) fun r =>
          serve lib s rest (out ++ writeMCPMessage (rpcResponse lib req.id r)) := by
  rw [serve]
  split
  case h_1 hr => cases h.symm.trans hr
  case h_2 hr => cases h.symm.trans hr
  case h_3 hr =>
    cases h.symm.trans hr
    cases RpcRequest.unmarshal lib raw
    case none     => rfl
    case some req =>
      obtain ⟨_, id, _, _⟩ := req
      cases id <;> rfl

theorem asked_cons (raws : List Str) : asked lib (raw :: raws) =
    match RpcRequest.unmarshal lib raw with
    | none     => asked lib raws
    | some req => if isNull req.id then asked lib raws else req :: asked lib raws := by
  rw [asked, List.filterMap_cons]
  cases RpcRequest.unmarshal lib raw
  case none     => rfl
  case some req =>
    simp only [List.filter_cons]
    cases isNull req.id <;> rfl

-- So far `out` has been written.
theorem serve_always (hl : lib.Exact) (hw : ∀ f ∈ fs, f.WellFormed) (ht : Ends tail e) (out : Str) (sent : List Request) :
    Prog.Always answer (fun r _ => r.2 = e ∧ ∃ vs : List Value, r.1 = out ++ vs.flatMap writeMCPMessage ∧
      List.Forall₂ (fun req v => Answers lib req (print v)) (asked lib (fs.map Sent.raw)) vs ∧ ∀ v ∈ vs, print v ≠ [])
      (serve lib s (fs.flatMap Sent.render ++ tail) out) sent := by
  induction fs generalizing out sent
  case nil          =>
    have he : e ≠ some .eof := by cases ht <;> nofun
    rw [List.flatMap_nil, List.nil_append, serve_end ht.read he]
    exact ⟨rfl, [], (List.append_nil out).symm, .nil, List.forall_mem_nil _⟩
  case cons f fs hi =>
    have hi := hi fun g hm => hw g (.tail _ hm)
    rw [List.flatMap_cons, List.append_assoc, serve_next (read_render (hw f (.head _)) _), List.map_cons, asked_cons]
    cases hu : RpcRequest.unmarshal lib f.raw
    case none     => exact hi out sent
    case some req =>
      simp only
      split
      case isTrue  => exact hi out sent
      case isFalse =>
        refine Prog.always_bind.mpr ((handle_readable s req.method req.params sent).mono fun res sent hr => ?_)
        refine (hi _ sent).mono fun r _ h => ?_
        obtain ⟨he, vs, ho, hf, hn⟩ := h
        refine ⟨he, rpcResponse lib req.id res :: vs, ?_, .cons ?_ hf, List.forall_mem_cons.mpr ⟨List.cons_ne_nil _ _, hn⟩⟩
        · rw [ho, List.flatMap_cons, List.append_assoc]
        · exact answers_response (id_read hl hu) hr

-- Enough for a request with the id 1 that names no method.
def formats : Formats where
  parse w       := if w = str "1" then some 0x3ff0000000000000 else none
  format _      := str "1"
  error _       := str "unsupported MCP method \"\""
  decodeError _ := .new "unexpected end of JSON input"

end Serve
end Playground.Mcp
