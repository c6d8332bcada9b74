import Knaic.Go.Strconv
import Knaic.Playground.OpenAIProxy

open Go Effects

namespace Playground

-- A line of /proc: the name, and what reading the command line gives.
structure ProcEntry where
  name    : Str
  cmdline : Except Error Str

-- The snapshot of the providers, the files, the processes, and the hash that the runner remembers.
namespace Sidecar

inductive Op
  | providerSnapshot
  | snapHash
  | setSnapHash (hash : Str)
  | mkdirAllFor (path : Str)
  | writeFile (path raw : Str)
  | rename (old new : Str)
  | readProc
  | sigterm (pid : Int)

abbrev ops : Signature where
  Op := Op
  Res
    | .providerSnapshot => List Provider
    | .snapHash         => Str
    | .setSnapHash _    => Unit
    | .mkdirAllFor _    => Except Error Unit
    | .writeFile _ _    => Except Error Unit
    | .rename _ _       => Except Error Unit
    | .readProc         => Except Error (List ProcEntry)
    | .sigterm _        => Except Error Unit

abbrev Call :=
  Effects.Call ops Error

def perform (op : Op) : Prog ops (ops.Res op) :=
  @Prog.perform ops op

def mkdirAllFor (path : Str) : Call Unit :=
  perform (.mkdirAllFor path)

def writeFile (path raw : Str) : Call Unit :=
  perform (.writeFile path raw)

def rename (old new : Str) : Call Unit :=
  perform (.rename old new)

def readProc : Call (List ProcEntry) :=
  perform .readProc

def sigterm (pid : Int) : Call Unit :=
  perform (.sigterm pid)

end Sidecar

structure OpenCodeServerRunner where
  configPath    : Str
  proxyURL      : Str
  internalToken : Str
  agentName     : Str
  attached      : Bool
  self          : Int
  marshalIndent : Json → Except Error Str
  sha256        : Str → Str

def errSidecarNotRunning : Error :=
  .sentinel "playground" "opencode sidecar not running"

-- The prompt of an agent without skills.
def agentPrompt : Str :=
  str "You are the knaic Playground Agent.
You may inspect Kubernetes and AI platform state with the knaic MCP tools.
You must stay read-only: do not create, update, patch, delete, scale, restart, or mutate resources.
When using tools, explain what you checked and summarize the evidence.
Enabled skills: "

-- `filepath.Base`
def base (path : Str) : Str :=
  if path = [] then
    str "."
  else
    let last := ((path.trimRight 47).reverse.takeWhile (· ≠ 47)).reverse
    if last = [] then str "/" else last

def looksLikeOpenCodeServe (argv : List Str) : Bool :=
  match argv with
  | []           => false
  | [_]          => false
  | argv0 :: args => (base argv0).hasInfix (str "opencode") && args.contains (str "serve")

-- The arguments that a command line consists of.
def argv (cmdline : Str) : List Str :=
  (cmdline.trimRight 0).splitOn 0

namespace OpenCodeServerRunner

variable (r : OpenCodeServerRunner)

-- The process of a line if it is another one than this and runs the sidecar.
def sidecar? (e : ProcEntry) : Option Int :=
  match Strconv.parseInt e.name, e.cmdline with
  | (pid, none), .ok cmdline =>
    if pid ≠ r.self && looksLikeOpenCodeServe (argv cmdline) then some pid else none
  | _, _                     => none

def bounceOpenCodeSidecar : Sidecar.Call Unit := do
  let entries ← Sidecar.readProc
  match entries.findSome? r.sidecar? with
  | none     => throw errSidecarNotRunning
  | some pid => (Sidecar.sigterm pid).mapError (.wrap "SIGTERM pid %d")

def denied (tools : List String) : Json :=
  .ofFields (tools.map fun tool => (tool, .string (str "deny")))

def buildConfig (providers : List Provider) : Json :=
  let models := (configModels providers).map fun m =>
    (m.1, Json.ofFields [("name", .string m.2.name), ("tool_call", .bool m.2.toolCall)])
  .ofFields [
    ("$schema", .string (str "https://opencode.ai/config.json")),
    ("provider", .ofFields [
      ("knaic", .ofFields [
        ("npm", .string (str "@ai-sdk/openai-compatible")),
        ("name", .string (str "Knaic")),
        ("options", .ofFields [
          ("baseURL", .string r.proxyURL),
          ("apiKey", .string r.internalToken)
        ]),
        ("models", .object models)
      ])
    ]),
    ("agent", .object [
      (r.agentName, .ofFields [
        ("description", .string (str "Read-only chat agent for knaic LLM playground.")),
        ("mode", .string (str "primary")),
        ("prompt", .string agentPrompt),
        ("tools", .ofFields [("*", .bool false)]),
        ("permission", denied ["bash", "edit", "write", "webfetch", "websearch", "read", "list",
          "glob", "grep", "todowrite"])
      ])
    ])
  ]

def writeConfigLocked : Sidecar.Call Unit :=
  if !r.attached || r.configPath = [] then
    pure ()
  else do
    let providers ← ExceptT.lift (Sidecar.perform .providerSnapshot)
    let raw ← ExceptT.mk (pure (r.marshalIndent (r.buildConfig providers)))
    let hash := r.sha256 raw
    let snapHash ← ExceptT.lift (Sidecar.perform .snapHash)
    if hash = snapHash then
      return
    else
      Sidecar.mkdirAllFor r.configPath
      let tmp := r.configPath ++ str ".tmp"
      Sidecar.writeFile tmp raw
      Sidecar.rename tmp r.configPath
      ExceptT.lift (Sidecar.perform (.setSnapHash hash))
      let bounced ← ExceptT.lift (r.bounceOpenCodeSidecar : Prog Sidecar.ops (Except Error Unit))
      match bounced with
      | .ok ()     => return
      | .error err =>
        if errSidecarNotRunning.is err then return else throw (.wrap "bounce opencode sidecar" err)

def ensureConfig : Sidecar.Call Unit :=
  if r.configPath = [] then pure () else r.writeConfigLocked

-- Whichever provider it is, the whole snapshot is looked at.
def ensureSnapshotCovers (_p : Provider) : Sidecar.Call Unit :=
  r.writeConfigLocked

end OpenCodeServerRunner
end Playground
