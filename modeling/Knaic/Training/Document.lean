import Knaic.Training.Builders

open Go Kube Yaml
open Js (utf8)

-- The text of the browser as a document.
namespace Training

section Nodes

def field (k : String) (v : Node) : Text × Node :=
  (k.toList, v)

-- A scalar that goes through `yamlQuote`.
def leaf (s : Text) : Node :=
  if needsQuotes s then .quoted s else .plain s

def numberNode : Number → Node
  | .null         => .plain "null".toList
  | .int n        => .int n
  | .float _ text => .plain text

def quantityNode : Quantity → Node
  | .text s   => leaf s
  | .number n => numberNode n

def quantitiesNode (l : Quantities) : Node :=
  .map (l.map fun e => (e.1, quantityNode e.2))

def listField (k : String) (l : List Text) : List (Text × Node) :=
  if l = [] then [] else [field k (.seq (l.map leaf))]

def envField (env : List EnvEntry) : List (Text × Node) :=
  if env = [] then []
  else [field "env" (.seq (env.map fun e => .map [field "name" (.plain e.name), field "value" (leaf e.value)]))]

def containerFields (name image : Text) (command args : List Text) (env : List EnvEntry) :
    List (Text × Node) :=
  [field "name" (.plain name), field "image" (.plain (if image = [] then "<image>".toList else image))] ++
  listField "command" command ++ listField "args" args ++ envField env

def resourcesField (requests limits : Quantities) : Text × Node :=
  field "resources" (.map [
    field "requests" (quantitiesNode requests),
    field "limits" (quantitiesNode limits)])

def dependsOnField (lastStep : Text) : List (Text × Node) :=
  if lastStep = [] then []
  else [field "dependsOn" (.seq [.map [
    field "name" (.plain lastStep),
    field "status" (.plain "Complete".toList)]])]

def templateField (step : Text) (container : List (Text × Node)) : Text × Node :=
  field "template" (.map [
    field "metadata" (.map [
      field "labels" (.map [field "trainer.kubeflow.org/trainjob-ancestor-step" (.plain step)])]),
    field "spec" (.map [
      field "template" (.map [
        field "spec" (.map [field "containers" (.seq [.map container])])])])])

def jobNode (lastStep name step : Text) (container : List (Text × Node)) : Node :=
  .map ([field "name" (.plain name)] ++ dependsOnField lastStep ++ [templateField step container])

def preJobNodes (lastStep : Text) : List PreJob → List Node × Text
  | []      => ([], lastStep)
  | p :: ps =>
    let q := preJobNodes p.name ps
    (jobNode lastStep p.name p.name (containerFields p.name p.image p.command p.args p.env) :: q.1, q.2)

def jobNodes (req : RuntimePayload) : List Node :=
  let q := preJobNodes [] req.preJobs
  q.1 ++ [jobNode q.2 "node".toList "trainer".toList
    (containerFields "node".toList req.image req.command req.args req.env ++
      [resourcesField req.requests req.limits])]

def frameworkOrTorch (req : RuntimePayload) : Text :=
  if req.framework = [] then "torch".toList else req.framework

def labelsNode (req : RuntimePayload) : Node :=
  .map [
    field "knaic.io/managed" (.quoted "true".toList),
    field "knaic.io/component" (.plain "training".toList),
    field "knaic.io/framework" (.plain (frameworkOrTorch req))]

def specNode (req : RuntimePayload) : Node :=
  .map [
    field "mlPolicy" (.map [
      field "numNodes" (numberNode req.nodes),
      (frameworkOrTorch req, .emptyMap)]),
    field "template" (.map [
      field "spec" (.map [field "replicatedJobs" (.seq (jobNodes req))])])]

def namespaceField (req : RuntimePayload) (ns : Text) : List (Text × Node) :=
  if req.cluster then [] else [field "namespace" (.plain ns)]

def metadataNode (req : RuntimePayload) (ns : Text) : Node :=
  .map (
    [field "name" (.plain (if req.name = [] then "<name>".toList else req.name))] ++
    namespaceField req ns ++ [field "labels" (labelsNode req)])

def runtimeNode (req : RuntimePayload) (ns : Text) : Node :=
  .map ([
    field "apiVersion" (.plain "trainer.kubeflow.org/v1alpha1".toList),
    field "kind" (.plain (if req.cluster then "ClusterTrainingRuntime" else "TrainingRuntime").toList),
    field "metadata" (metadataNode req ns)] ++
    [field "spec" (specNode req)])

end Nodes

section Lines

variable {n : Nat} {k : String} {v : Node} {s : Text}

theorem fieldLines_append (n : Nat) (fs gs : List (Text × Node)) :
    fieldLines n (fs ++ gs) = fieldLines n fs ++ fieldLines n gs := by
  induction fs
  case nil          => rfl
  case cons f fs hi =>
    obtain ⟨k, v⟩ := f
    simp only [List.cons_append, fieldLines, hi, List.append_assoc]

theorem itemLines_append (n : Nat) (is js : List Node) :
    itemLines n (is ++ js) = itemLines n is ++ itemLines n js := by
  induction is
  case nil          => rfl
  case cons v is hi => simp only [List.cons_append, itemLines, hi, List.append_assoc]

theorem inline_leaf (s : Text) : (leaf s).inline = some (yamlQuote s) := by
  unfold leaf yamlQuote
  split <;> rfl

theorem inline_numberNode (x : Number) : (numberNode x).inline = some (numberText x) := by
  cases x <;> rfl

theorem inline_quantityNode (q : Quantity) : (quantityNode q).inline = some (quantityText q) := by
  cases q
  case text s   => exact inline_leaf s
  case number x => exact inline_numberNode x

-- A field with its value in the same line, and one with its value below.
theorem fieldLines_inline (h : v.inline = some s) (n : Nat) (k : Text) (fs : List (Text × Node)) :
    fieldLines n ((k, v) :: fs) = (indent n ++ k ++ [':', ' '] ++ s) :: fieldLines n fs := by
  simp only [fieldLines, h, List.singleton_append]

theorem fieldLines_below (h : v.inline = none) (n : Nat) (k : Text) (fs : List (Text × Node)) :
    fieldLines n ((k, v) :: fs) = (indent n ++ k ++ [':']) :: (v.lines (n + 2) ++ fieldLines n fs) := by
  simp only [fieldLines, h, List.cons_append]

theorem itemLines_leaves (n : Nat) (l : List Text) :
    itemLines n (l.map leaf) = l.map fun c => indent n ++ ['-', ' '] ++ yamlQuote c := by
  induction l
  case nil         => rfl
  case cons c l hi => simp only [List.map_cons, itemLines, inline_leaf, hi, List.singleton_append]

theorem quantitiesNode_lines (n : Nat) (l : Quantities) : (quantitiesNode l).lines n =
    l.map fun e => indent n ++ e.1 ++ [':', ' '] ++ quantityText e.2 := by
  rw [quantitiesNode, Node.lines]
  induction l
  case nil         => rfl
  case cons e l hi => rw [List.map_cons, fieldLines_inline (inline_quantityNode e.2), hi, List.map_cons]

theorem emitQuantities_eq (l : Quantities) :
    emitQuantities (indent 20) l = (quantitiesNode l).lines 26 := by
  rw [quantitiesNode_lines]
  rfl

theorem emitCommand_eq (l : List Text) :
    emitList (indent 20) "  command:" l = fieldLines 22 (listField "command" l) := by
  unfold emitList listField
  split
  case isTrue  => rfl
  case isFalse =>
    rw [field, fieldLines_below rfl, Node.lines, itemLines_leaves]
    exact congrArg _ (List.append_nil _).symm

theorem emitArgs_eq (l : List Text) :
    emitList (indent 20) "  args:" l = fieldLines 22 (listField "args" l) := by
  unfold emitList listField
  split
  case isTrue  => rfl
  case isFalse =>
    rw [field, fieldLines_below rfl, Node.lines, itemLines_leaves]
    exact congrArg _ (List.append_nil _).symm

theorem envLines (env : List EnvEntry) :
    itemLines 24 (env.map fun e => .map [field "name" (.plain e.name), field "value" (leaf e.value)]) =
      env.flatMap fun e => [
        indent 20 ++ "    - name: ".toList ++ e.name,
        indent 20 ++ "      value: ".toList ++ yamlQuote e.value] := by
  induction env
  case nil           => rfl
  case cons e env hi =>
    rw [List.map_cons, itemLines, hi, List.flatMap_cons]
    simp only [Node.inline, Node.lines]
    rw [field, field, fieldLines_inline rfl, fieldLines_inline (inline_leaf e.value)]
    rfl

theorem emitEnv_eq (env : List EnvEntry) : emitEnv (indent 20) env = fieldLines 22 (envField env) := by
  unfold emitEnv envField
  split
  case isTrue  => rfl
  case isFalse =>
    rw [field, fieldLines_below rfl, Node.lines, envLines]
    exact congrArg _ (List.append_nil _).symm

-- The container begins with the dash of its item.
theorem emitContainer_eq (name image : Text) (command args : List Text) (env : List EnvEntry)
    (more : List (Text × Node)) :
    emitContainer name image command args env ++ fieldLines 22 more =
      itemLines 20 [.map (containerFields name image command args env ++ more)] := by
  rw [emitContainer, emitCommand_eq, emitArgs_eq, emitEnv_eq, itemLines, itemLines, List.append_nil]
  simp only [Node.inline, Node.lines, containerFields, fieldLines_append]
  rw [field, field, fieldLines_inline rfl, fieldLines_inline rfl]
  rfl

theorem emitResources_eq (requests limits : Quantities) :
    emitResources requests limits = fieldLines 22 [resourcesField requests limits] := by
  rw [resourcesField, field, fieldLines_below rfl, Node.lines, field, fieldLines_below rfl, field,
    fieldLines_below rfl, emitResources, emitQuantities_eq, emitQuantities_eq]
  simp only [fieldLines, List.append_nil, List.cons_append, List.nil_append, List.append_assoc]
  rfl

theorem templateField_lines (step : Text) (container : List (Text × Node)) :
    fieldLines 10 [templateField step container] = [
      "          template:".toList,
      "            metadata:".toList,
      "              labels:".toList,
      "                trainer.kubeflow.org/trainjob-ancestor-step: ".toList ++ step,
      "            spec:".toList,
      "              template:".toList,
      "                spec:".toList,
      "                  containers:".toList] ++ itemLines 20 [.map container] := by
  rw [templateField, field, fieldLines_below rfl, Node.lines]
  rw [field, fieldLines_below rfl, Node.lines, field, fieldLines_below rfl, Node.lines, field,
    fieldLines_inline rfl]
  rw [field, fieldLines_below rfl, Node.lines, field, fieldLines_below rfl, Node.lines]
  rw [field, fieldLines_below rfl, Node.lines, field, fieldLines_below rfl, Node.lines]
  simp only [fieldLines, List.append_nil, List.cons_append, List.nil_append]
  repeat rw [String.toList_ofList]
  rfl

theorem dependsOnField_lines (lastStep : Text) : fieldLines 10 (dependsOnField lastStep) =
    if lastStep = [] then []
    else [
      "          dependsOn:".toList,
      "            - name: ".toList ++ lastStep,
      "              status: Complete".toList] := by
  unfold dependsOnField
  split
  case isTrue  => rfl
  case isFalse => rfl

theorem itemLines_map (n : Nat) (fs : List (Text × Node)) :
    itemLines n [.map fs] = dashed n (fieldLines (n + 2) fs) := by
  simp only [itemLines, Node.inline, Node.lines, List.append_nil]

theorem emitJob_eq (lastStep name step : Text) (container : List (Text × Node)) :
    emitJob lastStep name step ++ itemLines 20 [.map container] =
      itemLines 8 [jobNode lastStep name step container] := by
  rw [jobNode, itemLines_map 8, fieldLines_append, fieldLines_append, dependsOnField_lines,
    templateField_lines, field, fieldLines_inline rfl, emitJob]
  simp only [fieldLines, List.append_assoc, List.cons_append, List.nil_append]
  rfl

theorem emitPreJobs_eq (lastStep : Text) (ps : List PreJob) : emitPreJobs lastStep ps =
    (itemLines 8 (preJobNodes lastStep ps).1, (preJobNodes lastStep ps).2) := by
  induction ps generalizing lastStep
  case nil          => rfl
  case cons p ps hi =>
    have hc := emitContainer_eq p.name p.image p.command p.args p.env []
    rw [fieldLines, List.append_nil, List.append_nil] at hc
    rw [emitPreJobs, hi, hc, emitJob_eq]
    exact Prod.ext (itemLines_append 8 [_] _).symm rfl

theorem jobNodes_lines (req : RuntimePayload) : itemLines 8 (jobNodes req) =
    (emitPreJobs [] req.preJobs).1 ++ emitJob (emitPreJobs [] req.preJobs).2 "node".toList "trainer".toList ++
      emitContainer "node".toList req.image req.command req.args req.env ++
      emitResources req.requests req.limits := by
  rw [emitResources_eq, List.append_assoc, emitContainer_eq, emitPreJobs_eq, List.append_assoc, emitJob_eq,
    ← itemLines_append]
  rfl

theorem specNode_lines (req : RuntimePayload) : fieldLines 0 [field "spec" (specNode req)] = [
    "spec:".toList,
    "  mlPolicy:".toList,
    "    numNodes: ".toList ++ numberText req.nodes,
    "    ".toList ++ frameworkOrTorch req ++ ": {}".toList,
    "  template:".toList,
    "    spec:".toList,
    "      replicatedJobs:".toList] ++ itemLines 8 (jobNodes req) := by
  rw [specNode, field, fieldLines_below rfl, Node.lines, field, fieldLines_below rfl, Node.lines]
  rw [field, fieldLines_inline (inline_numberNode req.nodes), fieldLines_inline rfl]
  rw [field, fieldLines_below rfl, Node.lines, field, fieldLines_below rfl, Node.lines, field,
    fieldLines_below rfl, Node.lines]
  simp only [fieldLines, List.append_nil, List.cons_append, List.nil_append, List.append_assoc]
  repeat rw [String.toList_ofList]
  rfl

-- The text has the lines of the document.
theorem runtimeLines_eq (req : RuntimePayload) (ns : Text) :
    runtimeLines req ns = (runtimeNode req ns).lines 0 := by
  have hn : fieldLines 2 (namespaceField req ns) =
      if req.cluster then [] else ["  namespace: ".toList ++ ns] := by
    unfold namespaceField
    split
    case isTrue  => rfl
    case isFalse => rfl
  rw [runtimeNode, Node.lines, fieldLines_append, specNode_lines, jobNodes_lines, runtimeLines]
  rw [field, fieldLines_inline rfl, field, fieldLines_inline rfl, field, fieldLines_below rfl, metadataNode,
    Node.lines, fieldLines_append, fieldLines_append, hn]
  rw [field, fieldLines_inline rfl, labelsNode, field, fieldLines_below rfl, Node.lines]
  rw [field, fieldLines_inline rfl, field, fieldLines_inline rfl, field, fieldLines_inline rfl]
  simp only [fieldLines, List.append_nil, List.cons_append, List.nil_append, List.append_assoc]
  repeat rw [String.toList_ofList]
  rfl

end Lines

end Training
