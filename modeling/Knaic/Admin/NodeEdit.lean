import Knaic.Admin.Nodes
import Knaic.Admin.Rbac

open Go Effects

-- Edits of the labels and taints of a node in the console, beside other writers of the node.
namespace Admin

-- A taint as the cluster keeps it.
structure CoreTaint extends Taint where
  timeAdded : Option Time
deriving DecidableEq

structure CoreNode where
  name            : Str
  labels          : Dict Str
  taints          : List CoreTaint
  capacity        : Dict Kube.Quantity
  conditions      : List NodeCondition
  kubelet         : Str
  kernel          : Str
  resourceVersion : Nat
  quantities      : ∀ k q, capacity.get k = some q → (Kube.Quantity.value q.text).isSome

def fromCoreTaints (taints : List CoreTaint) : List Taint :=
  taints.map CoreTaint.toTaint

def toCoreTaints (taints : List Taint) : List CoreTaint :=
  taints.map fun t => ⟨t, none⟩

-- What the projection reads of a node.
def CoreNode.toNode (n : CoreNode) : Node :=
  ⟨n.name, n.labels, fromCoreTaints n.taints, n.capacity, n.conditions, n.kubelet, n.kernel, n.quantities⟩

structure NodePatch where
  labels : Option (Dict Str)
  taints : Option (List Taint)

def NodePatch.apply (patch : NodePatch) (n : CoreNode) : CoreNode :=
  { n with
    labels := patch.labels.getD n.labels
    taints := (patch.taints.map toCoreTaints).getD n.taints }

namespace NodeEdit

-- The requests for nodes. Of a list of them, the entry of one name.
inductive Op
  | list (name : Str)
  | get (name : Str)
  | update (name : Str) (n : CoreNode)

abbrev ops : Signature where
  Op := Op
  Res
    | .list _              => Except Error (Option CoreNode)
    | .get _ | .update _ _ => Except Error CoreNode

abbrev Call :=
  Effects.Call ops Error

def list (name : Str) : Call (Option CoreNode) :=
  @Prog.perform ops (.list name)

def get (name : Str) : Call CoreNode :=
  @Prog.perform ops (.get name)

def update (name : Str) (n : CoreNode) : Call CoreNode :=
  @Prog.perform ops (.update name n)

-- The node that is returned is projected as in a list.
def patchNode (s : Service) (name : Str) (patch : NodePatch) : Call CoreNode := do
  if s.typed then
    let n ← get name
    update name (patch.apply n)
  else
    throw (.new "kubernetes client unavailable")

-- One entry is added, replaced or removed.
inductive Edit
  | label (old : Option Str) (new : Option (Str × Str))
  | taint (i : Nat) (new : Option Taint)

def eraseKey (d : Dict Str) (k : Str) : Dict Str :=
  ⟨d.entries.erase k, d.sorted.erase k⟩

def Edit.labels (shown : Dict Str) : Edit → Dict Str
  | label old new =>
    let rest := old.elim shown (eraseKey shown)
    new.elim rest fun e => rest.set e.1 e.2
  | taint _ _     => shown

def Edit.taints (shown : List Taint) : Edit → List Taint
  | label _ _   => shown
  | taint i new => shown.take i ++ new.toList ++ shown.drop (i + 1)

def Edit.isLabel : Edit → Bool
  | label _ _ => true
  | taint _ _ => false

-- The page sends the labels or the taints, or a client sends the view as a whole.
def Edit.patch (e : Edit) (whole : Bool) (shown : NodeInfo) : NodePatch where
  labels := if whole || e.isLabel then some (e.labels shown.labels) else none
  taints := if whole || !e.isLabel then some (e.taints shown.taints) else none

-- The node is listed, and then patched with the view in which one entry was changed. The maps are visited in any order.
def session (s : Service) (orders : (n : Node) → n.Orders) (name : Str) (e : Edit) (whole : Bool) :
    Call Unit := do
  match ← list name with
  | none   => return
  | some n => (patchNode s name (e.patch whole (n.toNode.projectNode (orders n.toNode)))).void

-- The nodes of a cluster. Every write takes a new revision for its version.
structure Nodes where
  node     : Str → Option CoreNode
  revision : Nat
  fresh    : ∀ name n, node name = some n → n.resourceVersion ≤ revision

def Nodes.write (c : Nodes) (name : Str) (n : Option CoreNode) : Nodes where
  node     := Function.update c.node name (n.map ({ · with resourceVersion := c.revision + 1 }))
  revision := c.revision + 1
  fresh    := by
    intro name' n' h
    by_cases hn : name' = name
    case pos =>
      subst hn
      rw [Function.update_self] at h
      obtain ⟨m, -, rfl⟩ := Option.map_eq_some_iff.mp h
      exact Nat.le_refl _
    case neg =>
      rw [Function.update_of_ne hn] at h
      exact Nat.le_succ_of_le (c.fresh name' n' h)

-- The cluster, and the nodes as the last of the other writers has left them.
structure World where
  cluster : Nodes
  left    : Str → Option CoreNode

def World.write (w : World) (x : Str × Option CoreNode) : World where
  cluster := w.cluster.write x.1 x.2
  left    := (w.cluster.write x.1 x.2).node

def World.after (w : World) (writes : List (Str × Option CoreNode)) : World :=
  writes.foldl World.write w

-- What the others write before a request is answered, whether it fails, and what may replace a node.
structure Draw where
  writes  : List (Str × Option CoreNode)
  failure : Option Error
  admits  : CoreNode → CoreNode → Bool

def answerAt (w : World) (d : Draw) : (op : ops.Op) → ops.Res op × World
  | .list name     => (d.failure.elim (.ok (w.cluster.node name)) .error, w)
  | .get name      =>
    match d.failure, w.cluster.node name with
    | some e, _    => (.error e, w)
    | none, none   => (.error Kube.errNotFound, w)
    | none, some n => (.ok n, w)
  | .update name n =>
    match d.failure, w.cluster.node name with
    | some e, _      => (.error e, w)
    | none, none     => (.error Kube.errNotFound, w)
    | none, some old =>
      if n.resourceVersion ≠ old.resourceVersion then (.error Kube.errConflict, w)
      else if d.admits old n then (.ok n, { w with cluster := w.cluster.write name (some n) })
      else (.error Kube.errInvalid, w)

def answer (op : ops.Op) (d : Draw) (w : World) : ops.Res op × World :=
  answerAt (w.after d.writes) d op

-- The whole of a session, in a cluster where the others write between its requests.
def play (s : Service) (orders : (n : Node) → n.Orders) (name : Str) (e : Edit) (whole : Bool) (c : Nodes)
    (d : Nat → Draw) : World :=
  (Prog.play answer (session s orders name e whole) d ⟨c, c.node⟩).2

def Edit.TouchesLabel (k : Str) : Edit → Prop
  | label old new => old = some k ∨ new.map Prod.fst = some k
  | taint _ _     => False

-- A taint is told by its key and its effect.
def idOf (t : Taint) : Str × Str :=
  (t.key, t.effect)

def Edit.TouchesTaint (shown : List Taint) (id : Str × Str) : Edit → Prop
  | label _ _   => False
  | taint i new => shown[i]?.map idOf = some id ∨ new.map idOf = some id

def taintOf (taints : List CoreTaint) (id : Str × Str) : Option CoreTaint :=
  taints.find? fun t => idOf t.toTaint = id

structure Untouched (e : Edit) (shown : List Taint) (before after : CoreNode) : Prop where
  labels : ∀ k, ¬e.TouchesLabel k → after.labels.get k = before.labels.get k
  taints : ∀ id, ¬e.TouchesTaint shown id → taintOf after.taints id = taintOf before.taints id

-- What the session shows of the node when it begins.
def Shown (name : Str) (c : Nodes) (d : Nat → Draw) (n₀ : CoreNode) : Prop :=
  (d 0).failure = none ∧ (World.after ⟨c, c.node⟩ (d 0).writes).cluster.node name = some n₀

-- After the session, the node is as the others have left it, but for what was edited.
def Lossless (s : Service) (orders : (n : Node) → n.Orders) (name : Str) (e : Edit) (whole : Bool) (c : Nodes)
    (d : Nat → Draw) : Prop :=
  ∀ n₀, Shown name c d n₀ →
    Option.Rel (Untouched e (fromCoreTaints n₀.taints)) ((play s orders name e whole c d).left name)
      ((play s orders name e whole c d).cluster.node name)

-- The node as the session writes it, which saw it as `n₀` in the list and found it as `n`.
def edited (orders : (n : Node) → n.Orders) (e : Edit) (whole : Bool) (n₀ n : CoreNode) : CoreNode :=
  (e.patch whole (n₀.toNode.projectNode (orders n₀.toNode))).apply n

-- The patch goes through: nothing fails, and nobody writes the node between its two requests.
structure Lands (s : Service) (orders : (n : Node) → n.Orders) (name : Str) (e : Edit) (whole : Bool) (c : Nodes)
    (d : Nat → Draw) (n₀ n : CoreNode) : Prop where
  client   : s.typed
  read     : (d 1).failure = none
  found    : ((World.after ⟨c, c.node⟩ (d 0).writes).after (d 1).writes).cluster.node name = some n
  alone    : ∀ x ∈ (d 2).writes, x.1 ≠ name
  written  : (d 2).failure = none
  admitted : (d 2).admits n (edited orders e whole n₀ n)

-- What is sent and was not edited is what the others have left.
structure UpToDate (e : Edit) (whole : Bool) (n₀ n : CoreNode) : Prop where
  labels : (whole || e.isLabel) = true → ∀ k, ¬e.TouchesLabel k → n.labels.get k = n₀.labels.get k
  taints : (whole || !e.isLabel) = true → ∀ id, ¬e.TouchesTaint (fromCoreTaints n₀.taints) id →
             taintOf n.taints id = (taintOf n₀.taints id).map ({ · with timeAdded := none })

section Entries

variable {e : Edit} {whole : Bool} {n n₀ : CoreNode} {orders : (n : Node) → n.Orders}

theorem labels_other {shown : Dict Str} {k : Str} (h : ¬e.TouchesLabel k) : (e.labels shown).get k = shown.get k := by
  cases e
  case taint         => rfl
  case label old new =>
    obtain ⟨ho, hn⟩ := not_or.mp h
    have hr : (old.elim shown (eraseKey shown)).get k = shown.get k := by
      cases old
      case none    => rfl
      case some k' =>
        have hk : k ≠ k' := fun hk => ho (by rw [hk])
        exact (Entries.get_erase ..).trans (if_neg hk)
    cases new
    case none    => exact hr
    case some e  =>
      have hk : k ≠ e.1 := fun hk => hn (by rw [hk]; rfl)
      exact (Dict.get_set ..).trans ((if_neg hk).trans hr)

theorem find_taints {shown : List Taint} {id : Str × Str} (h : ¬e.TouchesTaint shown id) :
    (e.taints shown).find? (fun t => idOf t = id) = shown.find? fun t => idOf t = id := by
  cases e
  case label       => rfl
  case taint i new =>
    obtain ⟨hi, hn⟩ := not_or.mp h
    have hnew : new.toList.find? (fun t => decide (idOf t = id)) = none := by
      cases new
      case none   => rfl
      case some t => simpa using hn
    have hold : shown[i]?.toList.find? (fun t => decide (idOf t = id)) = none := by
      cases ht : shown[i]?
      case none   => rfl
      case some t => simpa [ht] using hi
    have hs : shown = shown.take i ++ shown[i]?.toList ++ shown.drop (i + 1) := by
      rw [List.append_assoc, ← List.drop_eq_getElem?_toList_append, List.take_append_drop]
    conv_rhs => rw [hs]
    simp only [Edit.taints, List.find?_append, hnew, hold]

theorem taintOf_from (taints : List CoreTaint) (id : Str × Str) :
    (fromCoreTaints taints).find? (fun t => idOf t = id) = (taintOf taints id).map CoreTaint.toTaint := by
  simp only [fromCoreTaints, taintOf, List.find?_map]
  rfl

theorem taintOf_to (taints : List Taint) (id : Str × Str) :
    taintOf (toCoreTaints taints) id = (taints.find? fun t => idOf t = id).map fun t => ⟨t, none⟩ := by
  simp only [toCoreTaints, taintOf, List.find?_map]
  rfl

-- A taint that was not edited comes back without its time.
theorem taintOf_sent {id : Str × Str} (h : ¬e.TouchesTaint (fromCoreTaints n₀.taints) id) :
    taintOf (toCoreTaints (e.taints (fromCoreTaints n₀.taints))) id =
      (taintOf n₀.taints id).map ({ · with timeAdded := none }) := by
  rw [taintOf_to, find_taints h, taintOf_from, Option.map_map]
  rfl

theorem edited_labels : (edited orders e whole n₀ n).labels =
    if whole || e.isLabel then e.labels n₀.labels else n.labels := by
  simp only [edited, NodePatch.apply, Edit.patch, Node.projectNode, Node.cloneStringMap_eq, CoreNode.toNode]
  split <;> rfl

theorem edited_taints : (edited orders e whole n₀ n).taints =
    if whole || !e.isLabel then toCoreTaints (e.taints (fromCoreTaints n₀.taints)) else n.taints := by
  simp only [edited, NodePatch.apply, Edit.patch, Node.projectNode, CoreNode.toNode]
  split <;> rfl

theorem edited_untouched (v : Nat) :
    Untouched e (fromCoreTaints n₀.taints) n { edited orders e whole n₀ n with resourceVersion := v } ↔
      UpToDate e whole n₀ n := by
  constructor
  case mp =>
    intro h
    constructor
    case labels =>
      intro hs k hk
      have hl := h.labels k hk
      simp only [edited_labels, hs, if_true, labels_other hk] at hl
      exact hl.symm
    case taints =>
      intro hs id hid
      have ht := h.taints id hid
      simp only [edited_taints, hs, if_true, taintOf_sent hid] at ht
      exact ht.symm
  case mpr =>
    intro h
    constructor
    case labels =>
      intro k hk
      simp only [edited_labels]
      split
      case isTrue hs => rw [labels_other hk, h.labels hs k hk]
      case isFalse   => rfl
    case taints =>
      intro id hid
      simp only [edited_taints]
      split
      case isTrue hs => rw [taintOf_sent hid, h.taints hs id hid]
      case isFalse   => rfl

theorem Untouched.refl (e : Edit) (shown : List Taint) (n : CoreNode) : Untouched e shown n n :=
  ⟨fun _ _ => rfl, fun _ _ => rfl⟩

end Entries

section Worlds

variable {w : World} {writes : List (Str × Option CoreNode)} {name : Str} {n : CoreNode}

theorem after_left (h : w.left = w.cluster.node) : (w.after writes).left = (w.after writes).cluster.node := by
  induction writes generalizing w
  case nil            => exact h
  case cons x rest hi => exact hi rfl

theorem after_other (h : ∀ x ∈ writes, x.1 ≠ name) : (w.after writes).cluster.node name = w.cluster.node name := by
  induction writes generalizing w
  case nil            => rfl
  case cons x rest hi =>
    refine (hi fun y hy => h y (.tail _ hy)).trans ?_
    exact Function.update_of_ne (h x (.head _)).symm _ _

-- A node that was written since has a version of its own.
theorem after_version (hx : ∃ x ∈ writes, x.1 = name) (h : (w.after writes).cluster.node name = some n) :
    w.cluster.revision < n.resourceVersion := by
  induction writes generalizing w
  case nil            => simp at hx
  case cons x rest hi =>
    by_cases hr : ∃ y ∈ rest, y.1 = name
    case pos => exact Nat.lt_of_succ_lt (hi hr h)
    case neg =>
      have hxn : x.1 = name := by
        obtain ⟨y, hy, he⟩ := hx
        rcases List.mem_cons.mp hy with rfl | hm
        · exact he
        · exact absurd ⟨y, hm, he⟩ hr
      have ho : ∀ y ∈ rest, y.1 ≠ name := fun y hy he => hr ⟨y, hy, he⟩
      have hn : (w.write x).cluster.node name = some n := (after_other ho).symm.trans h
      simp only [World.write, Nodes.write, hxn, Function.update_self] at hn
      obtain ⟨m, -, rfl⟩ := Option.map_eq_some_iff.mp hn
      exact Nat.lt_succ_self _

theorem settled (h : w.left = w.cluster.node) (e : Edit) (shown : List Taint) (name : Str) :
    Option.Rel (Untouched e shown) (w.left name) (w.cluster.node name) := by
  rw [h]
  cases w.cluster.node name
  case none   => exact .none
  case some n => exact .some (.refl e shown n)

end Worlds

section Session

variable {s : Service} {orders : (n : Node) → n.Orders} {name : Str} {e : Edit} {whole : Bool} {c : Nodes}
  {d : Nat → Draw} {n₀ n : CoreNode}

-- The nodes when the list is answered, when the node is read and when it is written.
def listed (c : Nodes) (d : Nat → Draw) : World :=
  World.after ⟨c, c.node⟩ (d 0).writes

def found (c : Nodes) (d : Nat → Draw) : World :=
  (listed c d).after (d 1).writes

def written (c : Nodes) (d : Nat → Draw) : World :=
  (found c d).after (d 2).writes

theorem listed_left : (listed c d).left = (listed c d).cluster.node :=
  after_left rfl

theorem found_left : (found c d).left = (found c d).cluster.node :=
  after_left listed_left

theorem written_left : (written c d).left = (written c d).cluster.node :=
  after_left found_left

theorem play_patchNode (s : Service) (name : Str) (patch : NodePatch) (d : Nat → Draw) (w : World) :
    (Prog.play answer (patchNode s name patch) d w).2 =
    if s.typed then
      match (answer (.get name) (d 0) w).1 with
      | .error _ => w.after (d 0).writes
      | .ok n    => (answer (.update name (patch.apply n)) (d 1) (w.after (d 0).writes)).2
    else w := by
  unfold patchNode
  split
  case isFalse => rfl
  case isTrue  =>
    have hw : (answer (.get name) (d 0) w).2 = w.after (d 0).writes := by
      simp only [answer, answerAt]
      split <;> rfl
    rw [Call.bind_eq]
    simp only [get, Prog.perform, Prog.bind, Prog.play, hw]
    cases (answer (.get name) (d 0) w).1
    case error => rfl
    case ok n  =>
      simp only [Call.next, update, Prog.perform, Prog.play]

theorem play_eq (h : Shown name c d n₀) : play s orders name e whole c d =
    if s.typed then
      match (answerAt (found c d) (d 1) (.get name)).1 with
      | .error _ => found c d
      | .ok n    => (answerAt (written c d) (d 2) (.update name (edited orders e whole n₀ n))).2
    else listed c d := by
  have hl : (answer (.list name) (d 0) ⟨c, c.node⟩) = (.ok (some n₀), listed c d) := by
    simp only [answer, answerAt, h.left, h.right, Option.elim_none]
    rfl
  unfold play session
  rw [Call.bind_eq]
  simp only [list, Prog.perform, Prog.bind, Prog.play]
  rw [hl]
  simp only [Call.next]
  rw [Call.play_void, play_patchNode]
  rfl

-- An update that is answered goes through only where nobody has written the node since it was read.
theorem update_cases (hn : (found c d).cluster.node name = some n) (m : CoreNode)
    (hv : m.resourceVersion = n.resourceVersion) :
    (answerAt (written c d) (d 2) (.update name m)).2 =
      if (∀ x ∈ (d 2).writes, x.1 ≠ name) ∧ (d 2).failure = none ∧ (d 2).admits n m then
        { written c d with cluster := (written c d).cluster.write name (some m) }
      else written c d := by
  simp only [answerAt]
  cases hf : (d 2).failure
  case some err => simp
  case none     =>
    by_cases ha : ∀ x ∈ (d 2).writes, x.1 ≠ name
    case pos =>
      have hw : (written c d).cluster.node name = some n := (after_other ha).trans hn
      simp only [hw, hv, ne_eq, not_true_eq_false, if_false]
      by_cases hd : (d 2).admits n m
      case pos => rw [if_pos hd, if_pos ⟨ha, trivial, hd⟩]
      case neg => rw [if_neg hd, if_neg fun h => hd h.right.right]
    case neg =>
      have hx : ∃ x ∈ (d 2).writes, x.1 = name := by simpa using ha
      simp only [ha, false_and, if_false]
      cases hw : (written c d).cluster.node name
      case none     => rfl
      case some old =>
        have hl := after_version hx hw
        have hf := (found c d).cluster.fresh name n hn
        have hne : m.resourceVersion ≠ old.resourceVersion := by omega
        simp only [if_pos hne]

-- A session loses nothing if and only if, where its patch goes through, what it sends without having edited it is what
-- the others have left.
theorem node_edit_lossless_iff (s : Service) (orders : (n : Node) → n.Orders) (name : Str) (e : Edit) (whole : Bool)
    (c : Nodes) (d : Nat → Draw) : Lossless s orders name e whole c d ↔
    ∀ n₀ n, Shown name c d n₀ → Lands s orders name e whole c d n₀ n → UpToDate e whole n₀ n := by
  constructor
  case mp  =>
    intro h n₀ n hs hl
    have hr := h n₀ hs
    have hg : (answerAt (found c d) (d 1) (.get name)).1 = .ok n := by
      have hn : (found c d).cluster.node name = some n := hl.found
      simp only [answerAt, hl.read, hn]
    have hu := update_cases hl.found (edited orders e whole n₀ n) rfl
    rw [if_pos ⟨hl.alone, hl.written, hl.admitted⟩] at hu
    have hp : play s orders name e whole c d =
        { written c d with cluster := (written c d).cluster.write name (some (edited orders e whole n₀ n)) } := by
      rw [play_eq hs, if_pos hl.client, hg]
      exact hu
    rw [hp] at hr
    have hw : (written c d).left name = some n :=
      (congrFun written_left name).trans ((after_other hl.alone).trans hl.found)
    simp only [hw, Nodes.write, Function.update_self, Option.map_some] at hr
    cases hr
    case some hr => exact (edited_untouched _).mp hr
  case mpr =>
    intro h n₀ hs
    rw [play_eq hs]
    split
    case isFalse   => exact settled listed_left ..
    case isTrue hc =>
      cases hn : (found c d).cluster.node name
      case none =>
        simp only [answerAt, hn]
        cases (d 1).failure <;> exact settled found_left ..
      case some n =>
        cases hf : (d 1).failure
        case some err =>
          simp only [answerAt, hf]
          exact settled found_left ..
        case none =>
          simp only [answerAt, hf, hn]
          have hu := update_cases hn (edited orders e whole n₀ n) rfl
          simp only [answerAt] at hu
          rw [hu]
          split
          case isFalse   => exact settled written_left ..
          case isTrue hl =>
            have hl : Lands s orders name e whole c d n₀ n := ⟨hc, hf, hn, hl.left, hl.right.left, hl.right.right⟩
            have hw : (written c d).left name = some n :=
              (congrFun written_left name).trans ((after_other hl.alone).trans hl.found)
            simp only [hw, Nodes.write, Function.update_self, Option.map_some]
            exact .some ((edited_untouched _).mpr (h n₀ n hs hl))

end Session

-- A label is added in the console while an operator labels the node with its cards, and a taint beside one that was
-- added some time ago.
section Example

def gpuTaint : CoreTaint :=
  ⟨⟨str "nvidia.com/gpu", str "present", str "NoExecute"⟩, some .zero⟩

def gpuNode (labels : Dict Str) : CoreNode where
  name            := str "node-1"
  labels          := labels
  taints          := [gpuTaint]
  capacity        := .empty
  conditions      := []
  kubelet         := str "v1.31.0"
  kernel          := str "6.1.0"
  resourceVersion := 1
  quantities _ _ h := by cases h

def gpuNodes : Nodes where
  node name := if name = str "node-1" then some (gpuNode .empty) else none
  revision  := 1
  fresh name n h := by
    split at h
    case isTrue  => cases h; exact Nat.le_refl _
    case isFalse => cases h

def labelled : Nat → Draw
  | 1 =>
    let labels := Dict.empty.set (str "nvidia.com/gpu.product") (str "A100")
    ⟨[(str "node-1", some (gpuNode labels))], none, fun _ _ => true⟩
  | _ => ⟨[], none, fun _ _ => true⟩

def quiet : Nat → Draw :=
  fun _ => ⟨[], none, fun _ _ => true⟩

def inOrder (n : Node) : n.Orders :=
  .inOrder n

def addLabel : Edit :=
  .label none (some (str "team", str "ml"))

def addTaint : Edit :=
  .taint 1 (some ⟨str "dedicated", str "ml", str "NoSchedule"⟩)

theorem label_lost : ¬Lossless ⟨true⟩ inOrder (str "node-1") addLabel false gpuNodes labelled ∧
    ¬Lossless ⟨true⟩ inOrder (str "node-1") addTaint false gpuNodes quiet := by
  constructor
  case left =>
    intro h
    cases h (gpuNode .empty) ⟨rfl, rfl⟩
    case some hu =>
      have hl := hu.labels (str "nvidia.com/gpu.product") (by simp [addLabel, Edit.TouchesLabel])
      revert hl
      decide
  case right =>
    intro h
    cases h (gpuNode .empty) ⟨rfl, rfl⟩
    case some hu =>
      have ht := hu.taints (idOf gpuTaint.toTaint)
        (by simp [addTaint, Edit.TouchesTaint, gpuNode, fromCoreTaints, gpuTaint, idOf])
      revert ht
      decide

end Example
end NodeEdit
end Admin
