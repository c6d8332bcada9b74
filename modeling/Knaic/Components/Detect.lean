import Knaic.Go.Map
import Knaic.Go.Time
import Knaic.Go.Utf8

open Go

namespace Components

inductive Status
  | notInstalled | installing | installed | failed | unmanaged
deriving DecidableEq

inductive ManagedBy
  | unset | knaic | olm | manual
deriving DecidableEq

structure Component where
  name            : Str
  selectedVersion : Str
  status          : Status
  ns              : Str
  aliases         : List Str
  notes           : Str
  managedBy       : ManagedBy
  embedded        : Bool
  lastError       : Str
  lastTransition  : Time
deriving DecidableEq

def releaseNamePrefix : Str :=
  str "knaic-"

def managedByLabel : Str :=
  str "knaic.io/managed"

def managedByLabelValue : Str :=
  str "true"

-- A Helm release, with the name of its chart if it has a chart with metadata.
structure Release where
  name   : Str
  ns     : Str
  chart  : Option Str
  labels : Map Str

-- The release that `Install`, `Upgrade` and `Uninstall` of the Helm client act on.
def Component.releaseName (c : Component) : Str :=
  releaseNamePrefix ++ c.name

def isKnaicRelease (rel : Release) : Bool :=
  rel.name.hasPrefix releaseNamePrefix ||
    rel.labels.lookup managedByLabel = some managedByLabelValue

structure HelmReleaseHit where
  name  : Str
  ns    : Str
  owner : ManagedBy
deriving DecidableEq

structure CsvHit where
  name : Str
  ns   : Str
deriving DecidableEq

structure ClusterSnapshot where
  releases : List (Str × HelmReleaseHit)
  csvs     : List CsvHit
deriving DecidableEq

namespace ClusterSnapshot

def releasesByChart (snap : ClusterSnapshot) (chart : Str) : List HelmReleaseHit :=
  snap.releases.filterMap fun (ch, hit) => if ch = chart then some hit else none

def hit (rel : Release) : Option (Str × HelmReleaseHit) :=
  rel.chart.map fun ch =>
    (ch, ⟨rel.name, rel.ns, if isKnaicRelease rel then .knaic else .manual⟩)

def scan (releases : List Release) (csvs : List CsvHit) : ClusterSnapshot where
  releases := releases.filterMap hit
  csvs     := csvs

end ClusterSnapshot

def push (out : List Str) (s : Str) : List Str :=
  let s := Utf8.trimSpace s
  if s = [] ∨ s ∈ out then out else out ++ [s]

def componentProbeNames (c : Component) : List Str :=
  (c.name :: c.aliases).foldl push []

def csvCandidates (comp : Str) : List Str :=
  [comp, comp ++ str "-operator"] ++
    if comp = str "nvidia-device-plugin" then [str "gpu-operator-certified", str "gpu-operator"]
    else if comp = str "kserve" then [str "kserve-operator"]
    else if comp = str "prometheus" then [str "prometheusoperator", str "prometheus-operator"]
    else []

def matchCSV (comp : Str) (csvs : List CsvHit) : Option CsvHit :=
  (csvCandidates comp).findSome? fun base =>
    csvs.find? fun c => c.name.hasPrefix (base ++ str ".") || c.name == base

-- What the detector finds first.
inductive Finding
  | csv (h : CsvHit)
  | own (h : HelmReleaseHit)
  | other (h : HelmReleaseHit)
  | nothing
deriving DecidableEq

def ownHit (c : Component) (snap : ClusterSnapshot) : Option HelmReleaseHit :=
  (componentProbeNames c).findSome? fun n =>
    (snap.releasesByChart n).find? fun h => h.owner == .knaic

def find (c : Component) (snap : ClusterSnapshot) : Finding :=
  let probe := componentProbeNames c
  match probe.findSome? (matchCSV · snap.csvs) with
  | some hit => .csv hit
  | none     =>
    match ownHit c snap with
    | some h => .own h
    | none   =>
      match probe.findSome? fun n => (snap.releasesByChart n).head? with
      | some h => .other h
      | none   => .nothing

-- `%q` puts a string between quotes. What it does with characters that are not printable does not
-- matter to anything here.
def quoted (s : Str) : Str :=
  str "\"" ++ s ++ str "\""

-- What `DetectOne` does to the entry of the store.
def Finding.write (systemNamespace : Str) (item : Component) : Finding → Component
  | .csv h   => { item with
      status := .installed, ns := h.ns, managedBy := .olm,
      notes := str "Detected via OLM ClusterServiceVersion " ++ quoted h.name ++ str " in " ++
        quoted h.ns ++ str "." }
  | .own h   => { item with status := .installed, ns := h.ns, managedBy := .knaic, notes := [] }
  | .other h => { item with
      status := .installed, ns := h.ns, managedBy := h.owner,
      notes := str "Helm release " ++ quoted h.name ++ str " in " ++ quoted h.ns ++
        str " (not installed by knaic)." }
  | .nothing => { item with
      status := .notInstalled, managedBy := .unset, notes := [],
      ns := if systemNamespace ≠ [] then systemNamespace else item.ns }

-- `DetectOne` with nothing else going on: what it reports of an entry.
def detectOne (systemNamespace : Str) (c : Component) (snap : ClusterSnapshot) : Component :=
  if c.status = .installing then c else (find c snap).write systemNamespace c

-- The component is reported as one that is to be uninstalled and upgraded here only where there is
-- a release to do it to.
def Actionable (releases : List Release) (c d : Component) : Prop :=
  d.status = .installed → d.managedBy = .knaic →
    ∃ rel ∈ releases, rel.name = c.releaseName ∧ rel.ns = d.ns

-- The first release that counts as one of ours is in a namespace with the release of this component.
def OwnFirst (releases : List Release) (csvs : List CsvHit) (c : Component) : Prop :=
  (∃ csv, (componentProbeNames c).findSome? (matchCSV · csvs) = some csv) ∨
    ∀ h, ownHit c (.scan releases csvs) = some h →
      ∃ rel ∈ releases, rel.name = c.releaseName ∧ rel.ns = h.ns

section Find

variable {c : Component} {snap : ClusterSnapshot}

theorem find_csv (h : (componentProbeNames c).findSome? (matchCSV · snap.csvs) = some hit) :
    find c snap = .csv hit := by
  simp [find, h]

theorem find_own (h : (componentProbeNames c).findSome? (matchCSV · snap.csvs) = none)
    (ho : ownHit c snap = some hit) : find c snap = .own hit := by
  simp [find, h, ho]

theorem find_rest (h : (componentProbeNames c).findSome? (matchCSV · snap.csvs) = none)
    (ho : ownHit c snap = none) :
    find c snap = .nothing ∨ ∃ hit, find c snap = .other hit ∧ hit.owner ≠ .knaic := by
  simp only [find, h, ho]
  split
  case h_2 => exact .inl rfl
  case h_1 hit hh =>
    refine .inr ⟨hit, rfl, ?_⟩
    have ⟨n, hn, hf⟩ := List.exists_of_findSome?_eq_some hh
    simp only [ownHit, List.findSome?_eq_none_iff, List.find?_eq_none] at ho
    simpa using ho n hn hit (List.mem_of_mem_head? hf)

end Find

instance (releases : List Release) (c d : Component) : Decidable (Actionable releases c d) :=
  inferInstanceAs (Decidable (_ → _ → ∃ rel ∈ releases, rel.name = c.releaseName ∧ rel.ns = d.ns))

def kserve : Component where
  name            := str "kserve"
  selectedVersion := str "v0.14.0"
  status          := .notInstalled
  ns              := str "knaic-system"
  aliases         := []
  notes           := []
  managedBy       := .unset
  embedded        := true
  lastError       := []
  lastTransition  := .zero

-- A release of the same chart that someone has given a name of their own.
def serving : Release where
  name   := str "knaic-serving"
  ns     := str "serving"
  chart  := some (str "kserve")
  labels := ∅

end Components
