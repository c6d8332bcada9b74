import Knaic.Components.Detect

open Go

namespace Components

-- The snapshot of two listings, either of which may have failed.
def snapshotOf (releases : Except Error (List Release)) (csvs : Except Error (List CsvHit)) :
    ClusterSnapshot :=
  .scan (releases.toOption.getD []) (csvs.toOption.getD [])

-- What may have been there for the listing to find.
def Completes {α : Type} (listed : Except Error (List α)) (there : List α) : Prop :=
  ∀ l, listed = .ok l → l = there

def Failed {α : Type} (listed : Except Error (List α)) : Prop :=
  ∃ err, listed = .error err

def SameRecord (c d : Component) : Prop :=
  d.ns = c.ns ∧ d.managedBy = c.managedBy

-- A component that is installed is not reported as one that is not, and what is recorded of it is left
-- where some content of the listings that failed would have left it.
structure NotDowngraded (systemNamespace : Str) (c : Component)
    (releases : Except Error (List Release)) (csvs : Except Error (List CsvHit)) : Prop where
  status : (detectOne systemNamespace c (snapshotOf releases csvs)).status ≠ .notInstalled
  record : ∀ rs cs, Completes releases rs → Completes csvs cs →
           SameRecord c (detectOne systemNamespace c (.scan rs cs)) →
           SameRecord c (detectOne systemNamespace c (snapshotOf releases csvs))

def csvFound (c : Component) (csvs : List CsvHit) : Prop :=
  ((componentProbeNames c).findSome? (matchCSV · csvs)).isSome

instance (c : Component) (csvs : List CsvHit) : Decidable (csvFound c csvs) :=
  inferInstanceAs (Decidable (_ = true))

def releaseFound (c : Component) (releases : List Release) : Prop :=
  ∃ n ∈ componentProbeNames c, ∃ rel ∈ releases, rel.chart = some n

-- What was listed is evidence enough.
def Evident (c : Component) (releases : Except Error (List Release))
    (csvs : Except Error (List CsvHit)) : Prop :=
  (∃ cs, csvs = .ok cs ∧ csvFound c cs) ∨
  (∃ rs, releases = .ok rs ∧ releaseFound c rs) ∧ c.managedBy ≠ .olm

section Find

variable {c : Component} {releases : List Release} {csvs csvs' : List CsvHit} {n : Str}

theorem mem_releasesByChart {h : HelmReleaseHit} :
    h ∈ (ClusterSnapshot.scan releases csvs).releasesByChart n ↔ ∃ rel ∈ releases,
      rel.chart = some n ∧ h = ⟨rel.name, rel.ns, if isKnaicRelease rel then .knaic else .manual⟩ := by
  simp only [ClusterSnapshot.releasesByChart, ClusterSnapshot.scan, List.mem_filterMap]
  constructor
  case mp =>
    rintro ⟨⟨ch, hit⟩, ⟨rel, hm, hh⟩, hc⟩
    obtain ⟨n', hn, he⟩ := Option.map_eq_some_iff.mp hh
    cases he
    simp only [Option.ite_none_right_eq_some] at hc
    obtain ⟨rfl, hc⟩ := hc
    exact ⟨rel, hm, hn, (Option.some.inj hc).symm⟩
  case mpr =>
    rintro ⟨rel, hm, hn, rfl⟩
    exact ⟨(n, _), ⟨rel, hm, by rw [ClusterSnapshot.hit, hn]; rfl⟩, if_pos rfl⟩

theorem owner_ne_olm {h : HelmReleaseHit}
    (hm : h ∈ (ClusterSnapshot.scan releases csvs).releasesByChart n) : h.owner ≠ .olm := by
  obtain ⟨rel, -, -, rfl⟩ := mem_releasesByChart.mp hm
  simp only
  split <;> simp

theorem not_csvFound (h : ¬csvFound c csvs) :
    (componentProbeNames c).findSome? (matchCSV · csvs) = none := by
  simpa [csvFound] using h

-- Without a CSV it does not matter how the others are listed.
theorem find_congr (h : ¬csvFound c csvs) (h' : ¬csvFound c csvs') :
    find c (.scan releases csvs) = find c (.scan releases csvs') := by
  have hs : (componentProbeNames c).findSome? (matchCSV · (ClusterSnapshot.scan releases csvs).csvs) =
      none := not_csvFound h
  have hs' : (componentProbeNames c).findSome?
      (matchCSV · (ClusterSnapshot.scan releases csvs').csvs) = none := not_csvFound h'
  simp only [find, hs, hs']
  rfl

theorem find_of_csv (h : csvFound c csvs) :
    ∃ hit ∈ csvs, find c (.scan releases csvs) = .csv hit := by
  obtain ⟨hit, hf⟩ := Option.isSome_iff_exists.mp h
  obtain ⟨n, -, hm⟩ := List.exists_of_findSome?_eq_some hf
  obtain ⟨base, -, hb⟩ := List.exists_of_findSome?_eq_some hm
  exact ⟨hit, List.mem_of_find?_eq_some hb, find_csv hf⟩

theorem find_of_release (h : ¬csvFound c csvs) (hr : releaseFound c releases) :
    ∃ hit, hit.owner ≠ .olm ∧ (find c (.scan releases csvs) = .other hit ∨
      hit.owner = .knaic ∧ find c (.scan releases csvs) = .own hit) := by
  have hs := not_csvFound h
  cases ho : ownHit c (.scan releases csvs)
  case some hit =>
    obtain ⟨n, -, hf⟩ := List.exists_of_findSome?_eq_some ho
    have hk : hit.owner = .knaic := by simpa using List.find?_some hf
    exact ⟨hit, by simp [hk], .inr ⟨hk, find_own hs ho⟩⟩
  case none =>
    obtain ⟨n, hn, rel, hm, hc⟩ := hr
    have hsome : ((componentProbeNames c).findSome? fun n =>
        ((ClusterSnapshot.scan releases csvs).releasesByChart n).head?).isSome := by
      rw [List.findSome?_isSome_iff]
      refine ⟨n, hn, ?_⟩
      rw [Option.isSome_iff_ne_none, ne_eq, List.head?_eq_none_iff]
      exact List.ne_nil_of_mem (mem_releasesByChart.mpr ⟨rel, hm, hc, rfl⟩)
    obtain ⟨hit, hh⟩ := Option.isSome_iff_exists.mp hsome
    obtain ⟨n', -, hf⟩ := List.exists_of_findSome?_eq_some hh
    refine ⟨hit, owner_ne_olm (List.mem_of_mem_head? hf), .inl ?_⟩
    have hs' : (componentProbeNames c).findSome?
        (matchCSV · (ClusterSnapshot.scan releases csvs).csvs) = none := hs
    simp only [find, hs', ho, hh]

theorem find_of_none (h : ¬csvFound c csvs) (hr : ¬releaseFound c releases) :
    find c (.scan releases csvs) = .nothing := by
  have hs : (componentProbeNames c).findSome?
      (matchCSV · (ClusterSnapshot.scan releases csvs).csvs) = none := not_csvFound h
  have he : ∀ n ∈ componentProbeNames c,
      (ClusterSnapshot.scan releases csvs).releasesByChart n = [] := by
    intro n hn
    refine List.eq_nil_iff_forall_not_mem.mpr fun hit hm => ?_
    obtain ⟨rel, hrel, hc, -⟩ := mem_releasesByChart.mp hm
    exact hr ⟨n, hn, rel, hrel, hc⟩
  have ho : ownHit c (.scan releases csvs) = none := by
    refine List.findSome?_eq_none_iff.mpr fun n hn => ?_
    rw [he n hn, List.find?_nil]
  have hh : ((componentProbeNames c).findSome? fun n =>
      ((ClusterSnapshot.scan releases csvs).releasesByChart n).head?) = none := by
    refine List.findSome?_eq_none_iff.mpr fun n hn => ?_
    rw [he n hn, List.head?_nil]
  simp only [find, hs, ho, hh]

-- A CSV that a probe finds, in any namespace.
theorem csvFound_named (hn : n ∈ componentProbeNames c) (ns : Str) : csvFound c [⟨n, ns⟩] := by
  rw [csvFound, List.findSome?_isSome_iff]
  refine ⟨n, hn, ?_⟩
  rw [matchCSV, List.findSome?_isSome_iff]
  exact ⟨n, by simp [csvCandidates], by simp⟩

end Find

section Detect

variable {sys : Str} {c : Component} {releases : List Release} {csvs : List CsvHit}

theorem detectOne_csv (hc : c.status ≠ .installing) (h : csvFound c csvs) :
    (detectOne sys c (.scan releases csvs)).status = .installed ∧
      (detectOne sys c (.scan releases csvs)).managedBy = .olm := by
  obtain ⟨hit, -, hf⟩ := find_of_csv h
  rw [detectOne, if_neg hc, hf]
  exact ⟨rfl, rfl⟩

theorem detectOne_release (hc : c.status ≠ .installing) (h : ¬csvFound c csvs)
    (hr : releaseFound c releases) :
    (detectOne sys c (.scan releases csvs)).status = .installed ∧
      (detectOne sys c (.scan releases csvs)).managedBy ≠ .olm := by
  obtain ⟨hit, ho, hf⟩ := find_of_release h hr
  rw [detectOne, if_neg hc]
  cases hf
  case inl hf => rw [hf]; exact ⟨rfl, ho⟩
  case inr hf => rw [hf.right]; exact ⟨rfl, by simp [Finding.write]⟩

theorem detectOne_none (hc : c.status ≠ .installing) (h : ¬csvFound c csvs)
    (hr : ¬releaseFound c releases) :
    (detectOne sys c (.scan releases csvs)).status = .notInstalled := by
  rw [detectOne, if_neg hc, find_of_none h hr]
  rfl

-- The CSV that was recorded may have been there.
theorem csv_recorded (sys : Str) (hc : c.status ≠ .installing) (hr : releaseFound c releases)
    (ho : c.managedBy = .olm) : ∃ cs, SameRecord c (detectOne sys c (.scan releases cs)) := by
  obtain ⟨n, hn, -⟩ := hr
  refine ⟨[⟨n, c.ns⟩], ?_⟩
  obtain ⟨hit, hm, hf⟩ := find_of_csv (csvFound_named hn c.ns)
  rw [List.mem_singleton.mp hm] at hf
  rw [detectOne, if_neg hc, hf]
  exact ⟨rfl, ho.symm⟩

-- What was found was listed.
theorem csvFound_listed {csvs : Except Error (List CsvHit)} (h : csvFound c (csvs.toOption.getD [])) :
    ∃ cs, csvs = .ok cs ∧ csvFound c cs := by
  cases csvs
  case ok cs => exact ⟨cs, rfl, h⟩
  case error =>
    obtain ⟨hit, hf⟩ := Option.isSome_iff_exists.mp h
    obtain ⟨n, -, hm⟩ := List.exists_of_findSome?_eq_some hf
    obtain ⟨base, -, hb⟩ := List.exists_of_findSome?_eq_some hm
    cases hb

theorem releaseFound_listed {releases : Except Error (List Release)}
    (h : releaseFound c (releases.toOption.getD [])) :
    ∃ rs, releases = .ok rs ∧ releaseFound c rs := by
  cases releases
  case ok rs => exact ⟨rs, rfl, h⟩
  case error =>
    obtain ⟨n, -, rel, hm, -⟩ := h
    cases hm

theorem notDowngraded_csv {cs : List CsvHit} (hc : c.status ≠ .installing) (h : csvFound c cs)
    (releases : Except Error (List Release)) : NotDowngraded sys c releases (.ok cs) := by
  obtain ⟨hit, hf⟩ := Option.isSome_iff_exists.mp h
  have hd (rs : List Release) : detectOne sys c (.scan rs cs) = (Finding.csv hit).write sys c := by
    have hfind : find c (.scan rs cs) = .csv hit := find_csv hf
    rw [detectOne, if_neg hc, hfind]
  constructor
  case status =>
    have hs : (detectOne sys c (snapshotOf releases (.ok cs))).status = .installed :=
      (detectOne_csv hc h).left
    simp [hs]
  case record =>
    intro rs cs' _ hcs hrec
    cases hcs cs rfl
    rw [hd] at hrec
    exact (hd _).symm ▸ hrec

theorem notDowngraded_release {rs : List Release} {csvs : Except Error (List CsvHit)}
    (hc : c.status ≠ .installing) (h : ¬csvFound c (csvs.toOption.getD []))
    (hr : releaseFound c rs) (ho : c.managedBy ≠ .olm) : NotDowngraded sys c (.ok rs) csvs := by
  constructor
  case status =>
    have hs : (detectOne sys c (snapshotOf (.ok rs) csvs)).status = .installed :=
      (detectOne_release hc h hr).left
    simp [hs]
  case record =>
    intro rs' cs hrs _ hrec
    cases hrs rs rfl
    by_cases hcs : csvFound c cs
    case pos => exact absurd (hrec.right.symm.trans (detectOne_csv hc hcs).right) ho
    case neg =>
      have hd : detectOne sys c (.scan rs cs) = detectOne sys c (snapshotOf (.ok rs) csvs) := by
        have hfind : find c (.scan rs cs) = find c (snapshotOf (.ok rs) csvs) := find_congr hcs h
        rw [detectOne, if_neg hc, hfind, detectOne, if_neg hc]
      exact hd ▸ hrec

theorem notDowngraded_iff (sys : Str) {c : Component} {releases : Except Error (List Release)}
    {csvs : Except Error (List CsvHit)} (hc : c.status ≠ .installing)
    (hf : Failed releases ∨ Failed csvs) :
    NotDowngraded sys c releases csvs ↔ Evident c releases csvs := by
  by_cases hcsv : csvFound c (csvs.toOption.getD [])
  case pos =>
    obtain ⟨cs, rfl, hcs⟩ := csvFound_listed hcsv
    exact iff_of_true (notDowngraded_csv hc hcs releases) (.inl ⟨cs, rfl, hcs⟩)
  case neg =>
    by_cases hr : releaseFound c (releases.toOption.getD [])
    case neg =>
      refine iff_of_false (fun h => h.status (detectOne_none hc hcsv hr)) fun h => ?_
      cases h
      case inl h =>
        obtain ⟨cs, rfl, hcs⟩ := h
        exact hcsv hcs
      case inr h =>
        obtain ⟨⟨rs, rfl, hrs⟩, -⟩ := h
        exact hr hrs
    case pos =>
      obtain ⟨rs, rfl, hrs⟩ := releaseFound_listed hr
      by_cases ho : c.managedBy = .olm
      case neg =>
        exact iff_of_true (notDowngraded_release hc hcsv hrs ho) (.inr ⟨⟨rs, rfl, hrs⟩, ho⟩)
      case pos =>
        -- the component was found as a CSV, which is what the listing that failed would tell
        refine iff_of_false (fun h => ?_) fun h => ?_
        case refine_1 =>
          obtain ⟨err, rfl⟩ : Failed csvs := hf.resolve_left fun hf => by
            obtain ⟨err, he⟩ := hf
            cases he
          obtain ⟨cs, hrec⟩ := csv_recorded sys hc hrs ho
          have hsame := h.record rs cs (fun l hl => (Except.ok.inj hl).symm) (fun l hl => by cases hl)
            hrec
          exact (detectOne_release hc hcsv hr).right (hsame.right.trans ho)
        case refine_2 =>
          cases h
          case inl h =>
            obtain ⟨cs, rfl, hcs⟩ := h
            exact hcsv hcs
          case inr h => exact h.right ho

theorem detectOne_downgrade_iff (sys : Str) (c : Component) (releases : Except Error (List Release))
    (csvs : Except Error (List CsvHit)) (hf : Failed releases ∨ Failed csvs) :
    (c.status = .installed → NotDowngraded sys c releases csvs) ↔
      (c.status = .installed → Evident c releases csvs) := by
  refine imp_congr_right fun hi => notDowngraded_iff sys ?_ hf
  simp [hi]

-- The component as it was recorded, and a cluster whose releases cannot be listed.
def recorded (status : Status) : Component :=
  { kserve with status := status, managedBy := .knaic }

def forbidden : Error :=
  .foreign (str "secrets is forbidden")

theorem detectOne_downgrade_kserve :
    ((recorded .installed).status = .installed →
      NotDowngraded (str "knaic-system") (recorded .installed) (.error forbidden) (.ok [])) ↔
    ((recorded .installed).status = .installed → Evident (recorded .installed) (.error forbidden) (.ok [])) :=
  detectOne_downgrade_iff _ _ _ _ (.inl ⟨_, rfl⟩)

theorem listing_failed_downgrades : ¬((recorded .installed).status = .installed →
    NotDowngraded (str "knaic-system") (recorded .installed) (.error forbidden) (.ok [])) := by
  intro h
  exact (h rfl).status (by decide)

end Detect

section Unfinished

inductive HelmStatus
  | unknown | deployed | uninstalled | superseded | failed | uninstalling
  | pendingInstall | pendingUpgrade | pendingRollback
deriving DecidableEq

-- A release as `ListAll` gives it. The snapshot takes no notice of the status.
structure ListedRelease extends Release where
  status : HelmStatus

def HelmStatus.Unfinished : HelmStatus → Prop
  | .failed | .uninstalling | .pendingInstall | .pendingUpgrade | .pendingRollback => True
  | .unknown | .deployed | .uninstalled | .superseded                             => False

-- The only evidence of the component are releases of its chart that do not work.
structure OnlyUnfinished (c : Component) (releases : List ListedRelease) (csvs : List CsvHit) :
    Prop where
  csv        : ¬csvFound c csvs
  release    : releaseFound c (releases.map ListedRelease.toRelease)
  unfinished : ∀ rel ∈ releases, (∃ n ∈ componentProbeNames c, rel.chart = some n) →
               rel.status.Unfinished

-- The component is not reported as installed, and a failure stays on record.
structure NotReported (c d : Component) : Prop where
  status : d.status ≠ .installed
  failed : c.status = .failed → d.status = .failed

theorem unfinished_reported_iff (sys : Str) (c : Component) (releases : List ListedRelease)
    (csvs : List CsvHit) (h : OnlyUnfinished c releases csvs) :
    NotReported c (detectOne sys c (.scan (releases.map ListedRelease.toRelease) csvs)) ↔
      c.status = .installing := by
  constructor
  case mp =>
    intro hn
    by_contra hc
    exact hn.status (detectOne_release hc h.csv h.release).left
  case mpr =>
    intro hc
    have hd : detectOne sys c (.scan (releases.map ListedRelease.toRelease) csvs) = c := if_pos hc
    rw [hd]
    exact ⟨by simp [hc], id⟩

-- The release that an install has left behind when it failed.
def left : ListedRelease where
  name   := str "knaic-kserve"
  ns     := str "knaic-system"
  chart  := some (str "kserve")
  labels := .ofList [(managedByLabel, managedByLabelValue)]
  status := .failed

theorem onlyUnfinished_left : OnlyUnfinished (recorded .failed) [left] [] where
  csv        := by decide
  release    := ⟨str "kserve", by decide, left.toRelease, by simp, rfl⟩
  unfinished := by
    intro rel hm _
    rw [List.mem_singleton.mp hm]
    trivial

theorem unfinished_reported_left :
    NotReported (recorded .failed)
      (detectOne (str "knaic-system") (recorded .failed) (.scan [left.toRelease] [])) ↔
    (recorded .failed).status = .installing :=
  unfinished_reported_iff _ _ [left] [] onlyUnfinished_left

theorem failed_install_reported :
    OnlyUnfinished (recorded .failed) [left] [] ∧ ¬NotReported (recorded .failed)
      (detectOne (str "knaic-system") (recorded .failed) (.scan [left.toRelease] [])) := by
  refine ⟨onlyUnfinished_left, fun h => ?_⟩
  exact h.status (by decide)

end Unfinished

end Components
