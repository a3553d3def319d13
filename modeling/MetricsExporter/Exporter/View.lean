/-
# MetricsExporter.Exporter.View -- how many series of an instrument are told apart

`MetricsExporter::new` installs a view that gives the instruments of processes room for more series
than the default of the OpenTelemetry SDK. The SDK is not part of the repository: it is a parameter.
The series of `cpu_seconds_total` grow with the cores of the host, and the view leaves their limit
as it is: they fit exactly up to 199 cores.

Of the SDK it is assumed that its default limit is 2000, and that a set which is new when the limit
has been reached goes to the one overflow series. The limit of a `Stream` is all that the view sets,
so its other fields are left out.
-/
import MetricsExporter.Lib.Cardinality
import MetricsExporter.LinuxMetrics.Instruments
import MetricsExporter.LinuxMetrics.Unique

namespace MetricsExporter.Exporter

open MetricsExporter.Lib MetricsExporter.Procfs MetricsExporter.Framework
open MetricsExporter.LinuxMetrics

/-! ## The view -/

/-- What the view sets of a `Stream`. -/
structure Stream where
  cardinalityLimit : Nat
  deriving DecidableEq, Repr

/-- The closure `MetricsExporter::new` gives to `with_view`. -/
def view (instrument : Instrument) : Option Stream :=
  if "process_".toList.isPrefixOf instrument.name.toList then
    some { cardinalityLimit := 1000000 }
  else
    none

/-- What of the SDK decides which series are told apart: the limit of an instrument without a
stream of its own, and what the attribute sets of one collection are exported under when there is
a limit; `none` is the overflow series. -/
structure MetricsSdk where
  defaultCardinalityLimit : Nat
  exported : Nat → List (Finset KeyValue) → List (Option (Finset KeyValue))

/-- What is assumed of it. -/
structure MetricsSdk.Documented (sdk : MetricsSdk) : Prop where
  default_limit : sdk.defaultCardinalityLimit = 2000
  exported_eq : ∀ limit sets, sdk.exported limit sets = recorded limit [] sets

/-- The SDK as it is documented. -/
def documentedSdk : MetricsSdk where
  defaultCardinalityLimit := 2000
  exported limit sets := recorded limit [] sets

/-- It satisfies what is assumed, so the assumption can be met. -/
theorem documentedSdk_documented : documentedSdk.Documented where
  default_limit := rfl
  exported_eq _ _ := rfl

/-- The limit the view leaves for an instrument. -/
def MetricsSdk.cardinalityLimit (sdk : MetricsSdk) (instrument : Instrument) : Nat :=
  ((view instrument).map Stream.cardinalityLimit).getD sdk.defaultCardinalityLimit

/-- The attribute sets the cached groups give an instrument, in the order of the observations. -/
def attributeSets (instrument : Instrument) (cache : List SampleGroup) : List (Finset KeyValue) :=
  (instrument.callback cache).map fun o => o.attrs.toFinset

/-- The series of an instrument fit under its limit: no more attribute sets than that, and none of
them goes to the overflow. -/
structure MetricsSdk.Fits (sdk : MetricsSdk) (instrument : Instrument)
    (cache : List SampleGroup) : Prop where
  card_le : (attributeSets instrument cache).toFinset.card ≤ sdk.cardinalityLimit instrument
  no_overflow :
    none ∉ sdk.exported (sdk.cardinalityLimit instrument) (attributeSets instrument cache)

/-- With the documented SDK, the number of attribute sets alone decides. -/
theorem MetricsSdk.Documented.fits_iff {sdk : MetricsSdk} (hsdk : sdk.Documented)
    (instrument : Instrument) (cache : List SampleGroup) :
    sdk.Fits instrument cache ↔
      (attributeSets instrument cache).toFinset.card ≤ sdk.cardinalityLimit instrument := by
  constructor
  · exact fun h => h.card_le
  · intro hcard
    refine ⟨hcard, ?_⟩
    rw [hsdk.exported_eq]
    exact none_notMem_recorded_iff.mpr hcard

/-! ## The series of `cpu_seconds_total` -/

/-- The item of the CPU time. -/
structure CpuItem (item : MetricItem) : Prop where
  mem : item ∈ LinuxMetrics.items
  name_eq : item.name = nameCpuSecondsTotal
  kind_eq : item.kind = .counterF64
  itemType_eq : item.itemType = MetricItemType.cpu

/-- The table has it. -/
theorem exists_cpuItem : ∃ item, CpuItem item := by
  have hdeclared : ∃ item ∈ LinuxMetrics.items, item.name = nameCpuSecondsTotal ∧
      item.kind = .counterF64 ∧ item.itemType = MetricItemType.cpu := by decide
  obtain ⟨item, hitem, hname, hkind, htype⟩ := hdeclared
  exact ⟨item, hitem, hname, hkind, htype⟩

section

variable {rd : Readers} {self : HostCollector} {fs : ProcFs}

/-- A source gives no samples of the items of another family. -/
theorem filter_samples_eq_nil {item : MetricItem} (hitem : item ∈ LinuxMetrics.items)
    {source : Source} (hne : item.itemType ≠ source.itemType) :
    (samples (sourceGroups rd self fs source)).filter
      (Sample.reportedAs item.name item.kind.variant) = [] := by
  rw [List.filter_eq_nil_iff]
  intro s hs hreported
  obtain ⟨group, hgroup, v, hv, rfl⟩ := mem_samples.mp hs
  simp only [Sample.reportedAs, Bool.and_eq_true, beq_iff_eq] at hreported
  have hname : item.name ∈ group.names := hreported.1 ▸ List.mem_map_of_mem hv
  exact hne (itemType_of_name rd self fs hitem hgroup hname)

/-- The instrument of the CPU time reports the samples of `/proc/stat`. -/
theorem callback_cpu {item : MetricItem} (hitem : CpuItem item) :
    (registerItem item).callback ((self.collect rd []).eval fs) =
      observations item.name item.kind.variant (sourceGroups rd self fs .stat) := by
  have hother : ∀ source : Source, source ≠ .stat →
      (samples (sourceGroups rd self fs source)).filter
        (Sample.reportedAs item.name item.kind.variant) = [] := by
    intro source hne
    refine filter_samples_eq_nil hitem.mem fun heq => ?_
    have htype : Source.stat.itemType = source.itemType := hitem.itemType_eq.symm.trans heq
    rcases Source.eq_of_itemType_eq htype with hstat | ⟨p, q, hstat, -⟩
    · exact hne hstat.symm
    · cases hstat
  have hprocesses : ((passPids self fs).map Source.process).flatMap (fun source =>
      (samples (sourceGroups rd self fs source)).filter
        (Sample.reportedAs item.name item.kind.variant)) = [] := by
    rw [List.flatMap_eq_nil_iff]
    intro source hsource
    obtain ⟨pid, -, rfl⟩ := List.mem_map.mp hsource
    exact hother _ (by simp)
  have hsamples : samples ((sources self fs).flatMap (sourceGroups rd self fs)) =
      (sources self fs).flatMap fun source => samples (sourceGroups rd self fs source) :=
    List.flatMap_assoc
  rw [registerItem_callback, eval_collect, List.nil_append, observations, observations, hsamples,
    List.filter_flatMap, sources, List.flatMap_append, List.flatMap_append, hprocesses]
  simp [hother]

/-- With cores collected, every row of the file gives its ten groups. -/
theorem sourceGroups_stat (hcpu : self.cfg.cpu = true) (hperCore : self.cfg.perCore = true)
    {content : Bytes} (hfile : fs.file (linuxProcPath.join "stat") = some content) :
    sourceGroups rd self fs .stat =
      (CpuStat.parseStat rd content).cpus.flatMap (cpuGroups self.hostname) := by
  have hok : (cpuStat rd).eval fs = .ok (CpuStat.parseStat rd content) :=
    eval_fromFile_of_file hfile
  have hall : (CpuStat.parseStat rd content).cpus.filter (cpuPasses self.cfg.perCore) =
      (CpuStat.parseStat rd content).cpus := by
    rw [List.filter_eq_self]
    intro entry _
    rw [cpuPasses, hperCore, Bool.or_true]
  rw [sourceGroups, if_pos hcpu, hok]
  simp [Except.toOption, hall]

/-- A group of a mode has one sample. -/
theorem length_samples_cpuGroups (hostname : KeyValue) (cpus : List CpuTimes) :
    (samples (cpus.flatMap (cpuGroups hostname))).length = 10 * cpus.length := by
  induction cpus with
  | nil => rfl
  | cons entry cpus ih =>
      have hten : (samples (cpuGroups hostname entry)).length = 10 := rfl
      have happend : samples (cpuGroups hostname entry ++ cpus.flatMap (cpuGroups hostname)) =
          samples (cpuGroups hostname entry) ++ samples (cpus.flatMap (cpuGroups hostname)) :=
        List.flatMap_append
      rw [List.flatMap_cons, happend, List.length_append, hten, ih, List.length_cons]
      omega

/-- The samples of `/proc/stat` are all of the one name and number variant. -/
theorem sample_of_stat {s : Sample} (hs : s ∈ samples (sourceGroups rd self fs .stat)) :
    s.name = nameCpuSecondsTotal ∧ s.value.variant = .f64 := by
  obtain ⟨group, hgroup, v, hv, rfl⟩ := mem_samples.mp hs
  cases GroupOf.of_mem hgroup with
  | stat hflag name mode ticks =>
      obtain rfl := List.mem_singleton.mp hv
      exact ⟨rfl, rfl⟩

/-- So the instrument reports all of them. -/
theorem attributeSets_cpu {item : MetricItem} (hitem : CpuItem item) :
    attributeSets (registerItem item) ((self.collect rd []).eval fs) =
      (samples (sourceGroups rd self fs .stat)).map fun s => s.attrs.toFinset := by
  rw [attributeSets, callback_cpu hitem, observations, List.filter_eq_self.mpr, List.map_map]
  · rfl
  · intro s hs
    obtain ⟨hname, hvariant⟩ := sample_of_stat hs
    rw [Sample.reportedAs, hitem.name_eq, hitem.kind_eq, hname, hvariant]
    rfl

/-- Samples of one name that are of different series differ in their attribute sets. -/
theorem nodup_attrs_of_series {name : String} {reported : List Sample}
    (hname : ∀ s ∈ reported, s.name = name) (hseries : (reported.map Sample.series).Nodup) :
    (reported.map fun s => s.attrs.toFinset).Nodup := by
  have hmap : reported.map Sample.series =
      reported.map (Prod.mk name ∘ fun s => s.attrs.toFinset) :=
    List.map_congr_left fun s hs => Prod.ext (hname s hs) rfl
  rw [hmap, ← List.map_map] at hseries
  exact hseries.of_map _

/-- So do the samples of the cores, where their groups are separate. -/
theorem nodup_attributeSets_stat (hseparate : (sourceGroups rd self fs .stat).Pairwise Separate) :
    ((samples (sourceGroups rd self fs .stat)).map fun s => s.attrs.toFinset).Nodup := by
  have hseries : ((samples (sourceGroups rd self fs .stat)).map Sample.series).Nodup :=
    nodup_series (fun group hgroup => names_nodup rd self fs hgroup) hseparate
  exact nodup_attrs_of_series (fun s hs => (sample_of_stat hs).1) hseries

/-- **The number of series.** Ten for the aggregate row, and ten for every core. -/
theorem card_attributeSets_cpu {item : MetricItem} (hitem : CpuItem item)
    (hcpu : self.cfg.cpu = true) (hperCore : self.cfg.perCore = true) {content : Bytes}
    (hfile : fs.file (linuxProcPath.join "stat") = some content) {n : Nat}
    (hcores : ListsCores rd content n) :
    (attributeSets (registerItem item) ((self.collect rd []).eval fs)).toFinset.card =
      10 * (n + 1) := by
  have hgroups : sourceGroups rd self fs .stat =
      (CpuStat.parseStat rd content).cpus.flatMap (cpuGroups self.hostname) :=
    sourceGroups_stat hcpu hperCore hfile
  have hseparate : (sourceGroups rd self fs .stat).Pairwise Separate := by
    rw [hgroups]
    apply cpuGroups_pairwise
    rw [map_name_parseStat]
    exact hcores.nodup
  have hnodup := nodup_attributeSets_stat hseparate
  rw [attributeSets_cpu hitem, List.toFinset_card_of_nodup hnodup, List.length_map, hgroups,
    length_samples_cpuGroups, hcores.length_cpus]

end

/-- The view leaves the instrument of the CPU time at the default. -/
theorem cardinalityLimit_cpu {sdk : MetricsSdk} (hsdk : sdk.Documented) {instrument : Instrument}
    (hname : instrument.name = nameCpuSecondsTotal) : sdk.cardinalityLimit instrument = 2000 := by
  have hview : view instrument = none := by
    rw [view, hname]
    decide
  rw [MetricsSdk.cardinalityLimit, hview, ← hsdk.default_limit]
  rfl

/-- One instrument is registered under the name of the CPU time. -/
theorem registered_cpu (self : HostCollector) (hcpu : self.cfg.cpu = true) :
    ∃ item, CpuItem item ∧
      (self.items.map registerItem).filter (fun inst => inst.name == nameCpuSecondsTotal) =
        [registerItem item] := by
  obtain ⟨item, hitem⟩ := exists_cpuItem
  have hmem : item ∈ self.items := by
    rw [HostCollector.items_eq]
    refine List.mem_filter.mpr ⟨hitem.mem, ?_⟩
    rw [hitem.itemType_eq, declares_iff]
    exact .inr (.inr ⟨.cpu, rfl, hcpu⟩)
  refine ⟨item, hitem, ?_⟩
  rw [List.filter_map, ← hitem.name_eq]
  exact congrArg (List.map registerItem) (filter_key_eq_singleton (nodup_item_names self) hmem)

/-- **The series of the cores fit exactly up to 199 cores.** When cores are collected and
`/proc/stat` has the aggregate row and `n` core rows, the one instrument `cpu_seconds_total` gets
no more attribute sets than its limit, and none of them goes to the overflow, exactly when
`n ≤ 199`. -/
theorem cpuSeries_fit_iff (sdk : MetricsSdk) (hsdk : sdk.Documented) (rd : Readers)
    (self : HostCollector) (hcpu : self.cfg.cpu = true) (hperCore : self.cfg.perCore = true)
    (fs : ProcFs) (content : Bytes) (hfile : fs.file (linuxProcPath.join "stat") = some content)
    (n : Nat) (hcores : ListsCores rd content n) :
    ∃ instrument,
      (self.items.map registerItem).filter (fun inst => inst.name == nameCpuSecondsTotal) =
        [instrument] ∧
      (sdk.Fits instrument ((self.collect rd []).eval fs) ↔ n ≤ 199) := by
  obtain ⟨item, hitem, hregistered⟩ := registered_cpu self hcpu
  refine ⟨registerItem item, hregistered, ?_⟩
  have hcard := card_attributeSets_cpu hitem hcpu hperCore hfile hcores
  have hlimit : sdk.cardinalityLimit (registerItem item) = 2000 :=
    cardinalityLimit_cpu hsdk hitem.name_eq
  rw [hsdk.fits_iff, hcard, hlimit]
  omega

/-- Two cores, and a line that is no row. -/
theorem smallSnapshot_cores :
    ListsCores Readers.documented (bytes "cpu 3 1\ncpu0 2 1\ncpu1 1\nctxt 40\n") 2 where
  nodup := by decide
  aggregate := by decide
  cores := by decide

/-- With two cores there is room. -/
theorem cpuSeries_fit_iff_smallSnapshot :
    ∃ instrument,
      ((HostCollector.new "box" everyFamily).items.map registerItem).filter
          (fun inst => inst.name == nameCpuSecondsTotal) = [instrument] ∧
      (documentedSdk.Fits instrument (((HostCollector.new "box" everyFamily).collect
        Readers.documented []).eval smallSnapshot) ↔ 2 ≤ 199) :=
  cpuSeries_fit_iff documentedSdk documentedSdk_documented Readers.documented _ rfl rfl
    smallSnapshot _ rfl 2 smallSnapshot_cores

/-- A host of which only the table of an idle machine with `n` cores is known. -/
def idleHost (n : Nat) : ProcFs := .ofLists [(["proc", "stat"], coreTable n)] []

/-- A host with 200 cores gives 2010 attribute sets where there is room for 2000. -/
theorem idleHost_overflows :
    (idleHost 200).file (linuxProcPath.join "stat") = some (coreTable 200) ∧
      ListsCores Readers.documented (coreTable 200) 200 ∧
      ∃ instrument,
        ((HostCollector.new "box" everyFamily).items.map registerItem).filter
            (fun inst => inst.name == nameCpuSecondsTotal) = [instrument] ∧
        documentedSdk.cardinalityLimit instrument = 2000 ∧
        (attributeSets instrument (((HostCollector.new "box" everyFamily).collect
          Readers.documented []).eval (idleHost 200))).toFinset.card = 2010 ∧
        none ∈ documentedSdk.exported 2000 (attributeSets instrument
          (((HostCollector.new "box" everyFamily).collect Readers.documented []).eval
            (idleHost 200))) := by
  have hcores := coreTable_listsCores documented_readsDecimals 200
  obtain ⟨item, hitem, hregistered⟩ :=
    registered_cpu (HostCollector.new "box" everyFamily) rfl
  have hcard : (attributeSets (registerItem item) (((HostCollector.new "box" everyFamily).collect
      Readers.documented []).eval (idleHost 200))).toFinset.card = 10 * (200 + 1) :=
    card_attributeSets_cpu hitem rfl rfl rfl hcores
  refine ⟨rfl, hcores, registerItem item, hregistered,
    cardinalityLimit_cpu documentedSdk_documented hitem.name_eq, hcard, ?_⟩
  by_contra hnone
  have hfits := none_notMem_recorded_iff.mp hnone
  rw [hcard] at hfits
  omega

end MetricsExporter.Exporter
