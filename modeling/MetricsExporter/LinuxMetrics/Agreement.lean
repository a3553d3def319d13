/-
# MetricsExporter.LinuxMetrics.Agreement -- registration, sampling and observation agree

Every group builder pushes a fixed list of signatures (`pushedSignatures`). All of them are
declared, under the item type of their family, in the one table of items, whose names are distinct.
As both sides are gated by the same flags, the items of a collector cover each of its passes.

`pushedSignatures` is a second list, written beside the builders and compared with them and with the
table. A builder or an item that changes alone breaks one of the two comparisons.
-/
import MetricsExporter.Framework.Coverage
import MetricsExporter.LinuxMetrics.Host

namespace MetricsExporter.LinuxMetrics

open MetricsExporter.Lib MetricsExporter.Procfs MetricsExporter.Framework

/-! ## What each family declares and pushes -/

/-- The signatures the table declares under an item type. -/
def declaredSignatures (itemType : UInt16) : List Signature :=
  (items.filter (fun item => item.itemType == itemType)).map MetricItem.signature

/-- The signatures of the values of a group, in order. -/
def groupSignatures (group : SampleGroup) : List Signature :=
  group.values.map SampleValue.signature

/-- The item type of the family a source belongs to. -/
def Source.itemType : Source → UInt16
  | .uptime => MetricItemType.uptime
  | .loadavg => MetricItemType.loadavg
  | .stat => MetricItemType.cpu
  | .process _ => MetricItemType.process
  | .netDev => MetricItemType.net
  | .diskstats => MetricItemType.disk
  | .meminfo => MetricItemType.mem

/-- What `collect_io_metrics` pushes. -/
def ioSignatures : List Signature :=
  [(nameProcessIoRcharTotal, .u64), (nameProcessIoWcharTotal, .u64),
    (nameProcessIoSyscrTotal, .u64), (nameProcessIoSyscwTotal, .u64),
    (nameProcessIoReadBytesTotal, .u64), (nameProcessIoWriteBytesTotal, .u64),
    (nameProcessIoCancelledWriteBytesTotal, .u64)]

/-- What `collect_status_metrics` pushes. -/
def statusSignatures : List Signature :=
  [(nameProcessMemVirtBytes, .u64), (nameProcessMemRssBytes, .u64),
    (nameProcessMemHwmBytes, .u64), (nameProcessMemSharedBytes, .u64),
    (nameProcessMemSwapBytes, .u64), (nameProcessMemHugetlbBytes, .u64),
    (nameProcessFdSize, .u64), (nameProcessThreads, .u64),
    (nameProcessCtxtSwitchesVoluntaryTotal, .u64),
    (nameProcessCtxtSwitchesNonvoluntaryTotal, .u64)]

/-- What `collect_cpu_time_metrics` pushes. -/
def cpuTimeSignatures : List Signature :=
  [(nameProcessCpuUserSecondsTotal, .f64), (nameProcessCpuSystemSecondsTotal, .f64)]

/-- The signatures the groups of a source push, in order. A row of a process leaves out those of
the files that could not be read. -/
def pushedSignatures : Source → List Signature
  | .uptime => [(nameUptime, .f64)]
  | .loadavg =>
      [(nameLoadavg1m, .f64), (nameLoadavg5m, .f64), (nameLoadavg15m, .f64),
        (nameLoadavgRunningTasks, .u64), (nameLoadavgTotalTasks, .u64)]
  | .stat => [(nameCpuSecondsTotal, .f64)]
  | .process _ => ioSignatures ++ statusSignatures ++ cpuTimeSignatures
  | .netDev =>
      [(nameIfaceRxBytesTotal, .u64), (nameIfaceRxPacketsTotal, .u64),
        (nameIfaceRxErrsTotal, .u64), (nameIfaceRxDropTotal, .u64),
        (nameIfaceTxBytesTotal, .u64), (nameIfaceTxPacketsTotal, .u64),
        (nameIfaceTxErrsTotal, .u64), (nameIfaceTxDropTotal, .u64)]
  | .diskstats =>
      [(nameDiskReadBytesTotal, .u64), (nameDiskReadsCompletedTotal, .u64),
        (nameDiskReadsMergedTotal, .u64), (nameDiskReadTimeMsTotal, .u64),
        (nameDiskWriteBytesTotal, .u64), (nameDiskWritesCompletedTotal, .u64),
        (nameDiskWritesMergedTotal, .u64), (nameDiskWriteTimeMsTotal, .u64),
        (nameDiskIoInProgress, .u64), (nameDiskIoTimeMsTotal, .u64),
        (nameDiskIoTimeWeightedMsTotal, .u64), (nameDiskDiscardBytesTotal, .u64),
        (nameDiskDiscardsCompletedTotal, .u64), (nameDiskDiscardsMergedTotal, .u64),
        (nameDiskDiscardTimeMsTotal, .u64), (nameDiskFlushRequestsTotal, .u64),
        (nameDiskFlushTimeMsTotal, .u64)]
  | .meminfo =>
      [(nameMemTotalBytes, .u64), (nameMemFreeBytes, .u64), (nameMemAvailableBytes, .u64),
        (nameSwapTotalBytes, .u64), (nameSwapFreeBytes, .u64), (nameHugePagesTotalBytes, .u64),
        (nameHugePagesFreeBytes, .u64)]

/-- The table of items has distinct names. -/
theorem items_nodup_names : (items.map MetricItem.name).Nodup := by decide

/-- **The table is what is pushed.** For each family, what its groups push is what the table
declares under its item type. -/
theorem pushedSignatures_perm (source : Source) :
    (pushedSignatures source).Perm (declaredSignatures source.itemType) := by
  cases source with
  | process pid =>
      -- the id is no part of the table
      show (ioSignatures ++ statusSignatures ++ cpuTimeSignatures).Perm
        (declaredSignatures MetricItemType.process)
      decide
  | _ => decide

/-- No family pushes a name twice. -/
theorem pushedSignatures_nodup_names (source : Source) :
    ((pushedSignatures source).map Prod.fst).Nodup := by
  have hdeclared : ((declaredSignatures source.itemType).map Prod.fst).Nodup := by
    have hnames : (declaredSignatures source.itemType).map Prod.fst =
        (items.filter (fun item => item.itemType == source.itemType)).map MetricItem.name := by
      rw [declaredSignatures, List.map_map]
      rfl
    rw [hnames]
    exact items_nodup_names.sublist (List.filter_sublist.map _)
  exact (((pushedSignatures_perm source).map Prod.fst).nodup_iff).mpr hdeclared

/-! ## What the groups of a pass push -/

section

variable (rd : Readers) (self : HostCollector) (fs : ProcFs)

/-- All signatures of a file or none. -/
theorem okSamples_signatures {α : Type} {samples : α → List SampleValue}
    {signatures : List Signature} (hok : ∀ a, (samples a).map SampleValue.signature = signatures)
    (result : ProcResult α) :
    ((okSamples samples result).map SampleValue.signature).Sublist signatures := by
  cases result with
  | error err => exact List.nil_sublist _
  | ok a => exact (hok a) ▸ List.Sublist.refl _

/-- A row pushes the signatures of the files that could be read. -/
theorem taskValues_signatures (p : Process) :
    ((taskValues rd fs p).map SampleValue.signature).Sublist
      (ioSignatures ++ statusSignatures ++ cpuTimeSignatures) := by
  have hio := okSamples_signatures (fun _ => rfl : ∀ io, (ioSamples io).map _ = ioSignatures)
    ((p.io rd).eval fs)
  have hstatus := okSamples_signatures
    (fun _ => rfl : ∀ status, (statusSamples status).map _ = statusSignatures)
    ((p.status rd).eval fs)
  have hstat := okSamples_signatures
    (fun _ => rfl : ∀ stat, (cpuTimeSamples stat).map _ = cpuTimeSignatures) ((p.stat rd).eval fs)
  rw [taskValues, List.map_append, List.map_append]
  exact (hio.append hstatus).append hstat

/-- A builder pushes its whole list, in order. So do the next two. -/
theorem groupSignatures_netGroup (hostname : KeyValue) (stats : IfaceStats) :
    groupSignatures (netGroup hostname stats) = pushedSignatures .netDev := by
  simp [groupSignatures, netGroup, pushedSignatures, SampleValue.signature, Number.variant]

theorem groupSignatures_diskGroup (hostname : KeyValue) (stat : DiskStat) :
    groupSignatures (diskGroup hostname stat) = pushedSignatures .diskstats := by
  simp [groupSignatures, diskGroup, pushedSignatures, SampleValue.signature, Number.variant]

theorem groupSignatures_memGroup (hostname : KeyValue) (mem : MemInfo) :
    groupSignatures (memGroup hostname mem) = pushedSignatures .meminfo := by
  simp [groupSignatures, memGroup, pushedSignatures, SampleValue.signature, Number.variant]

/-- **What a source pushes.** The signatures of its groups are those of its family, in order. -/
theorem groupSignatures_sublist {source : Source} {group : SampleGroup}
    (hgroup : group ∈ sourceGroups rd self fs source) :
    (groupSignatures group).Sublist (pushedSignatures source) := by
  cases GroupOf.of_mem hgroup with
  | uptime | loadavg | stat => exact List.Sublist.refl _
  | process collector task comm => exact taskValues_signatures rd fs task
  | netDev hflag stats => rw [groupSignatures_netGroup]
  | diskstats hflag stat => rw [groupSignatures_diskGroup]
  | meminfo hflag mem => rw [groupSignatures_memGroup]

/-- **What a source pushes is declared**, under the item type of its family. -/
theorem declared_of_mem {source : Source} {group : SampleGroup}
    (hgroup : group ∈ sourceGroups rd self fs source) {v : SampleValue} (hv : v ∈ group.values) :
    ∃ item ∈ items, item.signature = v.signature ∧ item.itemType = source.itemType := by
  have hpushed := (groupSignatures_sublist rd self fs hgroup).subset (List.mem_map_of_mem hv)
  have hdeclared := (pushedSignatures_perm source).mem_iff.mp hpushed
  obtain ⟨item, hitem, hsignature⟩ := List.mem_map.mp hdeclared
  obtain ⟨hitem, htype⟩ := List.mem_filter.mp hitem
  exact ⟨item, hitem, hsignature, beq_iff_eq.mp htype⟩

/-- The items of a collector have distinct names. -/
theorem nodup_item_names : (self.items.map MetricItem.name).Nodup := by
  rw [HostCollector.items_eq]
  exact items_nodup_names.sublist (List.filter_sublist.map _)

/-- The flag that lets a source into a pass also declares its items. -/
theorem declares_of_mem {source : Source} (hsource : source ∈ sources self fs)
    {group : SampleGroup} (hgroup : group ∈ sourceGroups rd self fs source) :
    HostCollector.declares self.cfg source.itemType = true := by
  cases GroupOf.of_mem hgroup with
  | uptime | loadavg => rfl
  | @process pid collector task comm =>
      -- the flag of the processes is looked at once for all of them, in `passPids`
      have hpid : pid ∈ passPids self fs := by simpa [sources] using hsource
      have hflag := (List.mem_ite_nil_right.mp hpid).1
      simp [HostCollector.declares, Source.itemType, hflag]
  | stat hflag | netDev hflag | diskstats hflag | meminfo hflag =>
      simp [HostCollector.declares, Source.itemType, hflag]

/-- **The items of a collector cover each of its passes.** -/
theorem covers_collect : Covers self.items ((self.collect rd []).eval fs) where
  nodup_names := nodup_item_names self
  declared := by
    intro group hgroup v hv
    rw [eval_collect, List.nil_append] at hgroup
    obtain ⟨source, hsource, hgroup⟩ := List.mem_flatMap.mp hgroup
    obtain ⟨item, hitem, hsignature, htype⟩ := declared_of_mem rd self fs hgroup hv
    rw [HostCollector.items_eq, ← hsignature]
    refine List.mem_map_of_mem (List.mem_filter.mpr ⟨hitem, ?_⟩)
    rw [htype]
    exact declares_of_mem rd self fs hsource hgroup

end

/-- **Registration, sampling and observation agree.** One run of the callbacks of all registered
items over the groups of a pass reports each sampled value once, under its name and with the
attributes of its group; and every value has exactly one item, of its number variant. -/
theorem reports_collect (rd : Readers) (self : HostCollector) (fs : ProcFs) :
    (reports (self.items.map registerItem) ((self.collect rd []).eval fs)).Perm
        (samples ((self.collect rd []).eval fs)) ∧
      ∀ group ∈ (self.collect rd []).eval fs, ∀ v ∈ group.values,
        ∃ item, self.items.filter (fun item => item.name == v.name) = [item] ∧
          item.kind.variant = v.value.variant := by
  have hcovers := covers_collect rd self fs
  exact ⟨hcovers.reports_perm, fun group hgroup v hv => hcovers.filter_name hgroup hv⟩

end MetricsExporter.LinuxMetrics
