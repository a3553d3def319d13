/-
# MetricsExporter.LinuxMetrics.Host -- the host collector

`HostCollector` declares the metric items of the enabled families and appends the groups of one pass
over `/proc`. Its specification `eval_collect` lists a pass by the source each group comes from:
what is said of a pass afterwards is said of `sources` and `sourceGroups`, and nothing below unfolds
`collect` again.

A pass is run against one snapshot of `/proc`; `Live` and `Moving` say what becomes of that when the
files change under it. The log lines of a family whose file cannot be read are left out, as are
`name` and `interval`, which the framework asks for once. The host name is what the system reports,
any text at all.
-/
import MetricsExporter.Framework.Sampler
import MetricsExporter.LinuxMetrics.Disk
import MetricsExporter.LinuxMetrics.Mem
import MetricsExporter.LinuxMetrics.Net
import MetricsExporter.LinuxMetrics.Process
import MetricsExporter.Procfs.Loadavg

namespace MetricsExporter.LinuxMetrics

open MetricsExporter.Lib MetricsExporter.Procfs MetricsExporter.Framework

/-! ## The items

The table is that of the source, row by row, with its units and descriptions. -/

namespace MetricItemType

def uptime : UInt16 := 0
def loadavg : UInt16 := 1
def process : UInt16 := 2
def net : UInt16 := 3
def cpu : UInt16 := 4
def disk : UInt16 := 5
def mem : UInt16 := 6

end MetricItemType

/-- `ITEMS`. -/
def items : List MetricItem := [
  ⟨MetricItemType.uptime, nameUptime, .gaugeF64, "s", "System uptime"⟩,
  ⟨MetricItemType.loadavg, nameLoadavg1m, .gaugeF64, "", "1m load average"⟩,
  ⟨MetricItemType.loadavg, nameLoadavg5m, .gaugeF64, "", "5m load average"⟩,
  ⟨MetricItemType.loadavg, nameLoadavg15m, .gaugeF64, "", "15m load average"⟩,
  ⟨MetricItemType.loadavg, nameLoadavgRunningTasks, .gaugeU64, "\x7btasks\x7d",
    "Number of currently running tasks"⟩,
  ⟨MetricItemType.loadavg, nameLoadavgTotalTasks, .gaugeU64, "\x7btasks\x7d",
    "Total number of tasks"⟩,
  ⟨MetricItemType.cpu, nameCpuSecondsTotal, .counterF64, "s",
    "Seconds the CPUs spent in each mode"⟩,
  ⟨MetricItemType.process, nameProcessIoRcharTotal, .counterU64, "By",
    "Number of bytes the process has read (rchar)"⟩,
  ⟨MetricItemType.process, nameProcessIoWcharTotal, .counterU64, "By",
    "Number of bytes the process has written (wchar)"⟩,
  ⟨MetricItemType.process, nameProcessIoReadBytesTotal, .counterU64, "By",
    "Bytes of read(2) I/O for the process"⟩,
  ⟨MetricItemType.process, nameProcessIoWriteBytesTotal, .counterU64, "By",
    "Bytes of write(2) I/O for the process"⟩,
  ⟨MetricItemType.process, nameProcessIoCancelledWriteBytesTotal, .counterU64, "By",
    "Bytes of cancelled write(2) I/O for the process"⟩,
  ⟨MetricItemType.process, nameProcessIoSyscrTotal, .counterU64, "\x7boperations\x7d",
    "Number of read(2) syscalls for the process"⟩,
  ⟨MetricItemType.process, nameProcessIoSyscwTotal, .counterU64, "\x7boperations\x7d",
    "Number of write(2) syscalls for the process"⟩,
  ⟨MetricItemType.process, nameProcessMemVirtBytes, .gaugeU64, "By",
    "Process virtual memory size (VmSize)"⟩,
  ⟨MetricItemType.process, nameProcessMemRssBytes, .gaugeU64, "By",
    "Process resident memory size (VmRSS)"⟩,
  ⟨MetricItemType.process, nameProcessMemHwmBytes, .gaugeU64, "By",
    "Historical peak resident memory of the process (VmHWM)"⟩,
  ⟨MetricItemType.process, nameProcessMemSharedBytes, .gaugeU64, "By",
    "Shared resident memory of the process, RssFile + RssShmem"⟩,
  ⟨MetricItemType.process, nameProcessMemSwapBytes, .gaugeU64, "By",
    "Swapped-out memory of the process (VmSwap)"⟩,
  ⟨MetricItemType.process, nameProcessMemHugetlbBytes, .gaugeU64, "By",
    "Huge pages resident memory of the process (HugetlbPages)"⟩,
  ⟨MetricItemType.process, nameProcessFdSize, .gaugeU64, "\x7bslots\x7d",
    "File descriptor slots currently allocated to the process"⟩,
  ⟨MetricItemType.process, nameProcessThreads, .gaugeU64, "\x7bthreads\x7d",
    "Number of threads in the process"⟩,
  ⟨MetricItemType.process, nameProcessCtxtSwitchesVoluntaryTotal, .counterU64, "\x7bswitches\x7d",
    "Voluntary context switches of the process"⟩,
  ⟨MetricItemType.process, nameProcessCtxtSwitchesNonvoluntaryTotal, .counterU64,
    "\x7bswitches\x7d", "Non-voluntary context switches of the process"⟩,
  ⟨MetricItemType.process, nameProcessCpuUserSecondsTotal, .counterF64, "s",
    "User mode CPU time of the process"⟩,
  ⟨MetricItemType.process, nameProcessCpuSystemSecondsTotal, .counterF64, "s",
    "System mode CPU time of the process"⟩,
  ⟨MetricItemType.net, nameIfaceRxBytesTotal, .counterU64, "By",
    "Number of bytes received by the network interface"⟩,
  ⟨MetricItemType.net, nameIfaceRxPacketsTotal, .counterU64, "\x7bcount\x7d",
    "Number of packets received by the network interface"⟩,
  ⟨MetricItemType.net, nameIfaceRxErrsTotal, .counterU64, "\x7bcount\x7d",
    "Number of receive errors on the network interface"⟩,
  ⟨MetricItemType.net, nameIfaceRxDropTotal, .counterU64, "\x7bcount\x7d",
    "Number of received packets dropped by the network interface"⟩,
  ⟨MetricItemType.net, nameIfaceTxBytesTotal, .counterU64, "By",
    "Number of bytes transmitted by the network interface"⟩,
  ⟨MetricItemType.net, nameIfaceTxPacketsTotal, .counterU64, "\x7bcount\x7d",
    "Number of packets transmitted by the network interface"⟩,
  ⟨MetricItemType.net, nameIfaceTxErrsTotal, .counterU64, "\x7bcount\x7d",
    "Number of transmit errors on the network interface"⟩,
  ⟨MetricItemType.net, nameIfaceTxDropTotal, .counterU64, "\x7bcount\x7d",
    "Number of transmitted packets dropped by the network interface"⟩,
  ⟨MetricItemType.disk, nameDiskReadBytesTotal, .counterU64, "By",
    "Number of bytes read from the block device"⟩,
  ⟨MetricItemType.disk, nameDiskReadsCompletedTotal, .counterU64, "\x7bcount\x7d",
    "Number of reads completed successfully by the block device"⟩,
  ⟨MetricItemType.disk, nameDiskReadsMergedTotal, .counterU64, "\x7bcount\x7d",
    "Number of reads merged by the block device"⟩,
  ⟨MetricItemType.disk, nameDiskReadTimeMsTotal, .counterU64, "ms",
    "Time spent reading from the block device"⟩,
  ⟨MetricItemType.disk, nameDiskWriteBytesTotal, .counterU64, "By",
    "Number of bytes written to the block device"⟩,
  ⟨MetricItemType.disk, nameDiskWritesCompletedTotal, .counterU64, "\x7bcount\x7d",
    "Number of writes completed successfully by the block device"⟩,
  ⟨MetricItemType.disk, nameDiskWritesMergedTotal, .counterU64, "\x7bcount\x7d",
    "Number of writes merged by the block device"⟩,
  ⟨MetricItemType.disk, nameDiskWriteTimeMsTotal, .counterU64, "ms",
    "Time spent writing to the block device"⟩,
  ⟨MetricItemType.disk, nameDiskIoInProgress, .gaugeU64, "\x7boperations\x7d",
    "Number of I/Os currently in progress on the block device"⟩,
  ⟨MetricItemType.disk, nameDiskIoTimeMsTotal, .counterU64, "ms",
    "Time spent doing I/Os on the block device"⟩,
  ⟨MetricItemType.disk, nameDiskIoTimeWeightedMsTotal, .counterU64, "ms",
    "Weighted time spent doing I/Os on the block device"⟩,
  ⟨MetricItemType.disk, nameDiskDiscardBytesTotal, .counterU64, "By",
    "Number of bytes discarded from the block device"⟩,
  ⟨MetricItemType.disk, nameDiskDiscardsCompletedTotal, .counterU64, "\x7bcount\x7d",
    "Number of discards completed successfully by the block device"⟩,
  ⟨MetricItemType.disk, nameDiskDiscardsMergedTotal, .counterU64, "\x7bcount\x7d",
    "Number of discards merged by the block device"⟩,
  ⟨MetricItemType.disk, nameDiskDiscardTimeMsTotal, .counterU64, "ms",
    "Time spent discarding on the block device"⟩,
  ⟨MetricItemType.disk, nameDiskFlushRequestsTotal, .counterU64, "\x7bcount\x7d",
    "Number of flush requests completed successfully by the block device"⟩,
  ⟨MetricItemType.disk, nameDiskFlushTimeMsTotal, .counterU64, "ms",
    "Time spent flushing the block device"⟩,
  ⟨MetricItemType.mem, nameMemTotalBytes, .gaugeU64, "By", "Total usable system memory"⟩,
  ⟨MetricItemType.mem, nameMemFreeBytes, .gaugeU64, "By", "Free system memory"⟩,
  ⟨MetricItemType.mem, nameMemAvailableBytes, .gaugeU64, "By",
    "Estimated memory available for starting new applications"⟩,
  ⟨MetricItemType.mem, nameSwapTotalBytes, .gaugeU64, "By", "Total swap space"⟩,
  ⟨MetricItemType.mem, nameSwapFreeBytes, .gaugeU64, "By", "Free swap space"⟩,
  ⟨MetricItemType.mem, nameHugePagesTotalBytes, .gaugeU64, "By", "Total hugepage memory"⟩,
  ⟨MetricItemType.mem, nameHugePagesFreeBytes, .gaugeU64, "By", "Free hugepage memory"⟩]

/-! ## The collector -/

/-- Which families are on, with their filters. Everything is off by default, as in the source. -/
structure HostCollectorCfg where
  process : Bool := false
  processFilter : ProcessFilter := {}
  net : Bool := false
  netFilter : NetFilter := {}
  cpu : Bool := false
  perCore : Bool := false
  disk : Bool := false
  diskFilter : DiskFilter := {}
  mem : Bool := false

/-- The host collector. Its fields are private and `new` is the only way to one, so the attribute it
puts on every group always has the key `host`. -/
structure HostCollector where
  cfg : HostCollectorCfg
  hostname : KeyValue
  hostname_key : hostname.key = "host"

/-- The group of a `/proc/uptime` snapshot. -/
def uptimeGroup (hostname : KeyValue) (uptime : Uptime) : SampleGroup :=
  (SampleGroup.withAttrs [hostname]).push nameUptime (.f64 uptime.uptime)

/-- The group `collect_loadavg_metrics` appends. -/
def loadavgGroup (hostname : KeyValue) (loadavg : LoadAvg) : SampleGroup :=
  (SampleGroup.withAttrs [hostname])
    |>.push nameLoadavg1m (.f64 loadavg.load1)
    |>.push nameLoadavg5m (.f64 loadavg.load5)
    |>.push nameLoadavg15m (.f64 loadavg.load15)
    |>.push nameLoadavgRunningTasks (.u64 loadavg.running.toUInt64)
    |>.push nameLoadavgTotalTasks (.u64 loadavg.total.toUInt64)

/-- `collect_loadavg_metrics`. -/
def collectLoadavgMetrics (hostname : KeyValue) (loadavg : LoadAvg) (out : List SampleGroup) :
    List SampleGroup :=
  out ++ [loadavgGroup hostname loadavg]

namespace HostCollector

/-- `HostCollector::new`, on the host name the system reports. -/
def new (hostname : String) (cfg : HostCollectorCfg) : HostCollector :=
  { cfg, hostname := KeyValue.string "host" hostname, hostname_key := rfl }

/-- The arm of `match item.item_type` that pushes the item is taken. -/
def declares (cfg : HostCollectorCfg) (itemType : UInt16) : Bool :=
  if itemType = MetricItemType.uptime then true
  else if itemType = MetricItemType.loadavg then true
  else if itemType = MetricItemType.cpu ∧ cfg.cpu then true
  else if itemType = MetricItemType.process ∧ cfg.process then true
  else if itemType = MetricItemType.net ∧ cfg.net then true
  else if itemType = MetricItemType.disk ∧ cfg.disk then true
  else if itemType = MetricItemType.mem ∧ cfg.mem then true
  else false

/-- `Collector::items`. -/
def items (self : HostCollector) : List MetricItem := Id.run do
  let mut items := []
  for item in LinuxMetrics.items do
    if declares self.cfg item.itemType then
      items := items ++ [item]
  return items

/-- `Collector::collect`. A family whose file cannot be read leaves `out` as it is. -/
def collect (rd : Readers) (self : HostCollector) (out : List SampleGroup) :
    ProcM (List SampleGroup) := do
  let uptime ← uptime rd
  let out := match uptime with
    | .ok uptime => out ++ [uptimeGroup self.hostname uptime]
    | .error _ => out
  let loadavg ← loadavg rd
  let out := match loadavg with
    | .ok loadavg => collectLoadavgMetrics self.hostname loadavg out
    | .error _ => out
  let out ← (if self.cfg.cpu then
    collectCpuMetrics rd self.hostname self.cfg.perCore out else pure out)
  let out ← (if self.cfg.process then
    collectProcessMetrics rd self.hostname self.cfg.processFilter out else pure out)
  let out ← (if self.cfg.net then
    collectNetMetrics rd self.hostname self.cfg.netFilter out else pure out)
  let out ← (if self.cfg.disk then
    collectDiskMetrics rd self.hostname self.cfg.diskFilter out else pure out)
  (if self.cfg.mem then collectMemMetrics rd self.hostname out else pure out)

/-- The loop keeps the items of the enabled families, in the order of the table. -/
theorem items_eq (self : HostCollector) :
    self.items = LinuxMetrics.items.filter (fun item => declares self.cfg item.itemType) := by
  unfold items
  dsimp only
  rw [id_forIn (fun items item =>
    if declares self.cfg item.itemType then items ++ [item] else items)]
  · have hfilter := foldl_if_append (fun item : MetricItem => declares self.cfg item.itemType)
      (fun item => [item]) LinuxMetrics.items []
    rw [← List.map_eq_flatMap, List.map_id'] at hfilter
    exact hfilter
  · intro item items
    cases declares self.cfg item.itemType <;> rfl

end HostCollector

/-! ## A pass, source by source

A source is what can fail by itself. A pass goes through its sources in a fixed order, and what it
appends for one of them depends on the files of that source alone. -/

/-- What a group is built from: one of the global files, or the files of one listed process. -/
inductive Source where
  | uptime
  | loadavg
  | stat
  | process (pid : Int32)
  | netDev
  | diskstats
  | meminfo
  deriving DecidableEq, Repr

section

variable (rd : Readers) (self : HostCollector) (fs : ProcFs)

/-- The groups of one source: those built from its file, or the row of the process and the rows
of its tasks. -/
def sourceGroups : Source → List SampleGroup
  | .uptime => ((uptime rd).eval fs).toOption.toList.map (uptimeGroup self.hostname)
  | .loadavg => ((loadavg rd).eval fs).toOption.toList.map (loadavgGroup self.hostname)
  | .stat =>
      if self.cfg.cpu then
        ((cpuStat rd).eval fs).toOption.toList.flatMap fun stats =>
          (stats.cpus.filter (cpuPasses self.cfg.perCore)).flatMap (cpuGroups self.hostname)
      else []
  | .process pid =>
      processRows rd self.hostname self.cfg.processFilter fs (Process.withPid pid)
  | .netDev =>
      if self.cfg.net then
        ((devStats rd).eval fs).toOption.toList.flatMap fun stats =>
          (stats.interfaces.filter (fun stats => self.cfg.netFilter.passes stats.name)).map
            (netGroup self.hostname)
      else []
  | .diskstats =>
      if self.cfg.disk then
        ((diskStats rd).eval fs).toOption.toList.flatMap fun stats =>
          (stats.disks.filter (fun stat => self.cfg.diskFilter.passes stat.name)).map
            (diskGroup self.hostname)
      else []
  | .meminfo =>
      if self.cfg.mem then
        ((meminfo rd).eval fs).toOption.toList.map (memGroup self.hostname)
      else []

/-- What a group of a source is built with, and the flag that lets its family into a pass. -/
inductive GroupOf : Source → SampleGroup → Prop
  | uptime (uptime : Uptime) : GroupOf .uptime (uptimeGroup self.hostname uptime)
  | loadavg (loadavg : LoadAvg) : GroupOf .loadavg (loadavgGroup self.hostname loadavg)
  | stat (hflag : self.cfg.cpu = true) (name mode : String) (ticks : UInt64) :
      GroupOf .stat (cpuGroup self.hostname name mode ticks)
  | process {pid : Int32} (collector : CollectorType) (task : Process) (comm : String) :
      GroupOf (.process pid)
        ⟨taskAttrs self.hostname collector task.pid comm, taskValues rd fs task⟩
  | netDev (hflag : self.cfg.net = true) (stats : IfaceStats) :
      GroupOf .netDev (netGroup self.hostname stats)
  | diskstats (hflag : self.cfg.disk = true) (stat : DiskStat) :
      GroupOf .diskstats (diskGroup self.hostname stat)
  | meminfo (hflag : self.cfg.mem = true) (mem : MemInfo) :
      GroupOf .meminfo (memGroup self.hostname mem)

variable {rd self fs} in
/-- Every group of a source is one of these, and an optional family has none unless its flag is set.
-/
theorem GroupOf.of_mem {source : Source} {group : SampleGroup}
    (hgroup : group ∈ sourceGroups rd self fs source) : GroupOf rd self fs source group := by
  cases source with
  | uptime =>
      obtain ⟨uptime, -, rfl⟩ := List.mem_map.mp hgroup
      exact .uptime uptime
  | loadavg =>
      obtain ⟨loadavg, -, rfl⟩ := List.mem_map.mp hgroup
      exact .loadavg loadavg
  | stat =>
      obtain ⟨hflag, hgroup⟩ := List.mem_ite_nil_right.mp hgroup
      obtain ⟨stats, -, hgroup⟩ := List.mem_flatMap.mp hgroup
      obtain ⟨entry, -, hgroup⟩ := List.mem_flatMap.mp hgroup
      obtain ⟨⟨mode, ticks⟩, -, rfl⟩ := List.mem_map.mp hgroup
      exact .stat hflag entry.name mode ticks
  | process pid =>
      obtain ⟨collector, task, hrow⟩ := mem_processRows rd _ _ fs hgroup
      obtain ⟨comm, -, -, -, rfl⟩ := (mem_taskRow rd _ _ fs).mp hrow
      exact .process collector task comm
  | netDev =>
      obtain ⟨hflag, hgroup⟩ := List.mem_ite_nil_right.mp hgroup
      obtain ⟨stats, -, hgroup⟩ := List.mem_flatMap.mp hgroup
      obtain ⟨stats, -, rfl⟩ := List.mem_map.mp hgroup
      exact .netDev hflag stats
  | diskstats =>
      obtain ⟨hflag, hgroup⟩ := List.mem_ite_nil_right.mp hgroup
      obtain ⟨stats, -, hgroup⟩ := List.mem_flatMap.mp hgroup
      obtain ⟨stat, -, rfl⟩ := List.mem_map.mp hgroup
      exact .diskstats hflag stat
  | meminfo =>
      obtain ⟨hflag, hgroup⟩ := List.mem_ite_nil_right.mp hgroup
      obtain ⟨mem, -, rfl⟩ := List.mem_map.mp hgroup
      exact .meminfo hflag mem

/-- The processes a pass goes through. -/
def passPids : List Int32 :=
  if self.cfg.process then processPids fs else []

/-- The sources of a pass, in the order it goes through them. -/
def sources : List Source :=
  [.uptime, .loadavg, .stat] ++ (passPids self fs).map .process ++ [.netDev, .diskstats, .meminfo]

/-- The groups of a pass, each with the source it is built from. -/
def taggedGroups : List (Source × SampleGroup) :=
  (sources self fs).flatMap fun source =>
    (sourceGroups rd self fs source).map fun group => (source, group)

/-- By its tag a source is kept or removed with all of its groups. -/
theorem filter_tags_eq_nil (keep : Source → Bool) (source : Source)
    (hremoved : keep source = false) :
    ((sourceGroups rd self fs source).map fun group => (source, group)).filter
      (fun g => keep g.1) = [] := by
  rw [List.filter_eq_nil_iff]
  intro g hg
  obtain ⟨group, -, rfl⟩ := List.mem_map.mp hg
  exact Bool.eq_false_iff.mp hremoved

end

/-! ## What a pass appends

Each family appends its groups to whatever is in the buffer. A file that cannot be read, or that
does not parse, appends nothing. -/

section

variable (rd : Readers) (hostname : KeyValue) (out : List SampleGroup) (fs : ProcFs)

/-- The rows of `/proc/stat` that pass, ten groups each. -/
theorem eval_collectCpuMetrics (perCore : Bool) :
    (collectCpuMetrics rd hostname perCore out).eval fs =
      out ++ ((cpuStat rd).eval fs).toOption.toList.flatMap fun stats =>
        (stats.cpus.filter (cpuPasses perCore)).flatMap (cpuGroups hostname) := by
  unfold collectCpuMetrics
  rw [ProcM.eval_bind]
  cases (cpuStat rd).eval fs with
  | error err => simp [Except.toOption]
  | ok stats => simp [Except.toOption, collectCpuTimes_eq]

/-- One group for each interface that passes the filter. -/
theorem eval_collectNetMetrics (filter : NetFilter) :
    (collectNetMetrics rd hostname filter out).eval fs =
      out ++ ((devStats rd).eval fs).toOption.toList.flatMap fun stats =>
        (stats.interfaces.filter (fun stats => filter.passes stats.name)).map
          (netGroup hostname) := by
  unfold collectNetMetrics
  rw [ProcM.eval_bind]
  cases (devStats rd).eval fs with
  | error err => simp [Except.toOption]
  | ok stats => simp [Except.toOption, collectNetDevices_eq]

/-- One group for each device that passes the filter. -/
theorem eval_collectDiskMetrics (filter : DiskFilter) :
    (collectDiskMetrics rd hostname filter out).eval fs =
      out ++ ((diskStats rd).eval fs).toOption.toList.flatMap fun stats =>
        (stats.disks.filter (fun stat => filter.passes stat.name)).map (diskGroup hostname) := by
  unfold collectDiskMetrics
  rw [ProcM.eval_bind]
  cases (diskStats rd).eval fs with
  | error err => simp [Except.toOption]
  | ok stats => simp [Except.toOption, collectDiskDevices_eq]

/-- One group for the host memory. -/
theorem eval_collectMemMetrics :
    (collectMemMetrics rd hostname out).eval fs =
      out ++ ((meminfo rd).eval fs).toOption.toList.map (memGroup hostname) := by
  unfold collectMemMetrics
  rw [ProcM.eval_bind]
  cases (meminfo rd).eval fs with
  | error err => simp [Except.toOption]
  | ok mem => simp [Except.toOption, collectMemValues]

/-- A family behind its flag. -/
theorem eval_ite_append {flag : Bool} {m : ProcM (List SampleGroup)} {groups : List SampleGroup}
    (hm : m.eval fs = out ++ groups) :
    (if flag then m else pure out : ProcM (List SampleGroup)).eval fs =
      out ++ if flag then groups else [] := by
  cases flag
  · simp
  · simpa using hm

end

/-- **What a pass appends.** The groups of its sources, in order. -/
theorem eval_collect (rd : Readers) (self : HostCollector) (out : List SampleGroup)
    (fs : ProcFs) :
    (self.collect rd out).eval fs = out ++ (sources self fs).flatMap (sourceGroups rd self fs) := by
  -- the two families without a flag append in the pass itself
  have huptime : (match (uptime rd).eval fs with
      | .ok uptime => out ++ [uptimeGroup self.hostname uptime]
      | .error _ => out) = out ++ sourceGroups rd self fs .uptime := by
    rw [sourceGroups]
    cases (uptime rd).eval fs <;> simp [Except.toOption]
  have hloadavg : ∀ out, (match (loadavg rd).eval fs with
      | .ok loadavg => collectLoadavgMetrics self.hostname loadavg out
      | .error _ => out) = out ++ sourceGroups rd self fs .loadavg := by
    intro out
    rw [sourceGroups]
    cases (loadavg rd).eval fs <;> simp [Except.toOption, collectLoadavgMetrics]
  -- the flag of the processes stands in front of the list of ids
  have hprocess : (if self.cfg.process then (processPids fs).flatMap
        (fun pid => processRows rd self.hostname self.cfg.processFilter fs (Process.withPid pid))
      else []) = ((passPids self fs).map Source.process).flatMap (sourceGroups rd self fs) := by
    rw [passPids, List.flatMap_map]
    cases self.cfg.process <;> rfl
  unfold HostCollector.collect
  -- each family in turn; the rewriting must not be left to the kernel, which would unfold the pass
  simp -implicitDefEqProofs only [ProcM.eval_bind, huptime, hloadavg,
    eval_ite_append _ fs (eval_collectCpuMetrics rd self.hostname _ fs self.cfg.perCore),
    eval_ite_append _ fs (eval_collectProcessMetrics rd self.hostname self.cfg.processFilter fs _),
    eval_ite_append _ fs (eval_collectNetMetrics rd self.hostname _ fs self.cfg.netFilter),
    eval_ite_append _ fs (eval_collectDiskMetrics rd self.hostname _ fs self.cfg.diskFilter),
    eval_ite_append _ fs (eval_collectMemMetrics rd self.hostname _ fs), hprocess]
  simp only [sources, List.flatMap_append, List.flatMap_cons, List.flatMap_nil, List.append_nil,
    List.append_assoc, sourceGroups]

/-- **A tick of the host collector** publishes the groups of its pass and nothing that the buffers
held before. -/
theorem sampleOnce_collect (rd : Readers) (self : HostCollector) (fs : ProcFs)
    (cache scratch : List SampleGroup) :
    sampleOnce (fun out => (self.collect rd out).eval fs) cache scratch =
      ((sources self fs).flatMap (sourceGroups rd self fs), cache) := by
  rw [sampleOnce, clear, eval_collect, List.nil_append]

/-- Without the tags they are the groups of the pass. -/
theorem map_snd_taggedGroups (rd : Readers) (self : HostCollector) (fs : ProcFs) :
    (taggedGroups rd self fs).map Prod.snd =
      (sources self fs).flatMap (sourceGroups rd self fs) := by
  simp [taggedGroups, List.map_flatMap, Function.comp_def]

/-! ## A small host

It serves the results that ask for distinct entities. No process of it has a `status` or a `stat`,
and the second has no `io` either. -/

/-- Every family, with cores and threads. -/
def everyFamily : HostCollectorCfg where
  process := true
  processFilter := { thread := true }
  net := true
  cpu := true
  perCore := true
  disk := true
  mem := true

/-- Two cores, a disk, an interface, and two processes of which the first has a second thread. -/
def smallSnapshot : ProcFs := .ofLists
  [(["proc", "stat"], bytes "cpu 3 1\ncpu0 2 1\ncpu1 1\nctxt 40\n"),
    (["proc", "diskstats"], bytes "8 0 sda 1 2 3\n8 16 sdb 4\n"),
    (["proc", "net", "dev"],
      bytes "Inter-|   Receive\nlo: 1 2 3 4 5 6 7 8 9 10 11 12 13 14 15 16\n"),
    (["proc", "1", "comm"], bytes "init\n"),
    (["proc", "1", "io"], bytes "rchar: 1\n"),
    (["proc", "2", "comm"], bytes "worker\n"),
    (["proc", "7", "comm"], bytes "sh\n")]
  [(["proc"], [some ⟨bytes "1", true⟩, some ⟨bytes "stat", false⟩, none, some ⟨bytes "7", true⟩]),
    (["proc", "1", "task"], [some ⟨bytes "1", true⟩, some ⟨bytes "2", true⟩]),
    (["proc", "7", "task"], [some ⟨bytes "7", true⟩])]

end MetricsExporter.LinuxMetrics
