/-
# MetricsExporter.LinuxMetrics.Report -- what a host should report

`report` is written down from what the metrics mean: names, labels, columns, units and the order of
the groups stand here a second time, and no function of the collectors is used. `collect_shows`
compares it with a pass over `/proc`.

The comparison assumes of the readers that they read the numerals the kernel prints, and nothing of
floating-point text. Two things are as the code has them and not as one would wish: sizes in bytes
are those of 64 bits that wrap, and a thread is looked up by its id alone, so that its row tells of
the files under `/proc/<tid>`. The report of the host itself comes out where each listed thread is
shown alike at its two places.
-/
import MetricsExporter.LinuxMetrics.Kernel

namespace MetricsExporter.LinuxMetrics

open MetricsExporter.Lib MetricsExporter.Procfs MetricsExporter.Framework

/-! ## The groups of the global files

Of the types of the model only the values that were printed are used, by the columns and keys they
were printed under. -/

/-- So many units in bytes, in the 64 bits that are exported. -/
def bytesOf (unit : Nat) (n : Nat) : UInt64 := .ofNat (n * unit)

section

variable (hostname : KeyValue)

/-- The two groups without a label of their own. -/
def uptimeReport (u : Uptime) : SampleGroup where
  attrs := [hostname]
  values := [⟨"uptime", .f64 u.uptime⟩]

def loadavgReport (load : LoadAvg) : SampleGroup where
  attrs := [hostname]
  values :=
    [⟨"loadavg_1m", .f64 load.load1⟩, ⟨"loadavg_5m", .f64 load.load5⟩,
      ⟨"loadavg_15m", .f64 load.load15⟩,
      ⟨"loadavg_running_tasks", .u64 (.ofNat load.running.toNat)⟩,
      ⟨"loadavg_total_tasks", .u64 (.ofNat load.total.toNat)⟩]

/-- A block device: sectors have 512 bytes, and times stay in milliseconds. -/
def diskReport (d : PrintedDevice) : SampleGroup where
  attrs := [hostname, ⟨"device", .string d.name.text⟩]
  values :=
    let count (i : Nat) : Number := .u64 (d.column i)
    let bytes (i : Nat) : Number := .u64 (bytesOf 512 (d.column i).toNat)
    [⟨"disk_read_bytes_total", bytes 3⟩, ⟨"disk_reads_completed_total", count 1⟩,
      ⟨"disk_reads_merged_total", count 2⟩, ⟨"disk_read_time_ms_total", count 4⟩,
      ⟨"disk_write_bytes_total", bytes 7⟩, ⟨"disk_writes_completed_total", count 5⟩,
      ⟨"disk_writes_merged_total", count 6⟩, ⟨"disk_write_time_ms_total", count 8⟩,
      -- the one column that is no counter
      ⟨"disk_io_in_progress", count 9⟩, ⟨"disk_io_time_ms_total", count 10⟩,
      ⟨"disk_io_time_weighted_ms_total", count 11⟩, ⟨"disk_discard_bytes_total", bytes 14⟩,
      ⟨"disk_discards_completed_total", count 12⟩, ⟨"disk_discards_merged_total", count 13⟩,
      ⟨"disk_discard_time_ms_total", count 15⟩, ⟨"disk_flush_requests_total", count 16⟩,
      ⟨"disk_flush_time_ms_total", count 17⟩]

/-- The memory: kilobytes, and huge pages by their number and size. -/
def memReport (mem : MemInfo) : SampleGroup where
  attrs := [hostname]
  values :=
    let bytes (kb : Nat) : Number := .u64 (bytesOf 1024 kb)
    let pageSize := mem.hugePageSizeKb.toNat
    [⟨"mem_total_bytes", bytes mem.memTotalKb.toNat⟩,
      ⟨"mem_free_bytes", bytes mem.memFreeKb.toNat⟩,
      ⟨"mem_available_bytes", bytes mem.memAvailableKb.toNat⟩,
      ⟨"swap_total_bytes", bytes mem.swapTotalKb.toNat⟩,
      ⟨"swap_free_bytes", bytes mem.swapFreeKb.toNat⟩,
      ⟨"huge_pages_total_bytes", bytes (mem.hugePagesTotal.toNat * pageSize)⟩,
      ⟨"huge_pages_free_bytes", bytes (mem.hugePagesFree.toNat * pageSize)⟩]

end

/-! ## The row of a task

The values by file, and the row that is made of them. A task without a name has no row, whatever
else can be read. -/

namespace Task

/-- The seven values of `io`, as they were printed. -/
def ioValues (io : Io) : List SampleValue :=
  [⟨"process_io_rchar_total", .u64 io.rchar⟩, ⟨"process_io_wchar_total", .u64 io.wchar⟩,
    ⟨"process_io_syscr_total", .u64 io.syscr⟩, ⟨"process_io_syscw_total", .u64 io.syscw⟩,
    ⟨"process_io_read_bytes_total", .u64 io.readBytes⟩,
    ⟨"process_io_write_bytes_total", .u64 io.writeBytes⟩,
    ⟨"process_io_cancelled_write_bytes_total", .u64 io.cancelledWriteBytes⟩]

/-- The ten values of a status. Shared memory is that of files and that of shared segments, added up
with saturation at 64 bits. -/
def statusValues (s : Status) : List SampleValue :=
  let bytes (kb : UInt64) : Number := .u64 (bytesOf 1024 kb.toNat)
  let sharedKb := min (s.rssFileKb.toNat + s.rssShmemKb.toNat) (2 ^ 64 - 1)
  [⟨"process_mem_virt_bytes", bytes s.vmSizeKb⟩, ⟨"process_mem_rss_bytes", bytes s.vmRssKb⟩,
    ⟨"process_mem_hwm_bytes", bytes s.vmHwmKb⟩,
    ⟨"process_mem_shared_bytes", .u64 (bytesOf 1024 sharedKb)⟩,
    ⟨"process_mem_swap_bytes", bytes s.vmSwapKb⟩,
    ⟨"process_mem_hugetlb_bytes", bytes s.hugetlbPagesKb⟩, ⟨"process_fd_size", .u64 s.fdSize⟩,
    ⟨"process_threads", .u64 s.threads⟩,
    ⟨"process_ctxt_switches_voluntary_total", .u64 s.voluntaryCtxtSwitches⟩,
    ⟨"process_ctxt_switches_nonvoluntary_total", .u64 s.nonvoluntaryCtxtSwitches⟩]

/-- Ticks in seconds, at a hundred a second. -/
def statValues (s : Stat) : List SampleValue :=
  [⟨"process_cpu_user_seconds_total", .f64 (s.utimeTicks.toFloat / 100.0)⟩,
    ⟨"process_cpu_system_seconds_total", .f64 (s.stimeTicks.toFloat / 100.0)⟩]

variable (t : Task)

/-- The values of the files that are there. -/
def values : List SampleValue :=
  t.io.toList.flatMap ioValues ++ t.status.toList.flatMap statusValues ++
    t.stat.toList.flatMap statValues

/-- Some file of the task is there. -/
def live : Bool := t.io.isSome || t.status.isSome || t.stat.isSome

/-- The task has a name, and any set of patterns there is matches it. -/
def passes (cfg : ProcessFilter) : Bool :=
  t.name.any fun name => cfg.commsRegex.all (·.isMatch name)

/-- The row of a task that passes and has a file. -/
def row (hostname : KeyValue) (cfg : ProcessFilter) (thread : Bool) (id : Int32) :
    Option SampleGroup := do
  let name ← t.name
  if t.passes cfg && t.live then
    some {
      attrs := [hostname, ⟨"pid", .i64 id.toInt64⟩, ⟨"comm", .string name⟩,
        ⟨"thread", .bool thread⟩]
      values := t.values }
  else none

end Task

/-! ## The report -/

namespace Kernel

variable (k : Kernel) (hostname : KeyValue)

/-- The rows of a process: its own, and behind one that passes the filter those of the threads it
lists, if these are asked for. The first thread of a process has its id and is not listed again. -/
def taskRows (cfg : ProcessFilter) (pid : Int32) : List SampleGroup :=
  ((k.task pid).row hostname cfg false pid).toList ++
    if (k.task pid).passes cfg && cfg.thread then
      (((k.threads pid).getD []).filter (· ≠ pid)).filterMap fun tid =>
        (k.thread pid tid).row hostname cfg true tid
    else []

/-- The groups of a host, family by family. -/
def report (cfg : HostCollectorCfg) : List SampleGroup :=
  k.uptime.toList.map (uptimeReport hostname) ++
  k.loadavg.toList.map (loadavgReport hostname) ++
  (if cfg.cpu then
    k.cpus.toList.flatMap fun cpus =>
      (cpus.filter fun c => c.name.text == "cpu" || cfg.perCore).flatMap (printedCpuGroups hostname)
  else []) ++
  (if cfg.process then (k.processes.getD []).flatMap (k.taskRows hostname cfg.processFilter)
  else []) ++
  (if cfg.net then
    k.interfaces.toList.flatMap fun devices =>
      (devices.filter fun d => cfg.netFilter.ifaces.all fun ifaces =>
        decide (d.name.text ∈ ifaces)).map (printedNetGroup hostname)
  else []) ++
  (if cfg.disk then
    k.disks.toList.flatMap fun devices =>
      (devices.filter fun d => cfg.diskFilter.excludeDevicesRegex.all fun exclude =>
        !exclude.isMatch d.name.text).map (diskReport hostname)
  else []) ++
  if cfg.mem then k.mem.toList.map (memReport hostname) else []

/-- The host as it looks to whoever looks its threads up under `/proc/<tid>`. -/
def underIds : Kernel := { k with thread := fun _ tid => k.task tid }

end Kernel

/-! ## What the collectors build

Each builder of the collectors makes the group that is written down above. -/

/-- A product of 64 bits is the product, modulo `2 ^ 64`. -/
theorem mul_eq_bytesOf (n unit : UInt64) : n * unit = bytesOf unit.toNat n.toNat := by
  rw [bytesOf, UInt64.ofNat_mul, UInt64.ofNat_toNat, UInt64.ofNat_toNat]

theorem loadavgGroup_eq (hostname : KeyValue) (load : LoadAvg) :
    loadavgGroup hostname load = loadavgReport hostname load := by
  simp [loadavgGroup, loadavgReport, SampleGroup.push, SampleGroup.withAttrs, nameLoadavg1m,
    nameLoadavg5m, nameLoadavg15m, nameLoadavgRunningTasks, nameLoadavgTotalTasks]

/-- The columns in sectors are the only ones that are multiplied. -/
theorem diskGroup_eq (hostname : KeyValue) (d : PrintedDevice) :
    diskGroup hostname d.stat = diskReport hostname d := by
  have hbytes (i : Nat) : d.column i * sectorSize = bytesOf 512 (d.column i).toNat :=
    mul_eq_bytesOf (d.column i) sectorSize
  simp only [diskGroup, PrintedDevice.stat, hbytes]
  rfl

/-- Kilobytes, and pages by their size: the product of three factors wraps like that of two. -/
theorem memGroup_eq (hostname : KeyValue) (mem : MemInfo) :
    memGroup hostname mem = memReport hostname mem := by
  have hbytes (kb : UInt64) : kb * bytesPerKb = bytesOf 1024 kb.toNat :=
    mul_eq_bytesOf kb bytesPerKb
  have hpages (count : UInt64) : count * mem.hugePageSizeKb * bytesPerKb =
      bytesOf 1024 (count.toNat * mem.hugePageSizeKb.toNat) := by
    rw [bytesOf, UInt64.ofNat_mul, UInt64.ofNat_mul, UInt64.ofNat_toNat, UInt64.ofNat_toNat]
    rfl
  simp only [memGroup, hpages, hbytes]
  rfl

/-- The saturating sum as a minimum of natural numbers. -/
theorem saturatingAdd_eq (a b : UInt64) :
    saturatingAdd a b = .ofNat (min (a.toNat + b.toNat) (2 ^ 64 - 1)) := by
  unfold saturatingAdd
  split
  · rw [Nat.min_eq_left (by omega), UInt64.ofNat_add, UInt64.ofNat_toNat, UInt64.ofNat_toNat]
  · rw [Nat.min_eq_right (by omega)]

/-- Of the ten values six are in bytes, one of them a sum. -/
theorem statusSamples_eq (s : Status) : statusSamples s = Task.statusValues s := by
  have hbytes (kb : UInt64) : kb * bytesPerKb = bytesOf 1024 kb.toNat :=
    mul_eq_bytesOf kb bytesPerKb
  have hshared : saturatingAdd s.rssFileKb s.rssShmemKb * bytesPerKb =
      bytesOf 1024 (min (s.rssFileKb.toNat + s.rssShmemKb.toNat) (2 ^ 64 - 1)) := by
    rw [saturatingAdd_eq, bytesOf, UInt64.ofNat_mul]
    rfl
  simp only [statusSamples, collectStatusMetrics, hshared, hbytes]
  rfl

/-! ## One id -/

section

variable {rd : Readers} {fs : ProcFs} {k : Kernel}

/-- What can be read of an id is what its task has to show. -/
theorem Task.Shows.rowValues_eq (hrd : rd.ReadsDecimals) {t : Task} {id : Int32}
    (h : t.Shows fs (idDir id)) : rowValues rd fs id = t.values := by
  rw [rowValues, h.ioOf_eq hrd, h.statusOf_eq hrd, h.statOf_eq hrd,
    show statusSamples = Task.statusValues from funext statusSamples_eq]
  rfl

namespace Kernel.Shows

/-- The row of an id is that of the task its files show. -/
theorem expectedRow_eq (hrd : rd.ReadsDecimals) (h : k.Shows rd fs) (hostname : KeyValue)
    (cfg : ProcessFilter) (visit : Visit) :
    expectedRow rd hostname cfg fs visit =
      (k.task visit.id).row hostname cfg visit.thread visit.id := by
  have htask := h.task visit.id
  have hlive : Live rd fs visit.id = (k.task visit.id).live := by
    rw [Live, htask.ioOf_eq hrd, htask.statusOf_eq hrd, htask.statOf_eq hrd, Task.live]
  unfold expectedRow Task.row Task.passes
  rw [htask.commOf_eq, htask.rowValues_eq hrd, hlive]
  cases (k.task visit.id).name <;> rfl

/-- The rows of a process are those of a host whose threads are looked up by their ids. -/
theorem processRows_eq (hrd : rd.ReadsDecimals) (h : k.Shows rd fs) (hostname : KeyValue)
    (cfg : ProcessFilter) (pid : Int32) :
    processRows rd hostname cfg fs (Process.withPid pid) =
      k.underIds.taskRows hostname cfg pid := by
  have hpasses : Passes cfg fs pid = (k.task pid).passes cfg := by
    rw [Passes, (h.task pid).commOf_eq, Task.passes]
  have htasks : taskPids fs pid = (k.threads pid).getD [] := by
    rw [taskPids, listedPids_of_rel (h.threads pid)]
  rw [processRows_withPid, List.filterMap_eq_flatMap_toList, List.flatMap_cons,
    h.expectedRow_eq hrd, hpasses, htasks, Kernel.taskRows]
  refine congrArg (((k.task pid).row hostname cfg false pid).toList ++ ·) ?_
  rw [show k.underIds.task pid = k.task pid from rfl]
  split
  · rw [List.flatMap_map, List.filterMap_eq_flatMap_toList]
    exact List.flatMap_congr fun tid _ =>
      congrArg Option.toList (h.expectedRow_eq hrd hostname cfg ⟨true, tid⟩)
  · rfl

end Kernel.Shows

end

/-! ## The whole pass

Family by family: what the file parses to, and the groups that are made of it. -/

/-- A file that parses to an image of what was printed. -/
theorem flatMap_map_toList {α β γ : Type} {o : Option α} {o' : Option β} {value : α → β}
    (f : β → List γ) (h : o' = o.map value) :
    o'.toList.flatMap f = o.toList.flatMap (f ∘ value) := by
  subst h
  cases o <;> rfl

namespace Kernel.Shows

variable {rd : Readers} {fs : ProcFs} {k : Kernel} {self : HostCollector}

theorem groups_uptime (h : k.Shows rd fs) :
    sourceGroups rd self fs .uptime = k.uptime.toList.map (uptimeReport self.hostname) := by
  rw [sourceGroups, toOption_uptime_of_rel h.uptime]
  rfl

theorem groups_loadavg (hrd : rd.ReadsIntegers) (h : k.Shows rd fs) :
    sourceGroups rd self fs .loadavg = k.loadavg.toList.map (loadavgReport self.hostname) := by
  -- the load average is shown as it parses
  have hload : ((Procfs.loadavg rd).eval fs).toOption = k.loadavg.map fun load => load :=
    toOption_fromFile_of_rel (LoadAvg.parseLoadavg_of_prints hrd) h.loadavg
  rw [sourceGroups, hload, Option.map_id']
  exact List.map_congr_left fun load _ => loadavgGroup_eq self.hostname load

theorem groups_stat (hrd : rd.ReadsDecimals) (h : k.Shows rd fs) :
    sourceGroups rd self fs .stat =
      if self.cfg.cpu then
        k.cpus.toList.flatMap fun cpus =>
          (cpus.filter fun c => c.name.text == "cpu" || self.cfg.perCore).flatMap
            (printedCpuGroups self.hostname)
      else [] := by
  have hstat : ((cpuStat rd).eval fs).toOption = k.cpus.map fun cpus =>
      ⟨cpus.map PrintedCpu.times⟩ :=
    toOption_fromFile_of_rel
      (fun cpus content hprints => congrArg Except.ok (parseStat_of_print hrd cpus content hprints))
      h.cpus
  rw [sourceGroups, flatMap_map_toList _ hstat]
  refine congrArg (fun groups => if self.cfg.cpu then groups else []) ?_
  apply List.flatMap_congr
  intro cpus _
  rw [Function.comp_apply, List.filter_map, List.flatMap_map]
  exact List.flatMap_congr fun c _ => cpuGroups_times self.hostname c

theorem groups_processes (hrd : rd.ReadsDecimals) (h : k.Shows rd fs) :
    ((passPids self fs).map Source.process).flatMap (sourceGroups rd self fs) =
      if self.cfg.process then
        (k.processes.getD []).flatMap (k.underIds.taskRows self.hostname self.cfg.processFilter)
      else [] := by
  have hpids : processPids fs = k.processes.getD [] := by
    rw [processPids, listedPids_of_rel h.processes]
  rw [passPids, List.flatMap_map, hpids]
  cases self.cfg.process with
  | false => rfl
  | true =>
      rw [if_pos rfl, if_pos rfl]
      exact List.flatMap_congr fun pid _ => h.processRows_eq hrd _ _ pid

theorem groups_netDev (hrd : rd.ReadsDecimals) (h : k.Shows rd fs) :
    sourceGroups rd self fs .netDev =
      if self.cfg.net then
        k.interfaces.toList.flatMap fun devices =>
          (devices.filter fun d => self.cfg.netFilter.ifaces.all fun ifaces =>
            decide (d.name.text ∈ ifaces)).map (printedNetGroup self.hostname)
      else [] := by
  have hdev : ((devStats rd).eval fs).toOption = k.interfaces.map fun devices =>
      ⟨devices.map PrintedIface.stats⟩ :=
    toOption_fromFile_of_rel
      (fun devices content hprints =>
        congrArg Except.ok (parseDev_of_print hrd devices content hprints)) h.interfaces
  rw [sourceGroups, flatMap_map_toList _ hdev]
  refine congrArg (fun groups => if self.cfg.net then groups else []) ?_
  apply List.flatMap_congr
  intro devices _
  simp only [Function.comp_apply, List.filter_map, List.map_map, NetFilter.passes_eq]
  rfl

theorem groups_diskstats (hrd : rd.ReadsDecimals) (h : k.Shows rd fs) :
    sourceGroups rd self fs .diskstats =
      if self.cfg.disk then
        k.disks.toList.flatMap fun devices =>
          (devices.filter fun d => self.cfg.diskFilter.excludeDevicesRegex.all fun exclude =>
            !exclude.isMatch d.name.text).map (diskReport self.hostname)
      else [] := by
  have hdisks : ((diskStats rd).eval fs).toOption = k.disks.map fun devices =>
      ⟨devices.map PrintedDevice.stat⟩ :=
    toOption_fromFile_of_rel
      (fun devices content hprints =>
        congrArg Except.ok (parseDiskstats_of_print hrd devices content hprints)) h.disks
  rw [sourceGroups, flatMap_map_toList _ hdisks]
  refine congrArg (fun groups => if self.cfg.disk then groups else []) ?_
  apply List.flatMap_congr
  intro devices _
  simp only [Function.comp_apply, List.filter_map, List.map_map, DiskFilter.passes_eq]
  exact List.map_congr_left fun d _ => diskGroup_eq self.hostname d

theorem groups_meminfo (hrd : rd.ReadsDecimals) (h : k.Shows rd fs) :
    sourceGroups rd self fs .meminfo =
      if self.cfg.mem then k.mem.toList.map (memReport self.hostname) else [] := by
  have hmem : ((meminfo rd).eval fs).toOption = k.mem.map fun mem => mem :=
    toOption_fromFile_of_rel (MemInfo.parseMeminfo_of_prints hrd) h.mem
  rw [sourceGroups, hmem, Option.map_id',
    List.map_congr_left fun mem _ => memGroup_eq self.hostname mem]

/-- The groups of the sources are those of the host whose threads are looked up by their ids. -/
theorem groups_sources (hrd : rd.ReadsIntegers) (h : k.Shows rd fs) :
    (sources self fs).flatMap (sourceGroups rd self fs) =
      k.underIds.report self.hostname self.cfg := by
  have hdec := hrd.readsDecimals
  rw [sources, List.flatMap_append, List.flatMap_append, h.groups_processes hdec]
  simp only [List.flatMap_cons, List.flatMap_nil, List.append_nil, h.groups_uptime,
    h.groups_loadavg hrd, h.groups_stat hdec, h.groups_netDev hdec, h.groups_diskstats hdec,
    h.groups_meminfo hdec, Kernel.report, List.append_assoc]
  rfl

end Kernel.Shows

end MetricsExporter.LinuxMetrics
