/-
# MetricsExporter.LinuxMetrics.Instruments -- no registered instrument is dead

Each enabled family whose source has an entity to show pushes, in one group, every signature the
table of items declares for it. So one run of the callbacks reports something to every instrument.
Nothing of a family that is not enabled is registered or pushed.

What an entity is, is said of the files (`Family.HasEntity`), and for a process it takes all three
of its files: a row without a `stat` file has no CPU times to show, and the instruments of those
would stay silent. Uptime and load average have no flag, so they are assumed to parse.
-/
import MetricsExporter.LinuxMetrics.Rows

namespace MetricsExporter.LinuxMetrics

open MetricsExporter.Lib MetricsExporter.Procfs MetricsExporter.Framework

/-! ## The families behind a flag

Uptime and load average are always on. The others have a flag, a type of item and a source each. -/

/-- The five families with a flag of their own. -/
inductive Family where
  | cpu
  | process
  | net
  | disk
  | mem
  deriving DecidableEq, Repr

namespace Family

/-- The type of its items in the table. -/
def itemType : Family → UInt16
  | cpu => MetricItemType.cpu
  | process => MetricItemType.process
  | net => MetricItemType.net
  | disk => MetricItemType.disk
  | mem => MetricItemType.mem

/-- Its flag. -/
def enabled (cfg : HostCollectorCfg) : Family → Bool
  | cpu => cfg.cpu
  | process => cfg.process
  | net => cfg.net
  | disk => cfg.disk
  | mem => cfg.mem

/-- The names of the metrics of a family. -/
def metricNames (family : Family) : List String :=
  (items.filter fun item => item.itemType == family.itemType).map MetricItem.name

/-- The source of a family has an entity to show: a well-formed line for `cpu`, for an interface the
filter lets through or for a device it does not exclude, host memory that parses, or a listed
process that passes and whose three files are all readable and parse. -/
def HasEntity (rd : Readers) (cfg : HostCollectorCfg) (fs : ProcFs) : Family → Prop
  | cpu => ∃ content ∈ fs.file (linuxProcPath.join "stat"), ∃ line ∈ lines content,
      ∃ entry, parseCpuLine rd line = some entry ∧ entry.name = "cpu"
  | process => ∃ pid ∈ processPids fs, Passes cfg.processFilter fs pid = true ∧
      (ioOf rd fs pid).isSome = true ∧ (statusOf rd fs pid).isSome = true ∧
      (statOf rd fs pid).isSome = true
  | net => ∃ content ∈ fs.file ((linuxProcPath.join "net").join "dev"), ∃ line ∈ lines content,
      ∃ stats, parseDevLine rd line = some stats ∧ cfg.netFilter.passes stats.name = true
  | disk => ∃ content ∈ fs.file (linuxProcPath.join "diskstats"), ∃ line ∈ lines content,
      ∃ stat, parseDiskstatsLine rd line = some stat ∧ cfg.diskFilter.passes stat.name = true
  | mem => ∃ content ∈ fs.file (linuxProcPath.join "meminfo"),
      ∃ mem, MemInfo.parseMeminfo rd content = .ok mem

end Family

/-- The flags decide what is declared. -/
theorem declares_iff (cfg : HostCollectorCfg) (itemType : UInt16) :
    HostCollector.declares cfg itemType = true ↔
      itemType = MetricItemType.uptime ∨ itemType = MetricItemType.loadavg ∨
        ∃ family : Family, itemType = family.itemType ∧ family.enabled cfg = true := by
  have hfamily : (∃ family : Family, itemType = family.itemType ∧ family.enabled cfg = true) ↔
      (itemType = MetricItemType.cpu ∧ cfg.cpu = true) ∨
      (itemType = MetricItemType.process ∧ cfg.process = true) ∨
      (itemType = MetricItemType.net ∧ cfg.net = true) ∨
      (itemType = MetricItemType.disk ∧ cfg.disk = true) ∨
      (itemType = MetricItemType.mem ∧ cfg.mem = true) := by
    constructor
    · rintro ⟨family, rfl, henabled⟩
      cases family <;> simp_all [Family.itemType, Family.enabled]
    · rintro (⟨rfl, h⟩ | ⟨rfl, h⟩ | ⟨rfl, h⟩ | ⟨rfl, h⟩ | ⟨rfl, h⟩)
      · exact ⟨.cpu, rfl, h⟩
      · exact ⟨.process, rfl, h⟩
      · exact ⟨.net, rfl, h⟩
      · exact ⟨.disk, rfl, h⟩
      · exact ⟨.mem, rfl, h⟩
  rw [hfamily]
  simp [HostCollector.declares]

section

variable {rd : Readers} {self : HostCollector} {fs : ProcFs}

/-- A source pushes, in one group, all its family declares. -/
def PushesAll (rd : Readers) (self : HostCollector) (fs : ProcFs) (itemType : UInt16) : Prop :=
  ∃ source ∈ sources self fs, source.itemType = itemType ∧
    ∃ group ∈ sourceGroups rd self fs source, groupSignatures group = pushedSignatures source

/-- Uptime and load average are on in every configuration. -/
theorem pushesAll_uptime (huptime : ∃ value, (uptime rd).eval fs = .ok value) :
    PushesAll rd self fs MetricItemType.uptime := by
  obtain ⟨value, hok⟩ := huptime
  refine ⟨.uptime, by simp [sources], rfl, uptimeGroup self.hostname value, ?_, rfl⟩
  rw [sourceGroups, hok]
  exact List.mem_map_of_mem (List.mem_singleton_self value)

theorem pushesAll_loadavg (hloadavg : ∃ value, (loadavg rd).eval fs = .ok value) :
    PushesAll rd self fs MetricItemType.loadavg := by
  obtain ⟨value, hok⟩ := hloadavg
  refine ⟨.loadavg, by simp [sources], rfl, loadavgGroup self.hostname value, ?_, rfl⟩
  rw [sourceGroups, hok]
  exact List.mem_map_of_mem (List.mem_singleton_self value)

/-- The aggregate row passes whatever `per_core` says. -/
theorem pushesAll_cpu (henabled : self.cfg.cpu = true)
    (hentity : Family.HasEntity rd self.cfg fs .cpu) :
    PushesAll rd self fs MetricItemType.cpu := by
  obtain ⟨content, hfile, line, hline, entry, hentry, hname⟩ := hentity
  have hok : (cpuStat rd).eval fs = .ok (CpuStat.parseStat rd content) :=
    eval_fromFile_of_file hfile
  have hmem : entry ∈ (CpuStat.parseStat rd content).cpus := mem_parseLines hline hentry
  have hpasses : cpuPasses self.cfg.perCore entry = true := by simp [cpuPasses, hname]
  refine ⟨.stat, by simp [sources], rfl, cpuGroup self.hostname entry.name "user" entry.user,
    ?_, rfl⟩
  rw [sourceGroups, if_pos henabled, hok]
  refine List.mem_flatMap.mpr ⟨_, List.mem_singleton_self _, ?_⟩
  refine List.mem_flatMap.mpr ⟨entry, List.mem_filter.mpr ⟨hmem, hpasses⟩, ?_⟩
  exact List.mem_map.mpr ⟨("user", entry.user), List.mem_cons_self, rfl⟩

/-- One line of an interface that passes is enough. -/
theorem pushesAll_net (henabled : self.cfg.net = true)
    (hentity : Family.HasEntity rd self.cfg fs .net) :
    PushesAll rd self fs MetricItemType.net := by
  obtain ⟨content, hfile, line, hline, stats, hstats, hpasses⟩ := hentity
  have hok : (devStats rd).eval fs = .ok (DevStats.parseDev rd content) :=
    eval_fromFile_of_file hfile
  have hmem : stats ∈ (DevStats.parseDev rd content).interfaces := mem_parseLines hline hstats
  refine ⟨.netDev, by simp [sources], rfl, netGroup self.hostname stats, ?_,
    groupSignatures_netGroup self.hostname stats⟩
  rw [sourceGroups, if_pos henabled, hok]
  refine List.mem_flatMap.mpr ⟨_, List.mem_singleton_self _, ?_⟩
  exact List.mem_map_of_mem (List.mem_filter.mpr ⟨hmem, hpasses⟩)

/-- What is there of a result is its value. -/
theorem eq_ok_of_mem_toList {α : Type} {result : ProcResult α} {a : α}
    (h : a ∈ result.toOption.toList) : result = .ok a := by
  cases result with
  | error err => cases h
  | ok b => rw [List.mem_singleton.mp h]

/-- The groups of the devices, by the lines of their table. -/
theorem mem_diskGroups {group : SampleGroup} :
    group ∈ sourceGroups rd self fs .diskstats ↔
      self.cfg.disk = true ∧ ∃ content ∈ fs.file (linuxProcPath.join "diskstats"),
        ∃ line ∈ lines content, ∃ stat, parseDiskstatsLine rd line = some stat ∧
          self.cfg.diskFilter.passes stat.name = true ∧ group = diskGroup self.hostname stat := by
  rw [sourceGroups, List.mem_ite_nil_right]
  refine and_congr_right fun _ => ?_
  constructor
  · intro hgroup
    obtain ⟨stats, hstats, hgroup⟩ := List.mem_flatMap.mp hgroup
    obtain ⟨content, hfile, rfl⟩ := exists_of_eval_fromFile (eq_ok_of_mem_toList hstats)
    obtain ⟨stat, hstat, rfl⟩ := List.mem_map.mp hgroup
    obtain ⟨hstat, hpasses⟩ := List.mem_filter.mp hstat
    rw [DiskStats.parseDiskstats, parseLines_eq] at hstat
    obtain ⟨line, hline, hrow⟩ := List.mem_filterMap.mp hstat
    exact ⟨content, hfile, line, hline, stat, hrow, hpasses, rfl⟩
  · rintro ⟨content, hfile, line, hline, stat, hrow, hpasses, rfl⟩
    have hok : (diskStats rd).eval fs = .ok (DiskStats.parseDiskstats rd content) :=
      eval_fromFile_of_file hfile
    have hstat : stat ∈ (DiskStats.parseDiskstats rd content).disks := mem_parseLines hline hrow
    rw [hok]
    refine List.mem_flatMap.mpr ⟨_, List.mem_singleton_self _, ?_⟩
    exact List.mem_map_of_mem (List.mem_filter.mpr ⟨hstat, hpasses⟩)

/-- One line of a device that passes is enough. -/
theorem pushesAll_disk (henabled : self.cfg.disk = true)
    (hentity : Family.HasEntity rd self.cfg fs .disk) :
    PushesAll rd self fs MetricItemType.disk := by
  obtain ⟨content, hfile, line, hline, stat, hstat, hpasses⟩ := hentity
  refine ⟨.diskstats, by simp [sources], rfl, diskGroup self.hostname stat, ?_,
    groupSignatures_diskGroup self.hostname stat⟩
  exact mem_diskGroups.mpr ⟨henabled, content, hfile, line, hline, stat, hstat, hpasses, rfl⟩

/-- So is a `/proc/meminfo` that parses. -/
theorem pushesAll_mem (henabled : self.cfg.mem = true)
    (hentity : Family.HasEntity rd self.cfg fs .mem) :
    PushesAll rd self fs MetricItemType.mem := by
  obtain ⟨content, hfile, mem, hmem⟩ := hentity
  have hok : (meminfo rd).eval fs = .ok mem := (eval_fromFile_of_file hfile).trans hmem
  refine ⟨.meminfo, by simp [sources], rfl, memGroup self.hostname mem, ?_,
    groupSignatures_memGroup self.hostname mem⟩
  rw [sourceGroups, if_pos henabled, hok]
  exact List.mem_map_of_mem (List.mem_singleton_self mem)

/-- The row of a process whose three files are all there holds all that is declared. -/
theorem pushesAll_process (henabled : self.cfg.process = true)
    (hentity : Family.HasEntity rd self.cfg fs .process) :
    PushesAll rd self fs MetricItemType.process := by
  obtain ⟨pid, hpid, hpasses, hio, hstatus, hstat⟩ := hentity
  -- a process whose files are read has a row, and a row of all three files pushes everything
  have hlive : Live rd fs pid = true := by simp [Live, hio]
  have hsome := expectedRow_isSome rd self.hostname self.cfg.processFilter fs ⟨false, pid⟩
  rw [hpasses, hlive, Bool.and_self] at hsome
  obtain ⟨group, hrow⟩ := Option.isSome_iff_exists.mp hsome
  obtain ⟨-, hvalues⟩ := expectedRow_eq_some rd self.hostname _ fs hrow
  refine ⟨.process pid, ?_, rfl, group, ?_, ?_⟩
  · have hpass : pid ∈ passPids self fs := by
      rw [passPids, if_pos henabled]
      exact hpid
    simp [sources, hpass]
  · rw [sourceGroups, processRows_withPid]
    exact List.mem_filterMap.mpr ⟨_, List.mem_cons_self, hrow⟩
  · rw [groupSignatures, hvalues, rowValues_signatures, rowSignatures, if_pos hio,
      if_pos hstatus, if_pos hstat]
    rfl

/-- So every enabled family with an entity pushes all it declares. -/
theorem pushesAll_of_entity {family : Family} (henabled : family.enabled self.cfg = true)
    (hentity : family.HasEntity rd self.cfg fs) : PushesAll rd self fs family.itemType := by
  cases family with
  | cpu => exact pushesAll_cpu henabled hentity
  | process => exact pushesAll_process henabled hentity
  | net => exact pushesAll_net henabled hentity
  | disk => exact pushesAll_disk henabled hentity
  | mem => exact pushesAll_mem henabled hentity

/-- An item whose family pushes all it declares reports something. -/
theorem callback_of_pushesAll {item : MetricItem} (hitem : item ∈ items)
    (hall : PushesAll rd self fs item.itemType) :
    (registerItem item).callback ((self.collect rd []).eval fs) ≠ [] := by
  obtain ⟨source, hsource, htype, group, hgroup, hpushed⟩ := hall
  -- the table declares it, so the group pushes it
  have hdeclared : item.signature ∈ declaredSignatures source.itemType := by
    rw [declaredSignatures, htype]
    exact List.mem_map_of_mem (List.mem_filter.mpr ⟨hitem, beq_self_eq_true _⟩)
  have hsignature : item.signature ∈ groupSignatures group := by
    rw [hpushed]
    exact (pushedSignatures_perm source).mem_iff.mpr hdeclared
  obtain ⟨v, hv, hsignature⟩ := List.mem_map.mp hsignature
  have hcollected : group ∈ (self.collect rd []).eval fs := by
    rw [eval_collect, List.nil_append]
    exact List.mem_flatMap.mpr ⟨source, hsource, hgroup⟩
  exact callback_ne_nil hcollected hv hsignature

end

/-- What is not declared is not registered. -/
theorem name_notMem_of_disabled {self : HostCollector} {family : Family}
    (hdisabled : family.enabled self.cfg = false) :
    ∀ item ∈ self.items, item.name ∉ family.metricNames := by
  intro item hitem hname
  rw [HostCollector.items_eq] at hitem
  obtain ⟨hitem, hdeclares⟩ := List.mem_filter.mp hitem
  obtain ⟨item', hitem', heq⟩ := List.mem_map.mp hname
  obtain ⟨hitem', htype⟩ := List.mem_filter.mp hitem'
  -- the table has each name once, so it is the same item
  obtain rfl := List.inj_on_of_nodup_map items_nodup_names hitem' hitem heq
  rw [beq_iff_eq.mp htype, declares_iff] at hdeclares
  rcases hdeclares with huptime | hloadavg | ⟨family', hfamily, henabled⟩
  · cases family <;> exact absurd huptime (by decide)
  · cases family <;> exact absurd hloadavg (by decide)
  · -- no two families share a type
    have hsame : family = family' := by
      revert hfamily
      cases family <;> cases family' <;> decide
    rw [hsame, henabled] at hdisabled
    cases hdisabled

/-- **No registered instrument is dead.** Where uptime and load average parse and each enabled
family has an entity to show, one pass and one run of the callbacks give every registered
instrument an observation; of a family that is not enabled nothing is registered and nothing
pushed. -/
theorem instruments_observed (rd : Readers) (self : HostCollector) (fs : ProcFs)
    (huptime : ∃ value, (uptime rd).eval fs = .ok value)
    (hloadavg : ∃ value, (loadavg rd).eval fs = .ok value)
    (hentities : ∀ family : Family, family.enabled self.cfg = true →
      family.HasEntity rd self.cfg fs) :
    (∀ item ∈ self.items, (registerItem item).callback ((self.collect rd []).eval fs) ≠ []) ∧
      ∀ family : Family, family.enabled self.cfg = false →
        (∀ item ∈ self.items, item.name ∉ family.metricNames) ∧
        ∀ group ∈ (self.collect rd []).eval fs, ∀ v ∈ group.values,
          v.name ∉ family.metricNames := by
  constructor
  · intro item hitem
    rw [HostCollector.items_eq] at hitem
    obtain ⟨hitem, hdeclares⟩ := List.mem_filter.mp hitem
    apply callback_of_pushesAll hitem
    rw [declares_iff] at hdeclares
    rcases hdeclares with htype | htype | ⟨family, htype, henabled⟩
    · exact htype ▸ pushesAll_uptime huptime
    · exact htype ▸ pushesAll_loadavg hloadavg
    · exact htype ▸ pushesAll_of_entity henabled (hentities family henabled)
  · intro family hdisabled
    refine ⟨name_notMem_of_disabled hdisabled, fun group hgroup v hv => ?_⟩
    obtain ⟨item, hitem, hsignature⟩ :=
      List.mem_map.mp ((covers_collect rd self fs).declared group hgroup v hv)
    -- what is pushed is registered, and what is registered is not of this family
    have hname : item.name = v.name := congrArg Prod.fst hsignature
    rw [← hname]
    exact name_notMem_of_disabled hdisabled item hitem

/-- The documented readers, with floats that are whole numbers. -/
def wholeReaders : Readers :=
  { Readers.documented with
    f64 := fun bs => (Decimal.unsigned (Decimal.chars bs)).map Float.ofNat
    strF64 := fun s => (Decimal.unsigned s.toList).map Float.ofNat }

/-- A host where every family has an entity to show. -/
def fullSnapshot : ProcFs := .ofLists
  [(["proc", "uptime"], bytes "12 10\n"), (["proc", "loadavg"], bytes "1 2 3 1/2 9\n"),
    (["proc", "stat"], bytes "cpu 3 1\nctxt 40\n"),
    (["proc", "net", "dev"], bytes "lo: 1 2 3 4 5 6 7 8 9 10 11 12 13 14 15 16\n"),
    (["proc", "diskstats"], bytes "8 0 sda 1 2 3\n"),
    (["proc", "meminfo"], bytes "MemTotal: 8 kB\nMemFree: 4 kB\n"),
    (["proc", "1", "comm"], bytes "init\n"), (["proc", "1", "io"], bytes "rchar: 1\n"),
    (["proc", "1", "status"], bytes "State: S\nPPid: 0\nVmSize: 8 kB\nVmRSS: 4 kB\n"),
    (["proc", "1", "stat"], bytes "1 (init) S 0 1 1 0 -1 0 0 0 0 0 7 3\n")]
  [(["proc"], [some ⟨bytes "1", true⟩])]

/-- A read that is seen to succeed has a value. -/
theorem exists_ok_of_isOk {α : Type} {result : ProcResult α} (h : result.isOk = true) :
    ∃ value, result = .ok value := by
  cases result with
  | error err => cases h
  | ok value => exact ⟨value, rfl⟩

/-- One entity of each family. -/
theorem fullSnapshot_entities (family : Family) :
    family.HasEntity wholeReaders everyFamily fullSnapshot := by
  cases family with
  | cpu => exact ⟨_, rfl, bytes "cpu 3 1", by decide, _, rfl, by decide⟩
  | process => exact ⟨1, by decide, by decide, by decide, by decide, by decide⟩
  | net =>
      exact ⟨_, rfl, bytes "lo: 1 2 3 4 5 6 7 8 9 10 11 12 13 14 15 16", by decide, _, rfl, rfl⟩
  | disk => exact ⟨_, rfl, bytes "8 0 sda 1 2 3", by decide, _, rfl, rfl⟩
  | mem => exact ⟨_, rfl, _, rfl⟩

/-- A host with one entity of each family leaves no instrument silent. -/
theorem instruments_observed_full :
    let self := HostCollector.new "box" everyFamily
    (∀ item ∈ self.items,
        (registerItem item).callback ((self.collect wholeReaders []).eval fullSnapshot) ≠ []) ∧
      ∀ family : Family, family.enabled self.cfg = false →
        (∀ item ∈ self.items, item.name ∉ family.metricNames) ∧
        ∀ group ∈ (self.collect wholeReaders []).eval fullSnapshot, ∀ v ∈ group.values,
          v.name ∉ family.metricNames :=
  instruments_observed wholeReaders (HostCollector.new "box" everyFamily) fullSnapshot
    (exists_ok_of_isOk (by decide)) (exists_ok_of_isOk (by decide))
    (fun family _ => fullSnapshot_entities family)

end MetricsExporter.LinuxMetrics
