/-
# MetricsExporter.LinuxMetrics.Inline -- which groups stay in their inline buffers

A group has at most four attributes, but the values are counted differently for each family: the
helpers of a process push seven, ten and two of them, and a device has seventeen. `FitsInline` says
of the files when no group of a pass outgrows its buffer.

A group is inline when its two lists are no longer than the capacities that its types declare. How
the vectors move to the heap beyond that is theirs and left out.
-/
import MetricsExporter.LinuxMetrics.Instruments
import MetricsExporter.LinuxMetrics.Unique

namespace MetricsExporter.LinuxMetrics

open MetricsExporter.Lib MetricsExporter.Procfs MetricsExporter.Framework

/-! ## Sizes

The sizes of the families are those of their signature lists; no value is looked at. -/

section

variable {rd : Readers} {self : HostCollector} {fs : ProcFs}

/-- One signature for each value. -/
theorem length_groupSignatures (group : SampleGroup) :
    (groupSignatures group).length = group.values.length := List.length_map _

/-- The attributes of a group always fit. -/
theorem attrs_length_le {source : Source} {group : SampleGroup}
    (hgroup : group ∈ sourceGroups rd self fs source) : group.attrs.length ≤ attrsCapacity := by
  have hkeys := congrArg List.length (keys_eq rd self fs hgroup)
  rw [SampleGroup.keys, List.length_map] at hkeys
  rw [hkeys]
  cases source <;> simp [attrKeys, attrsCapacity]

/-- So for a group of a pass it is the values alone that decide. -/
theorem inline_iff_of_mem {source : Source} {group : SampleGroup}
    (hgroup : group ∈ sourceGroups rd self fs source) :
    group.Inline ↔ (groupSignatures group).length ≤ valuesCapacity := by
  rw [group.inline_iff, length_groupSignatures]
  exact and_iff_right (attrs_length_le hgroup)

/-- Of all families only processes and devices have enough values to outgrow the buffer. -/
theorem pushedSignatures_length_le {source : Source}
    (hprocess : source.itemType ≠ MetricItemType.process)
    (hdisk : source.itemType ≠ MetricItemType.disk) :
    (pushedSignatures source).length ≤ valuesCapacity := by
  cases source with
  | process pid => exact absurd rfl hprocess
  | diskstats => exact absurd rfl hdisk
  | _ => decide

/-- One value too many is enough. -/
theorem not_inline_of_length {group : SampleGroup} {k : Nat} (hlength : group.values.length = k)
    (hk : valuesCapacity < k) : ¬ group.Inline := by
  intro hinline
  have hvalues := hinline.values_le
  omega

/-- **A device always outgrows the buffer.** -/
theorem not_inline_diskGroup (hostname : KeyValue) (stat : DiskStat) :
    ¬ (diskGroup hostname stat).Inline := by
  have hlength : (diskGroup hostname stat).values.length = 17 := by
    rw [← length_groupSignatures, groupSignatures_diskGroup]
    rfl
  exact not_inline_of_length hlength (by decide)

/-- **A row outgrows the buffer** exactly when it has both the I/O and the memory values. -/
theorem rowSignatures_length_le_iff (id : Int32) :
    (rowSignatures rd fs id).length ≤ valuesCapacity ↔
      ioOf rd fs id = none ∨ statusOf rd fs id = none := by
  unfold rowSignatures
  cases ioOf rd fs id <;> cases statusOf rd fs id <;> cases statOf rd fs id <;>
    simp [ioSignatures, statusSignatures, cpuTimeSignatures, valuesCapacity]

end

/-! ## The groups of a pass -/

/-- What keeps every group of a pass in its buffer: no device is exported, and of no process or
thread that passes are both `io` and `status` readable. -/
structure FitsInline (rd : Readers) (cfg : HostCollectorCfg) (fs : ProcFs) : Prop where
  disk : cfg.disk = true → ∀ content ∈ fs.file (linuxProcPath.join "diskstats"),
    ∀ line ∈ lines content, ∀ stat, parseDiskstatsLine rd line = some stat →
      cfg.diskFilter.passes stat.name = false
  process : cfg.process = true → ∀ visit ∈ visits cfg.processFilter fs,
    Passes cfg.processFilter fs visit.id = true →
      ioOf rd fs visit.id = none ∨ statusOf rd fs visit.id = none

section

variable {rd : Readers} {self : HostCollector} {fs : ProcFs}

/-- The rows of a pass are those of its visits. -/
theorem mem_processGroups {group : SampleGroup} :
    (∃ pid ∈ passPids self fs, group ∈ sourceGroups rd self fs (.process pid)) ↔
      self.cfg.process = true ∧ ∃ visit ∈ visits self.cfg.processFilter fs,
        expectedRow rd self.hostname self.cfg.processFilter fs visit = some group := by
  have hrows : ∀ pid, group ∈ sourceGroups rd self fs (.process pid) ↔
      ∃ visit ∈ (⟨false, pid⟩ :: if Passes self.cfg.processFilter fs pid &&
          self.cfg.processFilter.thread then
        ((taskPids fs pid).filter (· ≠ pid)).map fun tid => ⟨true, tid⟩ else [] : List Visit),
        expectedRow rd self.hostname self.cfg.processFilter fs visit = some group := by
    intro pid
    rw [sourceGroups, processRows_withPid, List.mem_filterMap]
  rw [passPids, visits]
  simp only [hrows, List.mem_ite_nil_right, List.mem_flatMap, and_assoc]
  constructor
  · rintro ⟨pid, hflag, hpid, visit, hvisit, hrow⟩
    exact ⟨hflag, visit, ⟨pid, hpid, hvisit⟩, hrow⟩
  · rintro ⟨hflag, visit, ⟨pid, hpid, hvisit⟩, hrow⟩
    exact ⟨pid, hflag, hpid, visit, hvisit, hrow⟩

/-- A row is in its buffer when one of the two files with many values is missing. -/
theorem inline_row_iff {pid : Int32} {visit : Visit} {group : SampleGroup}
    (hgroup : group ∈ sourceGroups rd self fs (.process pid))
    (hrow : expectedRow rd self.hostname self.cfg.processFilter fs visit = some group) :
    group.Inline ↔ ioOf rd fs visit.id = none ∨ statusOf rd fs visit.id = none := by
  obtain ⟨-, hvalues⟩ := expectedRow_eq_some rd self.hostname self.cfg.processFilter fs hrow
  rw [inline_iff_of_mem hgroup, groupSignatures, hvalues, rowValues_signatures,
    rowSignatures_length_le_iff]

/-- The rows of all visits are in their buffers exactly when none of a visit that passes has both of
the long files. -/
theorem inline_processes_iff :
    (∀ pid ∈ passPids self fs, ∀ group ∈ sourceGroups rd self fs (.process pid), group.Inline) ↔
      (self.cfg.process = true → ∀ visit ∈ visits self.cfg.processFilter fs,
        Passes self.cfg.processFilter fs visit.id = true →
          ioOf rd fs visit.id = none ∨ statusOf rd fs visit.id = none) := by
  constructor
  · intro hinline hflag visit hvisit hpasses
    have hsome := expectedRow_isSome rd self.hostname self.cfg.processFilter fs visit
    rw [hpasses, Bool.true_and] at hsome
    cases hlive : Live rd fs visit.id with
    | false =>
        -- no row at all, and no `io`
        simp only [Live, Bool.or_eq_false_iff, Option.isSome_eq_false_iff,
          Option.isNone_iff_eq_none] at hlive
        exact .inl hlive.1.1
    | true =>
        rw [hlive] at hsome
        -- a row comes out, so it is one of the groups assumed to be inline
        obtain ⟨group, hrow⟩ := Option.isSome_iff_exists.mp hsome
        obtain ⟨pid, hpid, hgroup⟩ := mem_processGroups.mpr ⟨hflag, visit, hvisit, hrow⟩
        exact (inline_row_iff hgroup hrow).mp (hinline pid hpid group hgroup)
  · intro hfiles pid hpid group hgroup
    obtain ⟨hflag, visit, hvisit, hrow⟩ := mem_processGroups.mp ⟨pid, hpid, hgroup⟩
    have hsome := expectedRow_isSome rd self.hostname self.cfg.processFilter fs visit
    rw [hrow, Option.isSome_some, eq_comm, Bool.and_eq_true] at hsome
    exact (inline_row_iff hgroup hrow).mpr (hfiles hflag visit hvisit hsome.1)

/-- No device can be in its buffer, so none may be exported. -/
theorem inline_devices_iff :
    (∀ group ∈ sourceGroups rd self fs .diskstats, group.Inline) ↔
      (self.cfg.disk = true → ∀ content ∈ fs.file (linuxProcPath.join "diskstats"),
        ∀ line ∈ lines content, ∀ stat, parseDiskstatsLine rd line = some stat →
          self.cfg.diskFilter.passes stat.name = false) := by
  constructor
  · intro hinline hflag content hfile line hline stat hrow
    rw [Bool.eq_false_iff]
    intro hpasses
    refine not_inline_diskGroup self.hostname stat (hinline _ (mem_diskGroups.mpr ?_))
    exact ⟨hflag, content, hfile, line, hline, stat, hrow, hpasses, rfl⟩
  · intro hnone group hgroup
    obtain ⟨hflag, content, hfile, line, hline, stat, hrow, hpasses, -⟩ := mem_diskGroups.mp hgroup
    rw [hnone hflag content hfile line hline stat hrow] at hpasses
    cases hpasses

/-- The other families always stay in the buffer. -/
theorem inline_of_small {source : Source} (hprocess : source.itemType ≠ MetricItemType.process)
    (hdisk : source.itemType ≠ MetricItemType.disk) {group : SampleGroup}
    (hgroup : group ∈ sourceGroups rd self fs source) : group.Inline := by
  rw [inline_iff_of_mem hgroup]
  exact (groupSignatures_sublist rd self fs hgroup).length_le.trans
    (pushedSignatures_length_le hprocess hdisk)

end

/-- **When the groups of a pass stay in their inline buffers.** Exactly when no device and no full
row of a process or thread is among them. -/
theorem collect_inline_iff (rd : Readers) (self : HostCollector) (fs : ProcFs)
    (out : List SampleGroup) :
    ∃ groups, (self.collect rd out).eval fs = out ++ groups ∧
      ((∀ group ∈ groups, group.Inline) ↔ FitsInline rd self.cfg fs) := by
  refine ⟨_, eval_collect rd self out fs, ?_⟩
  constructor
  · intro hinline
    have hsource : ∀ source ∈ sources self fs, ∀ group ∈ sourceGroups rd self fs source,
        group.Inline := fun source hsource group hgroup =>
      hinline group (List.mem_flatMap.mpr ⟨source, hsource, hgroup⟩)
    exact {
      disk := inline_devices_iff.mp (hsource .diskstats (by simp [sources]))
      process := inline_processes_iff.mp fun pid hpid =>
        hsource (.process pid) (by simp [sources, hpid]) }
  · intro hfits group hgroup
    obtain ⟨source, hsource, hgroup⟩ := List.mem_flatMap.mp hgroup
    cases source with
    | process pid =>
        have hpid : pid ∈ passPids self fs := by simpa [sources] using hsource
        exact inline_processes_iff.mpr hfits.process pid hpid group hgroup
    | diskstats => exact inline_devices_iff.mpr hfits.disk group hgroup
    | _ => exact inline_of_small (by decide) (by decide) hgroup

/-- A family that pushes all it declares has a group with as many values. -/
theorem exists_length_of_pushesAll {rd : Readers} {self : HostCollector} {fs : ProcFs}
    {itemType : UInt16} (hall : PushesAll rd self fs itemType) {k : Nat}
    (hlength : ∀ source : Source, source.itemType = itemType →
      (pushedSignatures source).length = k) :
    ∃ group ∈ (self.collect rd []).eval fs, group.values.length = k := by
  obtain ⟨source, hsource, htype, group, hgroup, hpushed⟩ := hall
  refine ⟨group, ?_, ?_⟩
  · rw [eval_collect, List.nil_append]
    exact List.mem_flatMap.mpr ⟨source, hsource, hgroup⟩
  · rw [← length_groupSignatures, hpushed, hlength source htype]

/-- A full host has a group of seventeen values and one of nineteen. -/
theorem fullSnapshot_spills :
    let groups := ((HostCollector.new "box" everyFamily).collect wholeReaders []).eval fullSnapshot
    (∃ group ∈ groups, group.values.length = 17 ∧ ¬ group.Inline) ∧
      ∃ group ∈ groups, group.values.length = 19 ∧ ¬ group.Inline := by
  have hall : ∀ family : Family, PushesAll wholeReaders (HostCollector.new "box" everyFamily)
      fullSnapshot family.itemType := fun family =>
    pushesAll_of_entity (by cases family <;> rfl) (fullSnapshot_entities family)
  constructor
  · obtain ⟨group, hgroup, hlength⟩ := exists_length_of_pushesAll (hall .disk) (k := 17)
      (by intro source htype; cases source <;> first | rfl | cases htype)
    exact ⟨group, hgroup, hlength, not_inline_of_length hlength (by decide)⟩
  · obtain ⟨group, hgroup, hlength⟩ := exists_length_of_pushesAll (hall .process) (k := 19)
      (by intro source htype; cases source <;> first | rfl | cases htype)
    exact ⟨group, hgroup, hlength, not_inline_of_length hlength (by decide)⟩

end MetricsExporter.LinuxMetrics
