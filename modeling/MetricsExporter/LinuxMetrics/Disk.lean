/-
# MetricsExporter.LinuxMetrics.Disk -- block-device I/O metrics (`disk_*`)

One group with seventeen samples for each device that the exclude set does not match. There is no
list of devices to include, and whole disks are not told from their partitions.

Sectors are exported in bytes by an unguarded product, so what is said of the three sizes assumes
that they fit. Times stay in milliseconds. Columns an older kernel does not print are exported as 0.
-/
import MetricsExporter.LinuxMetrics.Basic
import MetricsExporter.Procfs.Diskstats

namespace MetricsExporter.LinuxMetrics

open MetricsExporter.Lib MetricsExporter.Procfs MetricsExporter.Framework

/-- Bytes per sector as reported by the kernel in `/proc/diskstats`. -/
def sectorSize : UInt64 := 512

/-- Filter for which block devices to collect. -/
structure DiskFilter where
  excludeDevicesRegex : Option RegexSet := none

/-- The filter of `collect_disk_devices` lets a name through. -/
def DiskFilter.passes (filter : DiskFilter) (name : String) : Bool :=
  match filter.excludeDevicesRegex with
  | some excludeRegex => !excludeRegex.isMatch name
  | none => true

/-- The group `collect_disk_devices` builds for one device. -/
def diskGroup (hostname : KeyValue) (stat : DiskStat) : SampleGroup :=
  (SampleGroup.withAttrs [hostname, KeyValue.string "device" stat.name])
    |>.push nameDiskReadBytesTotal (.u64 (stat.sectorsRead * sectorSize))
    |>.push nameDiskReadsCompletedTotal (.u64 stat.readsCompleted)
    |>.push nameDiskReadsMergedTotal (.u64 stat.readsMerged)
    |>.push nameDiskReadTimeMsTotal (.u64 stat.readMs)
    |>.push nameDiskWriteBytesTotal (.u64 (stat.sectorsWritten * sectorSize))
    |>.push nameDiskWritesCompletedTotal (.u64 stat.writesCompleted)
    |>.push nameDiskWritesMergedTotal (.u64 stat.writesMerged)
    |>.push nameDiskWriteTimeMsTotal (.u64 stat.writeMs)
    |>.push nameDiskIoInProgress (.u64 stat.ioInProgress)
    |>.push nameDiskIoTimeMsTotal (.u64 stat.ioMs)
    |>.push nameDiskIoTimeWeightedMsTotal (.u64 stat.weightedIoMs)
    |>.push nameDiskDiscardBytesTotal (.u64 (stat.sectorsDiscarded * sectorSize))
    |>.push nameDiskDiscardsCompletedTotal (.u64 stat.discardsCompleted)
    |>.push nameDiskDiscardsMergedTotal (.u64 stat.discardsMerged)
    |>.push nameDiskDiscardTimeMsTotal (.u64 stat.discardMs)
    |>.push nameDiskFlushRequestsTotal (.u64 stat.flushRequests)
    |>.push nameDiskFlushTimeMsTotal (.u64 stat.flushMs)

/-- `collect_disk_devices`, a loop with one guard. -/
def collectDiskDevices (hostname : KeyValue) (filter : DiskFilter) (disks : List DiskStat)
    (out : List SampleGroup) : List SampleGroup := Id.run do
  let mut out := out
  for stat in disks do
    if !filter.passes stat.name then
      continue
    out := out ++ [diskGroup hostname stat]
  return out

/-- `collect_disk_metrics`: read `/proc/diskstats` and append one group per matching device. -/
def collectDiskMetrics (rd : Readers) (hostname : KeyValue) (filter : DiskFilter)
    (out : List SampleGroup) : ProcM (List SampleGroup) := do
  let .ok stats ← diskStats rd | return out
  return collectDiskDevices hostname filter stats.disks out

/-! ## What the loop appends -/

/-- The loop filters and maps. -/
theorem collectDiskDevices_eq (hostname : KeyValue) (filter : DiskFilter) (disks : List DiskStat)
    (out : List SampleGroup) :
    collectDiskDevices hostname filter disks out =
      out ++ (disks.filter (fun stat => filter.passes stat.name)).map (diskGroup hostname) := by
  unfold collectDiskDevices
  dsimp only
  rw [id_forIn (fun out stat =>
    if filter.passes stat.name then out ++ [diskGroup hostname stat] else out)]
  · rw [List.map_eq_flatMap]
    exact foldl_if_append (fun stat => filter.passes stat.name)
      (fun stat => [diskGroup hostname stat]) disks out
  · intro stat out
    cases filter.passes stat.name <;> rfl

/-! ## What is exported for a printed table -/

/-- The columns of `/proc/diskstats` that count sectors. -/
def sectorColumns : List Nat := [3, 7, 14]

/-- The samples of a device, by the columns of `/proc/diskstats`. Times stay in milliseconds. -/
def printedDiskReadings (d : PrintedDevice) : List (String × Option Nat) :=
  let count (i : Nat) := some (d.column i).toNat
  let bytes (i : Nat) := some ((d.column i).toNat * 512)
  [("disk_read_bytes_total", bytes 3), ("disk_reads_completed_total", count 1),
    ("disk_reads_merged_total", count 2), ("disk_read_time_ms_total", count 4),
    ("disk_write_bytes_total", bytes 7), ("disk_writes_completed_total", count 5),
    ("disk_writes_merged_total", count 6), ("disk_write_time_ms_total", count 8),
    ("disk_io_in_progress", count 9), ("disk_io_time_ms_total", count 10),
    ("disk_io_time_weighted_ms_total", count 11),
    ("disk_discard_bytes_total", bytes 14), ("disk_discards_completed_total", count 12),
    ("disk_discards_merged_total", count 13), ("disk_discard_time_ms_total", count 15),
    ("disk_flush_requests_total", count 16), ("disk_flush_time_ms_total", count 17)]

/-- The guard by the data of the filter: an exclude set there is must not match the name. -/
theorem DiskFilter.passes_eq (filter : DiskFilter) (name : String) :
    filter.passes name = filter.excludeDevicesRegex.all fun exclude => !exclude.isMatch name := by
  unfold DiskFilter.passes
  cases filter.excludeDevicesRegex <;> rfl

/-- Two attributes, the second with the name of the device. -/
theorem diskGroup_attrs (hostname : KeyValue) (stat : DiskStat) :
    (diskGroup hostname stat).attrs = [hostname, KeyValue.string "device" stat.name] := by
  simp [diskGroup]

/-- The group of a device as it was printed. Only the three columns in sectors need a bound. -/
theorem readings_diskGroup (hostname : KeyValue) (d : PrintedDevice)
    (hfits : ∀ i ∈ sectorColumns, (d.column i).toNat * 512 < 2 ^ 64) :
    (diskGroup hostname d.stat).readings = printedDiskReadings d := by
  have hbytes : ∀ i ∈ sectorColumns,
      (d.column i * sectorSize).toNat = (d.column i).toNat * 512 := by
    intro i hi
    exact toNat_mul_of_fits (hfits i hi)
  simp only [SampleGroup.readings, SampleValue.reading, diskGroup, SampleGroup.push_values,
    SampleGroup.withAttrs_values, List.nil_append, List.cons_append, List.map_cons, List.map_nil,
    PrintedDevice.stat, Number.nat?, hbytes 3 (by decide), hbytes 7 (by decide),
    hbytes 14 (by decide)]
  rfl

/-- **Disk counters are exported from the right columns on every kernel.** One group for each device
the exclude set, if there is one, does not match, in order, with its columns, those in sectors as
bytes. The bytes of these devices are taken to fit in 64 bits: the code multiplies unguarded. -/
theorem collectDiskDevices_printed (rd : Readers) (hrd : rd.ReadsDecimals) (hostname : KeyValue)
    (filter : DiskFilter) (devices : List PrintedDevice) (ls : List Bytes)
    (htable : Interleaved PrintedDevice.Renders BlankLine devices ls)
    (hlines : ∀ l ∈ ls, newline ∉ l)
    (hfits : ∀ d ∈ devices,
      (filter.excludeDevicesRegex.all fun exclude => !exclude.isMatch d.name.text) = true →
        ∀ i ∈ sectorColumns, (d.column i).toNat * 512 < 2 ^ 64) (out : List SampleGroup) :
    ∃ groups, collectDiskDevices hostname filter
        (DiskStats.parseDiskstats rd (unlines ls)).disks out = out ++ groups ∧
      groups.map (fun group => (group.attrs, group.readings)) =
        (devices.filter fun d =>
          filter.excludeDevicesRegex.all fun exclude => !exclude.isMatch d.name.text).map fun d =>
            ([hostname, ⟨"device", .string d.name.text⟩], printedDiskReadings d) := by
  simp only [← filter.passes_eq] at hfits ⊢
  refine ⟨(devices.filter fun d => filter.passes d.name.text).map
    fun d => diskGroup hostname d.stat, ?_, ?_⟩
  · rw [collectDiskDevices_eq, parseDiskstats_unlines hrd htable hlines, List.filter_map,
      List.map_map]
    rfl
  · rw [List.map_map]
    refine List.map_congr_left fun d hd => ?_
    obtain ⟨hmem, hpasses⟩ := List.mem_filter.mp hd
    rw [Function.comp_apply, diskGroup_attrs, readings_diskGroup hostname d (hfits d hmem hpasses),
      PrintedDevice.stat, KeyValue.string]

/-- A disk on a kernel with eleven counters. -/
def elevenCounterDisk : PrintedDevice where
  major := 8
  minor := 0
  name := { text := "sda", ne_empty := by decide, no_blank := by decide }
  counters := [1, 2, 3, 4, 5, 6, 7, 8, 9, 10, 11]

/-- A loop device, whose sectors would not fit. -/
def hugeLoop : PrintedDevice where
  major := 7
  minor := 0
  name := { text := "loop0", ne_empty := by decide, no_blank := by decide }
  counters := [0, 0, 36028797018963968, 0]

/-- The exclude set `["^loop0$"]`. -/
def noLoop : DiskFilter where
  excludeDevicesRegex := some { isMatch := (· == "loop0") }

/-- A row with single blanks in front of its tokens. -/
theorem renders_spaced (d : PrintedDevice) :
    d.Renders (spaced 32 (decimal d.major :: decimal d.minor :: d.name.octets ::
      d.counters.map decimal)) := by
  refine spaced_spacedBy rfl fun t ht => ?_
  simp only [List.mem_cons, List.mem_map] at ht
  rcases ht with rfl | rfl | rfl | ⟨n, -, rfl⟩
  · exact decimal_isToken d.major
  · exact decimal_isToken d.minor
  · exact d.name.isToken
  · exact decimal_isToken n

/-- The disk is exported and the loop device is not. -/
theorem collectDiskDevices_printed_noLoop :
    ∃ groups, collectDiskDevices (KeyValue.string "host" "box") noLoop
        (DiskStats.parseDiskstats Readers.documented
          (unlines [bytes " 8 0 sda 1 2 3 4 5 6 7 8 9 10 11", [],
            bytes " 7 0 loop0 0 0 36028797018963968 0"])).disks [] = [] ++ groups ∧
      groups.map (fun group => (group.attrs, group.readings)) =
        [([KeyValue.string "host" "box", ⟨"device", .string "sda"⟩],
          printedDiskReadings elevenCounterDisk)] := by
  -- the two lines, as they stand, are those of the two devices
  have hsda : elevenCounterDisk.Renders (bytes " 8 0 sda 1 2 3 4 5 6 7 8 9 10 11") :=
    renders_spaced elevenCounterDisk
  have hloop : hugeLoop.Renders (bytes " 7 0 loop0 0 0 36028797018963968 0") :=
    renders_spaced hugeLoop
  exact collectDiskDevices_printed Readers.documented documented_readsDecimals _ noLoop
    [elevenCounterDisk, hugeLoop] _ (.row hsda (.skip (by simp [BlankLine]) (.row hloop .nil)))
    (by decide) (by decide) []

end MetricsExporter.LinuxMetrics
