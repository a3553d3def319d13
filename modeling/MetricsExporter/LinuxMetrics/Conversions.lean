/-
# MetricsExporter.LinuxMetrics.Conversions -- when the sizes in bytes are exact

The collectors multiply numbers of kilobytes, huge pages and sectors in `u64`. Nothing bounds these
numbers: the parsers let every `u64` through. Here is what the samples should read, which products
are formed for them, and from which number on one of these wraps (or, where overflow is checked,
ends the process).

`statusReadings`, `memReadings` and `diskReadings` compute in the natural numbers, where nothing
wraps; `NoOverflow` speaks of the products of the source on the way. The two conditions turn out to
be the same ranges. What a kernel can print is not asked: no kernel has 2^54 kB of memory, and the
results are about the parsers' range.
-/
import MetricsExporter.LinuxMetrics.Disk
import MetricsExporter.LinuxMetrics.Mem
import MetricsExporter.LinuxMetrics.TaskFiles

namespace MetricsExporter.LinuxMetrics

open MetricsExporter.Lib MetricsExporter.Procfs MetricsExporter.Framework

/-! ## Products -/

/-- None of the products wraps. -/
def NoOverflow (products : List (UInt64 × UInt64)) : Prop :=
  ∀ p ∈ products, p.1.toNat * p.2.toNat < 2 ^ 64

/-- No product, no overflow. -/
@[simp]
theorem noOverflow_nil : NoOverflow [] := by simp [NoOverflow]

/-- One product at a time. -/
@[simp]
theorem noOverflow_cons (p : UInt64 × UInt64) (products : List (UInt64 × UInt64)) :
    NoOverflow (p :: products) ↔ p.1.toNat * p.2.toNat < 2 ^ 64 ∧ NoOverflow products := by
  simp [NoOverflow]

/-- A number of kilobytes has bytes that fit below 2^54. -/
theorem kb_fits_iff (kb : UInt64) : kb.toNat * bytesPerKb.toNat < 2 ^ 64 ↔ kb.toNat < 2 ^ 54 := by
  show kb.toNat * 1024 < 2 ^ 64 ↔ kb.toNat < 2 ^ 54
  omega

/-- Only those are exported exactly. -/
theorem kb_exact_iff (kb : UInt64) :
    (kb * bytesPerKb).toNat = kb.toNat * 1024 ↔ kb.toNat < 2 ^ 54 :=
  (toNat_kb_eq_iff kb).trans (kb_fits_iff kb)

/-- A number of sectors has bytes that fit below 2^55. -/
theorem sectors_fits_iff (sectors : UInt64) :
    sectors.toNat * sectorSize.toNat < 2 ^ 64 ↔ sectors.toNat < 2 ^ 55 := by
  show sectors.toNat * 512 < 2 ^ 64 ↔ sectors.toNat < 2 ^ 55
  omega

/-- Only those are exported exactly. -/
theorem sectors_exact_iff (sectors : UInt64) :
    (sectors * sectorSize).toNat = sectors.toNat * 512 ↔ sectors.toNat < 2 ^ 55 :=
  (toNat_mul_eq_iff sectors sectorSize).trans (sectors_fits_iff sectors)

/-! ## Status -/

/-- What the samples of a status should read: what a file that shows all of it says. -/
def statusReadings (status : Status) : List (String × Option Nat) :=
  printedStatusReadings status StatusKey.all

/-- The products formed for them. -/
def statusProducts (status : Status) : List (UInt64 × UInt64) :=
  [(status.vmSizeKb, bytesPerKb), (status.vmRssKb, bytesPerKb), (status.vmHwmKb, bytesPerKb),
    (saturatingAdd status.rssFileKb status.rssShmemKb, bytesPerKb), (status.vmSwapKb, bytesPerKb),
    (status.hugetlbPagesKb, bytesPerKb)]

/-- The sum saturates only where its bytes would not fit anyway. -/
theorem saturatingAdd_lt_iff (a b : UInt64) :
    (saturatingAdd a b).toNat < 2 ^ 54 ↔ a.toNat + b.toNat < 2 ^ 54 := by
  unfold saturatingAdd
  split
  · rename_i hfits
    rw [UInt64.toNat_add, Nat.mod_eq_of_lt hfits]
  · rename_i hfits
    refine iff_of_false (by decide) ?_
    omega

/-- The shared size is exact where the bytes of the sum fit: a sum that saturates is too large
anyway. -/
theorem shared_exact_iff (a b : UInt64) :
    (saturatingAdd a b * bytesPerKb).toNat = (a.toNat + b.toNat) * 1024 ↔
      a.toNat + b.toNat < 2 ^ 54 := by
  constructor
  · intro hexact
    have hlt := (saturatingAdd a b * bytesPerKb).toNat_lt
    omega
  · intro hlt
    have hsum := toNat_saturatingAdd (lt_trans hlt (by decide))
    rw [← hsum]
    exact (kb_exact_iff _).mpr ((saturatingAdd_lt_iff a b).mpr hlt)

/-- The kilobytes whose bytes are exact. -/
structure StatusInRange (status : Status) : Prop where
  single : ∀ k ∈ kilobyteKeys, (status.counter k).toNat < 2 ^ 54
  shared : status.rssFileKb.toNat + status.rssShmemKb.toNat < 2 ^ 54

/-- The range of a status, field by field. -/
theorem statusInRange_iff (status : Status) :
    StatusInRange status ↔
      (status.vmSizeKb.toNat < 2 ^ 54 ∧ status.vmRssKb.toNat < 2 ^ 54 ∧
        status.vmHwmKb.toNat < 2 ^ 54 ∧ status.vmSwapKb.toNat < 2 ^ 54 ∧
        status.hugetlbPagesKb.toNat < 2 ^ 54) ∧
      status.rssFileKb.toNat + status.rssShmemKb.toNat < 2 ^ 54 := by
  refine ⟨fun ⟨hsingle, hshared⟩ => ⟨?_, hshared⟩, fun ⟨hsingle, hshared⟩ => ⟨?_, hshared⟩⟩
  · simpa [kilobyteKeys, Status.counter] using hsingle
  · simpa [kilobyteKeys, Status.counter] using hsingle

/-- The samples of a status read as they should exactly in its range. -/
theorem statusSamples_exact_iff (status : Status) :
    (statusSamples status).map SampleValue.reading = statusReadings status ↔
      StatusInRange status := by
  rw [statusInRange_iff]
  simp only [statusReadings, printedStatusReadings, statusSamples, collectStatusMetrics,
    SampleGroup.push_values, SampleGroup.withAttrs_values, List.nil_append, List.cons_append,
    List.map_cons, List.map_nil, SampleValue.reading, Number.nat?, shown]
  simp [StatusKey.all, Status.counter, kb_exact_iff, shared_exact_iff, -UInt64.toNat_mul]
  tauto

/-- And no product wraps exactly there. -/
theorem statusProducts_noOverflow_iff (status : Status) :
    NoOverflow (statusProducts status) ↔ StatusInRange status := by
  rw [statusInRange_iff]
  simp only [statusProducts, noOverflow_cons, noOverflow_nil, kb_fits_iff, saturatingAdd_lt_iff]
  tauto

/-! ## Host memory -/

/-- The products formed for host memory. -/
def memProducts (mem : MemInfo) : List (UInt64 × UInt64) :=
  [(mem.memTotalKb, bytesPerKb), (mem.memFreeKb, bytesPerKb), (mem.memAvailableKb, bytesPerKb),
    (mem.swapTotalKb, bytesPerKb), (mem.swapFreeKb, bytesPerKb),
    (mem.hugePagesTotal, mem.hugePageSizeKb),
    (mem.hugePagesTotal * mem.hugePageSizeKb, bytesPerKb),
    (mem.hugePagesFree, mem.hugePageSizeKb),
    (mem.hugePagesFree * mem.hugePageSizeKb, bytesPerKb)]

/-- The numbers whose bytes are exact: kilobytes, and huge pages by their number and size. -/
structure MemInRange (mem : MemInfo) : Prop where
  kilobytes : ∀ k ∈ [MemKey.memTotal, .memFree, .memAvailable, .swapTotal, .swapFree],
    (mem.value k).toNat < 2 ^ 54
  pages : ∀ k ∈ [MemKey.hugePagesTotal, .hugePagesFree],
    (mem.value k).toNat * (mem.value .hugepagesize).toNat < 2 ^ 54

/-- The range of the host memory, field by field. -/
theorem memInRange_iff (mem : MemInfo) :
    MemInRange mem ↔
      (mem.memTotalKb.toNat < 2 ^ 54 ∧ mem.memFreeKb.toNat < 2 ^ 54 ∧
        mem.memAvailableKb.toNat < 2 ^ 54 ∧ mem.swapTotalKb.toNat < 2 ^ 54 ∧
        mem.swapFreeKb.toNat < 2 ^ 54) ∧
      mem.hugePagesTotal.toNat * mem.hugePageSizeKb.toNat < 2 ^ 54 ∧
      mem.hugePagesFree.toNat * mem.hugePageSizeKb.toNat < 2 ^ 54 := by
  refine ⟨fun ⟨hkilobytes, hpages⟩ => ⟨?_, ?_⟩, fun ⟨hkilobytes, hpages⟩ => ⟨?_, ?_⟩⟩
  · simpa [MemInfo.value] using hkilobytes
  · simpa [MemInfo.value] using hpages
  · simpa [MemInfo.value] using hkilobytes
  · simpa [MemInfo.value] using hpages

/-- The samples of the host memory read as they should exactly in its range. -/
theorem memGroup_exact_iff (hostname : KeyValue) (mem : MemInfo) :
    (memGroup hostname mem).readings = memReadings (fun k => (mem.value k).toNat) ↔
      MemInRange mem := by
  have hbytes : ∀ n : Nat, n * 1024 < 2 ^ 64 ↔ n < 2 ^ 54 := by omega
  rw [readings_memGroup_iff, memInRange_iff]
  simp only [memReadings, fitU64_cons, fitU64_nil, MemInfo.value, hbytes]
  tauto

/-- Both products of a number of pages, its size and 1024 fit when that of all three does. -/
theorem pages_fits_iff (count size : UInt64) :
    count.toNat * size.toNat < 2 ^ 64 ∧ (count * size).toNat * bytesPerKb.toNat < 2 ^ 64 ↔
      count.toNat * size.toNat < 2 ^ 54 := by
  rw [kb_fits_iff]
  constructor
  · rintro ⟨hpages, hbytes⟩
    rwa [toNat_mul_of_fits hpages] at hbytes
  · intro hpages
    have hfits : count.toNat * size.toNat < 2 ^ 64 := lt_trans hpages (by decide)
    exact ⟨hfits, by rwa [toNat_mul_of_fits hfits]⟩

/-- And no product wraps exactly there, be it the first or the second of a number of pages. -/
theorem memProducts_noOverflow_iff (mem : MemInfo) :
    NoOverflow (memProducts mem) ↔ MemInRange mem := by
  rw [memInRange_iff, ← pages_fits_iff, ← pages_fits_iff]
  simp only [memProducts, noOverflow_cons, noOverflow_nil, kb_fits_iff]
  tauto

/-! ## Disks -/

/-- What the samples of a device should read. -/
def diskReadings (stat : DiskStat) : List (String × Option Nat) :=
  let count (n : UInt64) := some n.toNat
  let bytes (sectors : UInt64) := some (sectors.toNat * 512)
  [(nameDiskReadBytesTotal, bytes stat.sectorsRead),
    (nameDiskReadsCompletedTotal, count stat.readsCompleted),
    (nameDiskReadsMergedTotal, count stat.readsMerged),
    (nameDiskReadTimeMsTotal, count stat.readMs),
    (nameDiskWriteBytesTotal, bytes stat.sectorsWritten),
    (nameDiskWritesCompletedTotal, count stat.writesCompleted),
    (nameDiskWritesMergedTotal, count stat.writesMerged),
    (nameDiskWriteTimeMsTotal, count stat.writeMs),
    (nameDiskIoInProgress, count stat.ioInProgress), (nameDiskIoTimeMsTotal, count stat.ioMs),
    (nameDiskIoTimeWeightedMsTotal, count stat.weightedIoMs),
    (nameDiskDiscardBytesTotal, bytes stat.sectorsDiscarded),
    (nameDiskDiscardsCompletedTotal, count stat.discardsCompleted),
    (nameDiskDiscardsMergedTotal, count stat.discardsMerged),
    (nameDiskDiscardTimeMsTotal, count stat.discardMs),
    (nameDiskFlushRequestsTotal, count stat.flushRequests),
    (nameDiskFlushTimeMsTotal, count stat.flushMs)]

/-- The products formed for a device. -/
def diskProducts (stat : DiskStat) : List (UInt64 × UInt64) :=
  [(stat.sectorsRead, sectorSize), (stat.sectorsWritten, sectorSize),
    (stat.sectorsDiscarded, sectorSize)]

/-- The numbers of sectors whose bytes are exact. -/
def DiskInRange (stat : DiskStat) : Prop :=
  ∀ sectors ∈ [stat.sectorsRead, stat.sectorsWritten, stat.sectorsDiscarded],
    sectors.toNat < 2 ^ 55

/-- The samples of a device read as they should exactly in its range. -/
theorem diskGroup_exact_iff (hostname : KeyValue) (stat : DiskStat) :
    (diskGroup hostname stat).readings = diskReadings stat ↔ DiskInRange stat := by
  simp [SampleGroup.readings, SampleValue.reading, diskGroup, diskReadings, Number.nat?,
    DiskInRange, sectors_exact_iff, -UInt64.toNat_mul]

/-- And no product wraps exactly there. -/
theorem diskProducts_noOverflow_iff (stat : DiskStat) :
    NoOverflow (diskProducts stat) ↔ DiskInRange stat := by
  simp only [diskProducts, noOverflow_cons, noOverflow_nil, sectors_fits_iff, DiskInRange,
    List.forall_mem_cons, List.not_mem_nil, false_implies, implies_true, and_true]

/-! ## All three -/

/-- **When the conversions are exact.** For every content that is accepted, the samples read as they
should and no product on the way wraps exactly when the numbers parsed from it are in range. -/
theorem conversions_exact_iff (rd : Readers) (hostname : KeyValue) (filter : DiskFilter)
    (content : Bytes) :
    (∀ status, Status.parseStatus rd content = .ok status → ∀ group,
      ((collectStatusMetrics group status).1.readings = group.readings ++ statusReadings status ∧
        NoOverflow (statusProducts status) ↔ StatusInRange status)) ∧
    (∀ mem, MemInfo.parseMeminfo rd content = .ok mem → ∀ out,
      ((collectMemValues hostname mem out).map SampleGroup.readings =
          out.map SampleGroup.readings ++ [memReadings fun k => (mem.value k).toNat] ∧
        NoOverflow (memProducts mem) ↔ MemInRange mem)) ∧
    ∀ out,
      let kept := (DiskStats.parseDiskstats rd content).disks.filter
        fun stat => filter.passes stat.name
      ((collectDiskDevices hostname filter (DiskStats.parseDiskstats rd content).disks out).map
          SampleGroup.readings = out.map SampleGroup.readings ++ kept.map diskReadings ∧
        (∀ stat ∈ kept, NoOverflow (diskProducts stat)) ↔ ∀ stat ∈ kept, DiskInRange stat) := by
  refine ⟨fun status _ group => ?_, fun mem _ out => ?_, fun out => ?_⟩
  · have hreadings : (collectStatusMetrics group status).1.readings =
        group.readings ++ (statusSamples status).map SampleValue.reading := by
      rw [collectStatusMetrics_eq, SampleGroup.readings, List.map_append]
      rfl
    rw [hreadings, List.append_right_inj, statusSamples_exact_iff, statusProducts_noOverflow_iff,
      and_self]
  · rw [collectMemValues, List.map_append, List.append_right_inj, List.map_singleton,
      List.singleton_inj, memGroup_exact_iff, memProducts_noOverflow_iff, and_self]
  · dsimp only
    rw [collectDiskDevices_eq, List.map_append, List.append_right_inj, List.map_map,
      List.map_inj_left]
    simp only [Function.comp_apply, diskGroup_exact_iff, diskProducts_noOverflow_iff, and_self]

/-- A status whose virtual size, 2^54 kB, has 2^64 bytes. -/
def wideStatusFile : Bytes :=
  bytes "PPid:\t1\nState:\tS (sleeping)\nVmSize:\t18014398509481984 kB\nVmRSS:\t4 kB\n"

/-- What is parsed from it. -/
def wideStatus : Status :=
  { ppid := 1, state := 'S', vmSizeKb := 18014398509481984, vmRssKb := 4 }

/-- Its size in bytes is one more than the largest number there is room for. -/
theorem conversions_exact_iff_wide :
    (collectStatusMetrics (.withAttrs []) wideStatus).1.readings =
        (SampleGroup.withAttrs []).readings ++ statusReadings wideStatus ∧
      NoOverflow (statusProducts wideStatus) ↔ StatusInRange wideStatus :=
  (conversions_exact_iff Readers.documented (KeyValue.string "host" "box") {}
    wideStatusFile).1 wideStatus (by decide) (.withAttrs [])

/-- It is exported with 0 bytes. -/
theorem wideStatus_wraps :
    Status.parseStatus Readers.documented wideStatusFile = .ok wideStatus ∧
      (nameProcessMemVirtBytes, some 0) ∈
        (collectStatusMetrics (.withAttrs []) wideStatus).1.readings ∧
      (collectStatusMetrics (.withAttrs []) wideStatus).1.readings ≠
        (SampleGroup.withAttrs []).readings ++ statusReadings wideStatus ∧
      ¬ NoOverflow (statusProducts wideStatus) := by
  refine ⟨by decide, by decide, by decide, fun h => ?_⟩
  have hfits := h (wideStatus.vmSizeKb, bytesPerKb) (by decide)
  exact absurd hfits (by decide)

end MetricsExporter.LinuxMetrics
