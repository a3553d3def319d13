/-
# MetricsExporter.LinuxMetrics.Mem -- system-wide memory, swap and huge-page metrics

One group with seven sizes. The kernel prints kilobytes and numbers of huge pages, and bytes are
exported.

The specification `memReadings` names the samples and computes them from the printed numbers without
a bound. The code multiplies in 64 bits and checks nothing, so the two agree exactly where the
products fit (`readings_memGroup_iff`).
-/
import MetricsExporter.LinuxMetrics.Basic
import MetricsExporter.Procfs.Meminfo

namespace MetricsExporter.LinuxMetrics

open MetricsExporter.Lib MetricsExporter.Procfs MetricsExporter.Framework

/-- The group `collect_mem_values` appends. -/
def memGroup (hostname : KeyValue) (mem : MemInfo) : SampleGroup :=
  (SampleGroup.withAttrs [hostname])
    |>.push nameMemTotalBytes (.u64 (mem.memTotalKb * bytesPerKb))
    |>.push nameMemFreeBytes (.u64 (mem.memFreeKb * bytesPerKb))
    |>.push nameMemAvailableBytes (.u64 (mem.memAvailableKb * bytesPerKb))
    |>.push nameSwapTotalBytes (.u64 (mem.swapTotalKb * bytesPerKb))
    |>.push nameSwapFreeBytes (.u64 (mem.swapFreeKb * bytesPerKb))
    |>.push nameHugePagesTotalBytes (.u64 (mem.hugePagesTotal * mem.hugePageSizeKb * bytesPerKb))
    |>.push nameHugePagesFreeBytes (.u64 (mem.hugePagesFree * mem.hugePageSizeKb * bytesPerKb))

/-- `collect_mem_values`. The file is there or the pass does not get here. -/
def collectMemValues (hostname : KeyValue) (mem : MemInfo) (out : List SampleGroup) :
    List SampleGroup :=
  out ++ [memGroup hostname mem]

/-- `collect_mem_metrics`: read `/proc/meminfo` and append host memory samples. -/
def collectMemMetrics (rd : Readers) (hostname : KeyValue) (out : List SampleGroup) :
    ProcM (List SampleGroup) := do
  let .ok mem ← meminfo rd | return out
  return collectMemValues hostname mem out

/-! ## The values of the kernel, in bytes -/

/-- What the samples of host memory should read, by the keys of `/proc/meminfo`: sizes in bytes, and
huge pages by their number and size. -/
def memReadings (value : MemKey → Nat) : List (String × Option Nat) :=
  let bytes (k : MemKey) := some (value k * 1024)
  let pageBytes (count : MemKey) := some (value count * value .hugepagesize * 1024)
  [("mem_total_bytes", bytes .memTotal), ("mem_free_bytes", bytes .memFree),
    ("mem_available_bytes", bytes .memAvailable), ("swap_total_bytes", bytes .swapTotal),
    ("swap_free_bytes", bytes .swapFree), ("huge_pages_total_bytes", pageBytes .hugePagesTotal),
    ("huge_pages_free_bytes", pageBytes .hugePagesFree)]

/-- The host is all that labels host memory. -/
theorem memGroup_attrs (hostname : KeyValue) (mem : MemInfo) :
    (memGroup hostname mem).attrs = [hostname] := by
  simp [memGroup]

/-- Kilobytes to bytes, exact where the bytes fit in 64 bits. -/
theorem toNat_kb_eq_iff (kb : UInt64) :
    (kb * bytesPerKb).toNat = kb.toNat * 1024 ↔ kb.toNat * 1024 < 2 ^ 64 :=
  toNat_mul_eq_iff kb bytesPerKb

/-- With three factors, too: the first two do not wrap when the product of all three fits. -/
theorem toNat_pages_eq_iff (count size : UInt64) :
    (count * size * bytesPerKb).toNat = count.toNat * size.toNat * 1024 ↔
      count.toNat * size.toNat * 1024 < 2 ^ 64 := by
  constructor
  · intro h
    rw [← h]
    exact (count * size * bytesPerKb).toNat_lt
  · intro h
    have hpages : (count * size).toNat = count.toNat * size.toNat := by
      apply toNat_mul_of_fits
      show count.toNat * size.toNat < 2 ^ 64
      omega
    rw [← hpages] at h ⊢
    exact (toNat_kb_eq_iff (count * size)).mpr h

/-- The group reads as it should exactly when its products fit. -/
theorem readings_memGroup_iff (hostname : KeyValue) (mem : MemInfo) :
    (memGroup hostname mem).readings = memReadings (fun k => (mem.value k).toNat) ↔
      FitU64 (memReadings fun k => (mem.value k).toNat) := by
  simp [SampleGroup.readings, SampleValue.reading, memGroup, memReadings, Number.nat?,
    MemInfo.value, toNat_kb_eq_iff, toNat_pages_eq_iff, nameMemTotalBytes, nameMemFreeBytes,
    nameMemAvailableBytes, nameSwapTotalBytes, nameSwapFreeBytes, nameHugePagesTotalBytes,
    nameHugePagesFreeBytes, -UInt64.toNat_mul]

/-- **Host memory samples carry the values of the kernel.** Whatever the order of the lines, the
lines without a key or with an unknown one and the optional lines left out, `/proc/meminfo` parses
to the numbers printed, and they make one group of the seven sizes in bytes where these fit. -/
theorem collectMemValues_printed (rd : Readers) (hrd : rd.ReadsDecimals) (hostname : KeyValue)
    (mem : MemInfo) (keys : List MemKey) (hrequired : ∀ k ∈ requiredMemKeys, k ∈ keys)
    (ls : List Bytes) (hfile : Interleaved mem.Renders UnknownMemLine keys ls)
    (hlines : ∀ l ∈ ls, newline ∉ l) (out : List SampleGroup) :
    ∃ parsed, MemInfo.parseMeminfo rd (unlines ls) = .ok parsed ∧
      (∀ k, parsed.value k = if k ∈ keys then mem.value k else 0) ∧
      ∃ group, collectMemValues hostname parsed out = out ++ [group] ∧
        group.attrs = [hostname] ∧
        let value (k : MemKey) := if k ∈ keys then (mem.value k).toNat else 0
        (FitU64 (memReadings value) → group.readings = memReadings value) := by
  have hok := MemInfo.parseMeminfo_printed hrd mem hrequired hfile hlines
  have hvalue : ∀ k, (MemInfo.ofValues fun k => if k ∈ keys then some (mem.value k) else none).value
      k = if k ∈ keys then mem.value k else 0 := by
    intro k
    rw [MemInfo.value_ofValues]
    split <;> rfl
  refine ⟨_, hok, hvalue, memGroup hostname _, rfl, memGroup_attrs hostname _, fun hfits => ?_⟩
  -- the numbers parsed are those of the lines there are, and 0 for an optional line left out
  have hnat : (fun k => ((MemInfo.ofValues fun k => if k ∈ keys then some (mem.value k)
      else none).value k).toNat) = fun k => if k ∈ keys then (mem.value k).toNat else 0 := by
    funext k
    rw [hvalue]
    split <;> rfl
  rw [← hnat] at hfits ⊢
  exact (readings_memGroup_iff hostname _).mpr hfits

/-- The memory of a small host. -/
def smallMem : MemInfo where
  memTotalKb := 8
  memFreeKb := 4
  swapTotalKb := 2
  swapFreeKb := 1
  hugePagesTotal := 3
  hugePageSizeKb := 2048

/-- The lines of its file, in an order that is not the kernel's. -/
def smallMemKeys : List MemKey :=
  [.hugepagesize, .swapFree, .memFree, .hugePagesTotal, .swapTotal, .memTotal]

/-- Its line for a key, with the unit behind the number. -/
def smallMemLine (k : MemKey) : Bytes :=
  bytes k.label ++ colonByte :: (bytes " " ++ (decimal (smallMem.value k) ++ bytes " kB"))

/-- A line without a `:`, one with an unknown key, and no `MemAvailable`. -/
theorem collectMemValues_printed_small :
    ∃ parsed, MemInfo.parseMeminfo Readers.documented (unlines (bytes "Junk" ::
        (bytes "Bounce" ++ colonByte :: bytes " none") :: smallMemKeys.map smallMemLine)) =
          .ok parsed ∧
      (∀ k, parsed.value k = if k ∈ smallMemKeys then smallMem.value k else 0) ∧
      ∃ group, collectMemValues (KeyValue.string "host" "box") parsed [] = [] ++ [group] ∧
        group.attrs = [KeyValue.string "host" "box"] ∧
        let value (k : MemKey) := if k ∈ smallMemKeys then (smallMem.value k).toNat else 0
        (FitU64 (memReadings value) → group.readings = memReadings value) := by
  have hline : ∀ k, smallMem.Renders k (smallMemLine k) := fun k =>
    ⟨bytes " ", bytes " kB", by decide, by decide, rfl⟩
  have hjunk : UnknownMemLine (bytes "Junk") := by
    intro key text heq
    have hmem : colonByte ∈ bytes "Junk" := heq ▸ List.mem_append_right key List.mem_cons_self
    exact absurd hmem (by decide)
  have hbounce : UnknownMemLine (bytes "Bounce" ++ colonByte :: bytes " none") :=
    unknownLine_of_key (by decide) (fun ⟨k, hk⟩ => by revert hk; cases k <;> decide) _
  exact collectMemValues_printed Readers.documented documented_readsDecimals _ smallMem
    smallMemKeys (by decide) _ (.skip hjunk (.skip hbounce (interleaved_map hline _)))
    (by decide) []

end MetricsExporter.LinuxMetrics
