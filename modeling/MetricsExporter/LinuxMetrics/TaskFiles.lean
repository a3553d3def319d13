/-
# MetricsExporter.LinuxMetrics.TaskFiles -- what is exported for printed `io` and `status` files

From the lines of a file to the samples of its row, for every order of the lines, with unknown lines
among them and optional lines left out. The expected samples are written out by name and by the
number printed, without the parsers' tables and without the collectors.

Sizes in kilobytes are exported in bytes, so a size whose bytes do not fit in a `u64` is outside of
the statement (`hfits`, `hshared`); `Conversions` says what happens there. A file that lacks a
required line is refused and has no samples.
-/
import MetricsExporter.LinuxMetrics.Process

namespace MetricsExporter.LinuxMetrics

open MetricsExporter.Lib MetricsExporter.Procfs MetricsExporter.Framework

/-- The samples of printed I/O counters. -/
def printedIoReadings (io : Io) : List (String × Option Nat) :=
  [("process_io_rchar_total", some io.rchar.toNat),
    ("process_io_wchar_total", some io.wchar.toNat),
    ("process_io_syscr_total", some io.syscr.toNat),
    ("process_io_syscw_total", some io.syscw.toNat),
    ("process_io_read_bytes_total", some io.readBytes.toNat),
    ("process_io_write_bytes_total", some io.writeBytes.toNat),
    ("process_io_cancelled_write_bytes_total", some io.cancelledWriteBytes.toNat)]

/-- The number printed for a key, 0 if its line is left out. -/
def shown (s : Status) (keys : List StatusKey) (k : StatusKey) : Nat :=
  if k ∈ keys then (s.counter k).toNat else 0

/-- The keys whose kilobytes are exported on their own. -/
def kilobyteKeys : List StatusKey := [.vmSize, .vmRSS, .vmHWM, .vmSwap, .hugetlbPages]

/-- The samples of a printed status whose lines have the given keys. The shared memory is the one
size that two lines make up. -/
def printedStatusReadings (s : Status) (keys : List StatusKey) : List (String × Option Nat) :=
  let count (k : StatusKey) := some (shown s keys k)
  let bytes (k : StatusKey) := some (shown s keys k * 1024)
  [("process_mem_virt_bytes", bytes .vmSize), ("process_mem_rss_bytes", bytes .vmRSS),
    ("process_mem_hwm_bytes", bytes .vmHWM),
    ("process_mem_shared_bytes",
      some ((shown s keys .rssFile + shown s keys .rssShmem) * 1024)),
    ("process_mem_swap_bytes", bytes .vmSwap), ("process_mem_hugetlb_bytes", bytes .hugetlbPages),
    ("process_fd_size", count .fdSize), ("process_threads", count .threads),
    ("process_ctxt_switches_voluntary_total", count .voluntaryCtxtSwitches),
    ("process_ctxt_switches_nonvoluntary_total", count .nonvoluntaryCtxtSwitches)]

/-- The seven pushes are the seven samples. -/
theorem readings_ioSamples (io : Io) :
    (ioSamples io).map SampleValue.reading = printedIoReadings io := by
  simp only [ioSamples, collectIoMetrics, SampleGroup.push_values, SampleGroup.withAttrs_values,
    List.nil_append, List.cons_append, List.map_cons, List.map_nil]
  rfl

/-- A sum whose bytes fit does not saturate. -/
theorem toNat_saturatingAdd {a b : UInt64} (h : a.toNat + b.toNat < 2 ^ 64) :
    (saturatingAdd a b).toNat = a.toNat + b.toNat := by
  rw [saturatingAdd, if_pos h, UInt64.toNat_add, Nat.mod_eq_of_lt h]

/-- A key that was seen has its number, the others have 0. -/
theorem counter_ofSeen (s : Status) (keys : List StatusKey) (k : StatusKey) :
    ((StatusScan.ofSeen s keys).status.counter k).toNat = shown s keys k := by
  cases k <;> simp [StatusScan.ofSeen, Status.counter, shown, apply_ite UInt64.toNat]

/-- The ten pushes are the ten samples, where the bytes fit. -/
theorem readings_statusSamples (s : Status) (keys : List StatusKey)
    (hfits : ∀ k ∈ kilobyteKeys, shown s keys k * 1024 < 2 ^ 64)
    (hshared : (shown s keys .rssFile + shown s keys .rssShmem) * 1024 < 2 ^ 64) :
    (statusSamples (StatusScan.ofSeen s keys).status).map SampleValue.reading =
      printedStatusReadings s keys := by
  have hcounter := counter_ofSeen s keys
  generalize (StatusScan.ofSeen s keys).status = status at hcounter ⊢
  -- the five sizes that one line holds
  have hbytes : ∀ k ∈ kilobyteKeys,
      (status.counter k * bytesPerKb).toNat = shown s keys k * 1024 := by
    intro k hk
    have hexact : (status.counter k).toNat * bytesPerKb.toNat < 2 ^ 64 := by
      rw [hcounter]
      exact hfits k hk
    rw [toNat_mul_of_fits hexact, hcounter]
    rfl
  -- the shared size is the sum of two, which saturates in the source but not here
  have hsum : (saturatingAdd (status.counter .rssFile) (status.counter .rssShmem)).toNat =
      shown s keys .rssFile + shown s keys .rssShmem := by
    rw [toNat_saturatingAdd (by rw [hcounter, hcounter]; omega), hcounter, hcounter]
  have hshm : (saturatingAdd (status.counter .rssFile) (status.counter .rssShmem) *
      bytesPerKb).toNat = (shown s keys .rssFile + shown s keys .rssShmem) * 1024 := by
    have hexact : (saturatingAdd (status.counter .rssFile)
        (status.counter .rssShmem)).toNat * bytesPerKb.toNat < 2 ^ 64 := by
      rw [hsum]
      exact hshared
    rw [toNat_mul_of_fits hexact, hsum]
    rfl
  have hvalues : (statusSamples status).map SampleValue.reading =
      [("process_mem_virt_bytes", some (status.counter .vmSize * bytesPerKb).toNat),
        ("process_mem_rss_bytes", some (status.counter .vmRSS * bytesPerKb).toNat),
        ("process_mem_hwm_bytes", some (status.counter .vmHWM * bytesPerKb).toNat),
        ("process_mem_shared_bytes", some (saturatingAdd (status.counter .rssFile)
          (status.counter .rssShmem) * bytesPerKb).toNat),
        ("process_mem_swap_bytes", some (status.counter .vmSwap * bytesPerKb).toNat),
        ("process_mem_hugetlb_bytes", some (status.counter .hugetlbPages * bytesPerKb).toNat),
        ("process_fd_size", some (status.counter .fdSize).toNat),
        ("process_threads", some (status.counter .threads).toNat),
        ("process_ctxt_switches_voluntary_total",
          some (status.counter .voluntaryCtxtSwitches).toNat),
        ("process_ctxt_switches_nonvoluntary_total",
          some (status.counter .nonvoluntaryCtxtSwitches).toNat)] := by
    simp only [statusSamples, collectStatusMetrics, SampleGroup.push_values,
      SampleGroup.withAttrs_values, List.nil_append, List.cons_append, List.map_cons, List.map_nil]
    rfl
  rw [hvalues, hshm, hbytes .vmSize (by decide), hbytes .vmRSS (by decide),
    hbytes .vmHWM (by decide), hbytes .vmSwap (by decide), hbytes .hugetlbPages (by decide),
    hcounter, hcounter, hcounter, hcounter, printedStatusReadings]

/-- **Per-process samples carry the kernel's values.** For `io` and `status` files with their lines
in any order, optional status lines left out and unrecognised lines anywhere, exactly seven and ten
samples are appended: the I/O counters, the memory fields in bytes and the counts. -/
theorem collectTaskFiles_printed (rd : Readers) (hrd : rd.ReadsDecimals) (io : Io) (s : Status)
    (hstate : IsStateOctet s.state) (ioKeys : List IoKey) (hioKeys : ∀ k, k ∈ ioKeys)
    (statusKeys : List StatusKey) (hrequired : ∀ k ∈ requiredStatusKeys, k ∈ statusKeys)
    (ioLines : List (List Char)) (hioLines : ∀ l ∈ ioLines, '\n' ∉ l)
    (hio : Interleaved io.Renders UnknownIoLine ioKeys ioLines)
    (statusLines : List Bytes) (hstatusLines : ∀ l ∈ statusLines, newline ∉ l)
    (hstatus : Interleaved s.Renders UnknownStatusLine statusKeys statusLines)
    (hfits : ∀ k ∈ kilobyteKeys, shown s statusKeys k * 1024 < 2 ^ 64)
    (hshared : (shown s statusKeys .rssFile + shown s statusKeys .rssShmem) * 1024 < 2 ^ 64)
    (group : SampleGroup) :
    (∃ values, (collectIoMetrics group (Io.parseIo rd (unlinesText ioLines))).1 =
        { group with values := group.values ++ values } ∧
      values.map SampleValue.reading = printedIoReadings io) ∧
    ∃ status, Status.parseStatus rd (unlines statusLines) = .ok status ∧
      ∃ values, (collectStatusMetrics group status).1 =
          { group with values := group.values ++ values } ∧
        values.map SampleValue.reading = printedStatusReadings s statusKeys := by
  constructor
  · rw [Io.parseIo_printed hrd io hioKeys hio hioLines, collectIoMetrics_eq]
    exact ⟨ioSamples io, rfl, readings_ioSamples io⟩
  · refine ⟨_, Status.parseStatus_printed hrd s hstate hrequired hstatus hstatusLines, ?_⟩
    rw [collectStatusMetrics_eq]
    exact ⟨_, rfl, readings_statusSamples s statusKeys hfits hshared⟩

/-- The counters of a small task. -/
def smallIo : Io where
  rchar := 7
  syscw := 2

/-- A line of `io` with two blanks behind the `:`. -/
def smallIoLine (k : IoKey) : List Char :=
  k.label.toList ++ ':' :: ([' '] ++ (Decimal.numeral (smallIo.counter k).toNat ++ []))

/-- The status of a small task. -/
def smallStatus : Status where
  ppid := -1
  state := 'S'
  vmSizeKb := 8
  vmRssKb := 4
  rssFileKb := 2
  rssShmemKb := 1
  threads := 3

/-- The lines of the small status, in an order that is not the kernel's. -/
def smallStatusKeys : List StatusKey :=
  [.threads, .vmRSS, .rssShmem, .pPid, .rssFile, .vmSize, .state]

/-- What stands behind its values. -/
def smallStatusRest : StatusKey → Bytes
  | .state => bytes " (sleeping)"
  | .pPid | .threads | .fdSize => []
  | _ => bytes " kB"

/-- Its line for a key. -/
def smallStatusLine (k : StatusKey) : Bytes :=
  bytes k.label ++ colonByte :: (bytes "\t" ++ (smallStatus.printed k ++ smallStatusRest k))

/-- Both files, with lines that are skipped among those of the keys. -/
theorem collectTaskFiles_printed_small :
    (∃ values, (collectIoMetrics (.withAttrs []) (Io.parseIo Readers.documented
        (unlinesText (IoKey.all.reverse.map smallIoLine)))).1 =
          { SampleGroup.withAttrs [] with values := [] ++ values } ∧
      values.map SampleValue.reading = printedIoReadings smallIo) ∧
    ∃ status, Status.parseStatus Readers.documented (unlines
        ((bytes "Name" ++ colonByte :: bytes "\tVmSize: 1") ::
          smallStatusKeys.map smallStatusLine)) = .ok status ∧
      ∃ values, (collectStatusMetrics (.withAttrs []) status).1 =
          { SampleGroup.withAttrs [] with values := [] ++ values } ∧
        values.map SampleValue.reading = printedStatusReadings smallStatus smallStatusKeys := by
  have hio : ∀ k, smallIo.Renders k (smallIoLine k) := fun k =>
    ⟨[' '], [], by decide, by simp, rfl⟩
  have hstatus : ∀ k, smallStatus.Renders k (smallStatusLine k) := fun k =>
    ⟨bytes "\t", smallStatusRest k, by decide, by cases k <;> decide, rfl⟩
  have hname := unknownStatusLine_of_key (by decide : colonByte ∉ bytes "Name")
    (fun k => by cases k <;> decide) (bytes "\tVmSize: 1")
  exact collectTaskFiles_printed Readers.documented documented_readsDecimals smallIo smallStatus
    ⟨by decide, by decide⟩ IoKey.all.reverse (fun k => by cases k <;> decide) smallStatusKeys
    (by decide) _ (by decide) (interleaved_map hio _) _ (by decide)
    (.skip hname (interleaved_map hstatus _)) (by decide) (by decide) (.withAttrs [])

end MetricsExporter.LinuxMetrics
