/-
# MetricsExporter.LinuxMetrics.Cpu -- system-wide and per-core CPU time (`cpu_seconds_total`)

Ten groups for each row of `/proc/stat` that is collected, one for each mode, all of the same
metric.

Seconds are floating-point numbers. The results compare the two divisions as they are written and
say nothing about rounding. Columns an older kernel does not print are exported as 0.
-/
import MetricsExporter.LinuxMetrics.Basic
import MetricsExporter.Procfs.Cpu

namespace MetricsExporter.LinuxMetrics

open MetricsExporter.Lib MetricsExporter.Procfs MetricsExporter.Framework

/-- CPU modes, in the order `/proc/stat` reports them. -/
def modes : List String :=
  ["user", "nice", "system", "idle", "iowait", "irq", "softirq", "steal", "guest", "guest_nice"]

/-- `ticks as f64 / USER_HZ`. -/
def ticksToSeconds (ticks : UInt64) : Float := ticks.toFloat / userHz

/-- The array `times` of `collect_cpu_times`. -/
def cpuTimesArray (entry : CpuTimes) : List UInt64 :=
  [entry.user, entry.nice, entry.system, entry.idle, entry.iowait, entry.irq, entry.softirq,
    entry.steal, entry.guest, entry.guestNice]

/-- The group `collect_cpu_times` builds for one (cpu, mode). -/
def cpuGroup (hostname : KeyValue) (name mode : String) (ticks : UInt64) : SampleGroup :=
  (SampleGroup.withAttrs [hostname, KeyValue.string "cpu" name, KeyValue.string "mode" mode])
    |>.push nameCpuSecondsTotal (.f64 (ticksToSeconds ticks))

/-- `collect_cpu_times`. The aggregate row is always collected, the rows of the cores only on
request. -/
def collectCpuTimes (hostname : KeyValue) (perCore : Bool) (cpus : List CpuTimes)
    (out : List SampleGroup) : List SampleGroup := Id.run do
  let mut out := out
  for entry in cpus do
    if entry.name != "cpu" && !perCore then
      continue
    for (mode, ticks) in modes.zip (cpuTimesArray entry) do
      out := out ++ [cpuGroup hostname entry.name mode ticks]
  return out

/-- `collect_cpu_metrics`: read `/proc/stat` and append CPU time samples. -/
def collectCpuMetrics (rd : Readers) (hostname : KeyValue) (perCore : Bool)
    (out : List SampleGroup) : ProcM (List SampleGroup) := do
  let .ok stats ← cpuStat rd | return out
  return collectCpuTimes hostname perCore stats.cpus out

/-! ## What the loops append -/

/-- The groups of one line of `/proc/stat`, one for each mode. -/
def cpuGroups (hostname : KeyValue) (entry : CpuTimes) : List SampleGroup :=
  (modes.zip (cpuTimesArray entry)).map fun (mode, ticks) =>
    cpuGroup hostname entry.name mode ticks

/-- The guard of `collect_cpu_times` lets a line through. -/
def cpuPasses (perCore : Bool) (entry : CpuTimes) : Bool := entry.name == "cpu" || perCore

/-- The outer loop filters, and the inner one appends the ten groups of a row. -/
theorem collectCpuTimes_eq (hostname : KeyValue) (perCore : Bool) (cpus : List CpuTimes)
    (out : List SampleGroup) :
    collectCpuTimes hostname perCore cpus out =
      out ++ (cpus.filter (cpuPasses perCore)).flatMap (cpuGroups hostname) := by
  unfold collectCpuTimes
  dsimp only
  rw [id_forIn (fun out entry =>
    if cpuPasses perCore entry then out ++ cpuGroups hostname entry else out)]
  · exact foldl_if_append (cpuPasses perCore) (cpuGroups hostname) cpus out
  · intro entry out
    -- the inner loop has no guard
    have hinner : (forIn (modes.zip (cpuTimesArray entry)) out fun (x : String × UInt64) out =>
        (pure (.yield (out ++ [cpuGroup hostname entry.name x.1 x.2])) : Id _)) =
        pure (out ++ cpuGroups hostname entry) := by
      rw [id_forIn (fun out (x : String × UInt64) =>
        out ++ [cpuGroup hostname entry.name x.1 x.2]) (fun _ _ => rfl), cpuGroups,
        List.map_eq_flatMap]
      exact congrArg pure (foldl_gather _ _ out)
    have hguard : cpuPasses perCore entry = !(entry.name != "cpu" && !perCore) := by
      simp [cpuPasses, bne]
    rw [hguard]
    cases entry.name != "cpu" && !perCore
    · simp only [Bool.false_eq_true, if_false, hinner]
      rfl
    · rfl

/-! ## What is exported for a printed table -/

/-- The group of a mode, for a row of `/proc/stat` and the column the mode is printed in, which
counts ticks of a hundredth of a second. -/
def printedCpuGroup (hostname : KeyValue) (c : PrintedCpu) (mode : String) (i : Nat) :
    SampleGroup where
  attrs := [hostname, ⟨"cpu", .string c.name.text⟩, ⟨"mode", .string mode⟩]
  values := [⟨"cpu_seconds_total", .f64 ((c.column i).toFloat / 100.0)⟩]

/-- The ten groups of a row, in the order of the columns. -/
def printedCpuGroups (hostname : KeyValue) (c : PrintedCpu) : List SampleGroup :=
  [printedCpuGroup hostname c "user" 1, printedCpuGroup hostname c "nice" 2,
    printedCpuGroup hostname c "system" 3, printedCpuGroup hostname c "idle" 4,
    printedCpuGroup hostname c "iowait" 5, printedCpuGroup hostname c "irq" 6,
    printedCpuGroup hostname c "softirq" 7, printedCpuGroup hostname c "steal" 8,
    printedCpuGroup hostname c "guest" 9, printedCpuGroup hostname c "guest_nice" 10]

/-- Three orders agree here: that of `modes`, that of `cpuTimesArray` and that of the columns. -/
theorem cpuGroups_times (hostname : KeyValue) (c : PrintedCpu) :
    cpuGroups hostname c.times = printedCpuGroups hostname c := rfl

/-- **CPU time is labelled with the right core and mode.** Ten groups for each row named `cpu`, and
for every other row when cores are collected, in row order, one for each mode with its column. -/
theorem collectCpuTimes_printed (rd : Readers) (hrd : rd.ReadsDecimals) (hostname : KeyValue)
    (perCore : Bool) (cpus : List PrintedCpu) (ls : List Bytes)
    (htable : Interleaved PrintedCpu.Renders OtherLine cpus ls)
    (hlines : ∀ l ∈ ls, newline ∉ l) (out : List SampleGroup) :
    collectCpuTimes hostname perCore (CpuStat.parseStat rd (unlines ls)).cpus out =
      out ++ (cpus.filter (fun c => c.name.text == "cpu" || perCore)).flatMap
        (printedCpuGroups hostname) := by
  rw [collectCpuTimes_eq, parseStat_unlines hrd htable hlines, List.filter_map, List.flatMap_map]
  exact congrArg (out ++ ·) (List.flatMap_congr fun c _ => cpuGroups_times hostname c)

/-- The aggregate row on a kernel with four modes. -/
def fourModeCpu : PrintedCpu where
  name := { text := "cpu", ne_empty := by decide, no_blank := by decide }
  starts_cpu := by decide
  ticks := [1, 2, 3, 4]

/-- The six modes that are not printed are exported as 0. -/
theorem collectCpuTimes_printed_fourModeCpu :
    collectCpuTimes (KeyValue.string "host" "box") false
        (CpuStat.parseStat Readers.documented
          (unlines [bytes " cpu 1 2 3 4", bytes "ctxt 7"])).cpus [] =
      [] ++ ([fourModeCpu].filter (fun c => c.name.text == "cpu" || false)).flatMap
        (printedCpuGroups (KeyValue.string "host" "box")) := by
  have hother : OtherLine (bytes "ctxt 7") := by
    intro token htoken
    obtain rfl : bytes "ctxt" = token := Option.some.inj htoken
    decide
  refine collectCpuTimes_printed Readers.documented documented_readsDecimals _ false [fourModeCpu] _
    (.row ?_ (.skip hother .nil)) (by decide) []
  have hline : bytes " cpu 1 2 3 4" = fourModeCpu.line := by decide
  rw [hline]
  exact fourModeCpu.renders_line

end MetricsExporter.LinuxMetrics
