/-
# MetricsExporter.LinuxMetrics.Net -- network interface metrics (`iface_*`)

One group with eight samples for each interface that passes. Of the sixteen columns of
`/proc/net/dev` the fifo, frame, collision, carrier, compressed and multicast counters are parsed
past but not exported.

The list of the filter is a set, as it is in the source: neither its order nor repetitions in the
configuration matter.
-/
import MetricsExporter.LinuxMetrics.Basic
import MetricsExporter.Procfs.Net
import Mathlib.Data.Finset.Basic

namespace MetricsExporter.LinuxMetrics

open MetricsExporter.Lib MetricsExporter.Procfs MetricsExporter.Framework

/-- Filter for which network interfaces to collect. -/
structure NetFilter where
  ifaces : Option (Finset String) := none

/-- The filter of `collect_net_devices` lets a name through. -/
def NetFilter.passes (filter : NetFilter) (name : String) : Bool :=
  match filter.ifaces with
  | some ifaces => decide (name ∈ ifaces)
  | none => true

/-- The group `collect_net_devices` builds for one interface. -/
def netGroup (hostname : KeyValue) (stats : IfaceStats) : SampleGroup :=
  (SampleGroup.withAttrs [hostname, KeyValue.string "iface" stats.name])
    |>.push nameIfaceRxBytesTotal (.u64 stats.rxBytes)
    |>.push nameIfaceRxPacketsTotal (.u64 stats.rxPackets)
    |>.push nameIfaceRxErrsTotal (.u64 stats.rxErrs)
    |>.push nameIfaceRxDropTotal (.u64 stats.rxDrop)
    |>.push nameIfaceTxBytesTotal (.u64 stats.txBytes)
    |>.push nameIfaceTxPacketsTotal (.u64 stats.txPackets)
    |>.push nameIfaceTxErrsTotal (.u64 stats.txErrs)
    |>.push nameIfaceTxDropTotal (.u64 stats.txDrop)

/-- `collect_net_devices`, a loop with one guard. -/
def collectNetDevices (hostname : KeyValue) (filter : NetFilter) (interfaces : List IfaceStats)
    (out : List SampleGroup) : List SampleGroup := Id.run do
  let mut out := out
  for stats in interfaces do
    if !filter.passes stats.name then
      continue
    out := out ++ [netGroup hostname stats]
  return out

/-- `collect_net_metrics`: read `/proc/net/dev` and append one group per matching interface. -/
def collectNetMetrics (rd : Readers) (hostname : KeyValue) (filter : NetFilter)
    (out : List SampleGroup) : ProcM (List SampleGroup) := do
  let .ok stats ← devStats rd | return out
  return collectNetDevices hostname filter stats.interfaces out

/-! ## What the loop appends -/

/-- The loop filters and maps. -/
theorem collectNetDevices_eq (hostname : KeyValue) (filter : NetFilter)
    (interfaces : List IfaceStats) (out : List SampleGroup) :
    collectNetDevices hostname filter interfaces out =
      out ++ (interfaces.filter (fun stats => filter.passes stats.name)).map
        (netGroup hostname) := by
  unfold collectNetDevices
  dsimp only
  rw [id_forIn (fun out stats =>
    if filter.passes stats.name then out ++ [netGroup hostname stats] else out)]
  · rw [List.map_eq_flatMap]
    exact foldl_if_append (fun stats => filter.passes stats.name)
      (fun stats => [netGroup hostname stats]) interfaces out
  · intro stats out
    cases filter.passes stats.name <;> rfl

/-! ## What is exported for a printed table -/

/-- The group of an interface, by the columns of `/proc/net/dev`. -/
def printedNetGroup (hostname : KeyValue) (d : PrintedIface) : SampleGroup where
  attrs := [hostname, ⟨"iface", .string d.name.text⟩]
  values :=
    [⟨"iface_rx_bytes_total", .u64 (d.column 1)⟩, ⟨"iface_rx_packets_total", .u64 (d.column 2)⟩,
      ⟨"iface_rx_errs_total", .u64 (d.column 3)⟩, ⟨"iface_rx_drop_total", .u64 (d.column 4)⟩,
      -- 5 to 8 are fifo, frame, compressed and multicast, which are not exported
      ⟨"iface_tx_bytes_total", .u64 (d.column 9)⟩, ⟨"iface_tx_packets_total", .u64 (d.column 10)⟩,
      ⟨"iface_tx_errs_total", .u64 (d.column 11)⟩, ⟨"iface_tx_drop_total", .u64 (d.column 12)⟩]

/-- The fields of the parsed row are the columns, and the names are those written out. -/
theorem netGroup_stats (hostname : KeyValue) (d : PrintedIface) :
    netGroup hostname d.stats = printedNetGroup hostname d := rfl

/-- The guard by the data of the filter: a list there is must have the name. -/
theorem NetFilter.passes_eq (filter : NetFilter) (name : String) :
    filter.passes name = filter.ifaces.all fun ifaces => decide (name ∈ ifaces) := by
  unfold NetFilter.passes
  cases filter.ifaces <;> rfl

/-- **Network counters are exported as the kernel printed them.** One group for each interface that
is in the list of the filter, if it has one, in table order, with its columns 1 to 4 and 9 to 12. -/
theorem collectNetDevices_printed (rd : Readers) (hrd : rd.ReadsDecimals) (hostname : KeyValue)
    (filter : NetFilter) (devices : List PrintedIface) (ls : List Bytes)
    (htable : Interleaved PrintedIface.Renders (colonByte ∉ ·) devices ls)
    (hlines : ∀ l ∈ ls, newline ∉ l) (out : List SampleGroup) :
    collectNetDevices hostname filter (DevStats.parseDev rd (unlines ls)).interfaces out =
      out ++ (devices.filter fun d =>
        filter.ifaces.all fun ifaces => decide (d.name.text ∈ ifaces)).map
          (printedNetGroup hostname) := by
  rw [collectNetDevices_eq, parseDev_unlines hrd htable hlines, List.filter_map, List.map_map]
  simp only [← filter.passes_eq]
  exact congrArg (out ++ ·) (List.map_congr_left fun d _ => netGroup_stats hostname d)

/-- The loopback interface. -/
def loopback : PrintedIface where
  name := { text := "lo", ne_empty := by decide, no_blank := by decide }
  no_colon := by decide
  counters := [1, 2, 3, 4, 5, 6, 7, 8, 9, 10, 11, 12, 13, 14, 15, 16]
  length_counters := rfl

/-- An interface that the list of the test filter does not have. -/
def ethernet : PrintedIface where
  name := { text := "eth0", ne_empty := by decide, no_blank := by decide }
  no_colon := by decide
  counters := [17, 18, 19, 20, 21, 22, 23, 24, 25, 26, 27, 28, 29, 30, 31, 32]
  length_counters := rfl

/-- The counters of an interface between single blanks. -/
theorem spacedBy_counters (d : PrintedIface) :
    SpacedBy isAsciiWhitespace (d.counters.map decimal ++ [])
      (spaced 32 (d.counters.map decimal)) := by
  rw [List.append_nil]
  apply spaced_spacedBy rfl
  intro t ht
  obtain ⟨n, -, rfl⟩ := List.mem_map.mp ht
  exact decimal_isToken n

/-- Only the loopback interface passes. -/
theorem collectNetDevices_printed_loopback :
    collectNetDevices (KeyValue.string "host" "box") { ifaces := some {"lo"} }
        (DevStats.parseDev Readers.documented (unlines [bytes "Inter-|   Receive",
          bytes "    lo: 1 2 3 4 5 6 7 8 9 10 11 12 13 14 15 16",
          bytes "  eth0: 17 18 19 20 21 22 23 24 25 26 27 28 29 30 31 32"])).interfaces [] =
      [printedNetGroup (KeyValue.string "host" "box") loopback] := by
  refine (collectNetDevices_printed Readers.documented documented_readsDecimals _
    { ifaces := some {"lo"} } [loopback, ethernet] _
    (.skip (by decide) (.row ?_ (.row ?_ .nil))) (by decide) []).trans rfl
  · exact ⟨bytes "    ", _, [], by decide, spacedBy_counters loopback, by decide⟩
  · exact ⟨bytes "  ", _, [], by decide, spacedBy_counters ethernet, by decide⟩

end MetricsExporter.LinuxMetrics
