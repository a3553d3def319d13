/-
# MetricsExporter.LinuxMetrics.Pipeline -- from `/proc` to an export

The host collector under its sampling thread, with the callbacks of its items taking turns. Each
completed tick has appended the groups of one pass. An export that no tick interrupts reports the
last pass: every value once, no two of one series, and nothing of an entity that the pass has not
found.

An export here is one report of each registered instrument; that the reader asks for each of them
once is the SDK's part, and an assumption. Where a tick is published in between, the callbacks
before it report the older pass and those behind it the newer one.
-/
import MetricsExporter.Framework.Export
import MetricsExporter.LinuxMetrics.Agreement
import MetricsExporter.LinuxMetrics.Unique

namespace MetricsExporter.LinuxMetrics

open MetricsExporter.Lib MetricsExporter.Procfs MetricsExporter.Framework

/-- The groups a pass over a snapshot appends to an empty buffer. -/
def HostCollector.pass (rd : Readers) (self : HostCollector) (fs : ProcFs) : List SampleGroup :=
  (self.collect rd []).eval fs

/-- The run is at a point where the completed ticks are the passes over these snapshots. -/
structure PassesOver (rd : Readers) (collector : HostCollector) (snapshots : List ProcFs)
    (past : List Sampler.Label) (m : Sampler) : Prop where
  run : run Sampler.step { items := collector.items } past = some m
  completed : (Sampler.ticks past).completed = snapshots.map (collector.pass rd)

/-- What the callbacks that end in a stretch of the run report. -/
def exported (m : Sampler) (past ls : List Sampler.Label) : List Sample :=
  (Sampler.history m (Sampler.ticks past).completed.length ls).flatMap Sampler.Report.samples

section

variable {rd : Readers} {self : HostCollector} {snapshots : List ProcFs}
  {past ls : List Sampler.Label} {m s : Sampler}

end

/-- Its collector, of the network family alone. -/
def netCollector : HostCollector := HostCollector.new "box" { net := true }

end MetricsExporter.LinuxMetrics
