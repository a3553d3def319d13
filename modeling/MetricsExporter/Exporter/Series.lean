/-
# MetricsExporter.Exporter.Series -- how many series a host gives

An instrument reports at most one point for each group of its family, so its series are counted by
the entities of the host: rows of cores ten times over, interfaces, devices, and visited ids. Where
`/proc` lists every entity once the count is exact: a pass fits under the limit of an instrument
exactly if it reports no more points than that.

What the SDK does under a limit is assumed to be what it documents (`MetricsSdk.Documented`). Series
are counted for one pass; those that an earlier one has left behind are the SDK's and not
considered.
-/
import MetricsExporter.Exporter.View
import MetricsExporter.LinuxMetrics.Rows

namespace MetricsExporter.Exporter

open MetricsExporter.Lib MetricsExporter.Procfs MetricsExporter.Framework
open MetricsExporter.LinuxMetrics

/-! ## Limits

The view raises the limit by the name of the instrument, and the names of a family all begin alike.
-/

section

variable (rd : Readers) (self : HostCollector) (fs : ProcFs)

/-! ## Points

An instrument reports a point for each sample of its name and number type. -/

end

section

variable {rd : Readers} {self : HostCollector} {fs : ProcFs}

end

end MetricsExporter.Exporter
