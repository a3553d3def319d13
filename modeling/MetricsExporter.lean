import MetricsExporter.Exporter.Narrow
import MetricsExporter.Exporter.Series
import MetricsExporter.Exporter.Shutdown
import MetricsExporter.Exporter.Startup
import MetricsExporter.Exporter.System
import MetricsExporter.Framework.Reuse
import MetricsExporter.Framework.Stopping
import MetricsExporter.LinuxMetrics.Inline
import MetricsExporter.LinuxMetrics.Instruments
import MetricsExporter.LinuxMetrics.Isolation
import MetricsExporter.LinuxMetrics.TaskFiles
import MetricsExporter.LinuxMetrics.Threads
import MetricsExporter.LinuxMetrics.Unique
import MetricsExporter.Procfs.Accept
import MetricsExporter.Procfs.LineLocal
