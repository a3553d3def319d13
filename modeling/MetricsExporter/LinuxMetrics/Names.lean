/-
# MetricsExporter.LinuxMetrics.Names -- the metric names

The names of all metrics the crate exports. Registration (`MetricItem.name`) and sampling
(`SampleGroup.push`) both go through these constants, so an instrument and its values cannot drift
apart by a typing slip. What the two sides do with a name is another matter, and `Rows` and
`Coverage` are about that.

The specifications of what a printed file exports write the names out once more, as text, and do not
go through the constants.
-/

namespace MetricsExporter.LinuxMetrics

/-! ## The host as a whole -/

def nameUptime : String := "uptime"
def nameLoadavg1m : String := "loadavg_1m"
def nameLoadavg5m : String := "loadavg_5m"
def nameLoadavg15m : String := "loadavg_15m"
def nameLoadavgRunningTasks : String := "loadavg_running_tasks"
def nameLoadavgTotalTasks : String := "loadavg_total_tasks"
def nameCpuSecondsTotal : String := "cpu_seconds_total"

/-! ## Processes and threads -/

def nameProcessIoRcharTotal : String := "process_io_rchar_total"
def nameProcessIoWcharTotal : String := "process_io_wchar_total"
def nameProcessIoReadBytesTotal : String := "process_io_read_bytes_total"
def nameProcessIoWriteBytesTotal : String := "process_io_write_bytes_total"
def nameProcessIoCancelledWriteBytesTotal : String := "process_io_cancelled_write_bytes_total"
def nameProcessIoSyscrTotal : String := "process_io_syscr_total"
def nameProcessIoSyscwTotal : String := "process_io_syscw_total"
def nameProcessCpuUserSecondsTotal : String := "process_cpu_user_seconds_total"
def nameProcessCpuSystemSecondsTotal : String := "process_cpu_system_seconds_total"
def nameProcessMemVirtBytes : String := "process_mem_virt_bytes"
def nameProcessMemRssBytes : String := "process_mem_rss_bytes"
def nameProcessMemHwmBytes : String := "process_mem_hwm_bytes"
def nameProcessMemSharedBytes : String := "process_mem_shared_bytes"
def nameProcessMemSwapBytes : String := "process_mem_swap_bytes"
def nameProcessMemHugetlbBytes : String := "process_mem_hugetlb_bytes"
def nameProcessFdSize : String := "process_fd_size"
def nameProcessThreads : String := "process_threads"
def nameProcessCtxtSwitchesVoluntaryTotal : String := "process_ctxt_switches_voluntary_total"
def nameProcessCtxtSwitchesNonvoluntaryTotal : String := "process_ctxt_switches_nonvoluntary_total"

/-! ## Network interfaces -/

def nameIfaceRxBytesTotal : String := "iface_rx_bytes_total"
def nameIfaceRxPacketsTotal : String := "iface_rx_packets_total"
def nameIfaceRxErrsTotal : String := "iface_rx_errs_total"
def nameIfaceRxDropTotal : String := "iface_rx_drop_total"
def nameIfaceTxBytesTotal : String := "iface_tx_bytes_total"
def nameIfaceTxPacketsTotal : String := "iface_tx_packets_total"
def nameIfaceTxErrsTotal : String := "iface_tx_errs_total"
def nameIfaceTxDropTotal : String := "iface_tx_drop_total"

/-! ## Block devices -/

def nameDiskReadBytesTotal : String := "disk_read_bytes_total"
def nameDiskReadsCompletedTotal : String := "disk_reads_completed_total"
def nameDiskReadsMergedTotal : String := "disk_reads_merged_total"
def nameDiskReadTimeMsTotal : String := "disk_read_time_ms_total"
def nameDiskWriteBytesTotal : String := "disk_write_bytes_total"
def nameDiskWritesCompletedTotal : String := "disk_writes_completed_total"
def nameDiskWritesMergedTotal : String := "disk_writes_merged_total"
def nameDiskWriteTimeMsTotal : String := "disk_write_time_ms_total"
def nameDiskIoInProgress : String := "disk_io_in_progress"
def nameDiskIoTimeMsTotal : String := "disk_io_time_ms_total"
def nameDiskIoTimeWeightedMsTotal : String := "disk_io_time_weighted_ms_total"
def nameDiskDiscardBytesTotal : String := "disk_discard_bytes_total"
def nameDiskDiscardsCompletedTotal : String := "disk_discards_completed_total"
def nameDiskDiscardsMergedTotal : String := "disk_discards_merged_total"
def nameDiskDiscardTimeMsTotal : String := "disk_discard_time_ms_total"
def nameDiskFlushRequestsTotal : String := "disk_flush_requests_total"
def nameDiskFlushTimeMsTotal : String := "disk_flush_time_ms_total"

/-! ## Memory -/

def nameMemTotalBytes : String := "mem_total_bytes"
def nameMemFreeBytes : String := "mem_free_bytes"
def nameMemAvailableBytes : String := "mem_available_bytes"
def nameSwapTotalBytes : String := "swap_total_bytes"
def nameSwapFreeBytes : String := "swap_free_bytes"
def nameHugePagesTotalBytes : String := "huge_pages_total_bytes"
def nameHugePagesFreeBytes : String := "huge_pages_free_bytes"

end MetricsExporter.LinuxMetrics
