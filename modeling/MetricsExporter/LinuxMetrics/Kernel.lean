/-
# MetricsExporter.LinuxMetrics.Kernel -- a host, and what `/proc` shows of it

`Kernel` is a host as its kernel knows it: numbers, names and lists, with no text anywhere. `/proc`
shows it through files whose spacing, line order and further lines are the kernel's own business.

A thread is shown twice: under `/proc/<pid>/task/<tid>`, where its process lists it, and under
`/proc/<tid>`, which no listing names. Nothing is assumed of how the two are related (a real kernel
adds up the whole process in some files of the second), so a host has a task for each of them.

What cannot be read is not there. Left out is whatever no collector reads: the fields of the files
that are skipped, and the moments between two reads, for which see `Moving`.
-/
import MetricsExporter.LinuxMetrics.Isolation
import MetricsExporter.LinuxMetrics.Rows
import MetricsExporter.Procfs.Printed

namespace MetricsExporter.LinuxMetrics

open MetricsExporter.Lib MetricsExporter.Procfs MetricsExporter.Framework

/-- A process or a thread: the octets of its name, and what its files would say. A file that cannot
be read is not there. -/
structure Task where
  comm : Option Bytes := none
  io : Option Io := none
  status : Option Status := none
  stat : Option Stat := none

/-- A host. `task id` is what the files under `/proc/<id>` are about, and `thread pid tid` what
those under `/proc/<pid>/task/<tid>` are about. -/
structure Kernel where
  uptime : Option Uptime := none
  loadavg : Option LoadAvg := none
  cpus : Option (List PrintedCpu) := none
  processes : Option (List Int32) := none
  threads : Int32 → Option (List Int32) := fun _ => none
  task : Int32 → Task := fun _ => {}
  thread : Int32 → Int32 → Task := fun _ _ => {}
  interfaces : Option (List PrintedIface) := none
  disks : Option (List PrintedDevice) := none
  mem : Option MemInfo := none

/-! ## What `/proc` shows -/

/-- `/proc/<id>`. -/
def idDir (id : Int32) : Path := linuxProcPath.join (pidComponent id)

/-- `/proc/<pid>/task/<tid>`. -/
def threadDir (pid tid : Int32) : Path := (taskDir pid).join (pidComponent tid)

/-- The files of a directory show a task. -/
structure Task.Shows (t : Task) (fs : ProcFs) (root : Path) : Prop where
  comm : Option.Rel PrintsComm t.comm (fs.file (root.join "comm"))
  io : Option.Rel Io.Prints t.io (fs.file (root.join "io"))
  status : Option.Rel Status.Prints t.status (fs.file (root.join "status"))
  stat : Option.Rel Stat.Prints t.stat (fs.file (root.join "stat"))

/-- `/proc` shows a host. -/
structure Kernel.Shows (rd : Readers) (k : Kernel) (fs : ProcFs) : Prop where
  uptime : Option.Rel (Uptime.Prints rd) k.uptime (fs.file (linuxProcPath.join "uptime"))
  loadavg : Option.Rel (LoadAvg.Prints rd) k.loadavg (fs.file (linuxProcPath.join "loadavg"))
  cpus : Option.Rel PrintedCpu.Print k.cpus (fs.file (linuxProcPath.join "stat"))
  processes : Option.Rel PrintsListing k.processes (fs.dir linuxProcPath)
  threads : ∀ pid, Option.Rel PrintsListing (k.threads pid) (fs.dir (taskDir pid))
  task : ∀ id, (k.task id).Shows fs (idDir id)
  thread : ∀ pid tid, (k.thread pid tid).Shows fs (threadDir pid tid)
  interfaces : Option.Rel PrintedIface.Print k.interfaces
    (fs.file ((linuxProcPath.join "net").join "dev"))
  disks : Option.Rel PrintedDevice.Print k.disks (fs.file (linuxProcPath.join "diskstats"))
  mem : Option.Rel MemInfo.Prints k.mem (fs.file (linuxProcPath.join "meminfo"))

/-- The name of a task is text, whatever its octets. -/
def Task.name (t : Task) : Option String := t.comm.map Utf8.lossy

namespace Task.Shows

variable {rd : Readers} {fs : ProcFs} {t : Task} {id : Int32}

/-- The comm that was printed is the one that is read, whatever octets it is of. -/
theorem commOf_eq (h : t.Shows fs (idDir id)) : commOf fs id = t.name := by
  have hread : ∀ comm content, PrintsComm comm content →
      some (Utf8.lossy (stripNewline content)) = some (Utf8.lossy comm) := by
    intro comm content hprints
    rw [stripNewline_of_prints hprints]
  rw [Task.name, ← bind_of_rel hread h.comm, commOf, Option.map_eq_bind]
  rfl

/-- The counters that were printed are the ones that are read. -/
theorem ioOf_eq (hrd : rd.ReadsDecimals) (h : t.Shows fs (idDir id)) : ioOf rd fs id = t.io := by
  have hio := bind_of_rel (Io.parseIo_of_prints hrd) h.io
  rw [Option.map_id'] at hio
  rw [← hio, ioOf, Option.map_bind]
  rfl

/-- And so for the status, which has its required lines or is not there. -/
theorem statusOf_eq (hrd : rd.ReadsDecimals) (h : t.Shows fs (idDir id)) :
    statusOf rd fs id = t.status := by
  have hread : ∀ s content, Status.Prints s content →
      (Status.parseStatus rd content).toOption = some s := by
    intro s content hprints
    rw [Status.parseStatus_of_prints hrd s content hprints]
    rfl
  have hstatus := bind_of_rel hread h.status
  rw [Option.map_id'] at hstatus
  exact hstatus

/-- And for the two times of `stat`, behind a comm of any octets. -/
theorem statOf_eq (hrd : rd.ReadsDecimals) (h : t.Shows fs (idDir id)) :
    statOf rd fs id = t.stat := by
  have hread : ∀ s content, Stat.Prints s content →
      (Stat.parseStat rd content).toOption = some s := by
    intro s content hprints
    rw [Stat.parseStat_of_prints hrd s content hprints]
    rfl
  have hstat := bind_of_rel hread h.stat
  rw [Option.map_id'] at hstat
  exact hstat

end Task.Shows

end MetricsExporter.LinuxMetrics
