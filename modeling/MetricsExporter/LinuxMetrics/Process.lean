/-
# MetricsExporter.LinuxMetrics.Process -- per-process and per-thread metrics (`process_*`)

`collectProcess` is the nested loop over the process table and, with the `thread` flag, over the
tasks of every process. Its specification `eval_collectProcess` lists the groups it appends: one row
for each process and task that is readable and passes the filter, in listing order.

In the source the function calls itself for the tasks. The recursion is one level deep, as a task is
collected with the collector `thread`, which has the guard against it; that is what `termination_by`
counts. The log lines of unreadable files are left out.
-/
import MetricsExporter.LinuxMetrics.Basic
import MetricsExporter.LinuxMetrics.Cpu
import MetricsExporter.Procfs.Process

namespace MetricsExporter.LinuxMetrics

open MetricsExporter.Lib MetricsExporter.Procfs MetricsExporter.Framework

/-- Whether processes or their threads are gone through. -/
inductive CollectorType where
  | process
  | thread
  deriving DecidableEq, Repr

/-- Which processes to collect, and whether their threads as well. -/
structure ProcessFilter where
  commsRegex : Option RegexSet := none
  thread : Bool := false

/-! ## The samples of one file

Each helper pushes the samples of one file and reports that it has pushed any; all three always do.
-/

/-- `u64::saturating_add`. -/
def saturatingAdd (a b : UInt64) : UInt64 :=
  if a.toNat + b.toNat < 2 ^ 64 then a + b else UInt64.ofNat (2 ^ 64 - 1)

/-- `collect_io_metrics`. -/
def collectIoMetrics (group : SampleGroup) (io : Io) : SampleGroup × Bool :=
  (group
    |>.push nameProcessIoRcharTotal (.u64 io.rchar)
    |>.push nameProcessIoWcharTotal (.u64 io.wchar)
    |>.push nameProcessIoSyscrTotal (.u64 io.syscr)
    |>.push nameProcessIoSyscwTotal (.u64 io.syscw)
    |>.push nameProcessIoReadBytesTotal (.u64 io.readBytes)
    |>.push nameProcessIoWriteBytesTotal (.u64 io.writeBytes)
    |>.push nameProcessIoCancelledWriteBytesTotal (.u64 io.cancelledWriteBytes), true)

/-- `collect_status_metrics`. Only the shared size is computed with saturation. -/
def collectStatusMetrics (group : SampleGroup) (status : Status) : SampleGroup × Bool :=
  (group
    |>.push nameProcessMemVirtBytes (.u64 (status.vmSizeKb * bytesPerKb))
    |>.push nameProcessMemRssBytes (.u64 (status.vmRssKb * bytesPerKb))
    |>.push nameProcessMemHwmBytes (.u64 (status.vmHwmKb * bytesPerKb))
    |>.push nameProcessMemSharedBytes
      (.u64 (saturatingAdd status.rssFileKb status.rssShmemKb * bytesPerKb))
    |>.push nameProcessMemSwapBytes (.u64 (status.vmSwapKb * bytesPerKb))
    |>.push nameProcessMemHugetlbBytes (.u64 (status.hugetlbPagesKb * bytesPerKb))
    |>.push nameProcessFdSize (.u64 status.fdSize)
    |>.push nameProcessThreads (.u64 status.threads)
    |>.push nameProcessCtxtSwitchesVoluntaryTotal (.u64 status.voluntaryCtxtSwitches)
    |>.push nameProcessCtxtSwitchesNonvoluntaryTotal (.u64 status.nonvoluntaryCtxtSwitches), true)

/-- `collect_cpu_time_metrics`. -/
def collectCpuTimeMetrics (group : SampleGroup) (stat : Stat) : SampleGroup × Bool :=
  (group
    |>.push nameProcessCpuUserSecondsTotal (.f64 (ticksToSeconds stat.utimeTicks))
    |>.push nameProcessCpuSystemSecondsTotal (.f64 (ticksToSeconds stat.stimeTicks)), true)

/-! ## The nested loop -/

/-- The attributes of a row. -/
def taskAttrs (hostname : KeyValue) (collector : CollectorType) (pid : Int32) (comm : String) :
    List KeyValue :=
  match collector with
  | .process =>
      [hostname, ⟨"pid", .i64 pid.toInt64⟩, KeyValue.string "comm" comm, ⟨"thread", .bool false⟩]
  | .thread =>
      [hostname, ⟨"pid", .i64 pid.toInt64⟩, KeyValue.string "comm" comm, ⟨"thread", .bool true⟩]

section

variable (rd : Readers) (hostname : KeyValue)

/-- The middle of the body of `collect_process`: read the three files of a task whose comm was
read, and say whether any sample was pushed. -/
def buildGroup (collector : CollectorType) (process : Process) (comm : String) :
    ProcM (SampleGroup × Bool) := do
  let mut group := SampleGroup.withAttrs (taskAttrs hostname collector process.pid comm)
  let mut emitted := false
  match ← process.io rd with
  | .ok io =>
      let (pushed, any) := collectIoMetrics group io
      group := pushed
      emitted := emitted || any
  | .error _ => pure ()
  match ← process.status rd with
  | .ok status =>
      let (pushed, any) := collectStatusMetrics group status
      group := pushed
      emitted := emitted || any
  | .error _ => pure ()
  match ← process.stat rd with
  | .ok stat =>
      let (pushed, any) := collectCpuTimeMetrics group stat
      group := pushed
      emitted := emitted || any
  | .error _ => pure ()
  return (group, emitted)

variable (cfg : ProcessFilter)

/-- The filter of `collect_process` lets a name through. -/
def ProcessFilter.passes (comm : String) : Bool :=
  match cfg.commsRegex with
  | some commsRegex => commsRegex.isMatch comm
  | none => true

/-- The guard by the data of the filter: a set there is must match the name. -/
theorem ProcessFilter.passes_eq (comm : String) :
    cfg.passes comm = cfg.commsRegex.all (·.isMatch comm) := by
  unfold ProcessFilter.passes
  cases cfg.commsRegex <;> rfl

/-- `collect_process`. The recursion is guarded by the collector: tasks have no tasks. -/
def collectProcess (processes : List Process) (collector : CollectorType)
    (out : List SampleGroup) : ProcM (List SampleGroup) := do
  let mut out := out
  for process in processes do
    -- comm is the gate: if it cannot be read the process is gone.
    let .ok comm ← process.comm | continue
    if !cfg.passes comm then
      continue
    let (group, emitted) ← buildGroup rd hostname collector process comm
    if emitted then
      out := out ++ [group]
    -- The tasks are gone through also where the process itself had no readable file.
    if _ : cfg.thread ∧ collector ≠ .thread then
      let .ok tasks ← process.tasks | continue
      out ← collectProcess tasks .thread out
  return out
termination_by if collector = .thread then 0 else 1
decreasing_by simp_all

/-- `collect_process_metrics`. -/
def collectProcessMetrics (out : List SampleGroup) : ProcM (List SampleGroup) := do
  let .ok processes ← getAllProcesses | return out
  collectProcess rd hostname cfg processes .process out

end

/-! ## What a row holds

The helpers only append, so the values of a row are those of its three files one after the other. -/

/-- What each of the three pushes. -/
def ioSamples (io : Io) : List SampleValue := (collectIoMetrics (.withAttrs []) io).1.values

def statusSamples (status : Status) : List SampleValue :=
  (collectStatusMetrics (.withAttrs []) status).1.values

def cpuTimeSamples (stat : Stat) : List SampleValue :=
  (collectCpuTimeMetrics (.withAttrs []) stat).1.values

/-- The samples of a file that was read and parsed, none otherwise. -/
def okSamples {α : Type} (samples : α → List SampleValue) : ProcResult α → List SampleValue
  | .ok a => samples a
  | .error _ => []

/-- Each helper appends what it pushes to whatever is there. -/
theorem collectIoMetrics_eq (group : SampleGroup) (io : Io) :
    collectIoMetrics group io = ({ group with values := group.values ++ ioSamples io }, true) := by
  simp [collectIoMetrics, ioSamples, SampleGroup.push]

theorem collectStatusMetrics_eq (group : SampleGroup) (status : Status) :
    collectStatusMetrics group status =
      ({ group with values := group.values ++ statusSamples status }, true) := by
  simp [collectStatusMetrics, statusSamples, SampleGroup.push]

theorem collectCpuTimeMetrics_eq (group : SampleGroup) (stat : Stat) :
    collectCpuTimeMetrics group stat =
      ({ group with values := group.values ++ cpuTimeSamples stat }, true) := by
  simp [collectCpuTimeMetrics, cpuTimeSamples, SampleGroup.push]

/-- The values of a row: those of its three files that could be read. -/
def taskValues (rd : Readers) (fs : ProcFs) (p : Process) : List SampleValue :=
  okSamples ioSamples ((p.io rd).eval fs) ++ okSamples statusSamples ((p.status rd).eval fs) ++
    okSamples cpuTimeSamples ((p.stat rd).eval fs)

/-- Whether any of the three files of a row could be read. -/
def taskLive (rd : Readers) (fs : ProcFs) (p : Process) : Bool :=
  ((p.io rd).eval fs).isOk || ((p.status rd).eval fs).isOk || ((p.stat rd).eval fs).isOk

/-- The specification of `buildGroup`: eight cases, of which one is a row without a value. -/
theorem eval_buildGroup (rd : Readers) (hostname : KeyValue) (collector : CollectorType)
    (p : Process) (comm : String) (fs : ProcFs) :
    (buildGroup rd hostname collector p comm).eval fs =
      (⟨taskAttrs hostname collector p.pid comm, taskValues rd fs p⟩, taskLive rd fs p) := by
  unfold buildGroup taskValues taskLive
  cases hio : (p.io rd).eval fs <;> cases hstatus : (p.status rd).eval fs <;>
    cases hstat : (p.stat rd).eval fs <;>
    simp [hio, hstatus, hstat, okSamples, collectIoMetrics_eq, collectStatusMetrics_eq,
      collectCpuTimeMetrics_eq, Except.isOk, Except.toBool, SampleGroup.withAttrs]

/-- Ids are widened when they become attributes. -/
theorem toInt64_injective : Function.Injective Int32.toInt64 := by
  intro p q h
  apply Int32.toInt.inj
  rw [← Int32.toInt_toInt64, h, Int32.toInt_toInt64]

/-! ## What the nested loop appends -/

section

variable (rd : Readers) (hostname : KeyValue) (cfg : ProcessFilter) (fs : ProcFs)

/-- The row of a process or task, if its comm is readable and passes and any file is readable. -/
def taskRow (collector : CollectorType) (p : Process) : List SampleGroup :=
  match p.comm.eval fs with
  | .error _ => []
  | .ok comm =>
      if cfg.passes comm && taskLive rd fs p then
        [⟨taskAttrs hostname collector p.pid comm, taskValues rd fs p⟩]
      else []

/-- The tasks whose rows follow the row of a process. -/
def gatedTasks (p : Process) : List Process :=
  match p.comm.eval fs, p.tasks.eval fs with
  | .ok comm, .ok tasks => if cfg.passes comm && cfg.thread then tasks else []
  | _, _ => []

/-- The tasks of a process are listed in its task directory, without the process itself. -/
theorem gatedTasks_sublist (pid : Int32) :
    (gatedTasks cfg fs (Process.withPid pid)).Sublist
      (((taskPids fs pid).filter (fun tid => decide (some pid ≠ some tid))).map
        Process.withPid) := by
  unfold gatedTasks taskPids
  rw [eval_tasks_withPid]
  cases (Process.withPid pid).comm.eval fs with
  | error err => exact List.nil_sublist _
  | ok comm =>
      cases listedPids fs (taskDir pid) with
      | none => exact List.nil_sublist _
      | some pids =>
          dsimp only [Option.elim_some, Option.getD_some]
          split
          · exact List.Sublist.refl _
          · exact List.nil_sublist _

/-- The rows of a process: its own and those of its tasks. -/
def processRows (p : Process) : List SampleGroup :=
  taskRow rd hostname cfg fs .process p ++
    (gatedTasks cfg fs p).flatMap (taskRow rd hostname cfg fs .thread)

/-- Behind the gate the filter and the other files decide. -/
theorem taskRow_of_comm {collector : CollectorType} {p : Process} {comm : String}
    (hcomm : p.comm.eval fs = .ok comm) :
    taskRow rd hostname cfg fs collector p =
      if cfg.passes comm && taskLive rd fs p then
        [⟨taskAttrs hostname collector p.pid comm, taskValues rd fs p⟩]
      else [] := by
  rw [taskRow, hcomm]

theorem taskRow_of_error {collector : CollectorType} {p : Process} {err : ProcError}
    (hcomm : p.comm.eval fs = .error err) : taskRow rd hostname cfg fs collector p = [] := by
  rw [taskRow, hcomm]

/-- What it takes for a row, and what the row is. -/
theorem mem_taskRow {collector : CollectorType} {p : Process} {group : SampleGroup} :
    group ∈ taskRow rd hostname cfg fs collector p ↔
      ∃ comm, p.comm.eval fs = .ok comm ∧ cfg.passes comm = true ∧ taskLive rd fs p = true ∧
        group = ⟨taskAttrs hostname collector p.pid comm, taskValues rd fs p⟩ := by
  cases hcomm : p.comm.eval fs with
  | error err => simp [taskRow_of_error rd hostname cfg fs hcomm]
  | ok comm =>
      rw [taskRow_of_comm rd hostname cfg fs hcomm]
      cases hpasses : cfg.passes comm <;> cases hlive : taskLive rd fs p <;> simp [hpasses]

/-- A row tells of which id it is, and whether of a thread. -/
theorem attrs_of_mem_taskRow {collector : CollectorType} {p : Process} {group : SampleGroup}
    (hgroup : group ∈ taskRow rd hostname cfg fs collector p) :
    ∃ comm, group.attrs = taskAttrs hostname collector p.pid comm := by
  obtain ⟨comm, -, -, -, rfl⟩ := (mem_taskRow rd hostname cfg fs).mp hgroup
  exact ⟨comm, rfl⟩

/-- A group of the rows of a process is the row of the process or of one of its gated tasks. -/
theorem mem_processRows {p : Process} {group : SampleGroup}
    (hgroup : group ∈ processRows rd hostname cfg fs p) :
    ∃ collector task, group ∈ taskRow rd hostname cfg fs collector task := by
  rcases List.mem_append.mp hgroup with hrow | hrows
  · exact ⟨.process, p, hrow⟩
  · obtain ⟨task, -, hrow⟩ := List.mem_flatMap.mp hrows
    exact ⟨.thread, task, hrow⟩

/-- The inner loop, which has no tasks to go on to. -/
theorem eval_collectProcess_thread (tasks : List Process) (out : List SampleGroup) :
    (collectProcess rd hostname cfg tasks .thread out).eval fs =
      out ++ tasks.flatMap (taskRow rd hostname cfg fs .thread) := by
  rw [collectProcess, ProcM.eval_bind,
    ProcM.eval_forIn (fun out p => out ++ taskRow rd hostname cfg fs .thread p), ProcM.eval_pure]
  · exact foldl_gather _ tasks out
  · intro p out
    cases hcomm : p.comm.eval fs with
    | error err => simp [hcomm, taskRow_of_error rd hostname cfg fs hcomm]
    | ok comm =>
        rw [taskRow_of_comm rd hostname cfg fs hcomm]
        cases hpasses : cfg.passes comm <;> cases hlive : taskLive rd fs p <;>
          simp [hcomm, hpasses, hlive, eval_buildGroup]

/-- **What `collect_process` appends.** The rows of each process in turn. -/
theorem eval_collectProcess (processes : List Process) (out : List SampleGroup) :
    (collectProcess rd hostname cfg processes .process out).eval fs =
      out ++ processes.flatMap (processRows rd hostname cfg fs) := by
  rw [collectProcess, ProcM.eval_bind,
    ProcM.eval_forIn (fun out p => out ++ processRows rd hostname cfg fs p), ProcM.eval_pure]
  · exact foldl_gather _ processes out
  · intro p out
    unfold processRows gatedTasks
    -- one round: the gate, the filter, whether a row comes out, and whether tasks follow
    cases hcomm : p.comm.eval fs with
    | error err => simp [hcomm, taskRow_of_error rd hostname cfg fs hcomm]
    | ok comm =>
        rw [taskRow_of_comm rd hostname cfg fs hcomm]
        cases hpasses : cfg.passes comm <;> cases hlive : taskLive rd fs p <;>
          cases hthread : cfg.thread <;> cases htasks : p.tasks.eval fs <;>
          simp [hcomm, hpasses, hlive, htasks, eval_buildGroup,
            eval_collectProcess_thread]

/-- **What `collect_process_metrics` appends.** -/
theorem eval_collectProcessMetrics (out : List SampleGroup) :
    (collectProcessMetrics rd hostname cfg out).eval fs =
      out ++ (processPids fs).flatMap
        (fun pid => processRows rd hostname cfg fs (Process.withPid pid)) := by
  unfold collectProcessMetrics getAllProcesses processPids
  rw [ProcM.eval_bind, eval_getProcessTasks]
  cases listedPids fs linuxProcPath with
  | none => simp
  | some pids =>
      -- no id is left out at the top, where there is no parent
      have hall : pids.filter (fun pid => decide ((none : Option Int32) ≠ some pid)) = pids := by
        simp
      rw [Option.elim_some, hall]
      simp [eval_collectProcess, List.flatMap_map]

end

end MetricsExporter.LinuxMetrics
