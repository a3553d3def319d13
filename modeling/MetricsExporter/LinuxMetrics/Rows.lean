/-
# MetricsExporter.LinuxMetrics.Rows -- the rows of the process family, from the files

What a pass over the process table should append is said here of the snapshot alone: which ids are
visited, in which order, and what the row of one holds, each by the contents of the files under
`/proc/<id>`. `collectProcessMetrics_rows` compares the nested loop with that.

The tasks of a process are visited at `/proc/<id>` as well, which is where the code reads them;
`Threads` is about that. The parsers of the three files are taken as they are, and have
specifications of their own.
-/
import MetricsExporter.LinuxMetrics.Agreement

namespace MetricsExporter.LinuxMetrics

open MetricsExporter.Lib MetricsExporter.Procfs MetricsExporter.Framework

/-! ## The files of an id -/

/-- A file of a task, if it can be read. -/
def taskFile (fs : ProcFs) (id : Int32) (name : String) : Option Bytes :=
  fs.file ((linuxProcPath.join (pidComponent id)).join name)

/-- The name of a task: its `comm` without the line feed at the end. -/
def commOf (fs : ProcFs) (id : Int32) : Option String :=
  (taskFile fs id "comm").map fun content => Utf8.lossy (stripNewline content)

/-- Its I/O counters, if the file can be read and is text. -/
def ioOf (rd : Readers) (fs : ProcFs) (id : Int32) : Option Io :=
  ((taskFile fs id "io").bind Utf8.strict).map (Io.parseIo rd)

/-- Its status, if the file can be read and parses. -/
def statusOf (rd : Readers) (fs : ProcFs) (id : Int32) : Option Status :=
  (taskFile fs id "status").bind fun content => (Status.parseStatus rd content).toOption

/-- Its CPU times, if the file can be read and parses. -/
def statOf (rd : Readers) (fs : ProcFs) (id : Int32) : Option Stat :=
  (taskFile fs id "stat").bind fun content => (Stat.parseStat rd content).toOption

/-! ## The rows -/

/-- The comm of the id is readable and any set of patterns the filter has matches it. -/
def Passes (cfg : ProcessFilter) (fs : ProcFs) (id : Int32) : Bool :=
  (commOf fs id).any fun comm => cfg.commsRegex.all (·.isMatch comm)

/-- Any of the three files of the id can be read. -/
def Live (rd : Readers) (fs : ProcFs) (id : Int32) : Bool :=
  (ioOf rd fs id).isSome || (statusOf rd fs id).isSome || (statOf rd fs id).isSome

/-- An id that is visited, as a process or as a thread. -/
structure Visit where
  thread : Bool
  id : Int32
  deriving DecidableEq, Repr

/-- The ids visited, in order: each process, and behind one that passes the tasks listed for it
other than itself, if threads are asked for. -/
def visits (cfg : ProcessFilter) (fs : ProcFs) : List Visit :=
  (processPids fs).flatMap fun pid =>
    ⟨false, pid⟩ :: if Passes cfg fs pid && cfg.thread then
      ((taskPids fs pid).filter (· ≠ pid)).map fun tid => ⟨true, tid⟩
    else []

section

variable (rd : Readers) (hostname : KeyValue) (cfg : ProcessFilter) (fs : ProcFs)

/-- The values of an id: seven, ten and two of them for the files that can be read. -/
def rowValues (id : Int32) : List SampleValue :=
  (ioOf rd fs id).toList.flatMap ioSamples ++ (statusOf rd fs id).toList.flatMap statusSamples ++
    (statOf rd fs id).toList.flatMap cpuTimeSamples

/-- The row of a visit, if the id passes and is live. -/
def expectedRow (visit : Visit) : Option SampleGroup := do
  let comm ← commOf fs visit.id
  if cfg.commsRegex.all (·.isMatch comm) && Live rd fs visit.id then
    some {
      attrs := [hostname, ⟨"pid", .i64 visit.id.toInt64⟩, ⟨"comm", .string comm⟩,
        ⟨"thread", .bool visit.thread⟩]
      values := rowValues rd fs visit.id }
  else none

/-! ## The loop reads the same files

Each method of `Process` on an id of the listing reads the file of that name, and fails exactly when
there is nothing to parse. -/

/-- The gate of the loop. It cannot fail on what it reads, as a comm may be any octets. -/
theorem eval_comm_toOption (id : Int32) :
    ((Process.withPid id).comm.eval fs).toOption = commOf fs id := by
  rw [Process.comm, parseComm, eval_fromFile]
  show Except.toOption (Option.elim (taskFile fs id "comm") _ _) = commOf fs id
  rw [commOf]
  cases taskFile fs id "comm" <;> rfl

/-- The one file that has to be UTF-8. -/
theorem eval_io_toOption (id : Int32) :
    (((Process.withPid id).io rd).eval fs).toOption = ioOf rd fs id := by
  rw [Process.io, Io.eval_fromFile]
  show Except.toOption (Option.elim ((taskFile fs id "io").bind Utf8.strict) _ _) = ioOf rd fs id
  rw [ioOf]
  cases (taskFile fs id "io").bind Utf8.strict <;> rfl

theorem eval_status_toOption (id : Int32) :
    (((Process.withPid id).status rd).eval fs).toOption = statusOf rd fs id := by
  rw [Process.status, eval_fromFile]
  show Except.toOption (Option.elim (taskFile fs id "status") _ _) = statusOf rd fs id
  rw [statusOf]
  cases taskFile fs id "status" <;> rfl

theorem eval_stat_toOption (id : Int32) :
    (((Process.withPid id).stat rd).eval fs).toOption = statOf rd fs id := by
  rw [Process.stat, eval_fromFile]
  show Except.toOption (Option.elim (taskFile fs id "stat") _ _) = statOf rd fs id
  rw [statOf]
  cases taskFile fs id "stat" <;> rfl

/-- The samples of a file there may be. -/
theorem okSamples_eq {α : Type} (samples : α → List SampleValue) (result : ProcResult α) :
    okSamples samples result = result.toOption.toList.flatMap samples := by
  cases result with
  | error err => rfl
  | ok a => exact (List.append_nil _).symm

/-- A result is a value or an error. -/
theorem isOk_eq {α : Type} (result : ProcResult α) : result.isOk = result.toOption.isSome := by
  cases result <;> rfl

/-- Values from the files of the id. -/
theorem taskValues_withPid (id : Int32) :
    taskValues rd fs (Process.withPid id) = rowValues rd fs id := by
  rw [taskValues, rowValues, okSamples_eq, okSamples_eq, okSamples_eq, eval_io_toOption,
    eval_status_toOption, eval_stat_toOption]

/-- And likewise whether there are any. -/
theorem taskLive_withPid (id : Int32) : taskLive rd fs (Process.withPid id) = Live rd fs id := by
  rw [taskLive, Live, isOk_eq, isOk_eq, isOk_eq, eval_io_toOption, eval_status_toOption,
    eval_stat_toOption]

/-- The collector that goes through a kind of visit. -/
def collectorOf (thread : Bool) : CollectorType := if thread then .thread else .process

/-- **One round of the loop** appends the row of the visit. -/
theorem taskRow_withPid (visit : Visit) :
    taskRow rd hostname cfg fs (collectorOf visit.thread) (Process.withPid visit.id) =
      (expectedRow rd hostname cfg fs visit).toList := by
  have hcomm := eval_comm_toOption fs visit.id
  rw [expectedRow, ← hcomm]
  cases hok : (Process.withPid visit.id).comm.eval fs with
  | error err =>
      rw [taskRow_of_error rd hostname cfg fs hok]
      rfl
  | ok comm =>
      rw [taskRow_of_comm rd hostname cfg fs hok, taskValues_withPid, taskLive_withPid,
        ProcessFilter.passes_eq]
      have hattrs : taskAttrs hostname (collectorOf visit.thread) (Process.withPid visit.id).pid
          comm = [hostname, ⟨"pid", .i64 visit.id.toInt64⟩, ⟨"comm", .string comm⟩,
            ⟨"thread", .bool visit.thread⟩] := by
        cases visit.thread <;> rfl
      rw [hattrs]
      simp only [Except.toOption, Option.bind_eq_bind, Option.bind_some]
      split <;> rfl

/-- Which tasks follow the row of a process: none behind a gate that is closed. -/
theorem gatedTasks_withPid (pid : Int32) :
    gatedTasks cfg fs (Process.withPid pid) =
      if Passes cfg fs pid && cfg.thread then
        ((taskPids fs pid).filter (· ≠ pid)).map Process.withPid
      else [] := by
  rw [gatedTasks, Passes, ← eval_comm_toOption, eval_tasks_withPid, taskPids]
  cases (Process.withPid pid).comm.eval fs with
  | error err => simp [Except.toOption]
  | ok comm =>
      have hfilter : ∀ pids : List Int32, pids.filter (fun tid => decide (some pid ≠ some tid)) =
          pids.filter (· ≠ pid) := by
        intro pids
        refine List.filter_congr fun tid _ => ?_
        simp [eq_comm]
      cases listedPids fs (taskDir pid) with
      | none => simp
      | some pids =>
          simp only [Option.elim_some, Option.getD_some, hfilter, ProcessFilter.passes_eq]
          rfl

/-- One round of the outer loop, as the visits it stands for. -/
theorem processRows_withPid (pid : Int32) :
    processRows rd hostname cfg fs (Process.withPid pid) =
      (⟨false, pid⟩ :: if Passes cfg fs pid && cfg.thread then
        ((taskPids fs pid).filter (· ≠ pid)).map fun tid => ⟨true, tid⟩
      else []).filterMap (expectedRow rd hostname cfg fs) := by
  rw [processRows, gatedTasks_withPid, List.filterMap_eq_flatMap_toList, List.flatMap_cons]
  refine congrArg₂ (· ++ ·) (taskRow_withPid rd hostname cfg fs ⟨false, pid⟩) ?_
  split
  · rw [List.flatMap_map, List.flatMap_map]
    exact List.flatMap_congr fun tid _ => taskRow_withPid rd hostname cfg fs ⟨true, tid⟩
  · rfl

/-! ## What is appended -/

/-- When a visit has a row. -/
theorem expectedRow_isSome (visit : Visit) :
    (expectedRow rd hostname cfg fs visit).isSome =
      (Passes cfg fs visit.id && Live rd fs visit.id) := by
  rw [expectedRow, Passes]
  cases commOf fs visit.id with
  | none => rfl
  | some comm =>
      simp only [Option.bind_eq_bind, Option.bind_some, Option.any_some]
      cases cfg.commsRegex.all (·.isMatch comm) && Live rd fs visit.id <;> rfl

/-- What a row tells of the visit. -/
theorem expectedRow_eq_some {visit : Visit} {group : SampleGroup}
    (h : expectedRow rd hostname cfg fs visit = some group) :
    Live rd fs visit.id = true ∧ group.values = rowValues rd fs visit.id := by
  have hsome := expectedRow_isSome rd hostname cfg fs visit
  rw [h, Option.isSome_some, eq_comm, Bool.and_eq_true] at hsome
  refine ⟨hsome.2, ?_⟩
  unfold expectedRow at h
  obtain ⟨comm, -, h⟩ := Option.bind_eq_some_iff.mp h
  split at h
  · exact (Option.some.inj h) ▸ rfl
  · cases h

/-- The signatures of the files that can be read. -/
def rowSignatures (id : Int32) : List Signature :=
  (if (ioOf rd fs id).isSome then ioSignatures else []) ++
    (if (statusOf rd fs id).isSome then statusSignatures else []) ++
    if (statOf rd fs id).isSome then cpuTimeSignatures else []

/-- The values by the files they come from. -/
theorem rowValues_signatures (id : Int32) :
    (rowValues rd fs id).map SampleValue.signature = rowSignatures rd fs id := by
  rw [rowValues, rowSignatures, List.map_append, List.map_append]
  cases ioOf rd fs id <;> cases statusOf rd fs id <;> cases statOf rd fs id <;> rfl

/-- A live id has something to push. -/
theorem rowSignatures_ne_nil {id : Int32} (hlive : Live rd fs id = true) :
    rowSignatures rd fs id ≠ [] := by
  unfold Live at hlive
  unfold rowSignatures
  cases hio : (ioOf rd fs id).isSome <;> cases hstatus : (statusOf rd fs id).isSome <;>
    cases hstat : (statOf rd fs id).isSome <;>
    simp_all [ioSignatures, statusSignatures, cpuTimeSignatures]

end

/-- **`collect_process` emits exactly the rows it should.** For each visited id in turn, one group
if the id passes and is live and none otherwise; a group has the seven, ten and two samples of the
files that can be read, and never none at all. -/
theorem collectProcessMetrics_rows (rd : Readers) (hostname : KeyValue) (cfg : ProcessFilter)
    (fs : ProcFs) (out : List SampleGroup) :
    (collectProcessMetrics rd hostname cfg out).eval fs =
        out ++ (visits cfg fs).filterMap (expectedRow rd hostname cfg fs) ∧
      ∀ visit : Visit,
        (expectedRow rd hostname cfg fs visit).isSome =
            (Passes cfg fs visit.id && Live rd fs visit.id) ∧
          ∀ group, expectedRow rd hostname cfg fs visit = some group →
            groupSignatures group = rowSignatures rd fs visit.id ∧ group.values ≠ [] := by
  refine ⟨?_, fun visit => ⟨expectedRow_isSome rd hostname cfg fs visit, fun group hrow => ?_⟩⟩
  · rw [eval_collectProcessMetrics, visits, List.filterMap_flatMap]
    refine congrArg (out ++ ·) (List.flatMap_congr fun pid _ => ?_)
    exact processRows_withPid rd hostname cfg fs pid
  · obtain ⟨hlive, hvalues⟩ := expectedRow_eq_some rd hostname cfg fs hrow
    have hsignatures : groupSignatures group = rowSignatures rd fs visit.id := by
      rw [groupSignatures, hvalues, rowValues_signatures]
    refine ⟨hsignatures, fun hnil => rowSignatures_ne_nil rd fs hlive ?_⟩
    rw [← hsignatures, groupSignatures, hnil]
    rfl

end MetricsExporter.LinuxMetrics
