/-
# MetricsExporter.LinuxMetrics.Threads -- what the row of a thread describes

The files of a thread are those under `/proc/<pid>/task/<tid>`. The enumeration of the tasks of a
process roots every task right under `/proc`, so its row is read from `/proc/<tid>` instead.
`threadRows_iff` says when the two make no difference.

On a kernel `/proc/<tid>` gives some of the counters of the whole process, `io` and the times of
`stat` among them. Nothing of that is assumed: the files at the two places may hold anything.
-/
import MetricsExporter.LinuxMetrics.Agreement

namespace MetricsExporter.LinuxMetrics

open MetricsExporter.Lib MetricsExporter.Procfs MetricsExporter.Framework

/-! ## The files of a thread -/

/-- A thread at its own directory, `/proc/<pid>/task/<tid>`. -/
def threadProcess (pid tid : Int32) : Process :=
  { pid := tid, root := (taskDir pid).join (pidComponent tid) }

section

variable (rd : Readers) (hostname : KeyValue) (cfg : ProcessFilter) (fs : ProcFs)

/-- A group with `thread = true` for `tid`. -/
def IsThreadRow (tid : Int32) (group : SampleGroup) : Prop :=
  ∃ comm, group.attrs = taskAttrs hostname .thread tid comm

/-- The group holds the comm of a thread and the samples of those of its files that parse. -/
def Describes (p : Process) (group : SampleGroup) : Prop :=
  (∃ comm, p.comm.eval fs = .ok comm ∧ group.attrs = taskAttrs hostname .thread p.pid comm) ∧
    group.values = taskValues rd fs p

/-- Every row that is emitted for `tid` describes the thread `tid` of the process `pid`. -/
def ThreadRowsDescribe (pids : List Int32) (pid tid : Int32) : Prop :=
  ∀ group ∈ (collectProcess rd hostname cfg (pids.map Process.withPid) .process []).eval fs,
    IsThreadRow hostname tid group → Describes rd hostname fs (threadProcess pid tid) group

/-- Threads are collected, and `tid` is a task listed by the process `pid`, which is readable and
passes the filter. -/
structure ListedThread (pid tid : Int32) : Prop where
  thread : cfg.thread = true
  comm : ∃ comm, (Process.withPid pid).comm.eval fs = .ok comm ∧ cfg.passes comm = true
  listed : tid ∈ taskPids fs pid
  ne : tid ≠ pid

/-- The files of a task let a row through: a comm that passes the filter, and any other file. -/
def Emits (p : Process) : Prop :=
  ∃ comm, p.comm.eval fs = .ok comm ∧ cfg.passes comm = true ∧ taskLive rd fs p = true

/-- The files at two places hold the same comm and export the same samples. -/
structure SameExport (p q : Process) : Prop where
  comm : p.comm.eval fs = q.comm.eval fs
  io : okSamples ioSamples ((p.io rd).eval fs) = okSamples ioSamples ((q.io rd).eval fs)
  status : okSamples statusSamples ((p.status rd).eval fs) =
    okSamples statusSamples ((q.status rd).eval fs)
  stat : okSamples cpuTimeSamples ((p.stat rd).eval fs) =
    okSamples cpuTimeSamples ((q.stat rd).eval fs)

end

/-! ## A row determines the samples of each file

The values of a row stand one behind the other without saying where each was read. As the three
files export different names, a row can be taken apart again. -/

/-- The values of given signatures. -/
def part (signatures : List Signature) (values : List SampleValue) : List SampleValue :=
  values.filter fun v => decide (v.signature ∈ signatures)

theorem part_append (signatures : List Signature) (as bs : List SampleValue) :
    part signatures (as ++ bs) = part signatures as ++ part signatures bs := List.filter_append ..

section

variable {α : Type} {samples : α → List SampleValue} {signatures : List Signature}

/-- All samples of a file have its signatures. -/
theorem part_okSamples (hok : ∀ a, (samples a).map SampleValue.signature = signatures)
    (result : ProcResult α) :
    part signatures (okSamples samples result) = okSamples samples result := by
  rw [part, List.filter_eq_self]
  intro v hv
  exact decide_eq_true ((okSamples_signatures hok result).subset (List.mem_map_of_mem hv))

/-- And none has those of another file. -/
theorem part_okSamples_of_disjoint (hok : ∀ a, (samples a).map SampleValue.signature = signatures)
    {others : List Signature} (hdisjoint : ∀ s ∈ signatures, s ∉ others) (result : ProcResult α) :
    part others (okSamples samples result) = [] := by
  rw [part, List.filter_eq_nil_iff]
  intro v hv hother
  exact hdisjoint _ ((okSamples_signatures hok result).subset (List.mem_map_of_mem hv))
    (of_decide_eq_true hother)

end

/-- What each of the three files exports. -/
theorem io_signatures (io : Io) : (ioSamples io).map SampleValue.signature = ioSignatures := rfl

theorem status_signatures (status : Status) :
    (statusSamples status).map SampleValue.signature = statusSignatures := rfl

theorem cpuTime_signatures (stat : Stat) :
    (cpuTimeSamples stat).map SampleValue.signature = cpuTimeSignatures := rfl

/-- The part of `io`. -/
theorem part_io_taskValues (rd : Readers) (fs : ProcFs) (p : Process) :
    part ioSignatures (taskValues rd fs p) = okSamples ioSamples ((p.io rd).eval fs) := by
  rw [taskValues, part_append, part_append, part_okSamples io_signatures,
    part_okSamples_of_disjoint status_signatures (by decide),
    part_okSamples_of_disjoint cpuTime_signatures (by decide), List.append_nil, List.append_nil]

/-- The part of `status`. -/
theorem part_status_taskValues (rd : Readers) (fs : ProcFs) (p : Process) :
    part statusSignatures (taskValues rd fs p) =
      okSamples statusSamples ((p.status rd).eval fs) := by
  rw [taskValues, part_append, part_append, part_okSamples status_signatures,
    part_okSamples_of_disjoint io_signatures (by decide),
    part_okSamples_of_disjoint cpuTime_signatures (by decide), List.nil_append, List.append_nil]

/-- The part of `stat`. -/
theorem part_cpuTime_taskValues (rd : Readers) (fs : ProcFs) (p : Process) :
    part cpuTimeSignatures (taskValues rd fs p) =
      okSamples cpuTimeSamples ((p.stat rd).eval fs) := by
  rw [taskValues, part_append, part_append, part_okSamples cpuTime_signatures,
    part_okSamples_of_disjoint io_signatures (by decide),
    part_okSamples_of_disjoint status_signatures (by decide), List.nil_append, List.nil_append]

/-- Two rows hold the same values when the files of each kind export the same. -/
theorem taskValues_eq_iff {rd : Readers} {fs : ProcFs} {p q : Process} :
    taskValues rd fs p = taskValues rd fs q ↔
      okSamples ioSamples ((p.io rd).eval fs) = okSamples ioSamples ((q.io rd).eval fs) ∧
        okSamples statusSamples ((p.status rd).eval fs) =
          okSamples statusSamples ((q.status rd).eval fs) ∧
        okSamples cpuTimeSamples ((p.stat rd).eval fs) =
          okSamples cpuTimeSamples ((q.stat rd).eval fs) := by
  constructor
  · -- the names tell which file a value was read from
    intro h
    refine ⟨?_, ?_, ?_⟩
    · rw [← part_io_taskValues, h, part_io_taskValues]
    · rw [← part_status_taskValues, h, part_status_taskValues]
    · rw [← part_cpuTime_taskValues, h, part_cpuTime_taskValues]
  · rintro ⟨hio, hstatus, hstat⟩
    rw [taskValues, taskValues, hio, hstatus, hstat]

/-! ## Where the rows of a thread come from -/

section

variable {rd : Readers} {hostname : KeyValue} {cfg : ProcessFilter} {fs : ProcFs}

/-- The attributes of a thread row tell that it is one, and of which id. -/
theorem taskAttrs_thread_inj {collector : CollectorType} {p tid : Int32} {comm comm' : String}
    (h : taskAttrs hostname collector p comm = taskAttrs hostname .thread tid comm') :
    collector = .thread ∧ p = tid ∧ comm = comm' := by
  cases collector with
  | process => simp [taskAttrs] at h
  | thread =>
      simp only [taskAttrs, KeyValue.string, List.cons.injEq, KeyValue.mk.injEq, true_and,
        AttrValue.i64.injEq, AttrValue.string.injEq, and_true] at h
      exact ⟨rfl, toInt64_injective h.1, h.2⟩

/-- Wherever a row of `tid` is emitted, it is read from `/proc/<tid>`. -/
theorem mem_taskRow_of_isThreadRow {pids : List Int32} {tid : Int32} {group : SampleGroup}
    (hgroup : group ∈
      (collectProcess rd hostname cfg (pids.map Process.withPid) .process []).eval fs)
    (hrow : IsThreadRow hostname tid group) :
    group ∈ taskRow rd hostname cfg fs .thread (Process.withPid tid) := by
  rw [eval_collectProcess, List.nil_append, List.flatMap_map] at hgroup
  obtain ⟨pid, -, hgroup⟩ := List.mem_flatMap.mp hgroup
  obtain ⟨comm, hattrs⟩ := hrow
  -- a process row has `thread = false`; the row of a task carries the id it was read under
  rcases List.mem_append.mp hgroup with hown | htasks
  · obtain ⟨_, hown⟩ := attrs_of_mem_taskRow rd hostname cfg fs hown
    cases (taskAttrs_thread_inj (hown.symm.trans hattrs)).1
  · obtain ⟨task, htask, htasks⟩ := List.mem_flatMap.mp htasks
    obtain ⟨tid', -, rfl⟩ := List.mem_map.mp ((gatedTasks_sublist cfg fs pid).subset htask)
    obtain ⟨_, htask⟩ := attrs_of_mem_taskRow rd hostname cfg fs htasks
    have hsame : tid' = tid := (taskAttrs_thread_inj (htask.symm.trans hattrs)).2.1
    exact hsame ▸ htasks

/-- A listed thread is gone through. -/
theorem ListedThread.mem_gatedTasks {pid tid : Int32} (h : ListedThread cfg fs pid tid) :
    Process.withPid tid ∈ gatedTasks cfg fs (Process.withPid pid) := by
  obtain ⟨comm, hcomm, hpasses⟩ := h.comm
  have hlisted := h.listed
  unfold taskPids at hlisted
  unfold gatedTasks
  rw [hcomm, eval_tasks_withPid]
  cases hpids : listedPids fs (taskDir pid) with
  | none => simp [hpids] at hlisted
  | some pids =>
      simp only [Option.elim_some, hpasses, h.thread, Bool.and_self, if_true]
      refine List.mem_map_of_mem (List.mem_filter.mpr ⟨by simpa [hpids] using hlisted, ?_⟩)
      exact decide_eq_true fun heq => h.ne (Option.some.inj heq).symm

/-- So its row is among those of the loop, if it has one. -/
theorem ListedThread.mem_collectProcess {pids : List Int32} {pid tid : Int32}
    (h : ListedThread cfg fs pid tid) (hpid : pid ∈ pids) {group : SampleGroup}
    (hrow : group ∈ taskRow rd hostname cfg fs .thread (Process.withPid tid)) :
    group ∈ (collectProcess rd hostname cfg (pids.map Process.withPid) .process []).eval fs := by
  rw [eval_collectProcess, List.nil_append, List.flatMap_map]
  refine List.mem_flatMap.mpr ⟨pid, hpid, List.mem_append_right _ ?_⟩
  exact List.mem_flatMap.mpr ⟨_, h.mem_gatedTasks, hrow⟩

/-- A row read from `/proc/<tid>` that describes the thread shows that the files agree. -/
theorem sameExport_of_describes {pids : List Int32} {pid tid : Int32}
    (h : ListedThread cfg fs pid tid) (hpid : pid ∈ pids)
    (hrows : ThreadRowsDescribe rd hostname cfg fs pids pid tid)
    (hemits : Emits rd cfg fs (Process.withPid tid)) :
    SameExport rd fs (Process.withPid tid) (threadProcess pid tid) := by
  obtain ⟨comm, hcomm, hpasses, hlive⟩ := hemits
  have hrow : ⟨taskAttrs hostname .thread tid comm, taskValues rd fs (Process.withPid tid)⟩ ∈
      taskRow rd hostname cfg fs .thread (Process.withPid tid) :=
    (mem_taskRow rd hostname cfg fs).mpr ⟨comm, hcomm, hpasses, hlive, rfl⟩
  obtain ⟨⟨comm', hcomm', hattrs⟩, hvalues⟩ :=
    hrows _ (h.mem_collectProcess hpid hrow) ⟨comm, rfl⟩
  have hattrs : taskAttrs hostname .thread tid comm = taskAttrs hostname .thread tid comm' := hattrs
  obtain ⟨-, -, rfl⟩ := taskAttrs_thread_inj hattrs
  obtain ⟨hio, hstatus, hstat⟩ := taskValues_eq_iff.mp hvalues
  exact ⟨hcomm.trans hcomm'.symm, hio, hstatus, hstat⟩

end

/-- **When thread rows describe the thread.** The rows emitted for a listed thread hold its own comm
and samples exactly when the files under `/proc/<tid>`, which they are read from, let no row through
or export the same as the files under `/proc/<pid>/task/<tid>`. -/
theorem threadRows_iff (rd : Readers) (hostname : KeyValue) (cfg : ProcessFilter) (fs : ProcFs)
    (pids : List Int32) (pid tid : Int32) (hpid : pid ∈ pids)
    (h : ListedThread cfg fs pid tid) :
    ThreadRowsDescribe rd hostname cfg fs pids pid tid ↔
      (Emits rd cfg fs (Process.withPid tid) →
        SameExport rd fs (Process.withPid tid) (threadProcess pid tid)) := by
  constructor
  · exact sameExport_of_describes h hpid
  · intro hsame group hgroup hrow
    obtain ⟨comm, hcomm, hpasses, hlive, rfl⟩ :=
      (mem_taskRow rd hostname cfg fs).mp (mem_taskRow_of_isThreadRow hgroup hrow)
    have hexport := hsame ⟨comm, hcomm, hpasses, hlive⟩
    refine ⟨⟨comm, hexport.comm ▸ hcomm, rfl⟩, ?_⟩
    exact taskValues_eq_iff.mpr ⟨hexport.io, hexport.status, hexport.stat⟩

/-- A process with one more thread, whose own counters are not those under `/proc/2`. -/
def threadSnapshot : ProcFs := .ofLists
  [(["proc", "1", "comm"], bytes "init\n"),
    (["proc", "1", "task", "2", "comm"], bytes "worker\n"),
    (["proc", "1", "task", "2", "io"], bytes "rchar: 5\n"),
    (["proc", "2", "comm"], bytes "worker\n"),
    (["proc", "2", "io"], bytes "rchar: 900\n")]
  [(["proc", "1", "task"], [some ⟨bytes "1", true⟩, some ⟨bytes "2", true⟩])]

/-- The thread 2 is listed under the process 1. -/
theorem threadSnapshot_listed : ListedThread { thread := true } threadSnapshot 1 2 where
  thread := rfl
  comm := ⟨"init", by decide, rfl⟩
  listed := by decide
  ne := by decide

/-- The files under `/proc/2` let a row through. -/
theorem threadSnapshot_emits :
    Emits Readers.documented { thread := true } threadSnapshot (Process.withPid 2) :=
  ⟨"worker", by decide, rfl, by decide⟩

/-- The counters of the thread and those its row is read from. -/
theorem threadSnapshot_io :
    ((Process.withPid 2).io Readers.documented).eval threadSnapshot = .ok { rchar := 900 } ∧
      ((threadProcess 1 2).io Readers.documented).eval threadSnapshot = .ok { rchar := 5 } := by
  decide

/-- So its rows describe it only if both places export the same. -/
theorem threadRows_iff_threadSnapshot :
    ThreadRowsDescribe Readers.documented (KeyValue.string "host" "box") { thread := true }
        threadSnapshot [1] 1 2 ↔
      (Emits Readers.documented { thread := true } threadSnapshot (Process.withPid 2) →
        SameExport Readers.documented threadSnapshot (Process.withPid 2) (threadProcess 1 2)) :=
  threadRows_iff Readers.documented _ _ threadSnapshot [1] 1 2 (by decide)
    threadSnapshot_listed

/-- The row of this thread holds the 900 bytes read from `/proc/2/io`, not its own 5. -/
theorem threadSnapshot_not_describes :
    ListedThread { thread := true } threadSnapshot 1 2 ∧
      ¬ ThreadRowsDescribe Readers.documented (KeyValue.string "host" "box") { thread := true }
        threadSnapshot [1] 1 2 := by
  refine ⟨threadSnapshot_listed, fun hrows => ?_⟩
  have hexport := sameExport_of_describes threadSnapshot_listed (by decide) hrows
    threadSnapshot_emits
  -- the two `io` files would have to export the same samples
  have hio := hexport.io
  rw [threadSnapshot_io.1, threadSnapshot_io.2] at hio
  have hvalue := congrArg (fun values => values.head?.map SampleValue.value) hio
  simp [okSamples, ioSamples, collectIoMetrics] at hvalue

end MetricsExporter.LinuxMetrics
