/-
# MetricsExporter.LinuxMetrics.Isolation -- sources do not disturb each other

Two snapshots may differ in one source in any way at all: in its bytes, or in whether a read of it
succeeds. A pass over the one and a pass over the other then append the same groups in the same
order, up to the groups of that source.

The directory `/proc` itself belongs to no source, so both snapshots list the same processes. A task
has the files of its id, which is why a process that another one lists as its task is left out: its
files are read for the rows of both.
-/
import MetricsExporter.LinuxMetrics.Host

namespace MetricsExporter.LinuxMetrics

open MetricsExporter.Lib MetricsExporter.Procfs MetricsExporter.Framework

/-! ## What a source is made of -/

/-- The names of the files read for a process. -/
def processFileNames : List String := ["comm", "io", "status", "stat"]

/-- The files read for a process, under its own directory. -/
def processFiles (pid : Int32) : List Path :=
  processFileNames.map (Process.withPid pid).root.join

/-- The files of a source. -/
def Source.files : Source → List Path
  | .uptime => [linuxProcPath.join "uptime"]
  | .loadavg => [linuxProcPath.join "loadavg"]
  | .stat => [linuxProcPath.join "stat"]
  | .process pid => processFiles pid
  | .netDev => [(linuxProcPath.join "net").join "dev"]
  | .diskstats => [linuxProcPath.join "diskstats"]
  | .meminfo => [linuxProcPath.join "meminfo"]

/-- The directories of a source. -/
def Source.dirs : Source → List Path
  | .process pid => [taskDir pid]
  | _ => []

/-- Two snapshots that differ, if at all, in one source. -/
structure DifferOnlyIn (source : Source) (fs fs' : ProcFs) : Prop where
  file : ∀ path, path ∉ source.files → fs.file path = fs'.file path
  dir : ∀ path, path ∉ source.dirs → fs.dir path = fs'.dir path

/-- The snapshot in which every read of a source fails. -/
def without (source : Source) (fs : ProcFs) : ProcFs where
  file path := if path ∈ source.files then none else fs.file path
  dir path := if path ∈ source.dirs then none else fs.dir path

/-- Its listing fails as well. -/
theorem differOnlyIn_without (source : Source) (fs : ProcFs) :
    DifferOnlyIn source fs (without source fs) where
  file _ hpath := (if_neg hpath).symm
  dir _ hpath := (if_neg hpath).symm

/-! ## Footprints

The paths a computation depends on. Each collector is shown to read no others by rewriting them. -/

/-- Two ids have two directories. -/
theorem pidComponent_injective : Function.Injective pidComponent := by
  intro p q h
  exact Int32.toInt.inj (Decimal.intNumeral_injective (String.ofList_injective h))

section

variable {rd : Readers} {hostname : KeyValue} {cfg : ProcessFilter} {fs fs' : ProcFs}

/-- The files of a process are all that is read for its row. -/
structure SameFiles (fs fs' : ProcFs) (p : Process) : Prop where
  comm : fs.file (p.root.join "comm") = fs'.file (p.root.join "comm")
  io : fs.file (p.root.join "io") = fs'.file (p.root.join "io")
  status : fs.file (p.root.join "status") = fs'.file (p.root.join "status")
  stat : fs.file (p.root.join "stat") = fs'.file (p.root.join "stat")

/-- The gate depends on the comm alone. -/
theorem SameFiles.eval_comm {p : Process} (h : SameFiles fs fs' p) :
    p.comm.eval fs = p.comm.eval fs' := by
  unfold Process.comm parseComm
  rw [eval_fromFile, eval_fromFile, h.comm]

/-- The row depends on the four files. -/
theorem SameFiles.taskRow_eq {p : Process} (h : SameFiles fs fs' p) (collector : CollectorType) :
    taskRow rd hostname cfg fs collector p = taskRow rd hostname cfg fs' collector p := by
  have hio : (p.io rd).eval fs = (p.io rd).eval fs' := by
    unfold Process.io
    rw [Io.eval_fromFile, Io.eval_fromFile, h.io]
  have hstatus : (p.status rd).eval fs = (p.status rd).eval fs' := by
    unfold Process.status
    rw [eval_fromFile, eval_fromFile, h.status]
  have hstat : (p.stat rd).eval fs = (p.stat rd).eval fs' := by
    unfold Process.stat
    rw [eval_fromFile, eval_fromFile, h.stat]
  unfold taskRow taskLive taskValues
  rw [h.eval_comm, hio, hstatus, hstat]

/-- A listing depends on its directory. -/
theorem listedPids_congr {root : Path} (h : fs.dir root = fs'.dir root) :
    listedPids fs root = listedPids fs' root := by
  unfold listedPids
  rw [h]

/-- Which tasks follow depends on the comm and the task directory. -/
theorem gatedTasks_congr {pid : Int32} (hfiles : SameFiles fs fs' (Process.withPid pid))
    (hdir : fs.dir (taskDir pid) = fs'.dir (taskDir pid)) :
    gatedTasks cfg fs (Process.withPid pid) = gatedTasks cfg fs' (Process.withPid pid) := by
  unfold gatedTasks
  rw [hfiles.eval_comm, eval_tasks_withPid, eval_tasks_withPid, listedPids_congr hdir]

/-- The rows of a process depend on its own files and listing and on the files of its tasks. -/
theorem processRows_congr {pid : Int32} (hfiles : SameFiles fs fs' (Process.withPid pid))
    (hdir : fs.dir (taskDir pid) = fs'.dir (taskDir pid))
    (htasks : ∀ tid ∈ taskPids fs pid, SameFiles fs fs' (Process.withPid tid)) :
    processRows rd hostname cfg fs (Process.withPid pid) =
      processRows rd hostname cfg fs' (Process.withPid pid) := by
  unfold processRows
  rw [hfiles.taskRow_eq, ← gatedTasks_congr hfiles hdir]
  congr 1
  refine List.flatMap_congr fun task htask => ?_
  obtain ⟨tid, htid, rfl⟩ := List.mem_map.mp ((gatedTasks_sublist cfg fs pid).subset htask)
  exact (htasks tid (List.mem_filter.mp htid).1).taskRow_eq .thread

end

/-! ## Two snapshots that differ in one source -/

namespace DifferOnlyIn

variable {source : Source} {fs fs' : ProcFs}

/-- No source contains the directory `/proc`. -/
theorem processPids_eq (h : DifferOnlyIn source fs fs') : processPids fs = processPids fs' := by
  have hdir : fs.dir linuxProcPath = fs'.dir linuxProcPath := by
    apply h.dir
    cases source <;> simp [Source.dirs, taskDir, linuxProcPath, Path.join]
  unfold processPids
  rw [listedPids_congr hdir]

theorem pidComponent_ne {p pid : Int32} (hne : Source.process p ≠ .process pid) :
    pidComponent pid ≠ pidComponent p := by
  intro heq
  exact hne (congrArg Source.process (pidComponent_injective heq).symm)

/-- A process that is not the source keeps its files. -/
theorem sameFiles (h : DifferOnlyIn source fs fs') {pid : Int32} (hne : source ≠ .process pid) :
    SameFiles fs fs' (Process.withPid pid) := by
  have hfile : ∀ name ∈ processFileNames, fs.file ((Process.withPid pid).root.join name) =
      fs'.file ((Process.withPid pid).root.join name) := by
    intro name hname
    have hdev : name ≠ "dev" := by
      rintro rfl
      exact absurd hname (by decide)
    apply h.file
    cases source with
    | process p =>
        have hpid := pidComponent_ne hne
        simp [Source.files, processFiles, Process.withPid, Path.join, linuxProcPath, hpid.symm]
    -- `/proc/net` is no process, but its path is as long as that of a process file
    | netDev => simp [Source.files, Process.withPid, Path.join, linuxProcPath, hdev]
    | _ => simp [Source.files, Process.withPid, Path.join, linuxProcPath]
  exact ⟨hfile _ (by decide), hfile _ (by decide), hfile _ (by decide), hfile _ (by decide)⟩

/-- A process that is not the source keeps its listing. -/
theorem dir_taskDir_eq (h : DifferOnlyIn source fs fs') {pid : Int32}
    (hne : source ≠ .process pid) : fs.dir (taskDir pid) = fs'.dir (taskDir pid) := by
  apply h.dir
  cases source with
  | process p =>
      have hpid := pidComponent_ne hne
      simp [Source.dirs, taskDir, Path.join, linuxProcPath, hpid]
  | _ => simp [Source.dirs]

/-- **A source that does not differ keeps its groups.** For a process this takes that the differing
process is not one of its tasks. -/
theorem sourceGroups_eq (h : DifferOnlyIn source fs fs') (rd : Readers) (self : HostCollector)
    {other : Source} (hne : source ≠ other)
    (htasks : ∀ p q, source = .process p → other = .process q → p ∉ taskPids fs q) :
    sourceGroups rd self fs other = sourceGroups rd self fs' other := by
  -- each of the global files is read at a path that is not one of the source's
  have hglobal : ∀ path, path ∈ other.files → other.dirs = [] → fs.file path = fs'.file path := by
    intro path hpath hdirs
    apply h.file
    cases other <;> cases source <;>
      simp_all [Source.files, Source.dirs, processFiles, processFileNames, Process.withPid,
        Path.join, linuxProcPath]
  cases other with
  | uptime =>
      unfold sourceGroups uptime
      rw [ProcM.eval_bind, ProcM.eval_bind, eval_readToString, eval_readToString,
        hglobal _ (List.mem_singleton_self _) rfl]
      cases (fs'.file (linuxProcPath.join "uptime")).bind Utf8.strict <;> rfl
  | loadavg =>
      unfold sourceGroups loadavg
      rw [eval_fromFile, eval_fromFile, hglobal _ (List.mem_singleton_self _) rfl]
  | stat =>
      unfold sourceGroups cpuStat
      rw [eval_fromFile, eval_fromFile, hglobal _ (List.mem_singleton_self _) rfl]
  | process q =>
      refine processRows_congr (h.sameFiles hne) (h.dir_taskDir_eq hne) fun tid htid => ?_
      exact h.sameFiles fun heq => htasks tid q heq rfl htid
  | netDev =>
      unfold sourceGroups devStats
      rw [eval_fromFile, eval_fromFile, hglobal _ (List.mem_singleton_self _) rfl]
  | diskstats =>
      unfold sourceGroups diskStats
      rw [eval_fromFile, eval_fromFile, hglobal _ (List.mem_singleton_self _) rfl]
  | meminfo =>
      unfold sourceGroups meminfo
      rw [eval_fromFile, eval_fromFile, hglobal _ (List.mem_singleton_self _) rfl]

end DifferOnlyIn

/-- **Sources are isolated.** Let two snapshots differ only in one source: a global file, or the
files and the task listing of one process that no other process lists as its task. Then the groups
that one pass appends, without those of that source, are the same in the same order. -/
theorem collect_isolated (rd : Readers) (self : HostCollector) (source : Source)
    (fs fs' : ProcFs) (h : DifferOnlyIn source fs fs')
    (htasks : ∀ p, source = .process p → ∀ q ∈ processPids fs, q ≠ p → p ∉ taskPids fs q) :
    (self.collect rd []).eval fs = (taggedGroups rd self fs).map Prod.snd ∧
      (self.collect rd []).eval fs' = (taggedGroups rd self fs').map Prod.snd ∧
      (taggedGroups rd self fs).filter (fun g => decide (g.1 ≠ source)) =
        (taggedGroups rd self fs').filter (fun g => decide (g.1 ≠ source)) := by
  have hsources : sources self fs = sources self fs' := by
    unfold sources passPids
    rw [h.processPids_eq]
  refine ⟨?_, ?_, ?_⟩
  · rw [eval_collect, map_snd_taggedGroups, List.nil_append]
  · rw [eval_collect, map_snd_taggedGroups, List.nil_append]
  · unfold taggedGroups
    rw [List.filter_flatMap, List.filter_flatMap, ← hsources]
    refine List.flatMap_congr fun other hother => ?_
    by_cases hne : source = other
    · -- the groups of the source itself are all removed
      have hnone := fun fs =>
        filter_tags_eq_nil rd self fs (fun tag => decide (tag ≠ source)) other (by simp [hne])
      rw [hnone, hnone]
    · rw [h.sourceGroups_eq rd self hne]
      rintro p q rfl rfl
      have hpass : q ∈ passPids self fs := by simpa [sources] using hother
      exact htasks p rfl q (List.mem_ite_nil_right.mp hpass).2 fun heq => hne (heq ▸ rfl)

/-- The first process of the small host becomes unreadable. -/
theorem collect_isolated_small :
    let self := HostCollector.new "box" everyFamily
    let source := Source.process 1
    let fs' := without source smallSnapshot
    (self.collect Readers.documented []).eval smallSnapshot =
        (taggedGroups Readers.documented self smallSnapshot).map Prod.snd ∧
      (self.collect Readers.documented []).eval fs' =
        (taggedGroups Readers.documented self fs').map Prod.snd ∧
      (taggedGroups Readers.documented self smallSnapshot).filter
          (fun g => decide (g.1 ≠ source)) =
        (taggedGroups Readers.documented self fs').filter (fun g => decide (g.1 ≠ source)) := by
  refine collect_isolated Readers.documented _ (.process 1) smallSnapshot _
    (differOnlyIn_without (.process 1) smallSnapshot) ?_
  intro p hp
  obtain rfl := Source.process.inj hp
  decide

end MetricsExporter.LinuxMetrics
