/-
# MetricsExporter.LinuxMetrics.Reads -- what a pass reads, and that it reads nothing twice

The accesses of a pass in the order it makes them: the global files, and between them for each visit
of the process family the files under `/proc/<id>`. Whether a read fails decides what is read next,
but no file is read twice, because no id is visited twice.

That takes something of the listings: that their numeric names are distinct and canonical, and that
a thread is listed under one process only (`DistinctIds`). Nothing is assumed of the contents, and
every read may fail. An access is a call that opens a file or a directory; how many system calls it
takes is left out.
-/
import MetricsExporter.LinuxMetrics.Isolation
import MetricsExporter.LinuxMetrics.Rows
import MetricsExporter.LinuxMetrics.Unique

namespace MetricsExporter.LinuxMetrics

open MetricsExporter.Lib MetricsExporter.Procfs MetricsExporter.Framework

/-! ## The accesses of the process family

What is read next depends on the answers before, so the accesses are those of one snapshot. A row
needs no file: whether one comes out plays no part here. -/

section

variable (rd : Readers) (hostname : KeyValue) (cfg : ProcessFilter) (fs : ProcFs)

/-- The three files of a task are read whether or not the ones before could be. -/
theorem accesses_buildGroup (collector : CollectorType) (p : Process) (comm : String) :
    (buildGroup rd hostname collector p comm).accesses fs =
      [.read (p.root.join "io"), .read (p.root.join "status"), .read (p.root.join "stat")] := by
  unfold buildGroup Process.io Process.status Process.stat
  cases hio : (Io.fromFile rd (p.root.join "io")).eval fs <;>
    cases hstatus : (fromFile (Status.parseStatus rd) (p.root.join "status")).eval fs <;>
    cases hstat : (fromFile (Stat.parseStat rd) (p.root.join "stat")).eval fs <;>
    simp [hio, hstatus, hstat, -eval_fromFile, -Io.eval_fromFile]

/-- The files read for a task: its name, and behind the filter its three files. -/
def taskReads (p : Process) : List Access :=
  .read (p.root.join "comm") :: match p.comm.eval fs with
    | .error _ => []
    | .ok comm =>
        if cfg.passes comm then
          [.read (p.root.join "io"), .read (p.root.join "status"), .read (p.root.join "stat")]
        else []

/-- With a name that is readable the filter decides. -/
theorem taskReads_of_comm {p : Process} {comm : String} (hcomm : p.comm.eval fs = .ok comm) :
    taskReads cfg fs p = .read (p.root.join "comm") :: if cfg.passes comm then
      [.read (p.root.join "io"), .read (p.root.join "status"), .read (p.root.join "stat")]
    else [] := by
  rw [taskReads, hcomm]

/-- Without a name there is nothing more to read. -/
theorem taskReads_of_error {p : Process} {err : ProcError} (hcomm : p.comm.eval fs = .error err) :
    taskReads cfg fs p = [.read (p.root.join "comm")] := by
  rw [taskReads, hcomm]

/-- The inner call, over the threads of one process. -/
theorem accesses_collectProcess_thread (tasks : List Process) (out : List SampleGroup) :
    (collectProcess rd hostname cfg tasks .thread out).accesses fs =
      tasks.flatMap (taskReads cfg fs) := by
  rw [collectProcess, ProcM.accesses_bind, ProcM.accesses_forIn (taskReads cfg fs)]
  · simp
  · intro p out
    have hread : p.comm.accesses fs = [.read (p.root.join "comm")] := accesses_fromFile _ _ fs
    cases hcomm : p.comm.eval fs with
    | error err => simp [hcomm, hread, taskReads_of_error cfg fs hcomm]
    | ok comm =>
        rw [taskReads_of_comm cfg fs hcomm]
        cases hpasses : cfg.passes comm <;>
          cases hlive : ((buildGroup rd hostname .thread p comm).eval fs).2 <;>
          simp [hcomm, hread, hpasses, hlive, accesses_buildGroup]

/-- Whether the tasks of a process are listed: its name is readable and passes, and threads are
asked for. -/
def listsTasks (p : Process) : Bool :=
  match p.comm.eval fs with
  | .error _ => false
  | .ok comm => cfg.passes comm && cfg.thread

/-- What is read for a process: its own files, and behind the listing of its tasks theirs. -/
def processReads (p : Process) : List Access :=
  taskReads cfg fs p ++ if listsTasks cfg fs p then
    .readDir (p.root.join "task") :: (gatedTasks cfg fs p).flatMap (taskReads cfg fs)
  else []

/-- **What `collect_process` reads.** -/
theorem accesses_collectProcess (processes : List Process) (out : List SampleGroup) :
    (collectProcess rd hostname cfg processes .process out).accesses fs =
      processes.flatMap (processReads cfg fs) := by
  rw [collectProcess, ProcM.accesses_bind, ProcM.accesses_forIn (processReads cfg fs)]
  · simp
  · intro p out
    have hread : p.comm.accesses fs = [.read (p.root.join "comm")] := accesses_fromFile _ _ fs
    have htask : p.tasks.accesses fs = [.readDir (p.root.join "task")] :=
      accesses_getProcessTasks _ _ fs
    unfold processReads listsTasks gatedTasks
    -- one round: the gate, the filter, whether a row comes out, and whether tasks follow
    cases hcomm : p.comm.eval fs with
    | error err => simp [hcomm, hread, taskReads_of_error cfg fs hcomm]
    | ok comm =>
        rw [taskReads_of_comm cfg fs hcomm]
        cases hpasses : cfg.passes comm <;>
          cases hlive : ((buildGroup rd hostname .process p comm).eval fs).2 <;>
          cases hthread : cfg.thread <;> cases htasks : p.tasks.eval fs <;>
          simp [hcomm, hread, hpasses, hlive, htasks, htask, accesses_buildGroup,
            accesses_collectProcess_thread]

/-! ## Visit by visit -/

/-- What is read for a visit, all of it under `/proc/<id>`. -/
def visitReads (visit : Visit) : List Access :=
  taskReads cfg fs (Process.withPid visit.id) ++
    if !visit.thread && (Passes cfg fs visit.id && cfg.thread) then
      [.readDir (taskDir visit.id)]
    else []

/-- Whether the tasks of a listed process are listed, by the files. -/
theorem listsTasks_withPid (pid : Int32) :
    listsTasks cfg fs (Process.withPid pid) = (Passes cfg fs pid && cfg.thread) := by
  rw [listsTasks, Passes, ← eval_comm_toOption]
  simp only [ProcessFilter.passes_eq]
  cases (Process.withPid pid).comm.eval fs <;> rfl

/-- What the process family reads: `/proc` once, and then visit by visit. -/
theorem accesses_collectProcessMetrics (out : List SampleGroup) :
    (collectProcessMetrics rd hostname cfg out).accesses fs =
      .readDir linuxProcPath :: (visits cfg fs).flatMap (visitReads cfg fs) := by
  -- the accesses of a process, rearranged by its visits: the listing comes right behind its own
  -- files
  have hprocess : ∀ pid, processReads cfg fs (Process.withPid pid) =
      (⟨false, pid⟩ :: if Passes cfg fs pid && cfg.thread then
        ((taskPids fs pid).filter (· ≠ pid)).map fun tid => ⟨true, tid⟩
      else []).flatMap (visitReads cfg fs) := by
    intro pid
    rw [processReads, listsTasks_withPid, gatedTasks_withPid, List.flatMap_cons, visitReads]
    cases hlists : Passes cfg fs pid && cfg.thread with
    | false => simp
    | true =>
        simp only [if_true, Bool.not_false, Bool.and_self, List.flatMap_map,
          List.append_assoc, List.singleton_append]
        refine congrArg (taskReads cfg fs (Process.withPid pid) ++ .readDir (taskDir pid) :: ·) ?_
        refine List.flatMap_congr fun tid _ => ?_
        rw [visitReads, Bool.not_true, Bool.false_and]
        exact (List.append_nil _).symm
  unfold collectProcessMetrics getAllProcesses visits processPids
  rw [ProcM.accesses_bind, accesses_getProcessTasks, eval_getProcessTasks, List.flatMap_assoc]
  cases listedPids fs linuxProcPath with
  | none => rfl
  | some pids =>
      have hall : pids.filter (fun pid => decide ((none : Option Int32) ≠ some pid)) = pids := by
        simp
      rw [Option.elim_some, hall, Option.getD_some]
      simp only [accesses_collectProcess, List.flatMap_map, hprocess]
      rfl

end

/-! ## A pass

One file for each of the other families, behind its flag. -/

section

variable (rd : Readers) (hostname : KeyValue) (out : List SampleGroup) (fs : ProcFs)

/-- Each of the other families reads its one file. -/
theorem accesses_collectCpuMetrics (perCore : Bool) :
    (collectCpuMetrics rd hostname perCore out).accesses fs =
      [.read (linuxProcPath.join "stat")] := by
  unfold collectCpuMetrics
  rw [ProcM.accesses_bind, cpuStat, accesses_fromFile]
  split <;> rfl

theorem accesses_collectNetMetrics (filter : NetFilter) :
    (collectNetMetrics rd hostname filter out).accesses fs =
      [.read ((linuxProcPath.join "net").join "dev")] := by
  unfold collectNetMetrics
  rw [ProcM.accesses_bind, devStats, accesses_fromFile]
  split <;> rfl

theorem accesses_collectDiskMetrics (filter : DiskFilter) :
    (collectDiskMetrics rd hostname filter out).accesses fs =
      [.read (linuxProcPath.join "diskstats")] := by
  unfold collectDiskMetrics
  rw [ProcM.accesses_bind, diskStats, accesses_fromFile]
  split <;> rfl

theorem accesses_collectMemMetrics :
    (collectMemMetrics rd hostname out).accesses fs = [.read (linuxProcPath.join "meminfo")] := by
  unfold collectMemMetrics
  rw [ProcM.accesses_bind, meminfo, accesses_fromFile]
  split <;> rfl

/-- A family behind its flag. -/
theorem accesses_ite {flag : Bool} {m : ProcM (List SampleGroup)} {trace : List Access}
    (hm : m.accesses fs = trace) :
    (if flag then m else pure out : ProcM (List SampleGroup)).accesses fs =
      if flag then trace else [] := by
  cases flag
  · simp
  · simpa using hm

/-- **What a pass reads**, in order. -/
theorem accesses_collect (self : HostCollector) :
    (self.collect rd out).accesses fs =
      [.read (linuxProcPath.join "uptime"), .read (linuxProcPath.join "loadavg")] ++
        ((if self.cfg.cpu then [.read (linuxProcPath.join "stat")] else []) ++
        ((if self.cfg.process then .readDir linuxProcPath ::
            (visits self.cfg.processFilter fs).flatMap (visitReads self.cfg.processFilter fs)
          else []) ++
        ((if self.cfg.net then [.read ((linuxProcPath.join "net").join "dev")] else []) ++
        ((if self.cfg.disk then [.read (linuxProcPath.join "diskstats")] else []) ++
        if self.cfg.mem then [.read (linuxProcPath.join "meminfo")] else [])))) := by
  unfold HostCollector.collect
  simp -implicitDefEqProofs only [ProcM.accesses_bind,
    accesses_ite _ fs (accesses_collectCpuMetrics rd self.hostname _ fs self.cfg.perCore),
    accesses_ite _ fs (accesses_collectProcessMetrics rd self.hostname self.cfg.processFilter fs _),
    accesses_ite _ fs (accesses_collectNetMetrics rd self.hostname _ fs self.cfg.netFilter),
    accesses_ite _ fs (accesses_collectDiskMetrics rd self.hostname _ fs self.cfg.diskFilter),
    accesses_ite _ fs (accesses_collectMemMetrics rd self.hostname _ fs)]
  have huptime : (uptime rd).accesses fs = [.read (linuxProcPath.join "uptime")] := by
    unfold uptime
    rw [ProcM.accesses_bind, accesses_readToString]
    split <;> rfl
  have hloadavg : (loadavg rd).accesses fs = [.read (linuxProcPath.join "loadavg")] :=
    accesses_fromFile _ _ fs
  rw [huptime, hloadavg]
  rfl

end

/-! ## Nothing twice

The ids visited are distinct, the paths of an access name its id, and the global files have paths of
their own. -/

/-- The numeric entries of `/proc` and of the task directories are distinct canonical numerals, and
a task other than the leader of its group is listed in one task directory and not in `/proc`. -/
structure DistinctIds (fs : ProcFs) : Prop where
  processes : ∀ entries ∈ fs.dir linuxProcPath, CanonicalListing entries
  tasks : ∀ pid ∈ processPids fs, ∀ entries ∈ fs.dir (taskDir pid), CanonicalListing entries
  task_owner : ∀ pid ∈ processPids fs, ∀ tid ∈ taskPids fs pid, tid ≠ pid →
    tid ∉ processPids fs ∧ ∀ pid' ∈ processPids fs, tid ∈ taskPids fs pid' → pid' = pid

/-- A snapshot that lists every entity once lists every id once. -/
theorem DistinctSnapshot.distinctIds {fs : ProcFs} (hfs : DistinctSnapshot fs) : DistinctIds fs :=
  ⟨hfs.processes, hfs.tasks, hfs.task_owner⟩

section

variable {cfg : ProcessFilter} {fs : ProcFs}

/-- The ids visited for a process. -/
def visitedIds (cfg : ProcessFilter) (fs : ProcFs) (pid : Int32) : List Int32 :=
  pid :: if Passes cfg fs pid && cfg.thread then (taskPids fs pid).filter (· ≠ pid) else []

/-- The ids of the visits, process by process. -/
theorem map_id_visits : (visits cfg fs).map Visit.id =
    (processPids fs).flatMap (visitedIds cfg fs) := by
  rw [visits, List.map_flatMap]
  refine List.flatMap_congr fun pid _ => ?_
  rw [visitedIds, List.map_cons]
  split
  · rw [List.map_map]
    exact congrArg (pid :: ·) (List.map_id _)
  · rfl

/-- An id visited for a process is the process or one of its other tasks. -/
theorem mem_visitedIds {pid id : Int32} (h : id ∈ visitedIds cfg fs pid) :
    id = pid ∨ id ∈ taskPids fs pid ∧ id ≠ pid := by
  rcases List.mem_cons.mp h with rfl | h
  · exact .inl rfl
  · have hid := (List.mem_ite_nil_right.mp h).2
    obtain ⟨htask, hne⟩ := List.mem_filter.mp hid
    exact .inr ⟨htask, of_decide_eq_true hne⟩

/-- **No id is visited twice.** -/
theorem visits_nodup (hids : DistinctIds fs) : ((visits cfg fs).map Visit.id).Nodup := by
  rw [map_id_visits, List.nodup_flatMap]
  constructor
  · intro pid hpid
    rw [visitedIds, List.nodup_cons]
    constructor
    · intro hmem
      -- the process is left out of its own task list
      have hself := (List.mem_filter.mp (List.mem_ite_nil_right.mp hmem).2).2
      exact of_decide_eq_true hself rfl
    · split
      · exact (nodup_listedPids (hids.tasks pid hpid)).filter _
      · exact List.nodup_nil
  · have hpids : (processPids fs).Nodup := nodup_listedPids hids.processes
    refine hpids.imp_of_mem fun {p q} hp hq hne id hidp hidq => hne ?_
    -- an id of both is a process and a task of the other, or a task with two owners
    rcases mem_visitedIds hidp with rfl | ⟨htask, hself⟩ <;>
      rcases mem_visitedIds hidq with rfl | ⟨htask', hself'⟩
    · rfl
    · exact absurd hp (hids.task_owner q hq _ htask' hself').1
    · exact absurd hq (hids.task_owner p hp _ htask hself).1
    · exact (hids.task_owner q hq id htask' hself').2 p hp htask

/-- All that may be read for an id. -/
def idReads (id : Int32) : List Access :=
  [.read ((Process.withPid id).root.join "comm"), .read ((Process.withPid id).root.join "io"),
    .read ((Process.withPid id).root.join "status"), .read ((Process.withPid id).root.join "stat"),
    .readDir (taskDir id)]

/-- Behind a flag there is no more than without it. -/
theorem ite_nil_sublist (flag : Bool) (trace : List Access) :
    (if flag then trace else []).Sublist trace := by
  split
  · exact List.Sublist.refl trace
  · exact List.nil_sublist trace

/-- A visit reads at most what there is to read for its id. -/
theorem visitReads_sublist (visit : Visit) :
    (visitReads cfg fs visit).Sublist (idReads visit.id) := by
  have htask : (taskReads cfg fs (Process.withPid visit.id)).Sublist
      ((idReads visit.id).take 4) := by
    rw [taskReads]
    refine List.Sublist.cons_cons _ ?_
    split
    · exact List.nil_sublist _
    · exact ite_nil_sublist _ _
  have hlisting : (if !visit.thread && (Passes cfg fs visit.id && cfg.thread) then
      [Access.readDir (taskDir visit.id)] else []).Sublist ((idReads visit.id).drop 4) :=
    ite_nil_sublist _ _
  exact htask.append hlisting

/-- The names of what is read under `/proc/<id>`. -/
def taskNames : List String := ["comm", "io", "status", "stat", "task"]

/-- All of it is right under `/proc/<id>`. -/
theorem path_of_mem_idReads {id : Int32} {a : Access} (ha : a ∈ idReads id) :
    ∃ name ∈ taskNames, a.path = ["proc", pidComponent id, name] := by
  simp only [idReads, List.mem_cons, List.not_mem_nil, or_false] at ha
  rcases ha with rfl | rfl | rfl | rfl | rfl
  · exact ⟨"comm", by decide, rfl⟩
  · exact ⟨"io", by decide, rfl⟩
  · exact ⟨"status", by decide, rfl⟩
  · exact ⟨"stat", by decide, rfl⟩
  · exact ⟨"task", by decide, rfl⟩

/-- And no two of these are the same file. -/
theorem idReads_nodup (id : Int32) : (idReads id).Nodup := by
  simp [idReads, Process.withPid, taskDir, linuxProcPath, Path.join]

/-- What is read for the visits. -/
theorem visitsReads_nodup (hids : DistinctIds fs) :
    ((visits cfg fs).flatMap (visitReads cfg fs)).Nodup := by
  rw [List.nodup_flatMap]
  refine ⟨fun visit _ => (idReads_nodup visit.id).sublist (visitReads_sublist visit), ?_⟩
  have hvisits : (visits cfg fs).Pairwise fun v w => v.id ≠ w.id :=
    List.pairwise_map.mp (visits_nodup hids)
  -- a path names its id, so visits of two ids have no file in common
  refine hvisits.imp fun {v w} hne a hv hw => hne ?_
  obtain ⟨name, -, hpath⟩ := path_of_mem_idReads ((visitReads_sublist v).subset hv)
  obtain ⟨name', -, hpath'⟩ := path_of_mem_idReads ((visitReads_sublist w).subset hw)
  rw [hpath] at hpath'
  exact pidComponent_injective (List.cons.inj (List.cons.inj hpath').2).1

end

/-- The global accesses in front of the process family and behind it. -/
def globalReads : List Access × List Access :=
  ([.read (linuxProcPath.join "uptime"), .read (linuxProcPath.join "loadavg"),
      .read (linuxProcPath.join "stat"), .readDir linuxProcPath],
    [.read ((linuxProcPath.join "net").join "dev"), .read (linuxProcPath.join "diskstats"),
      .read (linuxProcPath.join "meminfo")])

/-- None of them is under `/proc/<id>`. -/
theorem path_ne_of_mem_globalReads {a : Access} (ha : a ∈ globalReads.1 ++ globalReads.2)
    {component name : String} (hname : name ∈ taskNames) : a.path ≠ ["proc", component, name] := by
  simp only [globalReads, List.mem_append, List.mem_cons, List.not_mem_nil, or_false] at ha
  rcases ha with (rfl | rfl | rfl | rfl) | rfl | rfl | rfl
  case inr.inl =>
    -- the one global path that is as long
    intro hpath
    obtain ⟨rfl, rfl⟩ : "net" = component ∧ "dev" = name := by
      simpa [Access.path, linuxProcPath, Path.join] using hpath
    exact absurd hname (by decide)
  all_goals simp [Access.path, linuxProcPath, Path.join]

/-- The accesses a pass chooses from are distinct. -/
theorem passReads_nodup {cfg : ProcessFilter} {fs : ProcFs} (hids : DistinctIds fs) :
    (globalReads.1 ++ ((visits cfg fs).flatMap (visitReads cfg fs) ++ globalReads.2)).Nodup := by
  have hapart : ∀ a ∈ (visits cfg fs).flatMap (visitReads cfg fs),
      a ∉ globalReads.1 ++ globalReads.2 := by
    intro a ha hglobal
    obtain ⟨visit, -, ha⟩ := List.mem_flatMap.mp ha
    obtain ⟨name, hname, hpath⟩ := path_of_mem_idReads ((visitReads_sublist visit).subset ha)
    exact path_ne_of_mem_globalReads hglobal hname hpath
  have hglobals : (globalReads.1 ++ globalReads.2).Nodup := by decide
  have hperm : (globalReads.1 ++ ((visits cfg fs).flatMap (visitReads cfg fs) ++
      globalReads.2)).Perm ((visits cfg fs).flatMap (visitReads cfg fs) ++
        (globalReads.1 ++ globalReads.2)) := by
    rw [← List.append_assoc, ← List.append_assoc]
    exact List.perm_append_comm.append_right _
  rw [hperm.nodup_iff, List.nodup_append']
  exact ⟨visitsReads_nodup hids, hglobals, hapart⟩

/-- A pass reads at most the global files and what belongs to its visits. -/
theorem accesses_collect_sublist (rd : Readers) (self : HostCollector) (out : List SampleGroup)
    (fs : ProcFs) :
    ((self.collect rd out).accesses fs).Sublist
      (globalReads.1 ++ ((visits self.cfg.processFilter fs).flatMap
        (visitReads self.cfg.processFilter fs) ++ globalReads.2)) := by
  have hall := (List.Sublist.refl [Access.read (linuxProcPath.join "uptime"),
    .read (linuxProcPath.join "loadavg")]).append
      ((ite_nil_sublist self.cfg.cpu [.read (linuxProcPath.join "stat")]).append
        ((ite_nil_sublist self.cfg.process (.readDir linuxProcPath ::
          (visits self.cfg.processFilter fs).flatMap
            (visitReads self.cfg.processFilter fs))).append
          ((ite_nil_sublist self.cfg.net [.read ((linuxProcPath.join "net").join "dev")]).append
            ((ite_nil_sublist self.cfg.disk [.read (linuxProcPath.join "diskstats")]).append
              (ite_nil_sublist self.cfg.mem [.read (linuxProcPath.join "meminfo")])))))
  rw [accesses_collect]
  simpa [globalReads] using hall

/-- **Each file is read at most once in a pass**, and each directory listed at most once, whatever
the configuration and whatever reads fail. -/
theorem accesses_collect_nodup (rd : Readers) (self : HostCollector) (out : List SampleGroup)
    (fs : ProcFs) (hids : DistinctIds fs) : ((self.collect rd out).accesses fs).Nodup :=
  (passReads_nodup hids).sublist (accesses_collect_sublist rd self out fs)

/-- On the small host, where most of the reads fail. -/
theorem accesses_collect_nodup_small :
    (((HostCollector.new "box" everyFamily).collect Readers.documented []).accesses
      smallSnapshot).Nodup :=
  accesses_collect_nodup Readers.documented (HostCollector.new "box" everyFamily) [] smallSnapshot
    smallSnapshot_distinct.distinctIds

end MetricsExporter.LinuxMetrics
