/-
# MetricsExporter.Procfs.Process -- a task under `/proc` and the enumeration of tasks

A task is its id and the directory its files are read from; every method appends a file name to that
directory and reads it. Where that directory is, is decided in one place: `Process::with_pid` takes
the id alone and puts it right under `/proc`, also for the ids that an enumeration finds in a task
directory.

An enumeration keeps the order of the listing and drops what is no directory named by an `i32`.
Nothing is assumed of a listing; the section on listings without repetitions names what a kernel
promises of one (`CanonicalListing`), and only the results that need it ask for it. Entries that
cannot be read are `none`, as `read_dir` yields an error for each of them.
-/
import MetricsExporter.Lib.Loops
import MetricsExporter.Procfs.Process.Io
import MetricsExporter.Procfs.Process.Stat
import MetricsExporter.Procfs.Process.Status
import Mathlib.Data.List.Nodup

namespace MetricsExporter.Procfs

open MetricsExporter.Lib

/-- A process or thread: its id and the directory its files are read from. -/
structure Process where
  pid : Int32
  root : Path
  deriving DecidableEq, Repr

/-- The path component of an id. -/
def pidComponent (pid : Int32) : String := String.ofList (Decimal.intNumeral pid.toInt)

/-- `Process::with_pid`. -/
def Process.withPid (pid : Int32) : Process :=
  { pid, root := linuxProcPath.join (pidComponent pid) }

/-- `content.strip_suffix(b"\n").unwrap_or(&content)`. -/
def stripNewline (content : Bytes) : Bytes :=
  if content.getLast? = some newline then content.dropLast else content

/-- `util::parse_comm`. -/
def parseComm (path : Path) : ProcM (ProcResult String) :=
  fromFile (fun content => .ok (Utf8.lossy (stripNewline content))) path

/-- `task::get_process_tasks`: the entries of `root` that are directories named by an `i32`,
without the one of `ppid`. -/
def getProcessTasks (root : Path) (ppid : Option Int32) : ProcM (ProcResult (List Process)) := do
  match ← readDir root with
  | .error err => return .error err
  | .ok entries =>
      let mut processes := []
      for entry in entries do
        let some dirEntry := entry | continue
        if !dirEntry.isDir then
          continue
        let some pid := parseStrI32 (Utf8.lossy dirEntry.fileName) | continue
        if ppid = some pid then
          continue
        processes := processes ++ [Process.withPid pid]
      return .ok processes

namespace Process

variable (rd : Readers) (p : Process)

def comm : ProcM (ProcResult String) := parseComm (p.root.join "comm")

def io : ProcM (ProcResult Io) := Io.fromFile rd (p.root.join "io")

def status : ProcM (ProcResult Status) := fromFile (Status.parseStatus rd) (p.root.join "status")

def stat : ProcM (ProcResult Stat) := fromFile (Stat.parseStat rd) (p.root.join "stat")

def tasks : ProcM (ProcResult (List Process)) := getProcessTasks (p.root.join "task") (some p.pid)

end Process

/-- `get_all_processes`. -/
def getAllProcesses : ProcM (ProcResult (List Process)) := getProcessTasks linuxProcPath none

/-! ## What an enumeration finds -/

/-- The id an entry of a listing stands for, if it is a directory named by an `i32`. -/
def entryPid (entry : Option DirEntry) : Option Int32 := do
  let dirEntry ← entry
  guard dirEntry.isDir
  parseStrI32 (Utf8.lossy dirEntry.fileName)

/-- The ids listed in a directory, in listing order. -/
def listedPids (fs : ProcFs) (root : Path) : Option (List Int32) :=
  (fs.dir root).map (·.filterMap entryPid)

/-- The ids listed under `/proc`, none if it cannot be listed. -/
def processPids (fs : ProcFs) : List Int32 := (listedPids fs linuxProcPath).getD []

/-- The directory of the tasks of a process. -/
def taskDir (pid : Int32) : Path := (linuxProcPath.join (pidComponent pid)).join "task"

/-- The ids listed in the task directory of a process, none if it cannot be listed. -/
def taskPids (fs : ProcFs) (pid : Int32) : List Int32 := (listedPids fs (taskDir pid)).getD []

/-- The processes one entry adds to an enumeration. -/
def entryProcesses (ppid : Option Int32) (entry : Option DirEntry) : List Process :=
  ((entryPid entry).toList.filter (fun pid => decide (ppid ≠ some pid))).map Process.withPid

/-- Entry by entry or all at once: the processes of a listing are those of its ids, without `ppid`.
-/
theorem flatMap_entryProcesses (ppid : Option Int32) (entries : List (Option DirEntry)) :
    entries.flatMap (entryProcesses ppid) =
      ((entries.filterMap entryPid).filter (fun pid => decide (ppid ≠ some pid))).map
        Process.withPid := by
  induction entries with
  | nil => rfl
  | cons entry entries ih =>
      rw [List.flatMap_cons, ih, entryProcesses]
      cases hentry : entryPid entry with
      | none => simp [hentry]
      | some pid =>
          rw [List.filterMap_cons_some hentry, List.filter_cons]
          by_cases hpid : ppid = some pid <;> simp [hpid]

/-- **Enumerating tasks.** The result is one process for each listed id other than `ppid`, rooted
right under `/proc`, in listing order. -/
theorem eval_getProcessTasks (root : Path) (ppid : Option Int32) (fs : ProcFs) :
    (getProcessTasks root ppid).eval fs =
      (listedPids fs root).elim (.error .ioError) (fun pids =>
        .ok ((pids.filter (fun pid => decide (ppid ≠ some pid))).map Process.withPid)) := by
  unfold getProcessTasks
  rw [ProcM.eval_bind, eval_readDir]
  cases hdir : fs.dir root with
  | none => simp [listedPids, hdir]
  | some entries =>
      simp only [listedPids, hdir, Option.map_some, Option.elim_some]
      rw [ProcM.eval_bind, ProcM.eval_forIn (fun acc entry => acc ++ entryProcesses ppid entry),
        ProcM.eval_pure]
      · -- the loop pushes at most one process a round, so its accumulator is the list so far
        have hgather := foldl_gather (entryProcesses ppid) entries []
        rw [← flatMap_entryProcesses]
        exact congrArg Except.ok hgather
      · intro entry acc
        cases entry with
        | none => simp [entryProcesses, entryPid]
        | some dirEntry =>
            by_cases hdir : dirEntry.isDir
            · cases hpid : parseStrI32 (Utf8.lossy dirEntry.fileName) with
              | none => simp [entryProcesses, entryPid, hdir, hpid]
              | some pid =>
                  by_cases hppid : ppid = some pid <;>
                    simp [entryProcesses, entryPid, hdir, hpid, hppid]
            · simp [entryProcesses, entryPid, hdir]

/-- The entries are looked at without any further read. -/
theorem accesses_getProcessTasks (root : Path) (ppid : Option Int32) (fs : ProcFs) :
    (getProcessTasks root ppid).accesses fs = [.readDir root] := by
  unfold getProcessTasks
  rw [ProcM.accesses_bind, accesses_readDir, eval_readDir]
  cases fs.dir root with
  | none => rfl
  | some entries =>
      simp only [Option.elim_some]
      rw [ProcM.accesses_bind, ProcM.accesses_forIn fun _ => []]
      · simp
      · intro entry acc
        cases entry with
        | none => exact ⟨⟨acc, rfl⟩, rfl⟩
        | some dirEntry =>
            by_cases hdir : dirEntry.isDir
            · cases hpid : parseStrI32 (Utf8.lossy dirEntry.fileName) with
              | none => exact ⟨⟨acc, by simp [hdir, hpid]⟩, by simp [hdir, hpid]⟩
              | some pid => by_cases hppid : ppid = some pid <;> simp [hdir, hpid, hppid]
            · exact ⟨⟨acc, by simp [hdir]⟩, by simp [hdir]⟩

/-- The tasks of a process are listed in its own task directory, and the process itself is left out.
-/
theorem eval_tasks_withPid (pid : Int32) (fs : ProcFs) :
    (Process.withPid pid).tasks.eval fs =
      (listedPids fs (taskDir pid)).elim (.error .ioError) (fun pids =>
        .ok ((pids.filter (fun tid => decide (some pid ≠ some tid))).map Process.withPid)) :=
  eval_getProcessTasks (taskDir pid) (some pid) fs

/-! ## Listings without repetitions -/

/-- The names of the numeric entries of a listing. -/
def numericNames (entries : List (Option DirEntry)) : List Bytes :=
  entries.filterMap fun entry => (entryPid entry).bind fun _ => entry.map DirEntry.fileName

/-- The numeric entries of a listing are distinct, and each is the canonical decimal numeral of the
id it stands for. -/
structure CanonicalListing (entries : List (Option DirEntry)) : Prop where
  nodup : (numericNames entries).Nodup
  canonical : numericNames entries = (entries.filterMap entryPid).map decimalI32

instance (entries : List (Option DirEntry)) : Decidable (CanonicalListing entries) :=
  decidable_of_iff ((numericNames entries).Nodup ∧
      numericNames entries = (entries.filterMap entryPid).map decimalI32)
    ⟨fun h => ⟨h.1, h.2⟩, fun h => ⟨h.nodup, h.canonical⟩⟩

/-- Such a listing lists no id twice. -/
theorem CanonicalListing.nodup_pids {entries : List (Option DirEntry)}
    (h : CanonicalListing entries) : (entries.filterMap entryPid).Nodup :=
  List.Nodup.of_map decimalI32 (h.canonical ▸ h.nodup)

/-- So no id is listed twice in a directory whose listing is canonical, nor in one that cannot be
listed. -/
theorem nodup_listedPids {fs : ProcFs} {root : Path}
    (h : ∀ entries ∈ fs.dir root, CanonicalListing entries) :
    ((listedPids fs root).getD []).Nodup := by
  rw [listedPids]
  cases hdir : fs.dir root with
  | none => exact List.nodup_nil
  | some entries => exact (h entries hdir).nodup_pids

end MetricsExporter.Procfs
