/-
# MetricsExporter.Procfs.Fs -- `/proc` as a snapshot, and programs that read it

A snapshot `ProcFs` is a fixed map from paths to file contents and to directory listings; a path
that is not there fails to read. A program `ProcM α` is run against a snapshot and gives its result
together with the accesses it made, in order, so that both what is collected and what is read can be
stated about one definition. `eval` is the result and `accesses` the trace; the laws below push both
through sequencing and through loops.

A snapshot may be any map at all: nothing says that a directory lists the files that are there, or
that what is listed can be read. All reasons for which an access can fail are one error, as no
caller tells them apart. That `/proc` stands still while it is read is the one assumption made here,
and `Live` is what becomes of it when it does not.
-/
import MetricsExporter.Procfs.Parse

namespace MetricsExporter.Procfs

open MetricsExporter.Lib

/-- A path by its components. -/
abbrev Path := List String

/-- `Path::join` with a relative component. -/
def Path.join (root : Path) (component : String) : Path := root ++ [component]

/-- `Path::new("/proc")`. -/
def linuxProcPath : Path := ["proc"]

/-- A directory entry that could be read: its name, and whether its path is a directory. -/
structure DirEntry where
  fileName : Bytes
  isDir : Bool
  deriving DecidableEq, Repr

/-- `/proc` at one moment. A listing holds `none` where an entry could not be read. -/
structure ProcFs where
  file : Path → Option Bytes
  dir : Path → Option (List (Option DirEntry))

/-- The snapshot that holds the given files and listings, and nothing else. -/
def ProcFs.ofLists (files : List (Path × Bytes)) (dirs : List (Path × List (Option DirEntry))) :
    ProcFs where
  file path := files.lookup path
  dir path := dirs.lookup path

/-- One access to the snapshot. -/
inductive Access where
  | read (path : Path)
  | readDir (path : Path)
  deriving DecidableEq, Repr

/-- The path of an access. -/
def Access.path : Access → Path
  | .read path => path
  | .readDir path => path

/-- A program that reads `/proc`. -/
def ProcM (α : Type) : Type := ProcFs → α × List Access

namespace ProcM

variable {α β σ : Type}

/-- The result against the snapshot `fs`. -/
def eval (m : ProcM α) (fs : ProcFs) : α := (m fs).1

/-- The accesses made against the snapshot `fs`, in order. -/
def accesses (m : ProcM α) (fs : ProcFs) : List Access := (m fs).2

instance : Monad ProcM where
  pure a := fun _ => (a, [])
  bind m f := fun fs => ((f (m.eval fs)).eval fs, m.accesses fs ++ (f (m.eval fs)).accesses fs)

@[simp]
theorem eval_pure (a : α) (fs : ProcFs) : (pure a : ProcM α).eval fs = a := rfl

@[simp]
theorem accesses_pure (a : α) (fs : ProcFs) : (pure a : ProcM α).accesses fs = [] := rfl

/-- The continuation is evaluated on what the first computation comes to. -/
@[simp]
theorem eval_bind (m : ProcM α) (f : α → ProcM β) (fs : ProcFs) :
    (m >>= f).eval fs = (f (m.eval fs)).eval fs := rfl

/-- And its accesses come after those of the first. -/
@[simp]
theorem accesses_bind (m : ProcM α) (f : α → ProcM β) (fs : ProcFs) :
    (m >>= f).accesses fs = m.accesses fs ++ (f (m.eval fs)).accesses fs := rfl

/-- **Loops.** A loop whose body always goes on to the next element computes the left fold of
what its body computes. -/
theorem eval_forIn (step : σ → α → σ) {l : List α} {init : σ}
    {body : α → σ → ProcM (ForInStep σ)} {fs : ProcFs}
    (hbody : ∀ a s, (body a s).eval fs = .yield (step s a)) :
    (forIn l init body).eval fs = l.foldl step init := by
  induction l generalizing init with
  | nil => rfl
  | cons a l ih =>
      rw [List.forIn_cons, eval_bind, hbody]
      exact ih

/-- The accesses of such a loop are those of its rounds, if what a round reads does not depend on
what the rounds before it computed. -/
theorem accesses_forIn (trace : α → List Access) {l : List α} {init : σ}
    {body : α → σ → ProcM (ForInStep σ)} {fs : ProcFs}
    (hbody : ∀ a s, (∃ s', (body a s).eval fs = .yield s') ∧ (body a s).accesses fs = trace a) :
    (forIn l init body).accesses fs = l.flatMap trace := by
  induction l generalizing init with
  | nil => rfl
  | cons a l ih =>
      obtain ⟨⟨s', hs'⟩, htrace⟩ := hbody a init
      rw [List.forIn_cons, accesses_bind, hs', htrace, List.flatMap_cons]
      exact congrArg (trace a ++ ·) ih

end ProcM

/-! ## The accesses

Each of them is one access, whether it succeeds or not, and none reads a part of a file: the crate
reads whole files before it parses them. -/

/-- `std::fs::read`. -/
def read (path : Path) : ProcM (ProcResult Bytes) := fun fs =>
  ((fs.file path).elim (.error .ioError) .ok, [.read path])

/-- `std::fs::read_to_string`: the content must be valid UTF-8. -/
def readToString (path : Path) : ProcM (ProcResult String) := fun fs =>
  (((fs.file path).bind Utf8.strict).elim (.error .ioError) .ok, [.read path])

/-- `std::fs::read_dir`, with all its entries. -/
def readDir (path : Path) : ProcM (ProcResult (List (Option DirEntry))) := fun fs =>
  ((fs.dir path).elim (.error .ioError) .ok, [.readDir path])

@[simp]
theorem eval_read (path : Path) (fs : ProcFs) :
    (read path).eval fs = (fs.file path).elim (.error .ioError) .ok := rfl

@[simp]
theorem eval_readToString (path : Path) (fs : ProcFs) :
    (readToString path).eval fs =
      ((fs.file path).bind Utf8.strict).elim (.error .ioError) .ok := rfl

@[simp]
theorem eval_readDir (path : Path) (fs : ProcFs) :
    (readDir path).eval fs = (fs.dir path).elim (.error .ioError) .ok := rfl

@[simp]
theorem accesses_read (path : Path) (fs : ProcFs) : (read path).accesses fs = [.read path] := rfl

@[simp]
theorem accesses_readToString (path : Path) (fs : ProcFs) :
    (readToString path).accesses fs = [.read path] := rfl

@[simp]
theorem accesses_readDir (path : Path) (fs : ProcFs) :
    (readDir path).accesses fs = [.readDir path] := rfl

/-- `FileRead::from_file`: read the whole file, then parse its bytes. -/
def fromFile {α : Type} (parse : Bytes → ProcResult α) (path : Path) : ProcM (ProcResult α) := do
  match ← read path with
  | .ok content => return parse content
  | .error err => return .error err

/-- A file there is not gives the error of the read; one that is there is parsed. -/
@[simp]
theorem eval_fromFile {α : Type} (parse : Bytes → ProcResult α) (path : Path) (fs : ProcFs) :
    (fromFile parse path).eval fs = (fs.file path).elim (.error .ioError) parse := by
  unfold fromFile
  rw [ProcM.eval_bind, eval_read]
  cases fs.file path <;> rfl

/-- One read, whatever comes of it. -/
@[simp]
theorem accesses_fromFile {α : Type} (parse : Bytes → ProcResult α) (path : Path) (fs : ProcFs) :
    (fromFile parse path).accesses fs = [.read path] := by
  unfold fromFile
  rw [ProcM.accesses_bind, accesses_read, eval_read]
  cases fs.file path <;> rfl

theorem eval_fromFile_of_file {α : Type} {parse : Bytes → ProcResult α} {path : Path}
    {fs : ProcFs} {content : Bytes} (hfile : content ∈ fs.file path) :
    (fromFile parse path).eval fs = parse content := by
  rw [eval_fromFile, Option.mem_def.mp hfile, Option.elim_some]

theorem eval_fromFile_eq_ok {α : Type} {parse : Bytes → ProcResult α} {path : Path} {fs : ProcFs}
    {a : α} (h : (fromFile parse path).eval fs = .ok a) :
    ∃ content, fs.file path = some content ∧ parse content = .ok a := by
  rw [eval_fromFile] at h
  cases hfile : fs.file path with
  | none => simp [hfile] at h
  | some content => exact ⟨content, rfl, by simpa [hfile] using h⟩

/-- The same for a parser that accepts every content. -/
theorem exists_of_eval_fromFile {α : Type} {parse : Bytes → α} {path : Path} {fs : ProcFs} {a : α}
    (h : (fromFile (fun content => .ok (parse content)) path).eval fs = .ok a) :
    ∃ content, fs.file path = some content ∧ a = parse content := by
  obtain ⟨content, hfile, hparse⟩ := eval_fromFile_eq_ok h
  exact ⟨content, hfile, (Except.ok.inj hparse).symm⟩

end MetricsExporter.Procfs
