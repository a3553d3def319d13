/-
# MetricsExporter.Procfs.Live -- reading a `/proc` that changes

A `ProcM` is run against one snapshot, but the files under `/proc` change while they are read. A
program that decides on each access by the answers to those before it is `Sequential`: it comes from
a `Query`, which can also be run against a snapshot that changes before each access. If it makes no
access twice, the two runs agree, on the snapshot of what it has read.

A single access is answered at once: the content of one file, or the entries of one directory, are
those of one moment. What is left open is everything between two accesses, so `live i` may be any
snapshot whatever, and need not resemble `live (i + 1)`.
-/
import MetricsExporter.Lib.Questions
import MetricsExporter.Procfs.Fs

namespace MetricsExporter.Procfs

open MetricsExporter.Lib

/-- What an access is answered with. -/
abbrev Access.Answer : Access → Type
  | .read _ => Option Bytes
  | .readDir _ => Option (List (Option DirEntry))

namespace ProcFs

/-- The answers of a snapshot. -/
def answer (fs : ProcFs) : (a : Access) → a.Answer
  | .read path => fs.file path
  | .readDir path => fs.dir path

/-- The snapshot with the given answers. -/
def ofAnswers (answers : (a : Access) → a.Answer) : ProcFs where
  file path := answers (.read path)
  dir path := answers (.readDir path)

/-- A snapshot is nothing but its answers. -/
theorem answer_ofAnswers (answers : (a : Access) → a.Answer) :
    (ofAnswers answers).answer = answers := by
  funext a
  cases a <;> rfl

/-- Nothing is there. -/
def empty : ProcFs := .ofLists [] []

end ProcFs

/-- A program over the accesses. -/
abbrev Reading (α : Type) : Type := Query Access.Answer α

namespace Reading

variable {α β : Type}

/-- The program against one snapshot. -/
def toProcM (p : Reading α) : ProcM α := fun fs => (p.eval fs.answer, p.trace fs.answer)

/-- The result of the program, where the `i`-th access finds `/proc` as `live i` is. -/
def evalLive (live : Nat → ProcFs) (p : Reading α) : α :=
  Query.evalLive (fun i => (live i).answer) p

/-- The accesses of the program, in order. -/
def accessesLive (live : Nat → ProcFs) (p : Reading α) : List Access :=
  Query.traceLive (fun i => (live i).answer) p

/-- The snapshot of what the program has read. -/
def seen (live : Nat → ProcFs) (p : Reading α) : ProcFs :=
  .ofAnswers (Query.seen ProcFs.empty.answer (fun i => (live i).answer) p)

/-- A listing that was seen is a listing got, or there is none. -/
theorem seen_dir_cases (live : Nat → ProcFs) (p : Reading α) (path : Path) :
    (p.seen live).dir path = none ∨ ∃ i, (p.seen live).dir path = (live i).dir path :=
  Query.seen_cases ProcFs.empty.answer (fun i => (live i).answer) p (.readDir path)

/-- **One snapshot stands for all of them.** -/
theorem live_eq_seen {p : Reading α} {m : ProcM α} (hp : p.toProcM = m) (live : Nat → ProcFs)
    (hnodup : (m.accesses (p.seen live)).Nodup) :
    p.accessesLive live = m.accesses (p.seen live) ∧
      p.evalLive live = m.eval (p.seen live) ∧
      ∀ i a, (p.accessesLive live)[i]? = some a → (p.seen live).answer a = (live i).answer a := by
  subst hp
  have haccesses : p.toProcM.accesses (p.seen live) =
      Query.trace (Query.seen ProcFs.empty.answer (fun i => (live i).answer) p) p := by
    rw [ProcM.accesses, toProcM, seen, ProcFs.answer_ofAnswers]
  have heval : p.toProcM.eval (p.seen live) =
      Query.eval (Query.seen ProcFs.empty.answer (fun i => (live i).answer) p) p := by
    rw [ProcM.eval, toProcM, seen, ProcFs.answer_ofAnswers]
  rw [haccesses] at hnodup ⊢
  rw [heval, seen, ProcFs.answer_ofAnswers]
  exact Query.live_eq_seen _ _ p hnodup

end Reading

/-! ## Sequential programs -/

/-- The program makes one access after the other. -/
def Sequential {α : Type} (m : ProcM α) : Prop := ∃ p : Reading α, p.toProcM = m

namespace Sequential

variable {α β σ : Type}

/-- A program that reads nothing is sequential. -/
theorem pure (a : α) : Sequential (pure a : ProcM α) := ⟨.done a, rfl⟩

/-- So are two sequential programs one after the other, whatever the second makes of the result of
the first. -/
theorem bind {m : ProcM α} {f : α → ProcM β} (hm : Sequential m) (hf : ∀ a, Sequential (f a)) :
    Sequential (m >>= f) := by
  obtain ⟨p, rfl⟩ := hm
  choose q hq using hf
  refine ⟨Query.bind p q, ?_⟩
  funext fs
  -- the second program is the one chosen for the result that the first has on this snapshot
  have hnext : (f (p.toProcM.eval fs)) = Reading.toProcM (q (p.toProcM.eval fs)) := (hq _).symm
  refine Prod.ext ?_ ?_
  · refine (Query.eval_bind fs.answer p q).trans ?_
    show _ = (f (p.toProcM.eval fs)).eval fs
    rw [hnext]
    rfl
  · refine (Query.trace_bind fs.answer p q).trans ?_
    show _ = p.toProcM.accesses fs ++ (f (p.toProcM.eval fs)).accesses fs
    rw [hnext]
    rfl

/-- The three ways to read are one access each. -/
theorem read (path : Path) : Sequential (read path) :=
  ⟨.ask (.read path) fun answer => .done (answer.elim (.error .ioError) .ok), rfl⟩

theorem readToString (path : Path) : Sequential (readToString path) :=
  ⟨.ask (.read path) fun answer =>
    .done ((answer.bind Utf8.strict).elim (.error .ioError) .ok), rfl⟩

theorem readDir (path : Path) : Sequential (readDir path) :=
  ⟨.ask (.readDir path) fun answer => .done (answer.elim (.error .ioError) .ok), rfl⟩

/-- **Loops.** A loop over a list is sequential if its rounds are. -/
theorem forIn {l : List α} {init : σ} {body : α → σ → ProcM (ForInStep σ)}
    (hbody : ∀ a s, Sequential (body a s)) : Sequential (forIn l init body) := by
  induction l generalizing init with
  | nil => exact Sequential.pure init
  | cons a l ih =>
      rw [List.forIn_cons]
      apply Sequential.bind (hbody a init)
      intro next
      cases next with
      | done s => exact Sequential.pure s
      | yield s => exact ih

theorem fromFile (parse : Bytes → ProcResult α) (path : Path) :
    Sequential (fromFile parse path) := by
  unfold Procfs.fromFile
  apply Sequential.bind (read path)
  intro content
  cases content with
  | error err => exact Sequential.pure _
  | ok content => exact Sequential.pure _

end Sequential

end MetricsExporter.Procfs
