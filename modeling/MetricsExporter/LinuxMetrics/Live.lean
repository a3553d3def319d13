/-
# MetricsExporter.LinuxMetrics.Live -- a pass over a `/proc` that changes under it

Processes start and end while a pass goes through `/proc`, and the counters move on between two
reads. As a pass decides on each access by the answers to those before it and makes none twice, it
is all the same a pass over one snapshot: `collect_live`. What is said of passes over snapshots
holds of it.

Each access is answered at one moment, so a file that changes while it is read is not considered.
Nothing is assumed of how `/proc` changes from one access to the next; the one condition, distinct
ids, is on the listings the pass was given.
-/
import MetricsExporter.LinuxMetrics.Reads
import MetricsExporter.Procfs.Live

namespace MetricsExporter.LinuxMetrics

open MetricsExporter.Lib MetricsExporter.Procfs MetricsExporter.Framework

section

variable (rd : Readers) (hostname : KeyValue) (cfg : ProcessFilter)

/-! ## One access after the other

The collectors are built from `bind`, loops and single accesses, so each is sequential by its own
structure. -/

theorem sequential_uptime : Sequential (uptime rd) := by
  unfold uptime
  apply Sequential.bind (.readToString _)
  intro content
  cases content <;> exact .pure _

theorem sequential_io (p : Process) : Sequential (p.io rd) := by
  unfold Process.io Io.fromFile
  apply Sequential.bind (.readToString _)
  intro content
  cases content <;> exact .pure _

/-- A listing is one access, and the loop over its entries makes none. -/
theorem sequential_getProcessTasks (root : Path) (ppid : Option Int32) :
    Sequential (getProcessTasks root ppid) := by
  unfold getProcessTasks
  apply Sequential.bind (.readDir root)
  intro entries
  cases entries with
  | error err => exact .pure _
  | ok entries =>
      refine .bind (.forIn fun entry processes => ?_) fun processes => .pure _
      cases entry with
      | none => exact .pure _
      | some dirEntry =>
          dsimp only
          split
          · exact .pure _
          · split
            · split <;> exact .pure _
            · exact .pure _

/-- Three files of a task, each whatever came of those before it. -/
theorem sequential_buildGroup (collector : CollectorType) (p : Process) (comm : String) :
    Sequential (buildGroup rd hostname collector p comm) := by
  unfold buildGroup
  apply Sequential.bind (sequential_io rd p)
  intro io
  cases io <;>
    refine .bind (.fromFile _ _) fun status => ?_ <;>
    cases status <;>
    refine .bind (.fromFile _ _) fun stat => ?_ <;>
    cases stat <;>
    exact .pure _

/-- The inner loop. It is gone through first, as the outer one ends its rounds with it. -/
theorem sequential_collectProcess_thread (tasks : List Process) (out : List SampleGroup) :
    Sequential (collectProcess rd hostname cfg tasks .thread out) := by
  rw [collectProcess]
  refine .bind (.forIn fun p out => ?_) fun out => .pure _
  apply Sequential.bind (.fromFile _ _)
  intro comm
  cases comm with
  | error err => exact .pure _
  | ok comm =>
      dsimp only
      split
      · exact .pure _
      · apply Sequential.bind (sequential_buildGroup rd hostname .thread p comm)
        intro built
        -- tasks have no tasks
        have hleaf : ¬ (cfg.thread = true ∧ CollectorType.thread ≠ CollectorType.thread) :=
          fun h => h.2 rfl
        simp only [dif_neg hleaf]
        split <;> exact .pure _

/-- The end of a round in which the tasks of the process are collected, too. -/
theorem sequential_tasks (p : Process) (out : List SampleGroup) :
    Sequential (do
      let .ok tasks ← p.tasks | pure (ForInStep.yield out)
      let out ← collectProcess rd hostname cfg tasks .thread out
      pure (ForInStep.yield out)) := by
  apply Sequential.bind (sequential_getProcessTasks _ _)
  intro tasks
  cases tasks with
  | error err => exact .pure _
  | ok tasks =>
      exact .bind (sequential_collectProcess_thread rd hostname cfg tasks out) fun _ => .pure _

/-- The outer loop. -/
theorem sequential_collectProcess (processes : List Process) (out : List SampleGroup) :
    Sequential (collectProcess rd hostname cfg processes .process out) := by
  rw [collectProcess]
  refine .bind (.forIn fun p out => ?_) fun out => .pure _
  apply Sequential.bind (.fromFile _ _)
  intro comm
  cases comm with
  | error err => exact .pure _
  | ok comm =>
      dsimp only
      split
      · exact .pure _
      · apply Sequential.bind (sequential_buildGroup rd hostname .process p comm)
        intro built
        -- whether a row came out, and whether threads are asked for
        split <;> split
        · exact sequential_tasks rd hostname cfg p _
        · exact .pure _
        · exact sequential_tasks rd hostname cfg p _
        · exact .pure _

theorem sequential_collectProcessMetrics (out : List SampleGroup) :
    Sequential (collectProcessMetrics rd hostname cfg out) := by
  unfold collectProcessMetrics
  apply Sequential.bind (sequential_getProcessTasks _ _)
  intro processes
  cases processes with
  | error err => exact .pure _
  | ok processes => exact sequential_collectProcess rd hostname cfg processes out

theorem sequential_collectCpuMetrics (perCore : Bool) (out : List SampleGroup) :
    Sequential (collectCpuMetrics rd hostname perCore out) := by
  unfold collectCpuMetrics
  apply Sequential.bind (.fromFile _ _)
  intro stats
  cases stats <;> exact .pure _

theorem sequential_collectNetMetrics (filter : NetFilter) (out : List SampleGroup) :
    Sequential (collectNetMetrics rd hostname filter out) := by
  unfold collectNetMetrics
  apply Sequential.bind (.fromFile _ _)
  intro stats
  cases stats <;> exact .pure _

theorem sequential_collectDiskMetrics (filter : DiskFilter) (out : List SampleGroup) :
    Sequential (collectDiskMetrics rd hostname filter out) := by
  unfold collectDiskMetrics
  apply Sequential.bind (.fromFile _ _)
  intro stats
  cases stats <;> exact .pure _

theorem sequential_collectMemMetrics (out : List SampleGroup) :
    Sequential (collectMemMetrics rd hostname out) := by
  unfold collectMemMetrics
  apply Sequential.bind (.fromFile _ _)
  intro mem
  cases mem <;> exact .pure _

/-- A family behind its flag. -/
theorem sequential_ite {flag : Bool} {m : ProcM (List SampleGroup)} (hm : Sequential m)
    (out : List SampleGroup) : Sequential (if flag then m else pure out) := by
  cases flag
  · exact .pure out
  · exact hm

/-- **A pass makes one access after the other.** -/
theorem sequential_collect (self : HostCollector) (out : List SampleGroup) :
    Sequential (self.collect rd out) := by
  unfold HostCollector.collect
  apply Sequential.bind (sequential_uptime rd)
  intro uptime
  apply Sequential.bind (.fromFile _ _)
  intro loadavg
  apply Sequential.bind (sequential_ite (sequential_collectCpuMetrics rd _ _ _) _)
  intro out
  apply Sequential.bind (sequential_ite (sequential_collectProcessMetrics rd _ _ _) _)
  intro out
  apply Sequential.bind (sequential_ite (sequential_collectNetMetrics rd _ _ _) _)
  intro out
  apply Sequential.bind (sequential_ite (sequential_collectDiskMetrics rd _ _ _) _)
  intro out
  exact sequential_ite (sequential_collectMemMetrics rd _ _) _

end

/-! ## A pass over a `/proc` that changes -/

/-- A pass over a `/proc` that changes is one over what it has seen. -/
theorem live_collect_eq_seen {rd : Readers} {self : HostCollector} {out : List SampleGroup}
    {p : Reading (List SampleGroup)} (hp : p.toProcM = self.collect rd out) (live : Nat → ProcFs)
    (hids : DistinctIds (p.seen live)) :
    p.evalLive live = (self.collect rd out).eval (p.seen live) ∧ (p.accessesLive live).Nodup ∧
      ∀ i a, (p.accessesLive live)[i]? = some a → (p.seen live).answer a = (live i).answer a := by
  have hnodup : ((self.collect rd out).accesses (p.seen live)).Nodup :=
    (passReads_nodup hids).sublist (accesses_collect_sublist rd self out (p.seen live))
  obtain ⟨haccesses, heval, hseen⟩ := Reading.live_eq_seen hp live hnodup
  exact ⟨heval, haccesses ▸ hnodup, hseen⟩

/-- **A pass is atomic in effect.** A pass can be run against a `/proc` that changes before each of
its accesses, and however it changes: if the listings the pass has got name no id twice, the pass
appends exactly what it appends over one snapshot, in which each file and directory is as it was at
the one moment at which the pass has read it, and what it has not read is not there. -/
theorem collect_live (rd : Readers) (self : HostCollector) (out : List SampleGroup) :
    (∃ p : Reading (List SampleGroup), p.toProcM = self.collect rd out) ∧
    ∀ p : Reading (List SampleGroup), p.toProcM = self.collect rd out →
      ∀ live : Nat → ProcFs, DistinctIds (p.seen live) →
        p.evalLive live = (self.collect rd out).eval (p.seen live) ∧
        (p.accessesLive live).Nodup ∧
        ∀ i a, (p.accessesLive live)[i]? = some a →
          (p.seen live).answer a = (live i).answer a := by
  refine ⟨sequential_collect rd self out, fun p hp live hids => ?_⟩
  exact live_collect_eq_seen hp live hids

/-- With fewer listings the ids are still distinct. -/
theorem DistinctIds.of_fewer {fs fs' : ProcFs} (h : DistinctIds fs)
    (hdir : ∀ path, fs'.dir path = none ∨ fs'.dir path = fs.dir path) : DistinctIds fs' := by
  have hsub : ∀ path, fs'.dir path ≠ none → fs'.dir path = fs.dir path := fun path hsome =>
    (hdir path).resolve_left hsome
  have hlisted : ∀ root id, id ∈ (listedPids fs' root).getD [] →
      id ∈ (listedPids fs root).getD [] := by
    intro root id hid
    rcases hdir root with hnone | hsame
    · simp [listedPids, hnone] at hid
    · rwa [listedPids, ← hsame, ← listedPids]
  have hentries : ∀ {path entries}, entries ∈ fs'.dir path → entries ∈ fs.dir path := by
    intro path entries hmem
    rw [← hsub path (by rw [hmem]; exact Option.some_ne_none entries)]
    exact hmem
  refine ⟨fun entries hmem => h.processes entries (hentries hmem), ?_, ?_⟩
  · intro pid hpid entries hmem
    exact h.tasks pid (hlisted _ pid hpid) entries (hentries hmem)
  · intro pid hpid tid htid hne
    obtain ⟨hnot, howner⟩ := h.task_owner pid (hlisted _ pid hpid) tid (hlisted _ tid htid) hne
    refine ⟨fun hmem => hnot (hlisted _ tid hmem), fun pid' hpid' htid' => ?_⟩
    exact howner pid' (hlisted _ pid' hpid') (hlisted _ tid htid')

/-- The small host, of which every file is gone from the sixth access on. -/
def vanishing (i : Nat) : ProcFs where
  file path := if i < 5 then smallSnapshot.file path else none
  dir := smallSnapshot.dir

/-- The pass is one over what it saw of the host before it was gone. -/
theorem collect_live_vanishing :
    ∃ p : Reading (List SampleGroup),
      p.toProcM = (HostCollector.new "box" everyFamily).collect Readers.documented [] ∧
      p.evalLive vanishing =
        ((HostCollector.new "box" everyFamily).collect Readers.documented []).eval
          (p.seen vanishing) := by
  obtain ⟨⟨p, hp⟩, hlive⟩ :=
    collect_live Readers.documented (HostCollector.new "box" everyFamily) []
  have hids : DistinctIds (p.seen vanishing) := by
    apply smallSnapshot_distinct.distinctIds.of_fewer
    intro path
    rcases p.seen_dir_cases vanishing path with hnone | ⟨i, hsome⟩
    · exact .inl hnone
    · exact .inr hsome
  exact ⟨p, hp, (hlive p hp vanishing hids).1⟩

end MetricsExporter.LinuxMetrics
