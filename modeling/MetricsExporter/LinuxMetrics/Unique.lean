/-
# MetricsExporter.LinuxMetrics.Unique -- one pass gives one point of each time series

Two groups of a pass are separate for one of two reasons: they belong to families without a common
metric name, or they differ in the attribute that names the entity they describe. The second needs
the entities to be listed once each, which is what `DistinctSnapshot` asks of `/proc`.

A series is a metric name with a set of attributes, whatever the order they are written in. What the
SDK does with two points of one series is left out: none are produced. Names in the tables are
compared as text, so `DistinctSnapshot` asks for ASCII names, of which no two octet strings read the
same.
-/
import MetricsExporter.Framework.Series
import MetricsExporter.LinuxMetrics.Agreement
import Mathlib.Data.List.Flatten

namespace MetricsExporter.LinuxMetrics

open MetricsExporter.Lib MetricsExporter.Procfs MetricsExporter.Framework

/-- `/proc` lists every entity once: the tables carry distinct ASCII names, the numeric entries of
`/proc` and of the task directories are distinct canonical numerals, and a task other than the
leader of its group is listed in one task directory and not in `/proc`. -/
structure DistinctSnapshot (fs : ProcFs) : Prop where
  stat : ∀ content ∈ fs.file (linuxProcPath.join "stat"), DistinctNames cpuLineName content
  diskstats : ∀ content ∈ fs.file (linuxProcPath.join "diskstats"),
    DistinctNames diskLineName content
  netDev : ∀ content ∈ fs.file ((linuxProcPath.join "net").join "dev"),
    DistinctNames netLineName content
  processes : ∀ entries ∈ fs.dir linuxProcPath, CanonicalListing entries
  tasks : ∀ pid ∈ processPids fs, ∀ entries ∈ fs.dir (taskDir pid), CanonicalListing entries
  task_owner : ∀ pid ∈ processPids fs, ∀ tid ∈ taskPids fs pid, tid ≠ pid →
    tid ∉ processPids fs ∧ ∀ pid' ∈ processPids fs, tid ∈ taskPids fs pid' → pid' = pid

section

variable (rd : Readers) (self : HostCollector) (fs : ProcFs)

/-! ## Attribute keys

A group has the keys of its source, whatever it holds. -/

/-- A row of a process and a row of a thread have the same keys, their values tell them apart. -/
theorem taskAttrs_keys (collector : CollectorType) (pid : Int32) (comm : String) :
    (taskAttrs self.hostname collector pid comm).map KeyValue.key =
      ["host", "pid", "comm", "thread"] := by
  cases collector <;> simp [taskAttrs, KeyValue.string, self.hostname_key]

/-- The attribute keys of the groups of a source. -/
def attrKeys : Source → List String
  | .uptime | .loadavg | .meminfo => ["host"]
  | .stat => ["host", "cpu", "mode"]
  | .process _ => ["host", "pid", "comm", "thread"]
  | .netDev => ["host", "iface"]
  | .diskstats => ["host", "device"]

/-- The keys of a group are those of its source, in the order they are pushed. -/
theorem keys_eq {source : Source} {group : SampleGroup}
    (hgroup : group ∈ sourceGroups rd self fs source) : group.keys = attrKeys source := by
  cases GroupOf.of_mem hgroup with
  | process collector task comm => exact taskAttrs_keys self collector task.pid comm
  | uptime | loadavg | meminfo =>
      simp [SampleGroup.keys, attrKeys, uptimeGroup, loadavgGroup, memGroup, self.hostname_key]
  | stat | netDev | diskstats =>
      simp [SampleGroup.keys, attrKeys, cpuGroup, netGroup, diskGroup, KeyValue.string,
        self.hostname_key]

/-- No attribute is given twice. -/
theorem attrKeys_nodup (source : Source) : (attrKeys source).Nodup := by
  cases source <;> simp [attrKeys]

theorem host_mem_attrKeys (source : Source) : "host" ∈ attrKeys source := by
  cases source <;> simp [attrKeys]

/-! ## Different families

The table of items has each name once, under one item type. -/

/-- The names of a group are declared under the item type of its family. -/
theorem names_declared {source : Source} {group : SampleGroup}
    (hgroup : group ∈ sourceGroups rd self fs source) {name : String} (hname : name ∈ group.names) :
    ∃ item ∈ items, item.name = name ∧ item.itemType = source.itemType := by
  obtain ⟨v, hv, rfl⟩ := List.mem_map.mp hname
  obtain ⟨item, hitem, hsignature, htype⟩ := declared_of_mem rd self fs hgroup hv
  exact ⟨item, hitem, (Prod.mk.inj hsignature).1, htype⟩

/-- A group has no two values of one name. Its signatures are some of those its family pushes, and
those have distinct names. -/
theorem names_nodup {source : Source} {group : SampleGroup}
    (hgroup : group ∈ sourceGroups rd self fs source) : group.names.Nodup := by
  have hsublist := (groupSignatures_sublist rd self fs hgroup).map Prod.fst
  have hnames : (groupSignatures group).map Prod.fst = group.names := by
    rw [groupSignatures, List.map_map]
    rfl
  exact (pushedSignatures_nodup_names source).sublist (hnames ▸ hsublist)

/-- The groups with values of an item are of the family of the item. -/
theorem itemType_of_name {item : MetricItem} (hitem : item ∈ items) {source : Source}
    {group : SampleGroup} (hgroup : group ∈ sourceGroups rd self fs source)
    (hname : item.name ∈ group.names) : item.itemType = source.itemType := by
  obtain ⟨declared, hdeclared, heq, htype⟩ := names_declared rd self fs hgroup hname
  rw [← List.inj_on_of_nodup_map items_nodup_names hdeclared hitem heq]
  exact htype

/-- Groups of different families share no metric name. -/
theorem separate_of_itemType_ne {source source' : Source}
    (hne : source.itemType ≠ source'.itemType) {g g' : SampleGroup}
    (hg : g ∈ sourceGroups rd self fs source) (hg' : g' ∈ sourceGroups rd self fs source') :
    Separate g g' := by
  apply separate_of_disjoint
  intro name hname hname'
  obtain ⟨item, hitem, rfl, htype⟩ := names_declared rd self fs hg hname
  exact hne (htype.symm.trans (itemType_of_name rd self fs hitem hg' hname'))

/-- Only processes share an item type. -/
theorem Source.eq_of_itemType_eq {a b : Source} (h : a.itemType = b.itemType) :
    a = b ∨ ∃ p q, a = .process p ∧ b = .process q := by
  cases a <;> cases b <;>
    simp [Source.itemType, MetricItemType.uptime, MetricItemType.loadavg, MetricItemType.process,
      MetricItemType.net, MetricItemType.cpu, MetricItemType.disk, MetricItemType.mem] at h ⊢

/-! ## Rows of tasks

The id and the `thread` flag are the two attributes that tell the rows of the process family apart.
A task that two processes list would have two rows with the same of both. -/

theorem pid_mem_taskAttrs (hostname : KeyValue) (collector : CollectorType) (pid : Int32)
    (comm : String) :
    (⟨"pid", .i64 pid.toInt64⟩ : KeyValue) ∈ taskAttrs hostname collector pid comm := by
  cases collector <;> simp [taskAttrs]

theorem thread_mem_taskAttrs (hostname : KeyValue) (collector : CollectorType) (pid : Int32)
    (comm : String) :
    (⟨"thread", .bool (decide (collector = .thread))⟩ : KeyValue) ∈
      taskAttrs hostname collector pid comm := by
  cases collector <;> simp [taskAttrs]

/-- Rows of different ids, or of a process and of a thread, are separate. -/
theorem separate_taskRows {cfg : ProcessFilter} {c c' : CollectorType} {t t' : Int32}
    (hne : c ≠ c' ∨ t ≠ t') {g g' : SampleGroup}
    (hg : g ∈ taskRow rd self.hostname cfg fs c (Process.withPid t))
    (hg' : g' ∈ taskRow rd self.hostname cfg fs c' (Process.withPid t')) : Separate g g' := by
  obtain ⟨comm, -, -, -, rfl⟩ := (mem_taskRow rd _ _ fs).mp hg
  obtain ⟨comm', -, -, -, rfl⟩ := (mem_taskRow rd _ _ fs).mp hg'
  have hkeys : ((taskAttrs self.hostname c' t' comm').map KeyValue.key).Nodup := by
    rw [taskAttrs_keys]
    exact attrKeys_nodup (.process t')
  -- the flag tells a process from a thread, the id tells one task from another
  rcases hne with hcollector | hpid
  · refine separate_of_attr hkeys (thread_mem_taskAttrs ..) (thread_mem_taskAttrs ..) rfl ?_
    cases c <;> cases c' <;> simp_all
  · refine separate_of_attr hkeys (pid_mem_taskAttrs ..) (pid_mem_taskAttrs ..) rfl ?_
    intro heq
    injection heq with _ hvalue
    injection hvalue with hid
    exact hpid (toInt64_injective hid)

/-- A task has one row at most. -/
theorem taskRow_pairwise {cfg : ProcessFilter} {c : CollectorType} {p : Process} :
    (taskRow rd self.hostname cfg fs c p).Pairwise Separate := by
  unfold taskRow
  split
  · exact List.Pairwise.nil
  · split
    · exact List.pairwise_singleton _ _
    · exact List.Pairwise.nil

/-- The rows of a listed process: its own, or that of another id in its task directory. -/
theorem mem_processRows_withPid {cfg : ProcessFilter} {pid : Int32} {g : SampleGroup}
    (hg : g ∈ processRows rd self.hostname cfg fs (Process.withPid pid)) :
    g ∈ taskRow rd self.hostname cfg fs .process (Process.withPid pid) ∨
      ∃ tid ∈ taskPids fs pid, tid ≠ pid ∧
        g ∈ taskRow rd self.hostname cfg fs .thread (Process.withPid tid) := by
  rcases List.mem_append.mp hg with hrow | hrows
  · exact .inl hrow
  · obtain ⟨task, htask, hrow⟩ := List.mem_flatMap.mp hrows
    obtain ⟨tid, htid, rfl⟩ :=
      List.mem_map.mp ((gatedTasks_sublist cfg fs pid).subset htask)
    obtain ⟨hmem, hne⟩ := List.mem_filter.mp htid
    exact .inr ⟨tid, hmem, fun heq => by simp [heq] at hne, hrow⟩

variable {fs}

/-- The rows of two processes are separate. -/
theorem separate_processes (hfs : DistinctSnapshot fs) {cfg : ProcessFilter} {p q : Int32}
    (hp : p ∈ processPids fs) (hq : q ∈ processPids fs) (hne : p ≠ q) {g g' : SampleGroup}
    (hg : g ∈ processRows rd self.hostname cfg fs (Process.withPid p))
    (hg' : g' ∈ processRows rd self.hostname cfg fs (Process.withPid q)) : Separate g g' := by
  -- two process rows, a row of each kind either way, or two thread rows
  rcases mem_processRows_withPid rd self fs hg with hrow | ⟨tid, htid, htp, hrow⟩ <;>
    rcases mem_processRows_withPid rd self fs hg' with hrow' | ⟨tid', htid', htq, hrow'⟩
  · exact separate_taskRows rd self fs (.inr hne) hrow hrow'
  · exact separate_taskRows rd self fs (.inl (by decide)) hrow hrow'
  · exact separate_taskRows rd self fs (.inl (by decide)) hrow hrow'
  · -- a task listed by both would have two owners
    refine separate_taskRows rd self fs (.inr ?_) hrow hrow'
    rintro rfl
    exact hne ((hfs.task_owner q hq tid htid' htq).2 p hp htid)

/-- The rows of one process are separate. -/
theorem processRows_pairwise (hfs : DistinctSnapshot fs) {cfg : ProcessFilter} {pid : Int32}
    (hpid : pid ∈ processPids fs) :
    (processRows rd self.hostname cfg fs (Process.withPid pid)).Pairwise Separate := by
  have htids : ((taskPids fs pid).filter (fun tid => decide (some pid ≠ some tid))).Nodup :=
    (nodup_listedPids (hfs.tasks pid hpid)).filter _
  have hthreads : ((((taskPids fs pid).filter (fun tid => decide (some pid ≠ some tid))).map
      Process.withPid).flatMap (taskRow rd self.hostname cfg fs .thread)).Pairwise Separate := by
    rw [List.pairwise_flatMap]
    refine ⟨fun task _ => taskRow_pairwise rd self fs, ?_⟩
    rw [List.pairwise_map]
    exact htids.imp fun hne g hg g' hg' => separate_taskRows rd self fs (.inr hne) hg hg'
  rw [processRows, List.pairwise_append]
  refine ⟨taskRow_pairwise rd self fs, ?_, ?_⟩
  · refine hthreads.sublist ?_
    exact (gatedTasks_sublist cfg fs pid).flatMap _
  · intro g hg g' hg'
    obtain ⟨task, htask, hrow⟩ := List.mem_flatMap.mp hg'
    obtain ⟨tid, -, rfl⟩ :=
      List.mem_map.mp ((gatedTasks_sublist cfg fs pid).subset htask)
    exact separate_taskRows rd self fs (.inl (by decide)) hg hrow

/-! ## Rows of tables

In the other families each row of a table has an attribute of its own: `cpu`, `iface` or `device`.
-/

/-- The groups of rows with distinct names, each labelled with the name of its row. -/
theorem pairwise_map_of_label {ρ : Type} {rows : List ρ} {name : ρ → String}
    {group : ρ → SampleGroup} (key : String) (hnames : (rows.map name).Nodup)
    (hkeys : ∀ r ∈ rows, (group r).keys.Nodup)
    (hlabel : ∀ r, KeyValue.string key (name r) ∈ (group r).attrs) :
    (rows.map group).Pairwise Separate := by
  rw [List.pairwise_map]
  refine (List.pairwise_map.mp hnames).imp_of_mem ?_
  intro r r' _ hr' hne
  refine separate_of_attr (hkeys r' hr') (hlabel r) (hlabel r') rfl ?_
  intro heq
  injection heq with _ hvalue
  injection hvalue with hname
  exact hne hname

/-- The ten modes have ten names. -/
theorem modes_nodup : modes.Nodup := by decide

/-- The three keys of a mode. -/
theorem keys_cpuGroup (name mode : String) (ticks : UInt64) :
    (cpuGroup self.hostname name mode ticks).keys.Nodup := by
  simp [SampleGroup.keys, cpuGroup, KeyValue.string, self.hostname_key]

/-- The ten groups of one line differ in their mode, those of different lines in their cpu. -/
theorem cpuGroups_pairwise {cpus : List CpuTimes} (hnames : (cpus.map CpuTimes.name).Nodup) :
    (cpus.flatMap (cpuGroups self.hostname)).Pairwise Separate := by
  rw [List.pairwise_flatMap]
  constructor
  · intro entry _
    have hzip : ((modes.zip (cpuTimesArray entry)).map Prod.fst) = modes := rfl
    refine pairwise_map_of_label "mode" (hzip ▸ modes_nodup) ?_ ?_
    · rintro ⟨mode, ticks⟩ -
      exact keys_cpuGroup self entry.name mode ticks
    · rintro ⟨mode, ticks⟩
      simp [cpuGroup]
  · refine (List.pairwise_map.mp hnames).imp ?_
    intro entry entry' hne g hg g' hg'
    obtain ⟨⟨mode, ticks⟩, -, rfl⟩ := List.mem_map.mp hg
    obtain ⟨⟨mode', ticks'⟩, -, rfl⟩ := List.mem_map.mp hg'
    have hcpu : ∀ name mode ticks, KeyValue.string "cpu" name ∈
        (cpuGroup self.hostname name mode ticks).attrs := by
      intro name mode ticks
      simp [cpuGroup]
    -- the mode may agree, so it is the cpu that has to differ
    refine separate_of_attr (keys_cpuGroup self _ _ _) (hcpu ..) (hcpu ..) rfl ?_
    intro heq
    injection heq with _ hvalue
    injection hvalue with hname
    exact hne hname

/-! ## The whole pass

By sources: two groups of one source are separate by the above, and two of different sources by
their families, unless both are rows of processes. -/

/-- A file that is not read has no groups. -/
theorem pairwise_toList {α : Type} {result : ProcResult α} {groups : α → List SampleGroup}
    (h : ∀ a, result = .ok a → (groups a).Pairwise Separate) :
    (result.toOption.toList.flatMap groups).Pairwise Separate := by
  cases result with
  | error err => exact List.Pairwise.nil
  | ok a => simpa [Except.toOption] using h a rfl

/-- Nor has a family that is not enabled. -/
theorem pairwise_ite {flag : Bool} {groups : List SampleGroup} (h : groups.Pairwise Separate) :
    (if flag then groups else []).Pairwise Separate := by
  cases flag
  · exact List.Pairwise.nil
  · exact h

/-- **The groups of one source are separate.** -/
theorem sourceGroups_pairwise (hfs : DistinctSnapshot fs) {source : Source}
    (hsource : source ∈ sources self fs) :
    (sourceGroups rd self fs source).Pairwise Separate := by
  have hone : ∀ {α : Type} (result : ProcResult α) (group : α → SampleGroup),
      (result.toOption.toList.map group).Pairwise Separate := by
    intro α result group
    rw [List.map_eq_flatMap]
    exact pairwise_toList fun a _ => List.pairwise_singleton _ _
  cases source with
  | uptime => exact hone _ _
  | loadavg => exact hone _ _
  | stat =>
      refine pairwise_ite (pairwise_toList fun stats hok => ?_)
      obtain ⟨content, hfile, rfl⟩ := exists_of_eval_fromFile hok
      have hnames := (hfs.stat content hfile).nodup_map (parseCpuLine_name rd)
      exact cpuGroups_pairwise self (hnames.sublist (List.filter_sublist.map _))
  | process pid =>
      have hpass : pid ∈ passPids self fs := by simpa [sources] using hsource
      exact processRows_pairwise rd self hfs (List.mem_ite_nil_right.mp hpass).2
  | netDev =>
      refine pairwise_ite (pairwise_toList fun stats hok => ?_)
      obtain ⟨content, hfile, rfl⟩ := exists_of_eval_fromFile hok
      have hnames := (hfs.netDev content hfile).nodup_map (parseDevLine_name rd)
      refine pairwise_map_of_label "iface" (hnames.sublist (List.filter_sublist.map _)) ?_
        (fun stats => ?_)
      · intro stats _
        simp [SampleGroup.keys, netGroup, KeyValue.string, self.hostname_key]
      · exact List.mem_cons_of_mem _ (List.mem_singleton_self _)
  | diskstats =>
      refine pairwise_ite (pairwise_toList fun stats hok => ?_)
      obtain ⟨content, hfile, rfl⟩ := exists_of_eval_fromFile hok
      have hnames := (hfs.diskstats content hfile).nodup_map (parseDiskstatsLine_name rd)
      refine pairwise_map_of_label "device" (hnames.sublist (List.filter_sublist.map _)) ?_
        (fun stat => ?_)
      · intro stat _
        simp [SampleGroup.keys, diskGroup, KeyValue.string, self.hostname_key]
      · exact List.mem_cons_of_mem _ (List.mem_singleton_self _)
  | meminfo => exact pairwise_ite (hone _ _)

/-- No source is gone through twice: the global ones are different constructors, and `/proc` lists
no id twice. -/
theorem sources_nodup (hfs : DistinctSnapshot fs) : (sources self fs).Nodup := by
  have hpids : (passPids self fs).Nodup := by
    unfold passPids
    cases self.cfg.process
    · exact List.nodup_nil
    · exact nodup_listedPids hfs.processes
  have hprocesses : ((passPids self fs).map Source.process).Nodup :=
    hpids.map fun _ _ h => Source.process.inj h
  simp [sources, List.nodup_append, hprocesses]

/-- **The groups of a pass are separate.** -/
theorem collect_pairwise (hfs : DistinctSnapshot fs) :
    ((sources self fs).flatMap (sourceGroups rd self fs)).Pairwise Separate := by
  rw [List.pairwise_flatMap]
  refine ⟨fun source hsource => sourceGroups_pairwise rd self hfs hsource, ?_⟩
  -- groups of two sources: either their families differ, or both are rows of processes
  refine (sources_nodup self hfs).imp_of_mem ?_
  intro source source' hsource hsource' hne g hg g' hg'
  by_cases htype : source.itemType = source'.itemType
  · rcases Source.eq_of_itemType_eq htype with heq | ⟨p, q, rfl, rfl⟩
    · exact absurd heq hne
    · have hp : p ∈ passPids self fs := by simpa [sources] using hsource
      have hq : q ∈ passPids self fs := by simpa [sources] using hsource'
      exact separate_processes rd self hfs (List.mem_ite_nil_right.mp hp).2
        (List.mem_ite_nil_right.mp hq).2 (fun h => hne (congrArg _ h)) hg hg'
  · exact separate_of_itemType_ne rd self fs htype hg hg'

/-- So no two samples of a pass are of one series. -/
theorem sources_nodup_series (hfs : DistinctSnapshot fs) :
    ((samples ((sources self fs).flatMap (sourceGroups rd self fs))).map
      Sample.series).Nodup := by
  refine nodup_series (fun group hgroup => ?_) (collect_pairwise rd self hfs)
  obtain ⟨source, -, hgroup⟩ := List.mem_flatMap.mp hgroup
  exact names_nodup rd self fs hgroup

end

/-- **One pass never produces two points of one time series.** Where `/proc` lists every entity
once, no two values appended by a pass have the same metric name and the same attribute set, and
every group has distinct attribute keys, `host` among them. -/
theorem collect_nodup_series (rd : Readers) (self : HostCollector) (fs : ProcFs)
    (hfs : DistinctSnapshot fs) :
    ((samples ((self.collect rd []).eval fs)).map Sample.series).Nodup ∧
      ∀ group ∈ (self.collect rd []).eval fs, group.keys.Nodup ∧ "host" ∈ group.keys := by
  rw [eval_collect, List.nil_append]
  constructor
  · exact sources_nodup_series rd self hfs
  · intro group hgroup
    obtain ⟨source, -, hgroup⟩ := List.mem_flatMap.mp hgroup
    rw [keys_eq rd self fs hgroup]
    exact ⟨attrKeys_nodup source, host_mem_attrKeys source⟩

/-- The small host lists everything once. -/
theorem smallSnapshot_distinct : DistinctSnapshot smallSnapshot where
  stat := by decide
  diskstats := by decide
  netDev := by decide
  processes := by decide
  tasks := by decide
  task_owner := by decide

/-- So its pass gives one point of each series. -/
theorem collect_nodup_series_small :
    ((samples (((HostCollector.new "box" everyFamily).collect Readers.documented []).eval
        smallSnapshot)).map Sample.series).Nodup ∧
      ∀ group ∈ ((HostCollector.new "box" everyFamily).collect Readers.documented []).eval
        smallSnapshot, group.keys.Nodup ∧ "host" ∈ group.keys :=
  collect_nodup_series Readers.documented _ smallSnapshot smallSnapshot_distinct

end MetricsExporter.LinuxMetrics
