/-
# MetricsExporter.Exporter.Filters -- the lists of the configuration only select

Two configurations that differ in one of their lists build two collectors that differ in one filter.
A pass of the one with the narrower list appends, of the family that is filtered, some of the groups
that a pass of the other appends, as they are and in the same order, and of the other families the
same groups.

Both passes are over one snapshot. Filters are compared by what they let through (`FilterLe`); that
a list of the configuration comes to such a filter is `Built`, and which lists are narrower is a
matter of their entries (`Narrower`), with the empty list as the widest of those that include.
-/
import MetricsExporter.Exporter.Collector
import MetricsExporter.LinuxMetrics.Agreement
import Mathlib.Data.List.Flatten

namespace MetricsExporter.Exporter

open MetricsExporter.Lib MetricsExporter.Procfs MetricsExporter.Framework
  MetricsExporter.LinuxMetrics

/-! ## Two collectors of one host

They are compared by their settings and by their filters, apart from each other. -/

/-- Two collectors that may differ in what their filters let through, and in nothing else. -/
structure SameSettings (a b : HostCollector) : Prop where
  hostname : a.hostname = b.hostname
  process : a.cfg.process = b.cfg.process
  thread : a.cfg.processFilter.thread = b.cfg.processFilter.thread
  net : a.cfg.net = b.cfg.net
  cpu : a.cfg.cpu = b.cfg.cpu
  perCore : a.cfg.perCore = b.cfg.perCore
  disk : a.cfg.disk = b.cfg.disk
  mem : a.cfg.mem = b.cfg.mem

/-- What `a` enables, `b` enables, whatever their filters let through. -/
structure SettingsLe (a b : HostCollector) : Prop where
  hostname : a.hostname = b.hostname
  process : a.cfg.process = true → b.cfg.process = true
  thread : a.cfg.processFilter.thread = true → b.cfg.processFilter.thread = true
  net : a.cfg.net = true → b.cfg.net = true
  cpu : a.cfg.cpu = true → b.cfg.cpu = true
  perCore : a.cfg.perCore = true → b.cfg.perCore = true
  disk : a.cfg.disk = true → b.cfg.disk = true
  mem : a.cfg.mem = true → b.cfg.mem = true

/-- Equal settings are settings that are no wider. -/
theorem SameSettings.le {a b : HostCollector} (h : SameSettings a b) : SettingsLe a b where
  hostname := h.hostname
  process := h.process ▸ id
  thread := h.thread ▸ id
  net := h.net ▸ id
  cpu := h.cpu ▸ id
  perCore := h.perCore ▸ id
  disk := h.disk ▸ id
  mem := h.mem ▸ id

/-- Either of the two may be the first. -/
theorem SameSettings.symm {a b : HostCollector} (h : SameSettings a b) : SameSettings b a where
  hostname := h.hostname.symm
  process := h.process.symm
  thread := h.thread.symm
  net := h.net.symm
  cpu := h.cpu.symm
  perCore := h.perCore.symm
  disk := h.disk.symm
  mem := h.mem.symm

/-- The filter in front of a source lets no more through in `a` than in `b`. -/
def FilterLe (a b : HostCollector) : Source → Prop
  | .process _ => ∀ comm, a.cfg.processFilter.passes comm = true →
      b.cfg.processFilter.passes comm = true
  | .netDev => ∀ name, a.cfg.netFilter.passes name = true → b.cfg.netFilter.passes name = true
  | .diskstats => ∀ name, a.cfg.diskFilter.passes name = true →
      b.cfg.diskFilter.passes name = true
  | _ => True

/-- A process filter that lets no more names through and asks for threads no sooner. -/
structure ProcessFilterLe (f g : ProcessFilter) : Prop where
  passes : ∀ comm, f.passes comm = true → g.passes comm = true
  thread : f.thread = true → g.thread = true

/-! ## Fewer groups behind each source

Nothing is said here of where the filters come from. -/

/-- What stands behind a flag. -/
theorem ite_sublist_ite {α : Type} {p q : Bool} {l l' : List α} (hflag : p = true → q = true)
    (h : l.Sublist l') : (if p then l else []).Sublist (if q then l' else []) := by
  cases p with
  | false => exact List.nil_sublist _
  | true =>
      rw [if_pos rfl, if_pos (hflag rfl)]
      exact h

/-- Fewer entities, and fewer groups of each. -/
theorem flatMap_sublist_flatMap {α β : Type} {l l' : List α} {f g : α → List β}
    (hl : l.Sublist l') (hfg : ∀ x, (f x).Sublist (g x)) :
    (l.flatMap f).Sublist (l'.flatMap g) :=
  (hl.flatMap f).trans (List.Sublist.flatMap_right _ fun x _ => hfg x)

/-- Fewer rows of a table. -/
theorem filter_map_sublist {ρ β : Type} {p q : ρ → Bool} (hle : ∀ r, p r = true → q r = true)
    (f : ρ → β) (rows : List ρ) : ((rows.filter p).map f).Sublist ((rows.filter q).map f) :=
  (List.monotone_filter_right rows fun {r} => hle r).map f

section

variable {rd : Readers} {fs : ProcFs}

/-- A row that passes is not changed by passing. -/
theorem taskRow_sublist {hostname : KeyValue} {f g : ProcessFilter}
    (hle : ∀ comm, f.passes comm = true → g.passes comm = true) (collector : CollectorType)
    (p : Process) :
    (taskRow rd hostname f fs collector p).Sublist (taskRow rd hostname g fs collector p) := by
  unfold taskRow
  cases p.comm.eval fs with
  | error err => exact List.Sublist.refl _
  | ok comm =>
      cases hf : f.passes comm with
      | false => simp [hf]
      | true => simp [hf, hle comm hf]

/-- The tasks a filter goes through are all there behind a wider one: a process that passes the one
passes the other, and lists the same tasks. -/
theorem gatedTasks_mono {f g : ProcessFilter} (hle : ProcessFilterLe f g) (p : Process) :
    (gatedTasks f fs p).Sublist (gatedTasks g fs p) := by
  unfold gatedTasks
  cases p.comm.eval fs with
  | error err => exact List.nil_sublist _
  | ok comm =>
      cases p.tasks.eval fs with
      | error err => exact List.nil_sublist _
      | ok tasks =>
          refine ite_sublist_ite (fun h => ?_) (List.Sublist.refl tasks)
          rw [Bool.and_eq_true] at h ⊢
          exact ⟨hle.passes comm h.1, hle.thread h.2⟩

/-- **A narrower filter selects.** The groups of a source behind it are some of those behind the
wider one, in order, and so are those of a collector with less enabled. -/
theorem sourceGroups_mono {a b : HostCollector} (hle : SettingsLe a b) {source : Source}
    (hfilter : FilterLe a b source) :
    (sourceGroups rd a fs source).Sublist (sourceGroups rd b fs source) := by
  cases source with
  | uptime | loadavg => rw [sourceGroups, sourceGroups, hle.hostname]
  | stat =>
      rw [sourceGroups, sourceGroups, hle.hostname]
      refine ite_sublist_ite hle.cpu (List.Sublist.flatMap_right _ fun stats _ => ?_)
      refine (List.monotone_filter_right _ fun {entry} h => ?_).flatMap _
      rw [cpuPasses, Bool.or_eq_true] at h ⊢
      exact h.imp id hle.perCore
  | process pid =>
      rw [sourceGroups, sourceGroups, hle.hostname]
      exact (taskRow_sublist hfilter .process _).append
        (flatMap_sublist_flatMap (gatedTasks_mono ⟨hfilter, hle.thread⟩ _)
          (taskRow_sublist hfilter .thread))
  | netDev =>
      rw [sourceGroups, sourceGroups, hle.hostname]
      exact ite_sublist_ite hle.net (List.Sublist.flatMap_right _ fun stats _ =>
        filter_map_sublist (fun stats : IfaceStats => hfilter stats.name) _ _)
  | diskstats =>
      rw [sourceGroups, sourceGroups, hle.hostname]
      exact ite_sublist_ite hle.disk (List.Sublist.flatMap_right _ fun stats _ =>
        filter_map_sublist (fun stat : DiskStat => hfilter stat.name) _ _)
  | meminfo =>
      rw [sourceGroups, sourceGroups, hle.hostname]
      exact ite_sublist_ite hle.mem (List.Sublist.refl _)

/-- Filters that let the same through make no difference. -/
theorem sourceGroups_eq_of_le {a b : HostCollector} (hsame : SameSettings a b) {source : Source}
    (hle : FilterLe a b source) (hge : FilterLe b a source) :
    sourceGroups rd a fs source = sourceGroups rd b fs source :=
  (sourceGroups_mono hsame.le hle).antisymm (sourceGroups_mono hsame.symm.le hge)

end

/-! ## What a narrower list does to a pass

The order of a pass is that of its sources, and the sources do not depend on the lists. -/

/-- The groups of one family, or of all the others, with the source each is built from. -/
def familyGroups (rd : Readers) (fs : ProcFs) (self : HostCollector) (itemType : UInt16) :
    List (Source × SampleGroup) :=
  (taggedGroups rd self fs).filter fun g => decide (g.1.itemType = itemType)

def otherGroups (rd : Readers) (fs : ProcFs) (self : HostCollector) (itemType : UInt16) :
    List (Source × SampleGroup) :=
  (taggedGroups rd self fs).filter fun g => decide (g.1.itemType ≠ itemType)

/-- Of a family, `a` appends some of the groups of `b`, with the same attributes and values and in
the same order; of the other families it appends the same groups. -/
structure SelectsFrom (rd : Readers) (fs : ProcFs) (itemType : UInt16) (a b : HostCollector) :
    Prop where
  kept : (familyGroups rd fs a itemType).Sublist (familyGroups rd fs b itemType)
  others : otherGroups rd fs a itemType = otherGroups rd fs b itemType

section

variable {rd : Readers} {fs : ProcFs} {a b : HostCollector}

/-- What is gone through does not depend on the filters. -/
theorem sources_eq (hsame : SameSettings a b) : sources a fs = sources b fs := by
  rw [sources, sources, passPids, passPids, hsame.process]

/-- A narrower filter in front of one family, and equal filters in front of all others. -/
theorem selectsFrom_of_le (hsame : SameSettings a b) {itemType : UInt16}
    (hle : ∀ source, FilterLe a b source)
    (hothers : ∀ source : Source, source.itemType ≠ itemType → FilterLe b a source) :
    SelectsFrom rd fs itemType a b where
  kept := by
    unfold familyGroups taggedGroups
    rw [sources_eq hsame]
    refine List.Sublist.filter _ (List.Sublist.flatMap_right _ fun source _ => ?_)
    exact (sourceGroups_mono hsame.le (hle source)).map _
  others := by
    unfold otherGroups taggedGroups
    rw [sources_eq hsame, List.filter_flatMap, List.filter_flatMap]
    refine List.flatMap_congr fun source _ => ?_
    by_cases htype : source.itemType = itemType
    · -- the groups of the family itself are all removed
      have hnone := fun self => filter_tags_eq_nil rd self fs
        (fun tag => decide (tag.itemType ≠ itemType)) source (by simp [htype])
      rw [hnone, hnone]
    · rw [sourceGroups_eq_of_le hsame (hle source) (hothers source htype)]

/-- Filters that let the same through give the same pass. -/
theorem eval_collect_eq_of_le (hsame : SameSettings a b) (hle : ∀ source, FilterLe a b source)
    (hge : ∀ source, FilterLe b a source) :
    (a.collect rd []).eval fs = (b.collect rd []).eval fs := by
  rw [eval_collect, eval_collect, sources_eq hsame]
  refine congrArg ([] ++ ·) (List.flatMap_congr fun source _ => ?_)
  exact sourceGroups_eq_of_le hsame (hle source) (hge source)

end

/-- A list of the configuration, which `cfgOf` puts in its place, only selects: for two lists whose
configurations are accepted, the collectors built from them append what `taggedGroups` lists, the
one with the narrower list appends fewer groups of its family, and lists with the same entries make
no difference. -/
def OnlySelects (rx : RegexCrate) (rd : Readers) (hostname : String) (fs : ProcFs)
    (itemType : UInt16) (cfgOf : List String → MetricsHostCfg)
    (narrower : List String → List String → Prop) : Prop :=
  ∀ as bs, PatternsCompile rx (cfgOf as) → PatternsCompile rx (cfgOf bs) →
    ∃ a b, initHostCollector rx hostname (cfgOf as) = some a ∧
      initHostCollector rx hostname (cfgOf bs) = some b ∧
      (a.collect rd []).eval fs = (taggedGroups rd a fs).map Prod.snd ∧
      (b.collect rd []).eval fs = (taggedGroups rd b fs).map Prod.snd ∧
      (narrower as bs → SelectsFrom rd fs itemType a b) ∧
      ((∀ e, e ∈ as ↔ e ∈ bs) → (a.collect rd []).eval fs = (b.collect rd []).eval fs)

/-- A pass is what the tags are put on. -/
theorem eval_collect_tagged (rd : Readers) (self : HostCollector) (fs : ProcFs) :
    (self.collect rd []).eval fs = (taggedGroups rd self fs).map Prod.snd := by
  rw [eval_collect, map_snd_taggedGroups, List.nil_append]

/-! ## Configurations that differ in one list

A list is compared by what it lets through, and only in the end by its entries. -/

/-- All of a configuration but its lists. -/
def flags (cfg : MetricsHostCfg) : List Bool :=
  [cfg.processSection.enable, cfg.processSection.thread, cfg.netSection.enable,
    cfg.cpuSection.enable, cfg.cpuSection.perCore, cfg.diskSection.enable, cfg.memSection.enable]

/-- The list behind a source lets no more through in `cfg` than in `cfg'`. -/
def ListLe (rx : RegexCrate) (cfg cfg' : MetricsHostCfg) : Source → Prop
  | .process _ => ∀ comm, includes rx.isMatch cfg.processSection.comms comm = true →
      includes rx.isMatch cfg'.processSection.comms comm = true
  | .netDev => ∀ name,
      includes (fun iface name => iface == name) cfg.netSection.ifaces name = true →
        includes (fun iface name => iface == name) cfg'.netSection.ifaces name = true
  | .diskstats => ∀ name, excludes rx.isMatch cfg.diskSection.excludeDevices name = true →
      excludes rx.isMatch cfg'.diskSection.excludeDevices name = true
  | _ => True

section

variable {rx : RegexCrate} {hostname : String} {cfg cfg' : MetricsHostCfg} {a b : HostCollector}

/-- The settings of the collectors are the flags of the configurations. -/
theorem sameSettings_of_built (ha : Built rx hostname cfg a) (hb : Built rx hostname cfg' b)
    (hflags : flags cfg = flags cfg') : SameSettings a b := by
  simp only [flags, List.cons.injEq, and_true] at hflags
  obtain ⟨hprocess, hthread, hnet, hcpu, hperCore, hdisk, hmem⟩ := hflags
  exact {
    hostname := ha.hostname.trans hb.hostname.symm
    process := by rw [ha.process, hb.process, hprocess]
    thread := by rw [ha.thread, hb.thread, hthread]
    net := by rw [ha.net, hb.net, hnet]
    cpu := by rw [ha.cpu, hb.cpu, hcpu]
    perCore := by rw [ha.perCore, hb.perCore, hperCore]
    disk := by rw [ha.disk, hb.disk, hdisk]
    mem := by rw [ha.mem, hb.mem, hmem] }

/-- And the filters let through what the lists do. -/
theorem filterLe_of_built (ha : Built rx hostname cfg a) (hb : Built rx hostname cfg' b)
    {source : Source} (hle : ListLe rx cfg cfg' source) : FilterLe a b source := by
  cases source with
  | process pid =>
      intro comm hpasses
      rw [ha.comms] at hpasses
      rw [hb.comms]
      exact hle comm hpasses
  | netDev =>
      intro name hpasses
      rw [ha.ifaces] at hpasses
      rw [hb.ifaces]
      exact hle name hpasses
  | diskstats =>
      intro name hpasses
      rw [ha.excludeDevices] at hpasses
      rw [hb.excludeDevices]
      exact hle name hpasses
  | _ => trivial

end

/-- What has to be shown of two configurations that differ in a list: only for the family itself may
it matter which of the two lists is the narrower one. -/
theorem onlySelects_of_le {rx : RegexCrate} (hrx : rx.MatchesAny) {rd : Readers}
    {hostname : String} {fs : ProcFs} {itemType : UInt16} {cfgOf : List String → MetricsHostCfg}
    {narrower : List String → List String → Prop}
    (hflags : ∀ as bs, flags (cfgOf as) = flags (cfgOf bs))
    (hle : ∀ as bs (source : Source), (source.itemType = itemType → narrower as bs) →
      ListLe rx (cfgOf as) (cfgOf bs) source)
    (hentries : ∀ as bs : List String, (∀ e, e ∈ as ↔ e ∈ bs) → narrower as bs) :
    OnlySelects rx rd hostname fs itemType cfgOf narrower := by
  intro as bs has hbs
  obtain ⟨a, hinit_a, ha⟩ := exists_built hrx hostname has
  obtain ⟨b, hinit_b, hb⟩ := exists_built hrx hostname hbs
  have hsame := sameSettings_of_built ha hb (hflags as bs)
  have hnarrow : narrower as bs → ∀ source, FilterLe a b source := fun h source =>
    filterLe_of_built ha hb (hle as bs source fun _ => h)
  have hnarrow' : narrower bs as → ∀ source, FilterLe b a source := fun h source =>
    filterLe_of_built hb ha (hle bs as source fun _ => h)
  refine ⟨a, b, hinit_a, hinit_b, eval_collect_tagged rd a fs, eval_collect_tagged rd b fs,
    fun hnarrower => ?_, fun hsameEntries => ?_⟩
  · refine selectsFrom_of_le hsame (hnarrow hnarrower) fun source htype => ?_
    exact filterLe_of_built hb ha (hle bs as source fun h => absurd h htype)
  · have hnarrower := hentries as bs hsameEntries
    have hnarrower' := hentries bs as fun e => (hsameEntries e).symm
    exact eval_collect_eq_of_le hsame (hnarrow hnarrower) (hnarrow' hnarrower')

/-- **Filters only select, and monotonically.** The lists of process names and of interfaces select
more the longer they are, and everything when they are empty; the list of excluded devices selects
less. -/
theorem filters_select (rx : RegexCrate) (hrx : rx.MatchesAny) (rd : Readers) (hostname : String)
    (cfg : MetricsHostCfg) (fs : ProcFs) :
    (∀ process : MetricsHostProcessCfg,
      OnlySelects rx rd hostname fs MetricItemType.process
        (fun comms => { cfg with process := some { process with comms } }) Narrower) ∧
    (∀ disk : MetricsHostDiskCfg,
      OnlySelects rx rd hostname fs MetricItemType.disk
        (fun excludeDevices => { cfg with disk := some { disk with excludeDevices } })
        (fun as bs => bs ⊆ as)) ∧
    ∀ net : MetricsHostNetCfg,
      OnlySelects rx rd hostname fs MetricItemType.net
        (fun ifaces => { cfg with net := some { net with ifaces } }) Narrower := by
  refine ⟨fun process => ?_, fun disk => ?_, fun net => ?_⟩
  · refine onlySelects_of_le hrx (fun _ _ => rfl) (fun as bs source hle => ?_)
      fun _ _ => narrower_of_sameEntries
    cases source with
    | process pid => exact fun comm => includes_mono (hle rfl)
    | netDev | diskstats => exact fun _ hpasses => hpasses
    | _ => trivial
  · refine onlySelects_of_le hrx (fun _ _ => rfl) (fun as bs source hle => ?_)
      fun as bs hentries e he => (hentries e).mpr he
    cases source with
    | diskstats => exact fun name => excludes_anti (hle rfl)
    | process pid => exact fun _ hpasses => hpasses
    | netDev => exact fun _ hpasses => hpasses
    | _ => trivial
  · refine onlySelects_of_le hrx (fun _ _ => rfl) (fun as bs source hle => ?_)
      fun _ _ => narrower_of_sameEntries
    cases source with
    | netDev => exact fun name => includes_mono (hle rfl)
    | process pid => exact fun _ hpasses => hpasses
    | diskstats => exact fun _ hpasses => hpasses
    | _ => trivial

/-- Patterns of plain letters: such a pattern matches the texts that contain it. -/
def plainPatterns : RegexCrate where
  new patterns := some ⟨fun text =>
    patterns.any fun pattern => decide (pattern.toList <:+: text.toList)⟩
  isMatch pattern text := decide (pattern.toList <:+: text.toList)

/-- A set of them matches what one of them matches, by definition. -/
theorem plainPatterns_matchesAny : plainPatterns.MatchesAny where
  isMatch_new := by
    rintro patterns set hnew text
    obtain rfl := Option.some.inj hnew
    rfl

/-- A configuration with all families and threads. -/
def smallCfg : MetricsHostCfg where
  cpu := some { enable := true }
  disk := some { enable := true }
  process := some { enable := true, thread := true }
  net := some { enable := true }
  mem := some { enable := true }

/-- Each of the three lists may be changed, on the small host. -/
theorem filters_select_small :
    (∀ process : MetricsHostProcessCfg,
      OnlySelects plainPatterns Readers.documented "box" smallSnapshot MetricItemType.process
        (fun comms => { smallCfg with process := some { process with comms } }) Narrower) ∧
    (∀ disk : MetricsHostDiskCfg,
      OnlySelects plainPatterns Readers.documented "box" smallSnapshot MetricItemType.disk
        (fun excludeDevices => { smallCfg with disk := some { disk with excludeDevices } })
        (fun as bs => bs ⊆ as)) ∧
    ∀ net : MetricsHostNetCfg,
      OnlySelects plainPatterns Readers.documented "box" smallSnapshot MetricItemType.net
        (fun ifaces => { smallCfg with net := some { net with ifaces } }) Narrower :=
  filters_select plainPatterns plainPatterns_matchesAny Readers.documented "box" smallCfg
    smallSnapshot

end MetricsExporter.Exporter
