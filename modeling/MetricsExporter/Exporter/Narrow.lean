/-
# MetricsExporter.Exporter.Narrow -- a narrower configuration does less

What is not asked for is not paid for: of two configurations one of which enables no more families,
lists no more threads and lets no more through its filters, the collector of the narrower one
registers some of the instruments of the other, makes some of its accesses to `/proc` and appends
some of its groups, all of them in the same order.

The lists may differ in any way as long as what they let through is less (`ListLe`). All three
comparisons are made for one snapshot at a time; how long an access takes is left out.
-/
import MetricsExporter.Exporter.Filters
import MetricsExporter.LinuxMetrics.Reads

namespace MetricsExporter.Exporter

open MetricsExporter.Lib MetricsExporter.Procfs MetricsExporter.Framework
  MetricsExporter.LinuxMetrics

/-- `cfg` asks for no more than `cfg'`: it enables no more, and each of its lists lets no more
through, whatever its entries. -/
structure MetricsHostCfg.AsksLess (rx : RegexCrate) (cfg cfg' : MetricsHostCfg) : Prop where
  cpu : cfg.cpuSection.enable = true → cfg'.cpuSection.enable = true
  perCore : cfg.cpuSection.perCore = true → cfg'.cpuSection.perCore = true
  process : cfg.processSection.enable = true → cfg'.processSection.enable = true
  thread : cfg.processSection.thread = true → cfg'.processSection.thread = true
  net : cfg.netSection.enable = true → cfg'.netSection.enable = true
  disk : cfg.diskSection.enable = true → cfg'.diskSection.enable = true
  mem : cfg.memSection.enable = true → cfg'.memSection.enable = true
  lists : ∀ source, ListLe rx cfg cfg' source

/-- The same of two collectors of one host. -/
structure CollectorLe (a b : HostCollector) : Prop where
  settings : SettingsLe a b
  filters : ∀ source, FilterLe a b source

/-- There is one filter in front of every process. -/
theorem CollectorLe.processFilter {a b : HostCollector} (h : CollectorLe a b) :
    ProcessFilterLe a.cfg.processFilter b.cfg.processFilter :=
  ⟨h.filters (.process 0), h.settings.thread⟩

/-- Asking for less is building a collector that does. -/
theorem collectorLe_of_built {rx : RegexCrate} {hostname : String} {cfg cfg' : MetricsHostCfg}
    {a b : HostCollector} (ha : Built rx hostname cfg a) (hb : Built rx hostname cfg' b)
    (hle : cfg.AsksLess rx cfg') : CollectorLe a b where
  settings := {
    hostname := ha.hostname.trans hb.hostname.symm
    process := by rw [ha.process, hb.process]; exact hle.process
    thread := by rw [ha.thread, hb.thread]; exact hle.thread
    net := by rw [ha.net, hb.net]; exact hle.net
    cpu := by rw [ha.cpu, hb.cpu]; exact hle.cpu
    perCore := by rw [ha.perCore, hb.perCore]; exact hle.perCore
    disk := by rw [ha.disk, hb.disk]; exact hle.disk
    mem := by rw [ha.mem, hb.mem]; exact hle.mem }
  filters source := filterLe_of_built ha hb (hle.lists source)

/-! ## Instruments -/

/-- One flag for each item type, and each is no sooner set. -/
theorem declares_mono {a b : HostCollector} (hle : SettingsLe a b) (itemType : UInt16)
    (h : HostCollector.declares a.cfg itemType = true) :
    HostCollector.declares b.cfg itemType = true := by
  unfold HostCollector.declares at h ⊢
  simp only [Bool.if_true_left, Bool.or_eq_true, decide_eq_true_eq] at h ⊢
  exact h.imp id <| .imp id <| .imp (.imp_right hle.cpu) <| .imp (.imp_right hle.process) <|
    .imp (.imp_right hle.net) <| .imp (.imp_right hle.disk) <| .imp (.imp_right hle.mem) id

/-- So fewer rows of the table are registered, in its order. -/
theorem items_sublist {a b : HostCollector} (hle : CollectorLe a b) :
    a.items.Sublist b.items := by
  rw [HostCollector.items_eq, HostCollector.items_eq]
  exact List.monotone_filter_right _ fun {item} => declares_mono hle.settings item.itemType

/-! ## Accesses -/

section

variable {f g : ProcessFilter} {fs : ProcFs}

/-- An id that passes the narrower filter passes the wider one. -/
theorem Passes_mono (hle : ProcessFilterLe f g) (id : Int32) (h : Passes f fs id = true) :
    Passes g fs id = true := by
  unfold Passes at h ⊢
  obtain ⟨comm, hcomm, hpasses⟩ := (Option.any_eq_true _ _).mp h
  rw [← ProcessFilter.passes_eq] at hpasses
  refine (Option.any_eq_true _ _).mpr ⟨comm, hcomm, ?_⟩
  rw [← ProcessFilter.passes_eq]
  exact hle.passes comm hpasses

/-- The comm is always read, the other files behind the filter. -/
theorem taskReads_sublist (hle : ProcessFilterLe f g) (p : Process) :
    (taskReads f fs p).Sublist (taskReads g fs p) := by
  cases hcomm : p.comm.eval fs with
  | error err => rw [taskReads_of_error f fs hcomm, taskReads_of_error g fs hcomm]
  | ok comm =>
      rw [taskReads_of_comm f fs hcomm, taskReads_of_comm g fs hcomm]
      exact List.Sublist.cons_cons _ (ite_sublist_ite (hle.passes comm) (List.Sublist.refl _))

/-- The task directory of a process is listed no sooner. -/
theorem lists_mono (hle : ProcessFilterLe f g) (pid : Int32)
    (h : (Passes f fs pid && f.thread) = true) : (Passes g fs pid && g.thread) = true := by
  rw [Bool.and_eq_true] at h ⊢
  exact ⟨Passes_mono hle pid h.1, hle.thread h.2⟩

/-- The files of a visit, and behind them its task directory. -/
theorem visitReads_mono (hle : ProcessFilterLe f g) (visit : Visit) :
    (visitReads f fs visit).Sublist (visitReads g fs visit) := by
  refine (taskReads_sublist hle _).append (ite_sublist_ite (fun h => ?_) (List.Sublist.refl _))
  rw [Bool.and_eq_true] at h ⊢
  exact ⟨h.1, lists_mono hle visit.id h.2⟩

/-- Fewer tasks are visited, as fewer of their processes pass. -/
theorem visits_sublist (hle : ProcessFilterLe f g) : (visits f fs).Sublist (visits g fs) :=
  List.Sublist.flatMap_right _ fun pid _ =>
    List.Sublist.cons_cons _ (ite_sublist_ite (lists_mono hle pid) (List.Sublist.refl _))

/-- The families in turn, each behind its flag. -/
theorem accesses_sublist {rd : Readers} {a b : HostCollector} (hle : CollectorLe a b)
    (out out' : List SampleGroup) :
    ((a.collect rd out).accesses fs).Sublist ((b.collect rd out').accesses fs) := by
  have hvisits : (Access.readDir linuxProcPath ::
        (visits a.cfg.processFilter fs).flatMap (visitReads a.cfg.processFilter fs)).Sublist
      (.readDir linuxProcPath ::
        (visits b.cfg.processFilter fs).flatMap (visitReads b.cfg.processFilter fs)) :=
    List.Sublist.cons_cons _ (flatMap_sublist_flatMap (visits_sublist hle.processFilter)
      (visitReads_mono hle.processFilter))
  rw [accesses_collect, accesses_collect]
  refine (List.Sublist.refl _).append ?_
  refine (ite_sublist_ite hle.settings.cpu (List.Sublist.refl _)).append ?_
  refine (ite_sublist_ite hle.settings.process hvisits).append ?_
  refine (ite_sublist_ite hle.settings.net (List.Sublist.refl _)).append ?_
  refine (ite_sublist_ite hle.settings.disk (List.Sublist.refl _)).append ?_
  exact ite_sublist_ite hle.settings.mem (List.Sublist.refl _)

end

/-! ## Groups -/

section

variable {rd : Readers} {fs : ProcFs} {a b : HostCollector}

/-- Without the process flag there are no processes to go through. -/
theorem sources_sublist (hle : CollectorLe a b) : (sources a fs).Sublist (sources b fs) := by
  have hpids : (passPids a fs).Sublist (passPids b fs) :=
    ite_sublist_ite hle.settings.process (List.Sublist.refl _)
  exact ((List.Sublist.refl _).append (hpids.map _)).append (List.Sublist.refl _)

/-- Fewer sources, and fewer groups of each. -/
theorem eval_collect_sublist (hle : CollectorLe a b) :
    ((a.collect rd []).eval fs).Sublist ((b.collect rd []).eval fs) := by
  rw [eval_collect, eval_collect]
  exact (List.Sublist.refl []).append
    (flatMap_sublist_flatMap (sources_sublist hle) fun source =>
      sourceGroups_mono hle.settings (hle.filters source))

end

/-- **What is not asked for is not paid for.** Of two accepted configurations the narrower one
registers some of the instruments of the other, and of every `/proc` reads some of the files and
appends some of the groups: never one the other would not, and in no other order. -/
theorem narrower_does_less (rx : RegexCrate) (hrx : rx.MatchesAny) (rd : Readers)
    (hostname : String) (cfg cfg' : MetricsHostCfg) (hcfg : PatternsCompile rx cfg)
    (hcfg' : PatternsCompile rx cfg') (hle : cfg.AsksLess rx cfg') :
    ∃ a b, initHostCollector rx hostname cfg = some a ∧
      initHostCollector rx hostname cfg' = some b ∧
      a.items.Sublist b.items ∧
      ∀ fs, ((a.collect rd []).accesses fs).Sublist ((b.collect rd []).accesses fs) ∧
        ((a.collect rd []).eval fs).Sublist ((b.collect rd []).eval fs) := by
  obtain ⟨a, hinit_a, ha⟩ := exists_built hrx hostname hcfg
  obtain ⟨b, hinit_b, hb⟩ := exists_built hrx hostname hcfg'
  have hab : CollectorLe a b := collectorLe_of_built ha hb hle
  exact ⟨a, b, hinit_a, hinit_b, items_sublist hab, fun fs =>
    ⟨accesses_sublist hab [] [], eval_collect_sublist hab⟩⟩

/-- The processes named like a shell, without their threads, and no disks. -/
def frugalCfg : MetricsHostCfg where
  cpu := some { enable := true }
  disk := none
  process := some { enable := true, thread := false, comms := ["sh"] }
  net := some { enable := true, ifaces := ["lo"] }
  mem := some { enable := true }

/-- The empty lists of the other configuration let everything through. -/
theorem frugalCfg_lists (source : Source) : ListLe plainPatterns frugalCfg smallCfg source := by
  cases source with
  | process pid => exact fun _ => includes_mono (.inl rfl)
  | netDev => exact fun _ => includes_mono (.inl rfl)
  | diskstats => exact fun _ hpasses => hpasses
  | _ => trivial

/-- Against the configuration with everything on. -/
theorem narrower_does_less_frugal :
    ∃ a b, initHostCollector plainPatterns "box" frugalCfg = some a ∧
      initHostCollector plainPatterns "box" smallCfg = some b ∧
      a.items.Sublist b.items ∧
      ∀ fs, ((a.collect Readers.documented []).accesses fs).Sublist
          ((b.collect Readers.documented []).accesses fs) ∧
        ((a.collect Readers.documented []).eval fs).Sublist
          ((b.collect Readers.documented []).eval fs) :=
  narrower_does_less plainPatterns plainPatterns_matchesAny Readers.documented "box" frugalCfg
    smallCfg (fun _ _ _ => rfl) (fun _ _ _ => rfl)
    { cpu := id, perCore := id, process := id, thread := nofun, net := id, disk := fun _ => rfl
      mem := id, lists := frugalCfg_lists }

end MetricsExporter.Exporter
