/-
# MetricsExporter.Exporter.Collector -- from the configuration file to the host collector

The sections of the configuration that describe the host collector, and `init_host_collector`, which
builds the collector from them. The `regex` crate is not part of the repository: it is a parameter.

How the file is read and parsed is left out; the sections are as `serde` hands them over, with the
fields that are not required at their defaults. Of the crate two things are assumed, and only where
they are needed: that a set matches what one of its patterns matches, and that the patterns of a
configuration compile.
-/
import MetricsExporter.Lib.Selection
import MetricsExporter.LinuxMetrics.Host

namespace MetricsExporter.Exporter

open MetricsExporter.Lib MetricsExporter.Procfs MetricsExporter.LinuxMetrics

/-! ## The configuration

Each family of the host has a section of its own. -/

/-- The list is of patterns for the names of processes. -/
structure MetricsHostProcessCfg where
  enable : Bool
  thread : Bool
  comms : List String := []

/-- Interfaces are listed by name, without patterns. -/
structure MetricsHostNetCfg where
  enable : Bool
  ifaces : List String := []

/-- Whether there are rows for the cores, beside the aggregate. -/
structure MetricsHostCpuCfg where
  enable : Bool
  perCore : Bool := false

/-- The list is of patterns for devices to leave out. -/
structure MetricsHostDiskCfg where
  enable : Bool
  excludeDevices : List String := []

/-- Memory has nothing to select. -/
structure MetricsHostMemCfg where
  enable : Bool

/-- The sections of the host, all of them optional. -/
structure MetricsHostCfg where
  cpu : Option MetricsHostCpuCfg
  disk : Option MetricsHostDiskCfg
  process : Option MetricsHostProcessCfg
  net : Option MetricsHostNetCfg
  mem : Option MetricsHostMemCfg

namespace MetricsHostCfg

variable (cfg : MetricsHostCfg)

/-- A section that is not there stands for one that is not enabled. -/
def processSection : MetricsHostProcessCfg :=
  cfg.process.getD { enable := false, thread := false, comms := [] }

def netSection : MetricsHostNetCfg := cfg.net.getD { enable := false, ifaces := [] }

def cpuSection : MetricsHostCpuCfg := cfg.cpu.getD { enable := false, perCore := false }

def diskSection : MetricsHostDiskCfg := cfg.disk.getD { enable := false, excludeDevices := [] }

def memSection : MetricsHostMemCfg := cfg.mem.getD { enable := false }

end MetricsHostCfg

/-! ## The collector -/

/-- The regular expressions the exporter uses: `RegexSet::new`, which refuses patterns that do not
compile, and whether a single pattern matches a text. -/
structure RegexCrate where
  new : List String → Option RegexSet
  isMatch : String → String → Bool

/-- What is assumed of it: a set matches exactly when one of its patterns does. -/
structure RegexCrate.MatchesAny (rx : RegexCrate) : Prop where
  isMatch_new : ∀ patterns set, rx.new patterns = some set → ∀ text,
    set.isMatch text = patterns.any fun pattern => rx.isMatch pattern text

/-- The set of a list of patterns: none for the empty list, and an error when it is refused. -/
def RegexCrate.optionalSet (rx : RegexCrate) (patterns : List String) :
    Option (Option RegexSet) :=
  if patterns.isEmpty then some none else (rx.new patterns).map some

/-- `init_host_collector`, on the host name the system reports. -/
def initHostCollector (rx : RegexCrate) (hostname : String) (cfg : MetricsHostCfg) :
    Option HostCollector := do
  -- the patterns of processes are compiled before those of devices; either error ends it
  let { enable, comms, thread } := cfg.processSection
  let commsRegexSet ← rx.optionalSet comms
  let processFilter : ProcessFilter := { commsRegex := commsRegexSet, thread }
  let { enable := netEnable, ifaces } := cfg.netSection
  let ifaceSet := if ifaces.isEmpty then none else some ifaces.toFinset
  let netFilter : NetFilter := { ifaces := ifaceSet }
  let { enable := cpuEnable, perCore } := cfg.cpuSection
  let { enable := diskEnable, excludeDevices } := cfg.diskSection
  let excludeDevicesRegex ← rx.optionalSet excludeDevices
  let diskFilter : DiskFilter := { excludeDevicesRegex }
  let { enable := memEnable } := cfg.memSection
  return HostCollector.new hostname {
    process := enable, processFilter, net := netEnable, netFilter, cpu := cpuEnable, perCore
    disk := diskEnable, diskFilter, mem := memEnable }

/-! ## What is built -/

/-- The patterns of a configuration compile. -/
def PatternsCompile (rx : RegexCrate) (cfg : MetricsHostCfg) : Prop :=
  ∀ patterns ∈ [cfg.processSection.comms, cfg.diskSection.excludeDevices], patterns ≠ [] →
    (rx.new patterns).isSome = true

/-- The collector does what the configuration says: the flags are those of the sections, the process
and interface lists select, and the device list excludes. -/
structure Built (rx : RegexCrate) (hostname : String) (cfg : MetricsHostCfg)
    (collector : HostCollector) : Prop where
  hostname : collector.hostname = KeyValue.string "host" hostname
  process : collector.cfg.process = cfg.processSection.enable
  thread : collector.cfg.processFilter.thread = cfg.processSection.thread
  comms : ∀ comm, collector.cfg.processFilter.passes comm =
    includes rx.isMatch cfg.processSection.comms comm
  net : collector.cfg.net = cfg.netSection.enable
  ifaces : ∀ name, collector.cfg.netFilter.passes name =
    includes (fun iface name => iface == name) cfg.netSection.ifaces name
  cpu : collector.cfg.cpu = cfg.cpuSection.enable
  perCore : collector.cfg.perCore = cfg.cpuSection.perCore
  disk : collector.cfg.disk = cfg.diskSection.enable
  excludeDevices : ∀ name, collector.cfg.diskFilter.passes name =
    excludes rx.isMatch cfg.diskSection.excludeDevices name
  mem : collector.cfg.mem = cfg.memSection.enable

section

variable {rx : RegexCrate}

/-- An optional set that is there matches what its patterns match; otherwise there are none. -/
theorem optionalSet_cases (hrx : rx.MatchesAny) {patterns : List String}
    {set : Option RegexSet} (h : rx.optionalSet patterns = some set) :
    patterns = [] ∧ set = none ∨ patterns ≠ [] ∧ ∃ s, set = some s ∧ ∀ text,
      s.isMatch text = patterns.any fun pattern => rx.isMatch pattern text := by
  unfold RegexCrate.optionalSet at h
  split at h
  · rename_i hempty
    exact .inl ⟨List.isEmpty_iff.mp hempty, (Option.some.inj h).symm⟩
  · rename_i hempty
    obtain ⟨s, hnew, rfl⟩ := Option.map_eq_some_iff.mp h
    exact .inr ⟨fun hnil => hempty (List.isEmpty_iff.mpr hnil), s, rfl,
      hrx.isMatch_new patterns s hnew⟩

/-- The set of the process filter includes by the list. -/
theorem processFilter_passes (hrx : rx.MatchesAny) {patterns : List String}
    {set : Option RegexSet} (h : rx.optionalSet patterns = some set) (thread : Bool)
    (comm : String) :
    ProcessFilter.passes { commsRegex := set, thread } comm =
      includes rx.isMatch patterns comm := by
  rcases optionalSet_cases hrx h with ⟨rfl, rfl⟩ | ⟨hne, s, rfl, hmatch⟩
  · rfl
  · have hempty : patterns.isEmpty = false := by simpa using hne
    rw [includes, hempty, Bool.false_or]
    exact hmatch comm

/-- That of the disk filter excludes by the list. -/
theorem diskFilter_passes (hrx : rx.MatchesAny) {patterns : List String}
    {set : Option RegexSet} (h : rx.optionalSet patterns = some set) (name : String) :
    DiskFilter.passes { excludeDevicesRegex := set } name =
      excludes rx.isMatch patterns name := by
  rcases optionalSet_cases hrx h with ⟨rfl, rfl⟩ | ⟨hne, s, rfl, hmatch⟩
  · rfl
  · exact congrArg (!·) (hmatch name)

/-- The interfaces are compared by name, and an empty list is no list. -/
theorem netFilter_passes (ifaces : List String) (name : String) :
    NetFilter.passes { ifaces := if ifaces.isEmpty then none else some ifaces.toFinset } name =
      includes (fun iface name => iface == name) ifaces name := by
  by_cases hempty : ifaces.isEmpty
  · rw [if_pos hempty, includes, hempty]
    rfl
  · have hany : (ifaces.any fun iface => iface == name) = decide (name ∈ ifaces) := by
      rw [Bool.eq_iff_iff, List.any_eq_true, decide_eq_true_iff]
      simp
    rw [if_neg hempty, includes, Bool.eq_false_of_not_eq_true hempty, Bool.false_or, hany]
    simp [NetFilter.passes]

/-- The list is empty or its patterns compile. -/
theorem exists_optionalSet {patterns : List String}
    (h : patterns ≠ [] → (rx.new patterns).isSome = true) :
    ∃ set, rx.optionalSet patterns = some set := by
  unfold RegexCrate.optionalSet
  split
  · exact ⟨none, rfl⟩
  · rename_i hempty
    obtain ⟨s, hnew⟩ := Option.isSome_iff_exists.mp (h fun hnil => hempty (by rw [hnil]; rfl))
    exact ⟨some s, by rw [hnew]; rfl⟩

/-- **`init_host_collector` builds what the configuration says**, if its patterns compile. -/
theorem exists_built (hrx : rx.MatchesAny) (hostname : String) {cfg : MetricsHostCfg}
    (hcompile : PatternsCompile rx cfg) :
    ∃ self, initHostCollector rx hostname cfg = some self ∧ Built rx hostname cfg self := by
  obtain ⟨commsRegex, hcomms⟩ := exists_optionalSet (hcompile _ List.mem_cons_self)
  obtain ⟨excludeDevicesRegex, hexclude⟩ :=
    exists_optionalSet (hcompile _ (List.mem_cons_of_mem _ List.mem_cons_self))
  refine ⟨HostCollector.new hostname {
    process := cfg.processSection.enable
    processFilter := { commsRegex, thread := cfg.processSection.thread }
    net := cfg.netSection.enable
    netFilter := { ifaces :=
      if cfg.netSection.ifaces.isEmpty then none else some cfg.netSection.ifaces.toFinset }
    cpu := cfg.cpuSection.enable
    perCore := cfg.cpuSection.perCore
    disk := cfg.diskSection.enable
    diskFilter := { excludeDevicesRegex }
    mem := cfg.memSection.enable }, ?_, ?_⟩
  · unfold initHostCollector
    simp only [hcomms, hexclude, Option.bind_eq_bind, Option.bind_some]
    rfl
  · exact {
      hostname := rfl, process := rfl, thread := rfl, net := rfl, cpu := rfl, perCore := rfl
      disk := rfl, mem := rfl
      comms := processFilter_passes hrx hcomms _
      ifaces := netFilter_passes _
      excludeDevices := diskFilter_passes hrx hexclude }

end

end MetricsExporter.Exporter
