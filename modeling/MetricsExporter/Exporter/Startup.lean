/-
# MetricsExporter.Exporter.Startup -- which configurations the program starts with

The start-up checks the configuration piece by piece, each piece at the place that needs it. `Gated`
says what has been checked by the time `main` stands at a place, and `started_iff` that these checks
are all there is: `main` can come to its loop with the configurations they accept, and with no
other.

What the crates refuse is part of the configuration they refuse: a log directory in which no
appender can be built, an endpoint that is no URI, a pattern that does not compile. They are
parameters, so what exactly they refuse is left open. What is left to chance are the things a
configuration has no say in: the number of cores, the handler, the runtime, the threads.
-/
import MetricsExporter.Exporter.Main

namespace MetricsExporter.Exporter

open MetricsExporter.Lib MetricsExporter.Framework MetricsExporter.LinuxMetrics

/-! ## Accepted configurations -/

/-- There is an endpoint, both texts of every header are accepted, and the crate builds an exporter
for the endpoint and for what was made of the headers. -/
structure Config.ExporterAccepted (cfg : Config) : Prop where
  endpoint : cfg.otlp.endpoint ≠ ""
  headers : ∀ headers ∈ cfg.otlp.headers, ∀ header ∈ headers,
    (cfg.tonic.parse header).isSome = true
  builds : ∀ grpcMetadata, cfg.otlp.headers.mapM cfg.tonic.metadataMap = .ok grpcMetadata →
    cfg.buildExporter grpcMetadata = .ok ()

/-- The log goes to the standard output, or to a file that is configured and whose appender the
crate builds. -/
def LogCfg.Accepted (appender : AppenderCrate) (cfg : LogCfg) : Prop :=
  cfg.writer = "stdout" ∨ ∃ file ∈ cfg.file,
    appender.build (logFileRotation file.rotation) file.appenderFiles file.filename file.directory =
      .ok ()

/-- The configuration asks for a worker thread, and the patterns of the host section compile if it
is enabled. -/
structure Config.Accepted (cfg : Config) : Prop where
  log : cfg.log.Accepted cfg.appender
  workers : 0 < cfg.workerThreads
  exporter : cfg.ExporterAccepted
  patterns : ∀ host ∈ cfg.metrics.host, host.enable = true →
    PatternsCompile cfg.rx host.toMetricsHostCfg

section

variable {rx : RegexCrate}

/-- A set can be built of patterns that compile, and of none at all. -/
theorem isSome_optionalSet (patterns : List String) :
    (rx.optionalSet patterns).isSome = true ↔
      (patterns ≠ [] → (rx.new patterns).isSome = true) := by
  rw [RegexCrate.optionalSet]
  cases patterns <;> simp

/-- The collector can be built when both of its sets can. -/
theorem isSome_initHostCollector (hostname : String) (cfg : MetricsHostCfg) :
    (initHostCollector rx hostname cfg).isSome = true ↔ PatternsCompile rx cfg := by
  have hinit : (initHostCollector rx hostname cfg).isSome = true ↔
      (rx.optionalSet cfg.processSection.comms).isSome = true ∧
        (rx.optionalSet cfg.diskSection.excludeDevices).isSome = true := by
    unfold initHostCollector
    cases hcomms : rx.optionalSet cfg.processSection.comms with
    | none => simp [hcomms]
    | some comms =>
        cases hexclude : rx.optionalSet cfg.diskSection.excludeDevices <;> simp [hcomms, hexclude]
  rw [hinit, isSome_optionalSet, isSome_optionalSet, PatternsCompile]
  simp

/-- The collector can be built, or there is none to build. -/
theorem isSome_hostCollector (cfg : Config) :
    cfg.hostCollector.isSome = true ↔ ∀ host ∈ cfg.metrics.host, host.enable = true →
      PatternsCompile cfg.rx host.toMetricsHostCfg := by
  unfold Config.hostCollector
  cases cfg.metrics.host with
  | none => simp
  | some host =>
      cases henable : host.enable with
      | false => simp [henable]
      | true => simp [henable, isSome_initHostCollector]

end

namespace Program

section

variable {cfg : Config} {built : Bool} {s s' : Program} {e : Event}

/-- `main` goes on behind `init_log` exactly when the log can be written. -/
theorem logPlace_eq_setRunning :
    logPlace cfg = .setRunning ↔ cfg.log.Accepted cfg.appender := by
  unfold logPlace initLog LogCfg.Accepted
  by_cases hwriter : cfg.log.writer = "stdout"
  · simp [hwriter, pure, Except.pure]
  · cases hfile : cfg.log.file with
    | none => simp [hwriter]
    | some file =>
        cases hbuild : cfg.appender.build (logFileRotation file.rotation) file.appenderFiles
            file.filename file.directory <;>
          simp [hwriter, hbuild, bind, Except.bind, pure, Except.pure]

/-- Behind `init_runtime`: workers are asked for, there are cores, and the builder succeeds. Only
the first is in the configuration. -/
theorem runtimePlace_eq_newExporter {cores : Nat} :
    runtimePlace cfg cores built = .newExporter ↔
      0 < cfg.workerThreads ∧ 0 < cores ∧ built = true := by
  simp only [runtimePlace]
  cases built <;> grind

/-- `MetricsExporter::new` succeeds exactly when the crates accept what they are given. -/
theorem newExporter_eq_ok : cfg.newExporter = .ok () ↔ cfg.ExporterAccepted := by
  unfold Config.newExporter
  by_cases hendpoint : cfg.otlp.endpoint = ""
  · have hempty : cfg.otlp.endpoint.isEmpty = true := String.isEmpty_iff.mpr hendpoint
    rw [if_pos hempty]
    exact ⟨nofun, fun h => absurd hendpoint h.endpoint⟩
  · rw [if_neg fun hempty => hendpoint (String.isEmpty_iff.mp hempty)]
    show (cfg.otlp.headers.mapM cfg.tonic.metadataMap >>= cfg.buildExporter) = .ok () ↔ _
    cases hmetadata : cfg.otlp.headers.mapM cfg.tonic.metadataMap with
    | error err =>
        -- the headers are refused
        refine ⟨nofun, fun h => ?_⟩
        cases hheaders : cfg.otlp.headers with
        | none =>
            rw [hheaders] at hmetadata
            cases hmetadata
        | some headers =>
            rw [hheaders] at hmetadata
            obtain ⟨metadata, hok⟩ :=
              MetadataCrate.exists_metadataMap_iff.mpr (h.headers headers hheaders)
            simp [Option.mapM_some, hok] at hmetadata
    | ok grpcMetadata =>
        constructor
        · intro hbuilds
          refine ⟨hendpoint, ?_, ?_⟩
          · intro headers hheaders
            apply MetadataCrate.exists_metadataMap_iff.mp
            cases hmap : cfg.tonic.metadataMap headers with
            | error err =>
                rw [hheaders] at hmetadata
                simp [Option.mapM_some, hmap] at hmetadata
            | ok metadata => exact ⟨metadata, rfl⟩
          · intro grpcMetadata' hmetadata'
            obtain rfl := Except.ok.inj (hmetadata.symm.trans hmetadata')
            exact hbuilds
        · exact fun h => h.builds grpcMetadata hmetadata

/-- And `main` goes on behind it in no other case. -/
theorem exporterPlace_eq_initCollector :
    exporterPlace cfg = .initCollector ↔ cfg.ExporterAccepted := by
  rw [← newExporter_eq_ok, exporterPlace]
  cases hexporter : cfg.newExporter with
  | error err => exact ⟨nofun, nofun⟩
  | ok built => exact ⟨fun _ => rfl, fun _ => rfl⟩

/-! ## What has been checked on the way -/

/-- How many of the four parts of the configuration have been checked on the way to a place. -/
def Place.stage : Place → Nat
  | .setRunning | .setHandler | .initRuntime => 1
  | .newExporter => 2
  | .initCollector => 3
  | .addCollector _ => 4
  | place => if place.started then 4 else 0

/-- What has been checked at a place holds of the configuration. -/
structure Place.Gated (cfg : Config) (place : Place) : Prop where
  log : 1 ≤ place.stage → cfg.log.Accepted cfg.appender
  workers : 2 ≤ place.stage → 0 < cfg.workerThreads
  exporter : 3 ≤ place.stage → cfg.ExporterAccepted
  patterns : 4 ≤ place.stage → cfg.hostCollector.isSome = true

/-- Where nothing more has been checked, nothing more has to be. -/
theorem Place.Gated.mono {here there : Place} (h : here.Gated cfg)
    (hstage : there.stage ≤ here.stage) : there.Gated cfg where
  log hthere := h.log (Nat.le_trans hthere hstage)
  workers hthere := h.workers (Nat.le_trans hthere hstage)
  exporter hthere := h.exporter (Nat.le_trans hthere hstage)
  patterns hthere := h.patterns (Nat.le_trans hthere hstage)

/-- At the start nothing has been checked. -/
theorem gated_of_stage {place : Place} (hstage : place.stage = 0) : place.Gated cfg where
  log h := by omega
  workers h := by omega
  exporter h := by omega
  patterns h := by omega

/-- No step of the registry goes past a check. -/
theorem stage_after (place : Place) (e : Registry.Event) :
    (place.after e).stage ≤ place.stage := by
  unfold Place.after
  split
  · exact Nat.zero_le _
  · -- the registration itself
    split
    · exact Nat.le_refl 4
    · split
      · exact Nat.le_refl 4
      · exact Nat.zero_le _
  · exact Nat.le_refl 4
  · exact Nat.le_refl 4
  · rename_i exit
    cases exit <;> exact Nat.le_refl _
  · exact Nat.le_refl _

/-- Each check on the way adds its part. This is the first of four. -/
theorem gated_logPlace : (logPlace cfg).Gated cfg := by
  rcases logPlace_cases cfg with hplace | hplace
  · have hlog := logPlace_eq_setRunning.mp hplace
    rw [hplace]
    exact ⟨fun _ => hlog, nofun, nofun, nofun⟩
  · rw [hplace]
    exact gated_of_stage rfl

theorem gated_runtimePlace (h : Place.Gated cfg .initRuntime) (cores : Nat) (built : Bool) :
    (runtimePlace cfg cores built).Gated cfg := by
  have hlog := h.log (Nat.le_refl 1)
  rcases runtimePlace_cases cfg cores built with hplace | hplace
  · have hworkers := (runtimePlace_eq_newExporter.mp hplace).1
    rw [hplace]
    exact ⟨fun _ => hlog, fun _ => hworkers, nofun, nofun⟩
  · rw [hplace]
    exact gated_of_stage rfl

theorem gated_exporterPlace (h : Place.Gated cfg .newExporter) : (exporterPlace cfg).Gated cfg := by
  have hlog := h.log (Nat.le_succ 1)
  have hworkers := h.workers (Nat.le_refl 2)
  rcases exporterPlace_cases cfg with hplace | hplace
  · have hexporter := exporterPlace_eq_initCollector.mp hplace
    rw [hplace]
    exact ⟨fun _ => hlog, fun _ => hworkers, fun _ => hexporter, nofun⟩
  · rw [hplace]
    exact gated_of_stage rfl

theorem gated_collectorPlace (h : Place.Gated cfg .initCollector) :
    (collectorPlace cfg).Gated cfg := by
  have hlog := h.log (Nat.le_add_left 1 2)
  have hworkers := h.workers (Nat.le_succ 2)
  have hexporter := h.exporter (Nat.le_refl 3)
  unfold collectorPlace
  cases hcollector : cfg.hostCollector with
  | none => exact gated_of_stage rfl
  | some collector =>
      have hpatterns : cfg.hostCollector.isSome = true := by rw [hcollector]; rfl
      cases collector <;>
        exact ⟨fun _ => hlog, fun _ => hworkers, fun _ => hexporter, fun _ => hpatterns⟩

/-- All other steps leave the stage where it is, or take it back. -/
theorem gated_step (h : s.place.Gated cfg) (hstep : step cfg s e = some s') :
    s'.place.Gated cfg := by
  cases e with
  | configured parsed =>
      obtain ⟨-, rfl⟩ := goto_eq_some.mp hstep
      cases parsed <;> exact gated_of_stage rfl
  | logged =>
      obtain ⟨-, rfl⟩ := goto_eq_some.mp hstep
      exact gated_logPlace
  | setRunning =>
      obtain ⟨hplace, hstep⟩ := Option.ite_none_right_eq_some.mp hstep
      obtain rfl := Option.some.inj hstep
      refine h.mono ?_
      rw [hplace]
      exact Nat.le_refl 1
  | handlerSet ok =>
      obtain ⟨hplace, hstep⟩ := Option.ite_none_right_eq_some.mp hstep
      obtain rfl := Option.some.inj hstep
      refine h.mono ?_
      rw [hplace]
      cases ok
      · exact Nat.zero_le 1
      · exact Nat.le_refl 1
  | runtime cores built =>
      obtain ⟨hplace, rfl⟩ := goto_eq_some.mp hstep
      exact gated_runtimePlace (hplace ▸ h) cores built
  | exporter =>
      obtain ⟨hplace, rfl⟩ := goto_eq_some.mp hstep
      exact gated_exporterPlace (hplace ▸ h)
  | collector =>
      obtain ⟨hplace, rfl⟩ := goto_eq_some.mp hstep
      exact gated_collectorPlace (hplace ▸ h)
  | registry e =>
      obtain ⟨-, hstep⟩ := Option.ite_none_right_eq_some.mp hstep
      obtain ⟨registry, -, hstep⟩ := Option.bind_eq_some_iff.mp hstep
      obtain rfl := Option.some.inj hstep
      exact h.mono (stage_after s.place e)
  | load =>
      obtain ⟨hplace, rfl⟩ := goto_eq_some.mp hstep
      refine h.mono ?_
      rw [hplace]
      rcases s.running with _ | _ | _
      · exact Nat.zero_le 4
      · exact Nat.le_refl 4
      · exact Nat.le_refl 4
  | wake | exporterDown | runtimeDown =>
      obtain ⟨hplace, rfl⟩ := goto_eq_some.mp hstep
      refine h.mono ?_
      rw [hplace]
      exact Nat.le_refl 4
  | signal =>
      obtain ⟨-, hstep⟩ := Option.ite_none_right_eq_some.mp hstep
      obtain rfl := Option.some.inj hstep
      unfold receive
      split
      · exact h
      · exact gated_of_stage rfl
  | handled =>
      obtain ⟨-, -, rfl⟩ := handled_eq_some.mp hstep
      exact h

/-- In every state a run gets to. -/
theorem gated_run {es : List Event} (hrun : run (step cfg) {} es = some s) : s.place.Gated cfg :=
  run_invariant (I := fun s => s.place.Gated cfg) (fun _ _ _ _ h hstep => gated_step h hstep)
    (gated_of_stage rfl) hrun

/-- A program that is started has passed all four. -/
theorem Place.Gated.accepted {place : Place} (h : place.Gated cfg)
    (hstarted : place.started = true) : cfg.Accepted := by
  have hstage : place.stage = 4 := by
    unfold Place.stage
    split <;> simp_all [Place.started]
  exact {
    log := h.log (by omega)
    workers := h.workers (by omega)
    exporter := h.exporter (by omega)
    patterns := (isSome_hostCollector cfg).mp (h.patterns (by omega)) }

/-! ## The start-up goes through -/

/-- The registration of the configured collector. -/
def registration (cfg : Config) : List Event :=
  match cfg.hostCollector with
  | some (some collector) => [.registry (.add collector.items true), .registry .push]
  | _ => []

/-- A start-up in which all that the configuration has no say in goes well. -/
def startUp (cfg : Config) : List Event :=
  [.configured true, .logged, .setRunning, .handlerSet true, .runtime 1 true, .exporter,
    .collector] ++ registration cfg

/-- From the place behind the collector to the loop, with a collector or without one. -/
theorem run_registration (hcollector : cfg.hostCollector.isSome = true) :
    ∃ s, run (step cfg) { place := collectorPlace cfg, running := some true, handler := true }
      (registration cfg) = some s ∧ s.place = .check := by
  unfold collectorPlace registration
  rcases hhost : cfg.hostCollector with _ | _ | collector
  · rw [hhost] at hcollector
    cases hcollector
  · exact ⟨_, rfl, rfl⟩
  · have hitems : collector.items ≠ [] := items_ne_nil collector
    have hadd : Registry.step {} (.add collector.items true) = some {
        owner := .adding 0, samplers := [{ items := collector.items }] } := by
      simp [Registry.step, Registry.add, hitems]
    have hpush : Registry.step { owner := .adding 0, samplers := [{ items := collector.items }] }
        .push = some { entries := [⟨0, some 0⟩], samplers := [{ items := collector.items }] } := rfl
    refine ⟨{
      place := .check, running := some true, handler := true
      registry := { entries := [⟨0, some 0⟩], samplers := [{ items := collector.items }] } },
      ?_, rfl⟩
    simp [run, step, Place.allows, Place.after, hadd, hpush, hitems]

/-- An accepted configuration comes to the loop in one particular run. -/
theorem run_startUp (h : cfg.Accepted) :
    ∃ s, run (step cfg) {} (startUp cfg) = some s ∧ s.place = .check := by
  have hlog : logPlace cfg = .setRunning := logPlace_eq_setRunning.mpr h.log
  have hruntime : runtimePlace cfg 1 true = .newExporter :=
    runtimePlace_eq_newExporter.mpr ⟨h.workers, Nat.one_pos, rfl⟩
  have hexporter : exporterPlace cfg = .initCollector :=
    exporterPlace_eq_initCollector.mpr h.exporter
  have hbegin : run (step cfg) {} [.configured true, .logged, .setRunning, .handlerSet true,
      .runtime 1 true, .exporter, .collector] =
        some { place := collectorPlace cfg, running := some true, handler := true } := by
    simp [run, step, goto, hlog, hruntime, hexporter]
  obtain ⟨s, hregistration, hplace⟩ := run_registration ((isSome_hostCollector cfg).mpr h.patterns)
  exact ⟨s, run_append_eq_some.mpr ⟨_, hbegin, hregistration⟩, hplace⟩

end

/-- **Which configurations the program starts with.** Some run comes to the loop exactly if the
configuration logs to the standard output or to a configured file whose appender can be built, asks
for a worker thread, names an endpoint for which the crate builds an exporter, has headers that are
all accepted, and patterns that compile where the host section is enabled. With any other, `main`
does not get there whatever happens around it. -/
theorem started_iff (cfg : Config) :
    (∃ es s, run (step cfg) {} es = some s ∧ s.place.started = true) ↔ cfg.Accepted := by
  constructor
  · rintro ⟨es, s, hrun, hstarted⟩
    exact (gated_run hrun).accepted hstarted
  · intro h
    obtain ⟨s, hrun, hplace⟩ := run_startUp h
    exact ⟨startUp cfg, s, hrun, by rw [hplace]; rfl⟩

end Program

end MetricsExporter.Exporter
