/-
# MetricsExporter.Exporter.Main -- the run of the program

`main` goes through its start-up, any part of which may fail, waits in a loop until a signal has
been handled, and then takes everything down in order. The signal handler, the sampling threads and
the callbacks step in between wherever they can. `step` is that interleaving over the registry, and
`Sound` what holds in each of its states.

Assumed: of the crates that build the log file's appender and the exporter, that what they answer
depends on what they are given, and on nothing else (`AppenderCrate`, `OtlpCrate`). The `ctrlc`
crate runs the handler on a thread of its own, once for each signal and one after the other, so that
the arrival of a signal and the store of the handler are two steps, and any number of steps may come
between them. Whether the configuration can be parsed, the handler be installed, the runtime be
built and a thread be spawned is up to the environment: an event says so.

Left out: the texts that are logged, the subscriber of the log, and what `opentelemetry` does with
the exporter once it is built. An abort by a panic of a sampling thread is a step of its own, since
the build sets `panic = "abort"`.
-/
import MetricsExporter.Exporter.Collector
import MetricsExporter.Exporter.Metadata
import MetricsExporter.Framework.Progress

namespace MetricsExporter.Exporter

open MetricsExporter.Lib MetricsExporter.Framework MetricsExporter.LinuxMetrics

/-! ## The configuration -/

/-- The host section: with what describes the collector, its switch. -/
structure MetricsHostSection extends MetricsHostCfg where
  enable : Bool

/-- The host is the only source of metrics there is a section for. -/
structure MetricsCfg where
  host : Option MetricsHostSection

/-- The two transports. -/
inductive OtlpProtocol where
  | grpc
  | http
  deriving DecidableEq, Repr

/-- Where the metrics go to. The headers are in the order their map yields them. -/
structure OtlpCfg where
  protocol : OtlpProtocol
  timeout : UInt64 := 5
  endpoint : String
  headers : Option (List (String × String)) := none

/-- A file to log to, and when to begin a new one. -/
structure LogFileCfg where
  rotation : String
  maxLogFiles : UInt64
  directory : String
  filename : String

/-- Where the log goes to, and how much of it. -/
structure LogCfg where
  writer : String
  level : String
  file : Option LogFileCfg := none

/-- `tracing_appender::rolling::Rotation`. -/
inductive Rotation where
  | minutely | hourly | daily | weekly | never
  deriving DecidableEq, Repr

/-- What `init_log` uses of the `tracing_appender` crate. -/
structure AppenderCrate where
  /-- `RollingFileAppender::builder()` with a rotation, a number of files and a prefix, and
  `build(directory)` -/
  build : Rotation → UInt64 → String → String → Except String Unit

/-- What `MetricsExporter::new` uses of the `opentelemetry_otlp` crate: whether it builds an
exporter for the endpoint, or what it says instead. -/
structure OtlpCrate (tonic : MetadataCrate) where
  /-- `builder().with_tonic()`, with an endpoint, a timeout and the metadata -/
  buildTonic : String → UInt64 → Option tonic.MetadataMap → Except String Unit
  /-- `builder().with_http()`, with an endpoint, a timeout and the headers -/
  buildHttp : String → UInt64 → Option (List (String × String)) → Except String Unit

/-- What `main` decides on: the number of worker threads, the log, the exporter and the metrics,
with the crates and the host name these are built with. -/
structure Config where
  workerThreads : Nat
  log : LogCfg
  otlp : OtlpCfg
  metrics : MetricsCfg
  appender : AppenderCrate
  tonic : MetadataCrate
  opentelemetry : OtlpCrate tonic
  rx : RegexCrate
  hostname : String

/-- The collector `register_collectors` adds to the registry: none unless the host section is there
and enabled, and an error if it cannot be built. -/
def Config.hostCollector (cfg : Config) : Option (Option HostCollector) :=
  match cfg.metrics.host with
  | some hostCfg =>
      if hostCfg.enable then
        (initHostCollector cfg.rx cfg.hostname hostCfg.toMetricsHostCfg).map some
      else some none
  | none => some none

/-! ## The log -/

/-- `tracing::level_filters::LevelFilter`. -/
inductive LevelFilter where
  | trace | debug | info | warn | error | off
  deriving DecidableEq, Repr

/-- `log_level`. A level nobody knows turns the log off. -/
def logLevel : String → LevelFilter
  | "trace" => .trace
  | "debug" => .debug
  | "info" => .info
  | "warn" => .warn
  | "error" => .error
  | "off" => .off
  | _ => .off

/-- `log_file_rotation`. -/
def logFileRotation : String → Rotation
  | "minutely" => .minutely
  | "hourly" => .hourly
  | "daily" => .daily
  | "weekly" => .weekly
  | "never" => .never
  | _ => .never

/-- Where the log goes: a rolling file comes with what its appender is built from. -/
inductive LogWriter where
  | stdout
  | file (rotation : Rotation) (maxLogFiles : UInt64) (filenamePrefix directory : String)
  deriving DecidableEq, Repr

/-- The number of files `init_log` asks for: one more than are kept, and two at least. -/
def LogFileCfg.appenderFiles (cfg : LogFileCfg) : UInt64 :=
  if cfg.maxLogFiles ≤ 1 then 2 else cfg.maxLogFiles + 1

/-- `init_log`: the level and the writer, or the error it returns. -/
def initLog (appender : AppenderCrate) (cfg : LogCfg) :
    Except String (LevelFilter × LogWriter) := do
  let level := logLevel cfg.level
  if cfg.writer = "stdout" then
    return (level, .stdout)
  else
    let some fileCfg := cfg.file
      | .error "log file writer requires log.file configure."
    let rotation := logFileRotation fileCfg.rotation
    appender.build rotation fileCfg.appenderFiles fileCfg.filename fileCfg.directory
    return (level, .file rotation fileCfg.appenderFiles fileCfg.filename fileCfg.directory)

/-! ## The exporter -/

/-- The exporter for the configured protocol. -/
def Config.buildExporter (cfg : Config) (grpcMetadata : Option cfg.tonic.MetadataMap) :
    Except String Unit :=
  match cfg.otlp.protocol with
  | .grpc => cfg.opentelemetry.buildTonic cfg.otlp.endpoint cfg.otlp.timeout grpcMetadata
  | .http => cfg.opentelemetry.buildHttp cfg.otlp.endpoint cfg.otlp.timeout cfg.otlp.headers

/-- `MetricsExporter::new` up to the reader and the provider, which cannot fail. The headers are
parsed as gRPC metadata whatever the protocol. -/
def Config.newExporter (cfg : Config) : Except String Unit := do
  if cfg.otlp.endpoint.isEmpty then
    .error "otlp.endpoint must not be empty."
  let grpcMetadata ← cfg.otlp.headers.mapM cfg.tonic.metadataMap
  cfg.buildExporter grpcMetadata

namespace Program

/-! ## The states -/

/-- How `main` returns. -/
inductive Exit where
  | ok
  | error
  deriving DecidableEq, Repr

/-- What `main` does next. -/
inductive Place where
  /-- `config::config()` -/
  | loadConfig
  /-- `log::init_log(..)?` -/
  | initLog
  /-- `RUNNING.set(AtomicBool::new(true))` -/
  | setRunning
  /-- `ctrlc::set_handler(..)?` -/
  | setHandler
  /-- `init_async_runtime()?` -/
  | initRuntime
  /-- `MetricsExporter::new(..)?` -/
  | newExporter
  /-- `init_host_collector(..)?` in `register_collectors`, where it is called -/
  | initCollector
  /-- `registry.add(..)?` in `register_collectors`, for a collector with these items -/
  | addCollector (items : List MetricItem)
  /-- `RUNNING.get().unwrap().load(..)` -/
  | check
  /-- `std::thread::sleep(..)` in the loop -/
  | sleep
  /-- `registry.shutdown()` -/
  | shutdownRegistry
  /-- `exporter.shutdown()` -/
  | shutdownExporter
  /-- `async_rt.shutdown_timeout(..)` -/
  | shutdownRuntime
  /-- the registry is dropped on the way out -/
  | dropRegistry (exit : Exit)
  /-- `main` has returned -/
  | ended (exit : Exit)
  /-- the process is gone without `main` returning: a panic aborts it, and so does a signal that
  nobody handles -/
  | gone
  deriving DecidableEq, Repr

end Program

/-- Where `main` stands, the cell `RUNNING`, whether the handler is installed, how many signals it
has not finished with, and the registry. -/
structure Program where
  place : Program.Place := .loadConfig
  running : Option Bool := none
  handler : Bool := false
  signals : Nat := 0
  registry : Registry := {}

namespace Program

inductive Event where
  /-- the configuration is read, or it cannot be parsed -/
  | configured (parsed : Bool)
  /-- `init_log` returns -/
  | logged
  | setRunning
  /-- `set_handler` returns -/
  | handlerSet (ok : Bool)
  /-- `init_async_runtime` returns, on a machine with this many cores -/
  | runtime (cores : Nat) (built : Bool)
  /-- `MetricsExporter::new` returns -/
  | exporter
  /-- `init_host_collector` returns, if it is called -/
  | collector
  /-- a step of the registry, of a sampling thread or of a callback -/
  | registry (e : Registry.Event)
  /-- the condition of the loop is read -/
  | load
  | wake
  /-- `exporter.shutdown()` returns -/
  | exporterDown
  /-- `async_rt.shutdown_timeout(..)` returns -/
  | runtimeDown
  /-- a termination signal comes -/
  | signal
  /-- the handler, which has been logging the signal, stores -/
  | handled

/-! ## The steps -/

/-- The process is still there. -/
def Place.live : Place → Bool
  | .ended _ | .gone => false
  | _ => true

/-- The steps of a call to stop the threads. -/
def isStopOf (call : Registry.Call) : Registry.Event → Bool
  | .call call' => call' == call
  | .store | .stored | .take | .join _ | .finish => true
  | .sampler _ _ | .add _ _ | .push => false

/-- The steps of the registry `main` makes at a place. The threads and the callbacks step wherever
the process is. -/
def Place.allows : Place → Registry.Event → Bool
  | place, .sampler _ _ => place.live
  | .addCollector items, .add items' _ => items' == items
  | .addCollector _, .push => true
  | .shutdownRegistry, e => isStopOf .shutdown e
  | .dropRegistry _, e => isStopOf .drop e
  | _, _ => false

/-- Where `main` stands after a step of the registry. A collector that panics aborts the process. -/
def Place.after : Place → Registry.Event → Place
  | _, .sampler _ .panicked => .gone
  | .addCollector items, .add _ spawned =>
      if items = [] then .check else if spawned then .addCollector items else .dropRegistry .error
  | .addCollector _, .push => .check
  | .shutdownRegistry, .finish => .shutdownExporter
  | .dropRegistry exit, .finish => .ended exit
  | place, _ => place

/-- `main` goes from one place to another. -/
def goto (s : Program) (here there : Place) : Option Program :=
  if s.place = here then some { s with place := there } else none

/-- `log::init_log(..)?` -/
def logPlace (cfg : Config) : Place :=
  match initLog cfg.appender cfg.log with
  | .error _ => .ended .error
  | .ok _ => .setRunning

/-- `init_async_runtime`: there must be a worker thread, and the runtime must be built. -/
def runtimePlace (cfg : Config) (cores : Nat) (built : Bool) : Place :=
  let workerThreads := min cfg.workerThreads cores
  if workerThreads = 0 then .ended .error
  else if built then .newExporter else .ended .error

/-- `MetricsExporter::new(..)?` -/
def exporterPlace (cfg : Config) : Place :=
  match cfg.newExporter with
  | .error _ => .ended .error
  | .ok _ => .initCollector

/-- `register_collectors` up to the call of `add`. -/
def collectorPlace (cfg : Config) : Place :=
  match cfg.hostCollector with
  | some (some collector) => .addCollector collector.items
  | some none => .check
  | none => .dropRegistry .error

/-- The condition of the loop. `unwrap` panics on an empty cell. -/
def loadPlace : Option Bool → Place
  | some true => .sleep
  | some false => .shutdownRegistry
  | none => .gone

/-- A signal goes to the handler, if there is one, and ends the process otherwise. -/
def receive (s : Program) : Program :=
  if s.handler then { s with signals := s.signals + 1 } else { s with place := .gone }

/-- What the handler leaves in the cell. -/
def store : Option Bool → Bool
  -- `r.store(false, Ordering::SeqCst)`
  | some _ => false
  -- `RUNNING.set(AtomicBool::new(false))`
  | none => false

/-- One step. -/
def step (cfg : Config) (s : Program) : Event → Option Program
  | .configured parsed => s.goto .loadConfig (if parsed then .initLog else .gone)
  | .logged => s.goto .initLog (logPlace cfg)
  | .setRunning =>
      if s.place = .setRunning then
        some { s with place := .setHandler, running := some (s.running.getD true) }
      else none
  | .handlerSet ok =>
      if s.place = .setHandler then
        some { s with place := if ok then .initRuntime else .ended .error, handler := ok }
      else none
  | .runtime cores built => s.goto .initRuntime (runtimePlace cfg cores built)
  | .exporter => s.goto .newExporter (exporterPlace cfg)
  | .collector => s.goto .initCollector (collectorPlace cfg)
  | .registry e =>
      if s.place.allows e then do
        let registry ← s.registry.step e
        some { s with registry, place := s.place.after e }
      else none
  | .load => s.goto .check (loadPlace s.running)
  | .wake => s.goto .sleep .check
  | .exporterDown => s.goto .shutdownExporter .shutdownRuntime
  | .runtimeDown => s.goto .shutdownRuntime (.dropRegistry .ok)
  | .signal => if s.place.live then some s.receive else none
  | .handled =>
      -- the handler is a thread of the process, and runs only while it is there
      if s.place.live && 0 < s.signals then
        some { s with signals := s.signals - 1, running := some (store s.running) }
      else none

/-! ## What the places say of the registry -/

/-- Up to here the registry has not been given a collector. -/
def Place.early : Place → Bool
  | .loadConfig | .initLog | .setRunning | .setHandler | .initRuntime | .newExporter
  | .initCollector => true
  | _ => false

/-- The cell `RUNNING` is filled on the way here. -/
def Place.pastSet : Place → Bool
  | .setHandler | .initRuntime | .newExporter | .initCollector | .addCollector _ | .check | .sleep
  | .shutdownRegistry | .shutdownExporter | .shutdownRuntime | .dropRegistry _ => true
  | _ => false

/-- The start-up has succeeded. -/
def Place.started : Place → Bool
  | .check | .sleep | .shutdownRegistry | .shutdownExporter | .shutdownRuntime | .dropRegistry .ok
  | .ended .ok => true
  | _ => false

/-- `main` has left the loop. -/
def Place.leaving : Place → Bool
  | .shutdownRegistry | .shutdownExporter | .shutdownRuntime | .dropRegistry .ok | .ended .ok =>
      true
  | _ => false

/-- `registry.shutdown()` has returned. -/
def Place.stopped : Place → Bool
  | .shutdownExporter | .shutdownRuntime | .dropRegistry .ok | .ended .ok => true
  | _ => false

/-- The start-up has failed. -/
def Place.failed : Place → Bool
  | .dropRegistry .error | .ended .error => true
  | _ => false

/-- The call to stop the threads that is made at a place. -/
def Place.stops : Place → Option Registry.Call
  | .shutdownRegistry => some .shutdown
  | .dropRegistry _ => some .drop
  | _ => none

/-- What the owner of the registry is doing, seen from where `main` stands. -/
def Place.Owns : Place → Registry.Owner → Prop
  | .addCollector _, owner => owner = .idle ∨ ∃ t, owner = .adding t
  | .shutdownRegistry, owner => owner = .idle ∨ owner.call? = some .shutdown
  | .dropRegistry _, owner => owner = .idle ∨ owner.call? = some .drop
  | .ended _, _ | .gone, _ => True
  | _, owner => owner = .idle

/-- The items of the sampling threads, in the order they were spawned. -/
def threads (registry : Registry) : List (List MetricItem) := registry.samplers.map Sampler.items

/-- The sampling threads, seen from where `main` stands: none before there is a collector and after
a failure, and those of the configured collector once the start-up has succeeded. -/
def Place.Runs (cfg : Config) (registry : Registry) : Place → Prop
  | .addCollector items =>
      (∃ collector, cfg.hostCollector = some (some collector) ∧ items = collector.items) ∧
        (registry.owner = .idle → threads registry = []) ∧
        (registry.owner ≠ .idle → threads registry = [items])
  | .gone => True
  | place =>
      if place.started then
        ∃ collector, cfg.hostCollector = some collector ∧
          threads registry = (collector.map HostCollector.items).toList
      else threads registry = []

/-- What holds in each state of a run. -/
structure Sound (cfg : Config) (past : List Event) (s : Program) : Prop where
  reachable : s.registry.Reachable
  cell : s.place.pastSet = true → s.running ≠ none
  handler : s.handler = true → s.running ≠ none
  pending : 0 < s.signals → s.running ≠ none ∧ .signal ∈ past
  signal : s.running = some false → .signal ∈ past
  leaving : s.place.leaving = true → .signal ∈ past
  owns : s.place.Owns s.registry.owner
  runs : s.place.Runs cfg s.registry
  settled : s.place.stopped = true → s.registry.Settled

/-- Nothing has happened yet. -/
theorem sound_init (cfg : Config) : Sound cfg [] {} where
  reachable := ⟨[], rfl⟩
  cell := nofun
  handler := nofun
  pending := nofun
  signal := nofun
  leaving := nofun
  owns := rfl
  runs := rfl
  settled := nofun

/-! ## The steps of the registry -/

section

variable {r r' : Registry} {e : Registry.Event}

/-- A store to a stop flag leaves the items of every thread. -/
theorem threads_storeStop (samplers : List Sampler) (t : Nat) :
    (Registry.storeStop samplers t).map Sampler.items = samplers.map Sampler.items := by
  apply List.ext_getElem?
  intro i
  rw [Registry.storeStop, List.getElem?_map, List.getElem?_map, List.getElem?_modify]
  by_cases hi : t = i <;> cases samplers[i]? <;> simp [hi]

/-- Only the addition of a collector changes the threads. -/
theorem threads_of_step (hadd : e.isAdd = false) (hstep : r.step e = some r') :
    threads r' = threads r := by
  cases Registry.Step.of_step hstep with
  | @sampler t l th th' hl hth hsampler =>
      have hitems : th'.items = th.items := by
        cases Sampler.Step.of_step hsampler <;> rfl
      exact Registry.map_set_eq _ hth hitems
  | skip | add => cases hadd
  | store => exact threads_storeStop ..
  | push | call | stored | take | taken | join | finish => rfl

/-- Every collector declares items: those of the uptime at least. -/
theorem items_ne_nil (self : HostCollector) : self.items ≠ [] := by
  rw [HostCollector.items_eq]
  have huptime : (⟨MetricItemType.uptime, nameUptime, .gaugeF64, "s", "System uptime"⟩ :
      MetricItem) ∈ LinuxMetrics.items.filter
        (fun item => HostCollector.declares self.cfg item.itemType) :=
    List.mem_filter.mpr ⟨List.mem_cons_self, rfl⟩
  exact List.ne_nil_of_mem huptime

/-- Threads and callbacks do not take part in what the owner does. -/
theorem owner_of_sampler {t : Nat} {l : Sampler.Label} (hstep : r.step (.sampler t l) = some r') :
    r'.owner = r.owner := by
  cases Registry.Step.of_step hstep with
  | sampler => rfl

/-- A call that stops the threads adds none. -/
theorem isAdd_of_isStopOf {call : Registry.Call} (he : isStopOf call e = true) :
    e.isAdd = false := by
  cases e with
  | add => cases he
  | _ => rfl

/-- A step of a call that is about to be made, or is under way. -/
theorem owner_of_stop {call : Registry.Call} (h : r.Reachable)
    (howner : r.owner = .idle ∨ r.owner.call? = some call) (he : isStopOf call e = true)
    (hstep : r.step e = some r') :
    e ≠ .finish ∧ r'.owner.call? = some call ∨
      e = .finish ∧ r'.owner = call.after ∧ r'.Settled := by
  rcases howner with hidle | hcall
  · cases Registry.Step.of_step hstep with
    | call call' =>
        obtain rfl := eq_of_beq he
        exact .inl ⟨nofun, rfl⟩
    | sampler | skip | add | push => cases he
    | store howner | stored howner | take howner | taken howner | join howner | finish howner =>
        rw [hidle] at howner
        cases howner
  · by_cases hfinish : e = .finish
    · subst hfinish
      rcases Registry.call_step hcall hstep with hcall' | ⟨-, hafter⟩
      · cases Registry.Step.of_step hstep with
        | @finish call' =>
            rw [Registry.call?_after] at hcall'
            cases hcall'
      · exact .inr ⟨rfl, hafter, Registry.settled_of_finish h.coherent hstep⟩
    · rcases Registry.call_step hcall hstep with hcall' | ⟨rfl, -⟩
      · exact .inl ⟨hfinish, hcall'⟩
      · exact absurd rfl hfinish

/-- The steps that `main` lets the registry make. -/
theorem allows_cases {place : Place} (h : place.allows e = true) :
    place.live = true ∧ (∃ t l, e = .sampler t l) ∨
    (∃ items, place = .addCollector items ∧ ((∃ spawned, e = .add items spawned) ∨ e = .push)) ∨
    ∃ call, place.stops = some call ∧ isStopOf call e = true := by
  cases e with
  | sampler t l => exact .inl ⟨h, t, l, rfl⟩
  | add items spawned =>
      cases place with
      | addCollector items' =>
          obtain rfl := eq_of_beq h
          exact .inr (.inl ⟨items, rfl, .inl ⟨spawned, rfl⟩⟩)
      | _ => cases h
  | push =>
      cases place with
      | addCollector items => exact .inr (.inl ⟨items, rfl, .inr rfl⟩)
      | _ => cases h
  | call | store | stored | take | join | finish =>
      cases place with
      | shutdownRegistry => exact .inr (.inr ⟨.shutdown, rfl, h⟩)
      | dropRegistry exit => exact .inr (.inr ⟨.drop, rfl, h⟩)
      | _ => cases h

end

/-! ## The steps of `main` -/

section

variable {cfg : Config} {past : List Event} {s s' : Program} {e : Event}

/-- A step of `main` that changes nothing but its place. -/
theorem goto_eq_some {here there : Place} :
    s.goto here there = some s' ↔ s.place = here ∧ s' = { s with place := there } := by
  rw [goto, Option.ite_none_right_eq_some, Option.some_inj, eq_comm (a := s')]

/-- The end of the handler, which takes one signal off the count. -/
theorem handled_eq_some :
    step cfg s .handled = some s' ↔ s.place.live = true ∧ 0 < s.signals ∧
      s' = { s with signals := s.signals - 1, running := some (store s.running) } := by
  simp only [step, Option.ite_none_right_eq_some, Bool.and_eq_true, decide_eq_true_eq,
    Option.some_inj, and_assoc, eq_comm (a := s')]

/-- What is known of the signals that wait is known after a further step. -/
theorem Sound.pending_append (h : Sound cfg past s) (e : Event) (hsignals : 0 < s.signals) :
    s.running ≠ none ∧ .signal ∈ past ++ [e] := by
  obtain ⟨hcell, hsignal⟩ := h.pending hsignals
  exact ⟨hcell, List.mem_append_left _ hsignal⟩

/-- `main` moves on, and leaves the rest as it is. -/
theorem Sound.move (h : Sound cfg past s) (e : Event) {there : Place}
    (hcell : there.pastSet = true → s.place.pastSet = true)
    (hleaving : there.leaving = true → .signal ∈ past) (howns : there.Owns s.registry.owner)
    (hruns : there.Runs cfg s.registry) (hsettled : there.stopped = true → s.place.stopped = true) :
    Sound cfg (past ++ [e]) { s with place := there } where
  reachable := h.reachable
  cell hthere := h.cell (hcell hthere)
  handler := h.handler
  pending := h.pending_append e
  signal hrunning := List.mem_append_left _ (h.signal hrunning)
  leaving hthere := List.mem_append_left _ (hleaving hthere)
  owns := howns
  runs := hruns
  settled hthere := h.settled (hsettled hthere)

/-- On the way to the registration there is no thread. -/
theorem Sound.runs_early (h : Sound cfg past s) (hearly : s.place.early = true) :
    s.registry.owner = .idle ∧ threads s.registry = [] := by
  have howns := h.owns
  have hruns := h.runs
  cases hplace : s.place <;> simp_all [Place.early, Place.Owns, Place.Runs, Place.started]

/-- A failure before the registration. -/
theorem Sound.fail (h : Sound cfg past s) (e : Event) (hearly : s.place.early = true) :
    Sound cfg (past ++ [e]) { s with place := .ended .error } :=
  h.move e nofun nofun trivial (h.runs_early hearly).2 nofun

/-- One part of the start-up before the registration succeeds. -/
theorem Sound.advance (h : Sound cfg past s) (e : Event) {there : Place}
    (hhere : s.place.early = true) (hthere : there.early = true)
    (hcell : there.pastSet = true → s.place.pastSet = true) :
    Sound cfg (past ++ [e]) { s with place := there } := by
  obtain ⟨howner, hthreads⟩ := h.runs_early hhere
  refine h.move e hcell ?_ ?_ ?_ ?_ <;>
    cases there <;> simp_all [Place.early, Place.leaving, Place.Owns, Place.Runs, Place.started,
      Place.stopped]

/-- The process goes away. -/
theorem Sound.vanish (h : Sound cfg past s) (e : Event) :
    Sound cfg (past ++ [e]) { s with place := .gone } :=
  h.move e nofun nofun trivial trivial nofun

/-- Which threads are to run is a matter of the owner and of the items. -/
theorem runs_congr {place : Place} {registry registry' : Registry}
    (howner : registry'.owner = registry.owner) (hthreads : threads registry' = threads registry) :
    place.Runs cfg registry' ↔ place.Runs cfg registry := by
  cases place <;> simp only [Place.Runs, howner, hthreads]

/-- A step of a thread or of a callback changes nothing that `main` counts on. -/
theorem sound_sampler (h : Sound cfg past s) {t : Nat} {l : Sampler.Label} {registry : Registry}
    (hstep : s.registry.step (.sampler t l) = some registry) :
    Sound cfg (past ++ [.registry (.sampler t l)])
      { s with registry, place := s.place.after (.sampler t l) } := by
  have howner : registry.owner = s.registry.owner := owner_of_sampler hstep
  have hthreads : threads registry = threads s.registry := threads_of_step rfl hstep
  have hsame : Sound cfg past { s with registry } := {
    reachable := h.reachable.step hstep
    cell := h.cell
    handler := h.handler
    pending := h.pending
    signal := h.signal
    leaving := h.leaving
    owns := by
      rw [howner]
      exact h.owns
    runs := (runs_congr howner hthreads).mpr h.runs
    settled := fun hstopped => (Registry.settled_step (h.settled hstopped) rfl hstep).1 }
  have hafter : s.place.after (.sampler t l) = .gone ∨ s.place.after (.sampler t l) = s.place := by
    cases l with
    | panicked => exact .inl (by cases s.place <;> rfl)
    | _ => exact .inr (by cases s.place <;> rfl)
  rcases hafter with hgone | hstay
  · rw [hgone]
    exact hsame.vanish _
  · rw [hstay]
    exact hsame.move _ id (fun hleaving => h.leaving hleaving) hsame.owns hsame.runs id

/-- The registration of the configured collector. -/
theorem sound_add (h : Sound cfg past s) {items : List MetricItem} {spawned : Bool}
    (hplace : s.place = .addCollector items) {registry : Registry}
    (hstep : s.registry.step (.add items spawned) = some registry) :
    Sound cfg (past ++ [.registry (.add items spawned)])
      { s with registry, place := s.place.after (.add items spawned) } := by
  have hcell : s.running ≠ none := h.cell (by rw [hplace]; rfl)
  have hruns := h.runs
  rw [hplace] at hruns ⊢
  obtain ⟨⟨collector, hcollector, rfl⟩, hidle, -⟩ := hruns
  have hitems : collector.items ≠ [] := items_ne_nil collector
  have hafter : (Place.addCollector collector.items).after (.add collector.items spawned) =
      if spawned then .addCollector collector.items else .dropRegistry .error := by
    rw [Place.after, if_neg hitems]
  rw [hafter]
  have hreachable := h.reachable.step hstep
  cases Registry.Step.of_step hstep with
  | skip items spawned howner hskip =>
      -- the thread could not be spawned
      obtain rfl : spawned = false := hskip.resolve_left hitems
      exact {
        reachable := h.reachable, cell := fun _ => hcell, handler := h.handler
        pending := h.pending_append _
        signal := fun hrunning => List.mem_append_left _ (h.signal hrunning)
        leaving := nofun, owns := .inl howner, runs := hidle howner, settled := nofun }
  | add howner =>
      have hthreads : threads { s.registry with
          owner := .adding s.registry.samplers.length
          samplers := s.registry.samplers ++ [{ items := collector.items }] } =
            [collector.items] := by
        have hnone := hidle howner
        rw [threads, List.map_eq_nil_iff] at hnone
        simp [threads, hnone]
      exact {
        reachable := hreachable, cell := fun _ => hcell, handler := h.handler
        pending := h.pending_append _
        signal := fun hrunning => List.mem_append_left _ (h.signal hrunning)
        leaving := nofun, owns := .inr ⟨_, rfl⟩
        runs := ⟨⟨collector, hcollector, rfl⟩, nofun, fun _ => hthreads⟩
        settled := nofun }

/-- The end of the registration, behind which `main` is in its loop. -/
theorem sound_push (h : Sound cfg past s) {items : List MetricItem}
    (hplace : s.place = .addCollector items) {registry : Registry}
    (hstep : s.registry.step .push = some registry) :
    Sound cfg (past ++ [.registry .push])
      { s with registry, place := s.place.after .push } := by
  have hcell : s.running ≠ none := h.cell (by rw [hplace]; rfl)
  have hruns := h.runs
  rw [hplace] at hruns ⊢
  obtain ⟨⟨collector, hcollector, rfl⟩, -, hadding⟩ := hruns
  have hthreads := threads_of_step rfl hstep
  have hreachable := h.reachable.step hstep
  cases Registry.Step.of_step hstep with
  | push howner =>
      rw [hadding (by simp [howner])] at hthreads
      exact {
        reachable := hreachable, cell := fun _ => hcell, handler := h.handler
        pending := h.pending_append _
        signal := fun hrunning => List.mem_append_left _ (h.signal hrunning)
        leaving := nofun, owns := rfl
        runs := ⟨some collector, hcollector, hthreads⟩
        settled := nofun }

/-- The places at which the threads are all there or none. -/
def Place.plain : Place → Bool
  | .addCollector _ | .gone => false
  | _ => true

/-- At these places it depends on nothing but whether the start-up is over. -/
theorem runs_iff {place : Place} {registry : Registry} (hplain : place.plain = true) :
    place.Runs cfg registry ↔
      if place.started then
        ∃ collector, cfg.hostCollector = some collector ∧
          threads registry = (collector.map HostCollector.items).toList
      else threads registry = [] := by
  cases place with
  | addCollector | gone => cases hplain
  | _ => exact Iff.rfl

/-- So from one of them to the next the threads stay. -/
theorem runs_of_threads {place there : Place} {registry registry' : Registry}
    (hplace : place.plain = true) (hthere : there.plain = true)
    (hstarted : there.started = place.started) (hthreads : threads registry' = threads registry)
    (hruns : place.Runs cfg registry) : there.Runs cfg registry' := by
  rw [runs_iff hthere, hstarted, hthreads]
  exact (runs_iff hplace).mp hruns

/-- Where `main` stops the threads, the call is still to be made or is under way. -/
theorem owner_of_stops (h : Sound cfg past s) {call : Registry.Call}
    (hstops : s.place.stops = some call) :
    s.registry.owner = .idle ∨ s.registry.owner.call? = some call := by
  have howns := h.owns
  cases hplace : s.place <;> rw [hplace] at hstops howns <;> cases hstops <;> exact howns

/-- A step of `registry.shutdown()` or of the drop of the registry. -/
theorem sound_stop (h : Sound cfg past s) {call : Registry.Call}
    (hstops : s.place.stops = some call) {e : Registry.Event} (he : isStopOf call e = true)
    {registry : Registry} (hstep : s.registry.step e = some registry) :
    Sound cfg (past ++ [.registry e]) { s with registry, place := s.place.after e } := by
  have hadd : e.isAdd = false := isAdd_of_isStopOf he
  have hthreads : threads registry = threads s.registry := threads_of_step hadd hstep
  have hruns := h.runs
  have howner := owner_of_stops h hstops
  have hcell : s.running ≠ none := by
    refine h.cell ?_
    cases hplace : s.place <;> rw [hplace] at hstops <;> cases hstops <;> rfl
  rcases owner_of_stop h.reachable howner he hstep with ⟨hfinish, hcall⟩ | ⟨rfl, hafter, hsettled⟩
  · -- the call goes on
    have hstay : s.place.after e = s.place := by
      cases hplace : s.place <;> rw [hplace] at hstops <;> cases hstops <;>
        cases e <;> simp_all [Place.after, isStopOf]
    rw [hstay]
    exact {
      reachable := h.reachable.step hstep, cell := fun _ => hcell, handler := h.handler
      pending := h.pending_append _
      signal := fun hrunning => List.mem_append_left _ (h.signal hrunning)
      leaving := fun hleaving => List.mem_append_left _ (h.leaving hleaving)
      owns := by
        cases hplace : s.place <;> rw [hplace] at hstops <;> cases hstops <;> exact .inr hcall
      runs := by
        cases hplace : s.place <;> rw [hplace] at hstops hruns <;> cases hstops <;>
          exact runs_of_threads rfl rfl rfl hthreads hruns
      settled := fun hstopped => (Registry.settled_step (h.settled hstopped) hadd hstep).1 }
  · -- the call returns
    have hreachable := h.reachable.step hstep
    cases hplace : s.place with
    | shutdownRegistry =>
        rw [hplace] at hstops hruns
        cases hstops
        exact {
          reachable := hreachable, cell := fun _ => hcell, handler := h.handler
          pending := h.pending_append _
          signal := fun hrunning => List.mem_append_left _ (h.signal hrunning)
          leaving := fun _ => List.mem_append_left _ (h.leaving (by rw [hplace]; rfl))
          owns := hafter
          runs := runs_of_threads rfl rfl rfl hthreads hruns
          settled := fun _ => hsettled }
    | dropRegistry exit =>
        rw [hplace] at hstops hruns
        cases hstops
        exact {
          reachable := hreachable, cell := fun _ => hcell, handler := h.handler
          pending := h.pending_append _
          signal := fun hrunning => List.mem_append_left _ (h.signal hrunning)
          leaving := fun hleaving => List.mem_append_left _ (h.leaving (by
            rw [hplace]
            cases exit with
            | ok => rfl
            | error => cases hleaving))
          owns := trivial
          runs := runs_of_threads rfl rfl (by cases exit <;> rfl) hthreads hruns
          settled := fun _ => hsettled }
    | _ =>
        rw [hplace] at hstops
        cases hstops

/-- Any step of the registry, by the place that allows it. -/
theorem sound_registry (h : Sound cfg past s) {e : Registry.Event} {registry : Registry}
    (hallows : s.place.allows e = true) (hstep : s.registry.step e = some registry) :
    Sound cfg (past ++ [.registry e]) { s with registry, place := s.place.after e } := by
  rcases allows_cases hallows with ⟨-, t, l, rfl⟩ | ⟨items, hplace, ⟨spawned, rfl⟩ | rfl⟩ |
    ⟨call, hstops, he⟩
  · exact sound_sampler h hstep
  · exact sound_add h hplace hstep
  · exact sound_push h hplace hstep
  · exact sound_stop h hstops he hstep

/-- A signal comes. -/
theorem sound_receive (h : Sound cfg past s) : Sound cfg (past ++ [.signal]) s.receive := by
  unfold receive
  split
  · rename_i hhandler
    exact {
      reachable := h.reachable, cell := h.cell, handler := h.handler
      pending := fun _ => ⟨h.handler hhandler, List.mem_append_right _ List.mem_cons_self⟩
      signal := fun _ => List.mem_append_right _ List.mem_cons_self
      leaving := fun hleaving => List.mem_append_left _ (h.leaving hleaving)
      owns := h.owns, runs := h.runs, settled := h.settled }
  · exact h.vanish _

/-- The handler stores. -/
theorem sound_handled (h : Sound cfg past s) (hsignals : 0 < s.signals) :
    Sound cfg (past ++ [.handled])
      { s with signals := s.signals - 1, running := some (store s.running) } := by
  have hsignal : Event.signal ∈ past ++ [.handled] := (h.pending_append _ hsignals).2
  exact {
    reachable := h.reachable, cell := fun _ => nofun, handler := fun _ => nofun
    pending := fun _ => ⟨nofun, hsignal⟩
    signal := fun _ => hsignal
    leaving := fun hleaving => List.mem_append_left _ (h.leaving hleaving)
    owns := h.owns, runs := h.runs, settled := h.settled }

/-- A part of the start-up lets `main` go on or fails. -/
theorem logPlace_cases (cfg : Config) :
    logPlace cfg = .setRunning ∨ logPlace cfg = .ended .error := by
  unfold logPlace
  split
  · exact .inr rfl
  · exact .inl rfl

/-- So do the runtime and the exporter. -/
theorem runtimePlace_cases (cfg : Config) (cores : Nat) (built : Bool) :
    runtimePlace cfg cores built = .newExporter ∨ runtimePlace cfg cores built = .ended .error := by
  simp only [runtimePlace]
  split
  · exact .inr rfl
  · cases built
    · exact .inr rfl
    · exact .inl rfl

theorem exporterPlace_cases (cfg : Config) :
    exporterPlace cfg = .initCollector ∨ exporterPlace cfg = .ended .error := by
  unfold exporterPlace
  split
  · exact .inr rfl
  · exact .inl rfl

/-- What one step preserves, event by event. -/
theorem sound_step (h : Sound cfg past s) (hstep : step cfg s e = some s') :
    Sound cfg (past ++ [e]) s' := by
  cases e with
  | configured parsed =>
      obtain ⟨hplace, rfl⟩ := goto_eq_some.mp hstep
      cases parsed with
      -- `config()` unwraps what it has parsed, which is a panic here
      | false => exact h.vanish _
      | true => exact h.advance _ (by rw [hplace]; rfl) rfl nofun
  | logged =>
      obtain ⟨hplace, rfl⟩ := goto_eq_some.mp hstep
      have hearly : s.place.early = true := by rw [hplace]; rfl
      rcases logPlace_cases cfg with hlog | hlog <;> rw [hlog]
      · exact h.advance _ hearly rfl nofun
      · exact h.fail _ hearly
  | setRunning =>
      obtain ⟨hplace, hstep⟩ := Option.ite_none_right_eq_some.mp hstep
      obtain rfl := Option.some.inj hstep
      obtain ⟨howner, hthreads⟩ := h.runs_early (by rw [hplace]; rfl)
      exact {
        reachable := h.reachable, cell := fun _ => nofun, handler := fun _ => nofun
        pending := fun hsignals => ⟨nofun, (h.pending_append _ hsignals).2⟩
        signal := fun hrunning => List.mem_append_left _ (h.signal (by
          cases hcell : s.running <;> simp_all))
        leaving := nofun, owns := howner, runs := hthreads, settled := nofun }
  | handlerSet ok =>
      obtain ⟨hplace, hstep⟩ := Option.ite_none_right_eq_some.mp hstep
      obtain rfl := Option.some.inj hstep
      obtain ⟨howner, hthreads⟩ := h.runs_early (by rw [hplace]; rfl)
      have hcell : s.running ≠ none := h.cell (by rw [hplace]; rfl)
      have hset : Sound cfg past { s with handler := ok } := {
        reachable := h.reachable, cell := h.cell, handler := fun _ => hcell
        pending := h.pending, signal := h.signal
        leaving := h.leaving, owns := h.owns, runs := h.runs, settled := h.settled }
      cases ok with
      | false => exact hset.fail _ (by rw [hplace]; rfl)
      | true => exact hset.advance _ (by rw [hplace]; rfl) rfl fun _ => by rw [hplace]; rfl
  | runtime cores built =>
      obtain ⟨hplace, rfl⟩ := goto_eq_some.mp hstep
      have hearly : s.place.early = true := by rw [hplace]; rfl
      have hcell : s.place.pastSet = true := by rw [hplace]; rfl
      rcases runtimePlace_cases cfg cores built with hruntime | hruntime <;> rw [hruntime]
      · exact h.advance _ hearly rfl fun _ => hcell
      · exact h.fail _ hearly
  | exporter =>
      obtain ⟨hplace, rfl⟩ := goto_eq_some.mp hstep
      have hearly : s.place.early = true := by rw [hplace]; rfl
      have hcell : s.place.pastSet = true := by rw [hplace]; rfl
      rcases exporterPlace_cases cfg with hexporter | hexporter <;> rw [hexporter]
      · exact h.advance _ hearly rfl fun _ => hcell
      · exact h.fail _ hearly
  | collector =>
      obtain ⟨hplace, rfl⟩ := goto_eq_some.mp hstep
      obtain ⟨howner, hthreads⟩ := h.runs_early (by rw [hplace]; rfl)
      have hcell : s.place.pastSet = true := by rw [hplace]; rfl
      unfold collectorPlace
      cases hcollector : cfg.hostCollector with
      | none => exact h.move _ (fun _ => hcell) nofun (.inl howner) hthreads nofun
      | some collector =>
          cases collector with
          | none => exact h.move _ (fun _ => hcell) nofun howner ⟨none, hcollector, hthreads⟩ nofun
          | some collector =>
              exact h.move _ (fun _ => hcell) nofun (.inl howner)
                ⟨⟨collector, hcollector, rfl⟩, fun _ => hthreads, fun hne => absurd howner hne⟩
                nofun
  | registry e =>
      obtain ⟨hallows, hstep⟩ := Option.ite_none_right_eq_some.mp hstep
      obtain ⟨registry, hregistry, hstep⟩ := Option.bind_eq_some_iff.mp hstep
      obtain rfl := Option.some.inj hstep
      exact sound_registry h hallows hregistry
  | load =>
      obtain ⟨hplace, rfl⟩ := goto_eq_some.mp hstep
      have hcell : s.place.pastSet = true := by rw [hplace]; rfl
      have howns := h.owns
      have hruns := h.runs
      rw [hplace] at howns hruns
      -- an empty cell would make it panic; otherwise the loop is left or goes on
      rcases hrunning : s.running with _ | _ | _
      · exact absurd hrunning (h.cell hcell)
      · have hplace' : loadPlace s.running = .shutdownRegistry := by rw [hrunning]; rfl
        rw [← hrunning, hplace']
        exact h.move _ (fun _ => hcell) (fun _ => h.signal hrunning) (.inl howns) hruns nofun
      · have hplace' : loadPlace s.running = .sleep := by rw [hrunning]; rfl
        rw [← hrunning, hplace']
        exact h.move _ (fun _ => hcell) nofun howns hruns nofun
  | wake =>
      obtain ⟨hplace, rfl⟩ := goto_eq_some.mp hstep
      have howns := h.owns
      have hruns := h.runs
      rw [hplace] at howns hruns
      exact h.move _ (fun _ => by rw [hplace]; rfl) nofun howns hruns nofun
  | exporterDown | runtimeDown =>
      obtain ⟨hplace, rfl⟩ := goto_eq_some.mp hstep
      have hleaving : .signal ∈ past := h.leaving (by rw [hplace]; rfl)
      have hruns := h.runs
      have howns := h.owns
      rw [hplace] at hruns howns
      refine h.move _ (fun _ => by rw [hplace]; rfl) (fun _ => hleaving) ?_ hruns
        fun _ => by rw [hplace]; rfl
      first | exact howns | exact .inl howns
  | signal =>
      obtain ⟨-, hstep⟩ := Option.ite_none_right_eq_some.mp hstep
      obtain rfl := Option.some.inj hstep
      exact sound_receive h
  | handled =>
      obtain ⟨-, hsignals, rfl⟩ := handled_eq_some.mp hstep
      exact sound_handled h hsignals

/-- **Every state of a run is sound.** -/
theorem sound_run {es : List Event} (hrun : run (step cfg) {} es = some s) : Sound cfg es s := by
  have hinv : ∀ past s e s', Sound cfg past s → step cfg s e = some s' →
      Sound cfg (past ++ [e]) s' := fun _ _ _ _ h hstep => sound_step h hstep
  exact run_history hinv (sound_init cfg) hrun

/-! ## The start-up and the signal -/

/-- Whatever is in the cell, the handler leaves it false. -/
theorem store_eq (running : Option Bool) : store running = false := by
  cases running <;> rfl

/-- Nobody takes the store of the handler back. -/
theorem running_of_step (hrunning : s.running = some false) (hstep : step cfg s e = some s') :
    s'.running = some false := by
  cases e with
  | configured | logged | runtime | exporter | collector | load | wake | exporterDown
  | runtimeDown =>
      obtain ⟨-, rfl⟩ := goto_eq_some.mp hstep
      exact hrunning
  | setRunning =>
      obtain ⟨-, hstep⟩ := Option.ite_none_right_eq_some.mp hstep
      obtain rfl := Option.some.inj hstep
      simp [hrunning]
  | handlerSet ok =>
      obtain ⟨-, hstep⟩ := Option.ite_none_right_eq_some.mp hstep
      obtain rfl := Option.some.inj hstep
      exact hrunning
  | registry e =>
      obtain ⟨-, hstep⟩ := Option.ite_none_right_eq_some.mp hstep
      obtain ⟨registry, -, hstep⟩ := Option.bind_eq_some_iff.mp hstep
      obtain rfl := Option.some.inj hstep
      exact hrunning
  | signal =>
      obtain ⟨-, hstep⟩ := Option.ite_none_right_eq_some.mp hstep
      obtain rfl := Option.some.inj hstep
      unfold receive
      cases s.handler <;> exact hrunning
  | handled =>
      obtain ⟨-, -, rfl⟩ := handled_eq_some.mp hstep
      rw [store_eq]

/-- Nor does a whole run. -/
theorem running_of_run {es : List Event} (hrunning : s.running = some false)
    (hrun : run (step cfg) s es = some s') : s'.running = some false :=
  run_invariant (I := fun s => s.running = some false)
    (fun _ _ _ _ hrunning hstep => running_of_step hrunning hstep) hrunning hrun

/-- **The start-up and the signal.** In every run, whatever part of the start-up fails and whenever
signals come: the cell `RUNNING` is filled wherever the loop unwraps it and wherever the handler is
installed or at work, so that neither the panic nor the `else` of the handler is ever reached; only
a signal clears it, and for good. A start-up that has failed leaves no sampling thread behind, and
one that has succeeded runs the threads of the configured collector and no others. -/
theorem startup_sound {es : List Event} (hrun : run (step cfg) {} es = some s) :
    (s.place = .check → s.running ≠ none) ∧
    (s.handler = true ∨ 0 < s.signals → s.running ≠ none) ∧
    (s.running = some false → .signal ∈ es ∧
      ∀ es' s', run (step cfg) s es' = some s' → s'.running = some false) ∧
    (s.place.failed = true → threads s.registry = []) ∧
    (s.place.started = true → ∃ collector, cfg.hostCollector = some collector ∧
      threads s.registry = (collector.map HostCollector.items).toList) := by
  have h := sound_run hrun
  refine ⟨fun hplace => h.cell (by rw [hplace]; rfl), ?_, fun hrunning => ?_, ?_, ?_⟩
  · rintro (hhandler | hsignals)
    · exact h.handler hhandler
    · exact (h.pending hsignals).1
  · exact ⟨h.signal hrunning, fun es' s' hrun' => running_of_run hrunning hrun'⟩
  · intro hfailed
    have hplain : s.place.plain = true := by
      cases hplace : s.place <;> rw [hplace] at hfailed <;> first | rfl | cases hfailed
    have hstarted : s.place.started = false := by
      cases hplace : s.place with
      | dropRegistry exit | ended exit =>
          rw [hplace] at hfailed
          cases exit with
          | ok => cases hfailed
          | error => rfl
      | _ =>
          rw [hplace] at hfailed
          cases hfailed
    have hruns := (runs_iff hplain).mp h.runs
    rwa [hstarted] at hruns
  · intro hstarted
    have hplain : s.place.plain = true := by
      cases hplace : s.place <;> rw [hplace] at hstarted <;> first | rfl | cases hstarted
    have hruns := (runs_iff hplain).mp h.runs
    rwa [if_pos hstarted] at hruns

/-- A host section with nothing in it but its switch. -/
def bare : Config where
  workerThreads := 2
  log := { writer := "stdout", level := "info" }
  otlp := { protocol := .http, endpoint := "http://127.0.0.1:8428/opentelemetry/v1/metrics" }
  metrics := { host := some {
    cpu := none, disk := none, process := none, net := none, mem := none, enable := true } }
  appender := { build := fun _ _ _ _ => .ok () }
  tonic := MetadataCrate.lowerCase
  opentelemetry := { buildTonic := fun _ _ _ => .ok (), buildHttp := fun _ _ _ => .ok () }
  rx := { new := fun _ => none, isMatch := fun _ _ => false }
  hostname := "box"

/-- The items of its collector. -/
def bareItems : List MetricItem := HostCollector.items (HostCollector.new "box" {})

/-- Its start-up, on a machine with four cores and without a failure. -/
def bareStartUp : List Event :=
  [.configured true, .logged, .setRunning, .handlerSet true, .runtime 4 true, .exporter, .collector,
    .registry (.add bareItems true), .registry .push]

/-- The program at the first check of the loop. -/
def bareStarted : Program where
  place := .check
  running := some true
  handler := true
  registry := { entries := [⟨0, some 0⟩], samplers := [{ items := bareItems }] }

set_option maxRecDepth 4000 in
/-- The loop is reached, with the one thread of the collector. -/
theorem startup_sound_bare :
    run (step bare) {} bareStartUp = some bareStarted ∧
      ∃ collector, bare.hostCollector = some collector ∧
        threads bareStarted.registry = (collector.map HostCollector.items).toList := by
  have hrun : run (step bare) {} bareStartUp = some bareStarted := rfl
  obtain ⟨-, -, -, -, hstarted⟩ := startup_sound hrun
  exact ⟨hrun, hstarted rfl⟩

end

end Program

end MetricsExporter.Exporter
