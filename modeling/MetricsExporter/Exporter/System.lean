/-
# MetricsExporter.Exporter.System -- what the whole program exports

`main`, the signal handler, the registry, the sampling thread and the callbacks step in any order.
Seen by what the callbacks report, a run of them all is a run of one sampler over the items of the
configured collector (`refines_sampler`). What holds of the history of a sampler then holds of the
program from its first step to its last: `history_published` and `exported_counters`.

A report is what a callback hands to the SDK. Whether and when the exporter sends it is not
modelled, nor what becomes of it on the way. There is one collector in a configuration, so there is
one thread at most; the registry itself could hold more.
-/
import MetricsExporter.Exporter.Main
import MetricsExporter.LinuxMetrics.Moving

namespace MetricsExporter.Exporter

open MetricsExporter.Lib MetricsExporter.Procfs MetricsExporter.Framework
open MetricsExporter.LinuxMetrics

namespace Program

/-! ## The reports of the program

The history is taken from the labels and the states they lead to. It counts the ticks that have been
published, so that a report carries the number of its tick. -/

/-- The steps of a sampling thread and its callbacks. -/
def Event.shown : Event → List Sampler.Label
  | .registry (.sampler _ l) => [l]
  | _ => []

/-- The groups each completed tick has appended, oldest tick first. -/
def published (es : List Event) : List (List SampleGroup) :=
  (Sampler.ticks (es.flatMap Event.shown)).completed

/-- The report that a step completes. -/
def reported (s : Program) (tick : Nat) : Event → List Sampler.Report
  | .registry (.sampler t l) => s.registry.samplers[t]?.toList.flatMap fun th => th.reported tick l
  | _ => []

/-- The reports of a run from a state in which so many ticks had been published, in order. -/
def history (cfg : Config) (s : Program) (tick : Nat) : List Event → List Sampler.Report
  | [] => []
  | e :: es =>
      match step cfg s e with
      | none => []
      | some s' => s.reported tick e ++ history cfg s' (e.shown.foldl Sampler.tickAfter tick) es

section

variable {cfg : Config} {past es : List Event} {s s' m : Program} {e : Event} {th : Sampler}

/-- The first step reports, and the ticks it publishes count from there on. -/
theorem history_cons {tick : Nat} (hstep : step cfg s e = some m) :
    history cfg s tick (e :: es) =
      s.reported tick e ++ history cfg m (e.shown.foldl Sampler.tickAfter tick) es := by
  rw [history, hstep]

/-! ## The store to the stop flag is not shown -/

/-- So it publishes no tick. -/
theorem foldl_tickAfter_ofSampler (tick : Nat) (ls : List Sampler.Label) :
    (ls.filter Registry.ofSampler).foldl Sampler.tickAfter tick =
      ls.foldl Sampler.tickAfter tick := by
  induction ls generalizing tick with
  | nil => rfl
  | cons l ls ih =>
      cases l with
      | store => exact ih tick
      | _ => exact ih _

/-- And appends nothing to one. -/
theorem ticks_ofSampler (ls : List Sampler.Label) :
    Sampler.ticks (ls.filter Registry.ofSampler) = Sampler.ticks ls := by
  induction ls using List.reverseRecOn with
  | nil => rfl
  | append_singleton ls l ih =>
      rw [List.filter_append, Sampler.ticks_concat, ← ih]
      cases l with
      | store => exact congrArg Sampler.ticks (List.append_nil _)
      | _ => exact Sampler.ticks_concat _ _

/-! ## One thread

From where the thread is there. Each event is at most one step of the sampler. -/

/-- The events show as these steps of the one sampler there is. -/
structure Serves (cfg : Config) (s : Program) (th : Sampler) (es : List Event)
    (ls : List Sampler.Label) (s' : Program) (th' : Sampler) : Prop where
  run : Lib.run Sampler.step th ls = some th'
  thread : s'.registry.samplers = [th']
  labels : ls.filter Registry.ofSampler = es.flatMap Event.shown
  reports : ∀ tick, history cfg s tick es = Sampler.history th tick ls

/-- No event, no step. -/
theorem Serves.nil (hth : s.registry.samplers = [th]) : Serves cfg s th [] [] s th :=
  ⟨rfl, hth, rfl, fun _ => rfl⟩

/-- One event after another. -/
theorem Serves.cons {ls ls' : List Sampler.Label} {thm th' : Sampler}
    (hstep : step cfg s e = some m) (hfirst : Serves cfg s th [e] ls m thm)
    (hrest : Serves cfg m thm es ls' s' th') : Serves cfg s th (e :: es) (ls ++ ls') s' th' where
  run := run_append_eq_some.mpr ⟨thm, hfirst.run, hrest.run⟩
  thread := hrest.thread
  labels := by
    rw [List.filter_append, hfirst.labels, hrest.labels, List.flatMap_singleton, List.flatMap_cons]
  reports tick := by
    have hreported : s.reported tick e = Sampler.history th tick ls := by
      rw [← hfirst.reports tick, history_cons hstep, history, List.append_nil]
    have htick : e.shown.foldl Sampler.tickAfter tick = ls.foldl Sampler.tickAfter tick := by
      rw [← foldl_tickAfter_ofSampler tick ls, hfirst.labels, List.flatMap_singleton]
    rw [history_cons hstep, Sampler.history_append hfirst.run, hreported, htick, hrest.reports]

/-- A step that the sampler does not see. -/
theorem Serves.still (hstep : step cfg s e = some s') (hshown : e.shown = [])
    (hreported : ∀ tick, s.reported tick e = []) (hth : s'.registry.samplers = [th]) :
    Serves cfg s th [e] [] s' th where
  run := rfl
  thread := hth
  labels := by rw [List.flatMap_singleton, hshown]; rfl
  reports tick := by
    rw [history_cons hstep, hreported]
    rfl

/-- A step of the registry, of a sampling thread or of a callback. -/
def Event.isRegistry : Event → Bool
  | .registry _ => true
  | _ => false

/-- The rest of the program leaves the registry as it is. -/
theorem registry_of_step (he : e.isRegistry = false) (hstep : step cfg s e = some s') :
    s'.registry = s.registry := by
  cases e with
  | registry r => cases he
  | configured | logged | runtime | exporter | collector | load | wake | exporterDown
  | runtimeDown =>
      obtain ⟨-, rfl⟩ := goto_eq_some.mp hstep
      rfl
  | setRunning | handlerSet =>
      obtain ⟨-, hstep⟩ := Option.ite_none_right_eq_some.mp hstep
      obtain rfl := Option.some.inj hstep
      rfl
  | signal =>
      obtain ⟨-, hstep⟩ := Option.ite_none_right_eq_some.mp hstep
      obtain rfl := Option.some.inj hstep
      unfold receive
      cases s.handler <;> rfl
  | handled =>
      obtain ⟨-, -, rfl⟩ := handled_eq_some.mp hstep
      rfl

/-- Where there is a thread, no collector is added. -/
theorem isAdd_of_thread (h : Sound cfg past s) (hth : s.registry.samplers = [th])
    {e : Registry.Event} {r : Registry} (hallows : s.place.allows e = true)
    (hstep : s.registry.step e = some r) : e.isAdd = false := by
  rcases allows_cases hallows with ⟨-, t, l, rfl⟩ | ⟨items, hplace, ⟨spawned, rfl⟩ | rfl⟩ |
    ⟨call, -, he⟩
  · rfl
  · have hruns := h.runs
    rw [hplace] at hruns
    have hidle : s.registry.owner = .idle := by
      cases Registry.Step.of_step hstep with
      | skip items spawned howner hskip => exact howner
      | add howner hitems => exact howner
    have hnone := hruns.2.1 hidle
    rw [threads, hth] at hnone
    cases hnone
  · rfl
  · exact isAdd_of_isStopOf he

/-- The one thread takes the step, or its stop flag is set, or it does not see the step. -/
theorem serves_step (h : Sound cfg past s) (hth : s.registry.samplers = [th])
    (hstep : step cfg s e = some s') : ∃ ls th', Serves cfg s th [e] ls s' th' := by
  cases e with
  | registry e =>
      obtain ⟨hallows, hregistry⟩ := Option.ite_none_right_eq_some.mp hstep
      obtain ⟨r, hr, hs'⟩ := Option.bind_eq_some_iff.mp hregistry
      obtain rfl := Option.some.inj hs'
      have hadd := isAdd_of_thread h hth hallows hr
      cases Registry.Step.of_step hr with
      | @sampler t l th₀ th' hl hth₀ hsampler =>
          obtain ⟨rfl, rfl⟩ : t = 0 ∧ th₀ = th := by
            rw [hth] at hth₀
            cases t with
            | zero => exact ⟨rfl, (Option.some.inj hth₀).symm⟩
            | succ t => cases hth₀
          refine ⟨[l], th', run_cons_eq_some.mpr ⟨th', hsampler, rfl⟩, ?_, ?_, fun tick => ?_⟩
          · rw [hth]
            rfl
          · simp [Registry.ofSampler, hl, Event.shown]
          · rw [history_cons hstep, Sampler.history_cons hsampler, reported, hth]
            simp [history, Sampler.history]
      | @store call next entry howner hentry =>
          -- the flag is that of the one thread, or of none
          by_cases ht : entry.stop = 0
          · refine ⟨[.store], { th with stop := true }, rfl, ?_, rfl, fun tick => ?_⟩
            · rw [hth, ht]
              rfl
            · rw [history_cons hstep]
              rfl
          · refine ⟨[], th, .still hstep rfl (fun _ => rfl) ?_⟩
            have hother : Registry.storeStop [th] entry.stop = [th] := by
              obtain ⟨t, ht⟩ := Nat.exists_eq_succ_of_ne_zero ht
              rw [ht, Registry.storeStop, List.modify_succ_cons, List.modify_nil]
            rw [hth]
            exact hother
      | skip | add => cases hadd
      | push | call | stored | take | taken | join | finish =>
          exact ⟨[], th, .still hstep rfl (fun _ => rfl) hth⟩
  | _ =>
      have hsame := registry_of_step rfl hstep
      exact ⟨[], th, .still hstep rfl (fun _ => rfl) (by rw [hsame, hth])⟩

/-- By induction on the events, with `Sound` for the states between them. -/
theorem serves_run (h : Sound cfg past s) (hth : s.registry.samplers = [th])
    (hrun : Lib.run (step cfg) s es = some s') : ∃ ls th', Serves cfg s th es ls s' th' := by
  induction es generalizing past s th with
  | nil =>
      obtain rfl := Option.some.inj hrun
      exact ⟨[], th, .nil hth⟩
  | cons e es ih =>
      obtain ⟨m, hstep, hrest⟩ := run_cons_eq_some.mp hrun
      obtain ⟨ls, thm, hfirst⟩ := serves_step h hth hstep
      obtain ⟨ls', th', hserves⟩ := ih (sound_step h hstep) hfirst.thread hrest
      exact ⟨ls ++ ls', th', .cons hstep hfirst hserves⟩

/-! ## From the start

Before the thread is there, and if it never is. -/

/-- Without a thread nothing is shown or reported, until that of the configured collector is
there. -/
theorem idle_step (h : Sound cfg past s) (hnone : s.registry.samplers = [])
    (hstep : step cfg s e = some s') :
    e.shown = [] ∧ (∀ tick, s.reported tick e = []) ∧
      (s'.registry.samplers = [] ∨ ∃ collector, cfg.hostCollector = some (some collector) ∧
        s'.registry.samplers = [{ items := collector.items }]) := by
  cases e with
  | registry e =>
      obtain ⟨hallows, hregistry⟩ := Option.ite_none_right_eq_some.mp hstep
      obtain ⟨r, hr, hs'⟩ := Option.bind_eq_some_iff.mp hregistry
      obtain rfl := Option.some.inj hs'
      cases Registry.Step.of_step hr with
      | sampler hl hth₀ hsampler =>
          rw [hnone] at hth₀
          cases hth₀
      | @add items howner hitems =>
          refine ⟨rfl, fun _ => rfl, .inr ?_⟩
          rcases allows_cases hallows with ⟨-, t, l, he⟩ | ⟨items', hplace, -⟩ | ⟨call, -, he⟩
          · cases he
          · have hruns := h.runs
            rw [hplace] at hruns hallows
            obtain rfl : items = items' := eq_of_beq hallows
            obtain ⟨⟨collector, hcollector, rfl⟩, -⟩ := hruns
            exact ⟨collector, hcollector, by rw [hnone]; rfl⟩
          · cases he
      | @store call next entry howner hentry =>
          have hempty : Registry.storeStop [] entry.stop = [] := List.modify_nil ..
          refine ⟨rfl, fun _ => rfl, .inl ?_⟩
          rw [hnone]
          exact hempty
      | skip | push | call | stored | take | taken | join | finish =>
          exact ⟨rfl, fun _ => rfl, .inl hnone⟩
  | _ => exact ⟨rfl, fun _ => rfl, .inl (by rw [registry_of_step rfl hstep, hnone])⟩

/-- By induction on the events: the thread may be added at any of them. -/
theorem idle_run (h : Sound cfg past s) (hnone : s.registry.samplers = [])
    (hrun : Lib.run (step cfg) s es = some s') :
    (s'.registry.samplers = [] ∧ es.flatMap Event.shown = [] ∧
        ∀ tick, history cfg s tick es = []) ∨
      ∃ collector ls th, cfg.hostCollector = some (some collector) ∧
        Serves cfg s { items := collector.items } es ls s' th := by
  induction es generalizing past s with
  | nil => exact .inl ⟨Option.some.inj hrun ▸ hnone, rfl, fun _ => rfl⟩
  | cons e es ih =>
      obtain ⟨m, hstep, hrest⟩ := run_cons_eq_some.mp hrun
      obtain ⟨hshown, hreported, hnone' | ⟨collector, hcollector, hth⟩⟩ := idle_step h hnone hstep
      · rcases ih (sound_step h hstep) hnone' hrest with
          ⟨hempty, hlabels, hreports⟩ | ⟨collector, ls, th, hcollector, hserves⟩
        · refine .inl ⟨hempty, by rw [List.flatMap_cons, hshown, hlabels]; rfl, fun tick => ?_⟩
          rw [history_cons hstep, hreported, hreports]
          rfl
        · refine .inr ⟨collector, ls, th, hcollector, hserves.run, hserves.thread, ?_,
            fun tick => ?_⟩
          · rw [List.flatMap_cons, hshown, hserves.labels]
            rfl
          · rw [history_cons hstep, hreported, hshown]
            exact hserves.reports tick
      · obtain ⟨ls, th, hserves⟩ := serves_run (sound_step h hstep) hth hrest
        have hstill : Serves cfg s { items := collector.items } [e] [] m
            { items := collector.items } := .still hstep hshown hreported hth
        exact .inr ⟨collector, ls, th, hcollector, .cons hstep hstill hserves⟩

/-- **The program is one sampler.** A run of the program has no thread and reports nothing, or it
reports what a run of one sampler over the items of the configured collector does, by the same steps
of the thread and of the callbacks. -/
theorem refines_sampler (hrun : Lib.run (step cfg) {} es = some s) :
    (s.registry.samplers = [] ∧ es.flatMap Event.shown = [] ∧
        ∀ tick, history cfg {} tick es = []) ∨
      ∃ collector ls th, cfg.hostCollector = some (some collector) ∧
        Serves cfg {} { items := collector.items } es ls s th :=
  idle_run (sound_init cfg) rfl hrun

/-- The ticks of the program are those of its sampler. -/
theorem Serves.published {ls : List Sampler.Label} {th' : Sampler}
    (h : Serves cfg s th es ls s' th') : published es = (Sampler.ticks ls).completed := by
  rw [Program.published, ← h.labels, ticks_ofSampler]

/-! ## A host with one interface

Two moments of it, and a run of the program with one tick and one report at each. -/

/-- The one file it is said in. -/
def netProc (line : Bytes) : ProcFs := .ofLists [(["proc", "net", "dev"], unlines [line])] []

/-- The loopback interface an octet later. -/
def loopbackLater : PrintedIface where
  name := loopback.name
  no_colon := loopback.no_colon
  counters := [2, 2, 3, 4, 5, 6, 7, 8, 9, 10, 11, 12, 13, 14, 15, 16]
  length_counters := rfl

/-- The row of an interface with single blanks between its counters. -/
def netLine (d : PrintedIface) : Bytes :=
  d.name.octets ++ colonByte :: spaced 32 (d.counters.map decimal)

/-- What is appended in a pass over the interface. -/
def netPass (d : PrintedIface) : List SampleGroup :=
  netCollector.pass Readers.documented (netProc (netLine d))

/-- A tick, and the callback of the octets received. -/
def tickAndReport (d : PrintedIface) : List Sampler.Label :=
  [.load, .clear] ++ (netPass d).map .append ++ [.collected, .lock, .swap, .unlock] ++
    netCollector.items[6]?.toList.flatMap fun item =>
      .acquire item :: List.replicate 8 (.look 0) ++ [.release 0]

/-- A tick at each of the two moments, each with a report behind it. -/
def twoReports : List Sampler.Label :=
  tickAndReport loopback ++ .wake :: tickAndReport loopbackLater

/-- The thread sleeps, with the later tick in the cache and the earlier one in the buffer. -/
def afterTwoNetReports : Sampler where
  items := netCollector.items
  pc := .sleep
  cache := netPass loopbackLater
  scratch := netPass loopback

/-- The network section enabled. -/
def netOnly : Config := { bare with
  metrics := { host := some {
    cpu := none, disk := none, process := none, net := some { enable := true }, mem := none
    enable := true } } }

/-- The program is started, and the thread and the callbacks take their turns. -/
def netOnlyRun : List Event :=
  [.configured true, .logged, .setRunning, .handlerSet true, .runtime 4 true, .exporter,
    .collector, .registry (.add netCollector.items true), .registry .push, .load] ++
    twoReports.map fun l => .registry (.sampler 0 l)

/-- The program at the end of the run. -/
def netOnlyAfter : Program where
  place := .sleep
  running := some true
  handler := true
  registry := { entries := [⟨0, some 0⟩], samplers := [afterTwoNetReports] }

/-! ## What is exported -/

/-- **What the program exports.** In every run of the program, whatever part of the start-up fails,
whenever signals come and however the threads take turns: each report is that of an instrument of
the configured collector and holds the values of exactly one published tick, and from one report to
the next the tick never goes back. -/
theorem history_published (hrun : Lib.run (step cfg) {} es = some s) :
    (∀ r ∈ history cfg {} 0 es, r.IsOf (published es) ∧
      ∃ collector, cfg.hostCollector = some (some collector) ∧ r.item ∈ collector.items) ∧
    (history cfg {} 0 es).Pairwise fun r r' => r.tick ≤ r'.tick := by
  rcases refines_sampler hrun with ⟨-, -, hreports⟩ | ⟨collector, ls, th, hcollector, hserves⟩
  · rw [hreports]
    exact ⟨nofun, .nil⟩
  · have hstart : Lib.run Sampler.step { items := collector.items } [] =
        some { items := collector.items } := rfl
    have hregistered : Sampler.Registered collector.items { items := collector.items } :=
      ⟨rfl, nofun⟩
    rw [hserves.reports, hserves.published]
    refine ⟨fun r hr => ⟨?_, collector, hcollector, ?_⟩, ?_⟩
    · exact (Sampler.history_isOf hstart hserves.run r hr).2
    · exact Sampler.history_registered hregistered hserves.run r hr
    · exact Sampler.history_pairwise hstart hserves.run

set_option maxRecDepth 8000 in
/-- The two reports are of the first and of the second tick. -/
theorem history_published_netOnly :
    Lib.run (step netOnly) {} netOnlyRun = some netOnlyAfter ∧
      (history netOnly {} 0 netOnlyRun).map Sampler.Report.tick = [1, 2] ∧
      ∀ r ∈ history netOnly {} 0 netOnlyRun, r.IsOf (published netOnlyRun) := by
  have hrun : Lib.run (step netOnly) {} netOnlyRun = some netOnlyAfter := rfl
  obtain ⟨hof, -⟩ := history_published hrun
  exact ⟨hrun, rfl, fun r hr => (hof r hr).1⟩

end

end Program

end MetricsExporter.Exporter
