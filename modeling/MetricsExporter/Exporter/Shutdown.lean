/-
# MetricsExporter.Exporter.Shutdown -- how the program comes to an end

The handler stores that a signal has come, the loop sees that at its next check, and `main` stops
the threads, takes the exporter and the runtime down and drops the registry. That no thread and no
tick is in the middle of anything when the exporter goes is what the order is for
(`shutdown_order`); that `main` gets to its end whatever they were in the middle of is the progress
of the stops, one after the other (`signal_ends`).

The handler logs before it stores, on a thread of its own. So how often the loop goes round between
the arrival of a signal and the store is not bounded here; that the store is not lost, and that it
may come at any time, is. Nor is it said that a step which may come does come: what may lead to the
end, leads there if the threads are scheduled.
-/
import MetricsExporter.Exporter.System

namespace MetricsExporter.Exporter

open MetricsExporter.Lib MetricsExporter.Framework MetricsExporter.LinuxMetrics

namespace Program

section

variable {cfg : Config} {past : List Event} {s s' : Program} {e : Event}

/-! ## The shutdown

Past the shutdown of the registry all that still moves are callbacks. -/

/-- The registry is settled, and `main` is past its shutdown or gone. -/
structure Frozen (s : Program) : Prop where
  place : s.place.stopped = true ∨ s.place = .gone
  settled : s.registry.Settled

/-- Past the shutdown of the registry no collector is added. -/
theorem Frozen.isAdd {e : Registry.Event} (h : Frozen s) (hallows : s.place.allows e = true) :
    e.isAdd = false := by
  rcases allows_cases hallows with ⟨-, t, l, rfl⟩ | ⟨items, hplace, -⟩ | ⟨call, -, he⟩
  · rfl
  · have hstopped := h.place
    simp [hplace, Place.stopped] at hstopped
  · exact isAdd_of_isStopOf he

/-- Past the shutdown of the registry `main` stays there until the process is gone. -/
theorem stopped_after {place : Place} (hstopped : place.stopped = true) (e : Registry.Event) :
    (place.after e).stopped = true ∨ place.after e = .gone := by
  cases place with
  | dropRegistry exit =>
      cases exit with
      | error => cases hstopped
      | ok =>
          cases e with
          | sampler t l => cases l <;> simp [Place.after, Place.stopped]
          | _ => exact .inl rfl
  | shutdownExporter | shutdownRuntime =>
      cases e with
      | sampler t l => cases l <;> simp [Place.after, Place.stopped]
      | _ => exact .inl rfl
  | ended exit =>
      cases e with
      | sampler t l => cases l <;> simp_all [Place.after]
      | _ => exact .inl hstopped
  | _ => cases hstopped

/-- No step leaves the part of the program that is past its shutdown, and none changes a cache. -/
theorem frozen_step (h : Frozen s) (hstep : step cfg s e = some s') :
    Frozen s' ∧ s'.registry.caches = s.registry.caches := by
  cases e with
  | registry e =>
      -- a thread or a callback: those have settled, so their steps change nothing that is kept
      obtain ⟨hallows, hstep⟩ := Option.ite_none_right_eq_some.mp hstep
      obtain ⟨registry, hregistry, hstep⟩ := Option.bind_eq_some_iff.mp hstep
      obtain rfl := Option.some.inj hstep
      obtain ⟨hsettled, -, -, hcaches⟩ :=
        Registry.settled_step h.settled (h.isAdd hallows) hregistry
      refine ⟨⟨?_, hsettled⟩, hcaches⟩
      rcases h.place with hstopped | hgone
      · exact stopped_after hstopped e
      · rw [hgone] at hallows
        cases e <;> cases hallows
  | configured | logged | runtime | exporter | collector | load | wake =>
      obtain ⟨hplace, rfl⟩ := goto_eq_some.mp hstep
      have hstopped := h.place
      simp [hplace, Place.stopped] at hstopped
  | exporterDown | runtimeDown =>
      obtain ⟨hplace, rfl⟩ := goto_eq_some.mp hstep
      exact ⟨⟨.inl rfl, h.settled⟩, rfl⟩
  | setRunning | handlerSet =>
      obtain ⟨hplace, -⟩ := Option.ite_none_right_eq_some.mp hstep
      have hstopped := h.place
      simp [hplace, Place.stopped] at hstopped
  | signal =>
      obtain ⟨-, hstep⟩ := Option.ite_none_right_eq_some.mp hstep
      obtain rfl := Option.some.inj hstep
      unfold receive
      cases s.handler with
      | true => exact ⟨⟨h.place, h.settled⟩, rfl⟩
      | false => exact ⟨⟨.inr rfl, h.settled⟩, rfl⟩
  | handled =>
      obtain ⟨-, -, rfl⟩ := handled_eq_some.mp hstep
      exact ⟨⟨h.place, h.settled⟩, rfl⟩

/-- A thread that has ended publishes nothing. -/
theorem frozen_shown (h : Frozen s) (hstep : step cfg s e = some s') :
    ∀ l ∈ e.shown, l.isSwap = false := by
  cases e with
  | registry e =>
      obtain ⟨-, hstep⟩ := Option.ite_none_right_eq_some.mp hstep
      obtain ⟨registry, hregistry, -⟩ := Option.bind_eq_some_iff.mp hstep
      cases Registry.Step.of_step hregistry with
      | @sampler t l th th' hl hth hsampler =>
          obtain ⟨-, hexited⟩ := h.settled.ended th (List.mem_of_getElem? hth)
          intro l' hl'
          obtain rfl := List.mem_singleton.mp hl'
          cases Sampler.Step.of_step hsampler with
          | swap hpc =>
              rw [hexited] at hpc
              cases hpc
          | _ => rfl
      | _ => exact List.forall_mem_nil _
  | _ => exact List.forall_mem_nil _

/-- By induction on the events. -/
theorem frozen_run {es : List Event} (h : Frozen s) (hrun : run (step cfg) s es = some s') :
    Frozen s' ∧ s'.registry.caches = s.registry.caches ∧
      ∀ l ∈ es.flatMap Event.shown, l.isSwap = false := by
  induction es generalizing s with
  | nil =>
      obtain rfl := Option.some.inj hrun
      exact ⟨h, rfl, List.forall_mem_nil _⟩
  | cons e es ih =>
      obtain ⟨m, hstep, hrun⟩ := run_cons_eq_some.mp hrun
      obtain ⟨hm, hcaches⟩ := frozen_step h hstep
      obtain ⟨hs', hcaches', hrest⟩ := ih hm hrun
      refine ⟨hs', hcaches'.trans hcaches, ?_⟩
      rw [List.flatMap_cons]
      exact List.forall_mem_append.mpr ⟨frozen_shown h hstep, hrest⟩

/-- The cache of a thread of the program is the last tick it has published. -/
theorem cache_eq_lastTick {es : List Event} (hrun : run (step cfg) {} es = some s) {t : Nat}
    {th : Sampler} (hth : s.registry.samplers[t]? = some th) :
    th.cache = Sampler.lastTick (published es) := by
  rcases refines_sampler hrun with ⟨hnone, -⟩ | ⟨collector, ls, th', -, hserves⟩
  · rw [hnone] at hth
    cases hth
  · obtain rfl : th' = th := by
      have hmem := List.mem_of_getElem? hth
      rw [hserves.thread] at hmem
      exact (List.mem_singleton.mp hmem).symm
    rw [hserves.published]
    exact (Sampler.buffers_run hserves.run).cache

/-- **The order of the shutdown.** `main` leaves its loop only after a signal, and takes the
exporter down only when every sampling thread has ended, with its flag set and its handle joined.
From then on no tick is published and no cache changes: whatever a callback still reports, during
the last export or later, is of the tick that was published last before that. -/
theorem shutdown_order {es : List Event} (hrun : run (step cfg) {} es = some s) :
    (s.place.leaving = true → .signal ∈ es) ∧
    (s.place.stopped = true → s.registry.Settled ∧
      ∀ es' s', run (step cfg) s es' = some s' → s'.registry.caches = s.registry.caches ∧
        published (es ++ es') = published es ∧
        ∀ (t i : Nat) (th th' : Sampler) (reader : Sampler.Reader),
          s'.registry.samplers[t]? = some th → th.readers[i]? = some reader →
          Sampler.step th (.release i) = some th' →
            reader.observed =
              (registerItem reader.item).callback (Sampler.lastTick (published es))) := by
  have h := sound_run hrun
  refine ⟨h.leaving, fun hstopped => ⟨h.settled hstopped, ?_⟩⟩
  intro es' s' hrun'
  obtain ⟨-, hcaches, hswaps⟩ := frozen_run ⟨.inl hstopped, h.settled hstopped⟩ hrun'
  have hpublished : published (es ++ es') = published es := by
    rw [published, List.flatMap_append]
    exact Sampler.completed_append hswaps
  refine ⟨hcaches, hpublished, ?_⟩
  intro t i th th' reader hth hreader hrelease
  -- the later run is one of the whole program, so its readers have read what is cached
  have hboth := run_append_eq_some.mpr ⟨s, hrun, hrun'⟩
  have hreading := ((sound_run hboth).reachable.orderly hth).reading
  rw [Sampler.observed_eq_callback hreading hreader hrelease, cache_eq_lastTick hboth hth,
    hpublished]

/-- The number of tasks that run, as a pass would append it. -/
def bareTick : SampleGroup :=
  (SampleGroup.withAttrs [KeyValue.string "host" "box"]).push nameLoadavgRunningTasks (.u64 3)

/-- A tick is published, a signal comes while `main` sleeps, and the thread ends at its next
check. -/
def bareShutdown : List Event :=
  bareStartUp ++ [.load] ++
    ([.load, .clear, .append bareTick, .collected, .lock, .swap, .unlock].map fun l =>
      .registry (.sampler 0 l)) ++
    [.signal, .wake, .handled, .load, .registry (.call .shutdown), .registry .store,
      .registry .stored, .registry .take, .registry (.sampler 0 .wake),
      .registry (.sampler 0 .load), .registry (.join 0), .registry .finish]

/-- The thread has ended, with the tick in its cache. -/
def bareThread : Sampler where
  items := bareItems
  stop := true
  pc := .exited
  cache := [bareTick]

/-- The registry has returned, and the exporter is next. -/
def bareStopped : Program where
  place := .shutdownExporter
  running := some false
  handler := true
  registry := { entries := [⟨0, none⟩], samplers := [bareThread] }

/-- The last export: the callback of the running tasks reads the cache. -/
def lastExport : List Event :=
  (bareItems[4]?.toList.flatMap fun item => [.acquire item, .look 0]).map fun l =>
    .registry (.sampler 0 l)

set_option maxRecDepth 8000 in
/-- The report of the last export is of the tick that was published before the signal. -/
theorem shutdown_order_bare :
    run (step bare) {} bareShutdown = some bareStopped ∧ bareStopped.registry.Settled ∧
      published bareShutdown = [[bareTick]] ∧
      ∃ s reader th', run (step bare) bareStopped lastExport = some s ∧
        s.registry.samplers = [{ bareThread with readers := [reader] }] ∧
        Sampler.step { bareThread with readers := [reader] } (.release 0) = some th' ∧
        reader.observed = (registerItem reader.item).callback [bareTick] := by
  have hrun : run (step bare) {} bareShutdown = some bareStopped := rfl
  obtain ⟨-, hstopped⟩ := shutdown_order hrun
  obtain ⟨hsettled, hfrozen⟩ := hstopped rfl
  refine ⟨hrun, hsettled, rfl, _, _, _, rfl, rfl, rfl, ?_⟩
  obtain ⟨-, -, hreported⟩ := hfrozen lastExport _ rfl
  exact hreported 0 0 _ _ _ rfl rfl rfl

/-! ## The end

The program leads to its end if the threads are scheduled. What is to be shown is that in each state
that a run gets to, a step is left that brings it nearer. -/

/-- A step of the program itself: no signal, no callback that begins, no panic. -/
def Event.Own : Event → Prop
  | .signal => False
  | .registry e => e.GoesOn ∨ ∃ call, e = .call call
  | _ => True

/-- Steps of its own lead the program from a state to another. -/
def Leads (cfg : Config) (s s' : Program) : Prop :=
  ∃ es, (∀ e ∈ es, Event.Own e) ∧ run (step cfg) s es = some s'

/-- No step is needed. -/
theorem Leads.refl (s : Program) : Leads cfg s s := ⟨[], nofun, rfl⟩

/-- One step more in front. -/
theorem Leads.head {m : Program} (hown : e.Own) (hstep : step cfg s e = some m)
    (h : Leads cfg m s') : Leads cfg s s' := by
  obtain ⟨es, hes, hrun⟩ := h
  exact ⟨e :: es, List.forall_mem_cons.mpr ⟨hown, hes⟩, run_cons_eq_some.mpr ⟨m, hstep, hrun⟩⟩

/-- One way behind the other. -/
theorem Leads.trans {m : Program} (h : Leads cfg s m) (h' : Leads cfg m s') : Leads cfg s s' := by
  obtain ⟨es, hes, hrun⟩ := h
  obtain ⟨es', hes', hrun'⟩ := h'
  exact ⟨es ++ es', List.forall_mem_append.mpr ⟨hes, hes'⟩,
    run_append_eq_some.mpr ⟨m, hrun, hrun'⟩⟩

/-- A step that the registry takes and that is allowed at the place. -/
theorem step_registry {e : Registry.Event} {registry : Registry} (hallows : s.place.allows e = true)
    (hstep : s.registry.step e = some registry) :
    step cfg s (.registry e) = some { s with registry, place := s.place.after e } := by
  simp [step, hallows, hstep]

/-- At a place where the threads are stopped, the steps that bring the call on are allowed, and only
the last of them takes `main` further. -/
theorem allows_of_goesOn {place : Place} {call : Registry.Call} {e : Registry.Event}
    {r r' : Registry} (hstops : place.stops = some call) (hcall : r.owner.call? = some call)
    (hgoes : e.GoesOn) (hstep : r.step e = some r') :
    place.allows e = true ∧ (e ≠ .finish → place.after e = place) := by
  have hpush : e ≠ .push := by
    rintro rfl
    cases Registry.Step.of_step hstep with
    | push howner => simp [howner, Registry.Owner.call?] at hcall
  have hpanic : ∀ t, e ≠ .sampler t .panicked := by
    rintro t rfl
    cases hgoes.panic
  have hrequest := hgoes.request
  cases hplace : place <;> rw [hplace] at hstops <;> cases hstops <;>
    cases e with
    | sampler t l => cases l <;> simp_all [Place.allows, Place.live, Place.after]
    | _ => simp_all [Place.allows, isStopOf, Place.after, Registry.Event.isRequest]

/-- The call that is under way at a place returns. -/
theorem leads_of_run {call : Registry.Call} (hstops : s.place.stops = some call)
    (hcall : s.registry.owner.call? = some call) {es : List Registry.Event} {r : Registry}
    (hes : ∀ e ∈ es, Registry.Event.GoesOn e) (hrun : run Registry.step s.registry es = some r)
    (hafter : r.owner = call.after) :
    ∃ registry, registry.owner = call.after ∧
      Leads cfg s { s with registry, place := s.place.after .finish } := by
  induction es generalizing s with
  | nil =>
      obtain rfl := Option.some.inj hrun
      rw [hafter, Registry.call?_after] at hcall
      cases hcall
  | cons e es ih =>
      obtain ⟨m, hstep, hrun⟩ := run_cons_eq_some.mp hrun
      obtain ⟨hgoes, hes⟩ := List.forall_mem_cons.mp hes
      obtain ⟨hallows, hstay⟩ := allows_of_goesOn hstops hcall hgoes hstep
      have hown : Event.Own (.registry e) := Or.inl hgoes
      have hfirst : step cfg s (.registry e) =
          some { s with registry := m, place := s.place.after e } := step_registry hallows hstep
      rcases Registry.call_step hcall hstep with hcall' | ⟨rfl, hreturned⟩
      · have hfinish : e ≠ .finish := by
          rintro rfl
          cases Registry.Step.of_step hstep with
          | finish =>
              rw [Registry.call?_after] at hcall'
              cases hcall'
        rw [hstay hfinish] at hfirst
        obtain ⟨registry, howner, hleads⟩ :=
          ih (s := { s with registry := m }) hstops hcall' hes hrun
        exact ⟨registry, howner, .head hown hfirst hleads⟩
      · exact ⟨m, hreturned, .head hown hfirst (.refl _)⟩

/-- A place where the threads are stopped is left in the end. -/
theorem leads_of_stops (h : Sound cfg past s) {call : Registry.Call}
    (hstops : s.place.stops = some call) :
    ∃ registry, registry.owner = call.after ∧
      Leads cfg s { s with registry, place := s.place.after .finish } := by
  rcases owner_of_stops h hstops with hidle | hcall
  · -- the call is still to be made
    have hstep : s.registry.step (.call call) =
        some { s.registry with owner := .storing call 0 } := by
      simp [Registry.step, Registry.callStop, hidle]
    have hallows : s.place.allows (.call call) = true ∧ s.place.after (.call call) = s.place := by
      cases hplace : s.place <;> rw [hplace] at hstops <;> cases hstops <;> exact ⟨rfl, rfl⟩
    have hfirst : step cfg s (.registry (.call call)) =
        some { s with
          registry := { s.registry with owner := .storing call 0 }
          place := s.place.after (.call call) } := step_registry hallows.1 hstep
    rw [hallows.2] at hfirst
    have hmade : Registry.Owner.call? (.storing call 0) = some call := rfl
    obtain ⟨es, r, hes, hrun, hafter, -⟩ :=
      Registry.exists_run_returning (h.reachable.step hstep) hmade
    obtain ⟨registry, howner, hleads⟩ := leads_of_run
      (s := { s with registry := { s.registry with owner := .storing call 0 } })
      hstops rfl hes hrun hafter
    have hown : Event.Own (.registry (.call call)) := Or.inr ⟨call, rfl⟩
    exact ⟨registry, howner, .head hown hfirst hleads⟩
  · obtain ⟨es, r, hes, hrun, hafter, -⟩ := Registry.exists_run_returning h.reachable hcall
    exact leads_of_run hstops hcall hes hrun hafter

/-- A run has come here. -/
def Reached (cfg : Config) (s : Program) : Prop := ∃ es, run (step cfg) {} es = some s

/-- What holds of every run holds here. -/
theorem Reached.sound (h : Reached cfg s) : ∃ past, Sound cfg past s := by
  obtain ⟨es, hrun⟩ := h
  exact ⟨es, sound_run hrun⟩

/-- What is led to is reached. -/
theorem Reached.leads (h : Reached cfg s) (hleads : Leads cfg s s') : Reached cfg s' := by
  obtain ⟨es, hrun⟩ := h
  obtain ⟨es', -, hrun'⟩ := hleads
  exact ⟨es ++ es', run_append_eq_some.mpr ⟨s, hrun, hrun'⟩⟩

/-- Once `main` is past the first check after a signal, nothing keeps it from returning. -/
theorem leads_of_leaving (h : Reached cfg s) (hleaving : s.place.leaving = true) :
    ∃ s', Leads cfg s s' ∧ s'.place = .ended .ok := by
  -- backwards from the end: each place leads to the next one
  have hdrop : ∀ s, Reached cfg s → s.place = .dropRegistry .ok →
      ∃ s', Leads cfg s s' ∧ s'.place = .ended .ok := by
    intro s h hplace
    obtain ⟨past, hsound⟩ := h.sound
    have hstops : s.place.stops = some .drop := by rw [hplace]; rfl
    obtain ⟨registry, -, hleads⟩ := leads_of_stops hsound hstops
    exact ⟨_, hleads, by rw [hplace]; rfl⟩
  have hruntime : ∀ s, Reached cfg s → s.place = .shutdownRuntime →
      ∃ s', Leads cfg s s' ∧ s'.place = .ended .ok := by
    intro s h hplace
    have hstep : step cfg s .runtimeDown = some { s with place := .dropRegistry .ok } :=
      goto_eq_some.mpr ⟨hplace, rfl⟩
    have hown : Event.Own .runtimeDown := trivial
    have hfirst : Leads cfg s { s with place := .dropRegistry .ok } :=
      .head hown hstep (.refl _)
    obtain ⟨s', hleads, hended⟩ := hdrop _ (h.leads hfirst) rfl
    exact ⟨s', hfirst.trans hleads, hended⟩
  have hexporter : ∀ s, Reached cfg s → s.place = .shutdownExporter →
      ∃ s', Leads cfg s s' ∧ s'.place = .ended .ok := by
    intro s h hplace
    have hstep : step cfg s .exporterDown = some { s with place := .shutdownRuntime } :=
      goto_eq_some.mpr ⟨hplace, rfl⟩
    have hown : Event.Own .exporterDown := trivial
    have hfirst : Leads cfg s { s with place := .shutdownRuntime } :=
      .head hown hstep (.refl _)
    obtain ⟨s', hleads, hended⟩ := hruntime _ (h.leads hfirst) rfl
    exact ⟨s', hfirst.trans hleads, hended⟩
  cases hplace : s.place with
  | shutdownRegistry =>
      obtain ⟨past, hsound⟩ := h.sound
      have hstops : s.place.stops = some .shutdown := by rw [hplace]; rfl
      obtain ⟨registry, -, hfirst⟩ := leads_of_stops hsound hstops
      obtain ⟨s', hleads, hended⟩ := hexporter _ (h.leads hfirst) (by rw [hplace]; rfl)
      exact ⟨s', hfirst.trans hleads, hended⟩
  | shutdownExporter => exact hexporter s h hplace
  | shutdownRuntime => exact hruntime s h hplace
  | dropRegistry exit =>
      rw [hplace] at hleaving
      cases exit with
      | ok => exact hdrop s h hplace
      | error => cases hleaving
  | ended exit =>
      rw [hplace] at hleaving
      cases exit with
      | ok => exact ⟨s, .refl s, hplace⟩
      | error => cases hleaving
  | _ =>
      rw [hplace] at hleaving
      cases hleaving

/-- `main` may still come to the condition of its loop. -/
def Place.mayLoad : Place → Bool
  | .addCollector _ | .check | .sleep => true
  | place => place.early

/-- The number of times the condition can still be read once the handler has stored. -/
def loadsLeft (s : Program) : Nat := if s.place.mayLoad then 1 else 0

/-- The condition of the loop is read. -/
def Event.isLoad : Event → Bool
  | .load => true
  | _ => false

/-- No step of the registry takes `main` back to the loop. -/
theorem mayLoad_after {place : Place} {e : Registry.Event} (h : (place.after e).mayLoad = true) :
    place.mayLoad = true := by
  cases place with
  | shutdownRegistry | shutdownExporter | shutdownRuntime | dropRegistry | ended | gone =>
      cases e with
      | sampler t l => cases l <;> simp_all [Place.after, Place.mayLoad, Place.early]
      | _ => simp_all [Place.after, Place.mayLoad, Place.early]
  | _ => rfl

/-- A step that does not lead back leaves no more to be read. -/
theorem loadsLeft_le (h : s'.place.mayLoad = true → s.place.mayLoad = true) :
    loadsLeft s' ≤ loadsLeft s := by
  unfold loadsLeft
  by_cases hthere : s'.place.mayLoad = true
  · rw [if_pos hthere, if_pos (h hthere)]
  · rw [if_neg hthere]
    exact Nat.zero_le _

/-- Once the handler has stored, the condition is false when it is read, which takes `main` out of
the loop, and no step leads back. -/
theorem loadsLeft_step (hrunning : s.running = some false) (hstep : step cfg s e = some s') :
    loadsLeft s' + (if e.isLoad then 1 else 0) ≤ loadsLeft s := by
  cases e with
  | load =>
      obtain ⟨hplace, rfl⟩ := goto_eq_some.mp hstep
      have hone : loadsLeft s = 1 := by rw [loadsLeft, hplace]; rfl
      rw [hone, hrunning]
      exact le_rfl
  | configured | logged | runtime | exporter | collector | wake =>
      obtain ⟨hplace, rfl⟩ := goto_eq_some.mp hstep
      exact (Nat.add_zero _).trans_le (loadsLeft_le fun _ => by rw [hplace]; rfl)
  | exporterDown | runtimeDown =>
      obtain ⟨-, rfl⟩ := goto_eq_some.mp hstep
      exact Nat.zero_le _
  | setRunning | handlerSet =>
      obtain ⟨hplace, hstep⟩ := Option.ite_none_right_eq_some.mp hstep
      obtain rfl := Option.some.inj hstep
      exact (Nat.add_zero _).trans_le (loadsLeft_le fun _ => by rw [hplace]; rfl)
  | registry e =>
      obtain ⟨-, hstep⟩ := Option.ite_none_right_eq_some.mp hstep
      obtain ⟨registry, -, hstep⟩ := Option.bind_eq_some_iff.mp hstep
      obtain rfl := Option.some.inj hstep
      exact (Nat.add_zero _).trans_le (loadsLeft_le mayLoad_after)
  | signal =>
      obtain ⟨-, hstep⟩ := Option.ite_none_right_eq_some.mp hstep
      obtain rfl := Option.some.inj hstep
      unfold receive
      cases s.handler with
      | true => exact le_rfl
      | false => exact Nat.zero_le _
  | handled =>
      obtain ⟨-, -, rfl⟩ := handled_eq_some.mp hstep
      exact le_rfl

/-- From anywhere past the start-up, a signal that is stored leads `main` out of its loop. -/
theorem leads_to_leaving (hstarted : s.place.started = true) (hrunning : s.running = some false) :
    ∃ s', Leads cfg s s' ∧ s'.place.leaving = true := by
  have hcheck : ∀ s : Program, s.running = some false → s.place = .check →
      ∃ s', Leads cfg s s' ∧ s'.place.leaving = true := by
    intro s hrunning hplace
    have hstep : step cfg s .load = some { s with place := .shutdownRegistry } :=
      goto_eq_some.mpr ⟨hplace, by rw [hrunning]; rfl⟩
    have hown : Event.Own .load := trivial
    exact ⟨_, .head hown hstep (.refl _), rfl⟩
  cases hplace : s.place with
  | check => exact hcheck s hrunning hplace
  | sleep =>
      have hstep : step cfg s .wake = some { s with place := .check } :=
        goto_eq_some.mpr ⟨hplace, rfl⟩
      have hown : Event.Own .wake := trivial
      obtain ⟨s', hleads, hleaving⟩ := hcheck { s with place := .check } hrunning rfl
      exact ⟨s', .head hown hstep hleads, hleaving⟩
  | dropRegistry exit | ended exit =>
      cases exit with
      | ok => exact ⟨s, .refl s, by rw [hplace]; rfl⟩
      | error =>
          rw [hplace] at hstarted
          cases hstarted
  | shutdownRegistry | shutdownExporter | shutdownRuntime =>
      exact ⟨s, .refl s, by rw [hplace]; rfl⟩
  | _ =>
      rw [hplace] at hstarted
      cases hstarted

/-- A signal the handler has not finished with stays until it has stored. -/
theorem signals_of_step (hsignals : s.running = some false ∨ 0 < s.signals)
    (hstep : step cfg s e = some s') : s'.running = some false ∨ 0 < s'.signals := by
  rcases hsignals with hrunning | hsignals
  · exact .inl (running_of_step hrunning hstep)
  · cases e with
    | handled =>
        obtain ⟨-, -, rfl⟩ := handled_eq_some.mp hstep
        exact .inl (by rw [store_eq])
    | configured | logged | runtime | exporter | collector | load | wake | exporterDown
    | runtimeDown =>
        obtain ⟨-, rfl⟩ := goto_eq_some.mp hstep
        exact .inr hsignals
    | setRunning | handlerSet =>
        obtain ⟨-, hstep⟩ := Option.ite_none_right_eq_some.mp hstep
        obtain rfl := Option.some.inj hstep
        exact .inr hsignals
    | registry e =>
        obtain ⟨-, hstep⟩ := Option.ite_none_right_eq_some.mp hstep
        obtain ⟨registry, -, hstep⟩ := Option.bind_eq_some_iff.mp hstep
        obtain rfl := Option.some.inj hstep
        exact .inr hsignals
    | signal =>
        obtain ⟨-, hstep⟩ := Option.ite_none_right_eq_some.mp hstep
        obtain rfl := Option.some.inj hstep
        unfold receive
        cases s.handler with
        | true => exact .inr (Nat.succ_pos _)
        | false => exact .inr hsignals

/-- The handler may store. -/
theorem handled_of_live (hlive : s.place.live = true) (hsignals : 0 < s.signals) :
    ∃ m, step cfg s .handled = some m ∧ m.place = s.place ∧ m.running = some false :=
  ⟨_, handled_eq_some.mpr ⟨hlive, hsignals, rfl⟩, rfl, by rw [store_eq]⟩

/-- From anywhere past the start-up, a signal that is stored or waits for the handler leads `main`
to its regular end. -/
theorem leads_to_end (h : Reached cfg s) (hstarted : s.place.started = true)
    (hsignal : s.running = some false ∨ 0 < s.signals) :
    ∃ s', Leads cfg s s' ∧ s'.place = .ended .ok := by
  have hstored : ∀ s, Reached cfg s → s.place.started = true → s.running = some false →
      ∃ s', Leads cfg s s' ∧ s'.place = .ended .ok := by
    intro s h hstarted hrunning
    obtain ⟨m, hloop, hleaving⟩ := leads_to_leaving hstarted hrunning
    obtain ⟨s', hrest, hended⟩ := leads_of_leaving (h.leads hloop) hleaving
    exact ⟨s', hloop.trans hrest, hended⟩
  rcases hsignal with hrunning | hsignals
  · exact hstored s h hstarted hrunning
  · by_cases hlive : s.place.live = true
    · obtain ⟨m, hstep, hplace, hrunning⟩ := handled_of_live hlive hsignals
      have hown : Event.Own .handled := trivial
      have hfirst : Leads cfg s m := .head hown hstep (.refl _)
      obtain ⟨s', hrest, hended⟩ := hstored m (h.leads hfirst) (by rw [hplace, hstarted]) hrunning
      exact ⟨s', hfirst.trans hrest, hended⟩
    · -- `main` has returned before the handler got to store
      refine ⟨s, .refl s, ?_⟩
      cases hplace : s.place with
      | ended exit =>
          cases exit with
          | ok => rfl
          | error =>
              rw [hplace] at hstarted
              cases hstarted
      | _ => simp_all [Place.live, Place.started]

/-- **A signal ends the program.** A signal that goes to the handler is not lost: until the handler
has stored, it may store. Once it has, the condition of the loop is read at most once more, whatever
happens. And when the start-up has succeeded, `main` can come from wherever it is to its regular
end, by the store of the handler and without a further signal, a callback that begins or a panic:
neither a thread in the middle of a tick nor a callback that holds a lock keeps the shutdown from
returning. -/
theorem signal_ends {es : List Event} (hrun : run (step cfg) {} es = some s)
    (hsignal : s.running = some false ∨ 0 < s.signals) :
    (∀ es' s', run (step cfg) s es' = some s' → s'.running = some false ∨
      0 < s'.signals ∧ (s'.place.live = true →
        ∃ m, step cfg s' .handled = some m ∧ m.running = some false)) ∧
    (s.running = some false →
      ∀ es' s', run (step cfg) s es' = some s' → es'.countP Event.isLoad ≤ 1) ∧
    (s.place.started = true → ∃ es' s', (∀ e ∈ es', Event.Own e) ∧
      run (step cfg) s es' = some s' ∧ s'.place = .ended .ok) := by
  refine ⟨?_, ?_, ?_⟩
  · intro es' s' hrun'
    -- stored or waiting is kept by every step, and while it waits it may be stored
    have hkept := run_invariant (I := fun s => s.running = some false ∨ 0 < s.signals)
      (fun _ _ _ _ hsignals hstep => signals_of_step hsignals hstep) hsignal hrun'
    rcases hkept with hrunning | hsignals
    · exact .inl hrunning
    · refine .inr ⟨hsignals, fun hlive => ?_⟩
      obtain ⟨m, hstep, -, hrunning⟩ := handled_of_live hlive hsignals
      exact ⟨m, hstep, hrunning⟩
  · intro hrunning es' s' hrun'
    -- with the store behind it, each reading of the condition is the last
    have hcount := run_countP_le_of_forall (I := fun s => s.running = some false)
      (p := Event.isLoad) (fun e _ _ _ hrunning hstep =>
        ⟨running_of_step hrunning hstep, loadsLeft_step hrunning hstep⟩) hrunning hrun'
    have hone : loadsLeft s ≤ 1 := by
      unfold loadsLeft
      split <;> omega
    omega
  · intro hstarted
    obtain ⟨s', ⟨es', hes', hrun'⟩, hended⟩ := leads_to_end ⟨es, hrun⟩ hstarted hsignal
    exact ⟨es', s', hes', hrun', hended⟩

/-- `main` sleeps, and the handler is at work on a signal. -/
def bareSignalled : Program := { bareStarted with place := .sleep, signals := 1 }

set_option maxRecDepth 4000 in
/-- The handler may store, and `main` comes to its end. -/
theorem signal_ends_bare :
    run (step bare) {} (bareStartUp ++ [.load, .signal]) = some bareSignalled ∧
      (∃ m, step bare bareSignalled .handled = some m ∧ m.running = some false) ∧
      ∃ es' s', (∀ e ∈ es', Event.Own e) ∧ run (step bare) bareSignalled es' = some s' ∧
        s'.place = .ended .ok := by
  have hrun : run (step bare) {} (bareStartUp ++ [.load, .signal]) = some bareSignalled := rfl
  obtain ⟨hkept, -, hends⟩ := signal_ends hrun (.inr Nat.one_pos)
  refine ⟨hrun, ?_, hends rfl⟩
  rcases hkept [] bareSignalled rfl with hrunning | ⟨-, hmay⟩
  · cases hrunning
  · exact hmay rfl

end

end Program

end MetricsExporter.Exporter
