/-
# MetricsExporter.Framework.Stopping -- how long a shutdown waits

`shutdown` sets every stop flag before it joins the first thread, so that all threads come to their
ends at the same time and not one after the other. `TimedRegistry` is the registry with a clock that
all of its threads read. Each of them is a `Timed` thread of its own (`thread_step`), and one whose
flag is set is at its end within a tick and a pause. `shutdown_in_time` is what follows for a call:
it waits for the slowest thread, whatever the number of them.

Each thread has its own interval and its own bounds on its delays, and only the threads are held to
theirs: how long the owner takes between two joins, and how long a callback keeps its read lock, is
part of what the bounds on a pass allow or is left open. A thread that the call has not found (it
was added later) is not spoken of.
-/
import MetricsExporter.Framework.Clock
import MetricsExporter.Framework.Registry

namespace MetricsExporter.Framework

open MetricsExporter.Lib

/-! ## One thread -/

namespace Timed

/-- The times a phase names are past, or no further ahead than the interval. -/
def Phase.Recent (interval now : Nat) : Phase → Prop
  | .idle since => since ≤ now
  | .ticking started => started ≤ now
  | .measured since pause => since ≤ now ∧ pause ≤ interval
  | .sleeping deadline => deadline ≤ now + interval

/-- What holds of the phase in every run. -/
structure Regular (interval : Nat) (s : Timed) : Prop where
  fits : s.phase.fits s.sampler.pc = true
  recent : s.phase.Recent interval s.now

/-- The clock only goes forward, and a pause is never longer than the interval. -/
theorem regular_step {interval : Nat} {s s' : Timed} {l : Label} (h : Regular interval s)
    (hstep : step interval s l = some s') : Regular interval s' := by
  refine ⟨fits_step h.fits hstep, ?_⟩
  have hrecent := h.recent
  cases Step.of_step hstep with
  | advance duration =>
      cases hphase : s.phase <;> simp only [hphase, Phase.Recent] at hrecent ⊢ <;> omega
  | start => exact Nat.le_refl s.now
  | short => exact ⟨Nat.le_refl s.now, Nat.sub_le ..⟩
  | long => exact Nat.le_add_right s.now interval
  | sleep hphase =>
      rw [hphase] at hrecent
      exact Nat.add_le_add_left hrecent.2 s.now
  | @act l th hallows hsampler =>
      cases l with
      | wake => exact Nat.le_refl s.now
      | _ => exact hrecent

/-- The latest time at which a thread is at its end once its stop flag is set: at its next check, in
front of which there may be a tick and a pause. -/
def endsBy (d : Delays) (interval : Nat) (s : Timed) : Nat :=
  match s.phase with
  | .idle since => since + d.run + if s.sampler.pc = .clear then d.period interval else 0
  | .ticking started => started + d.period interval
  | .measured since pause => since + d.run + pause + d.wake + d.run
  | .sleeping deadline => deadline + d.wake + d.run

/-- The thread is never late, is told to stop, and is at its end by then. -/
structure Ending (d : Delays) (interval limit : Nat) (s : Timed) : Prop where
  fits : s.phase.fits s.sampler.pc = true
  prompt : s.prompt d = true
  stop : s.sampler.stop = true
  ends : s.endsBy d interval ≤ limit

section

variable {d : Delays} {interval limit : Nat} {s s' : Timed} {l : Label}

/-- How long it takes a thread to come to its end, from the moment it is told to. -/
def Delays.latency (d : Delays) (interval : Nat) : Nat := d.run + d.period interval

/-- Told to stop, a thread in any phase is at its end within its latency. -/
theorem Regular.ending (h : Regular interval s) (hprompt : s.prompt d = true)
    (hstop : s.sampler.stop = true) : Ending d interval (s.now + d.latency interval) s := by
  refine ⟨h.fits, hprompt, hstop, ?_⟩
  have hrecent := h.recent
  unfold endsBy Delays.latency Delays.period
  cases hphase : s.phase with
  | idle since =>
      rw [hphase, Phase.Recent] at hrecent
      dsimp only
      split <;> omega
  | ticking | measured | sleeping =>
      simp only [hphase, Phase.Recent] at hrecent
      dsimp only
      omega

/-- **A thread comes no later to its end** by its steps, or by letting time pass. -/
theorem endsBy_step (hfits : s.phase.fits s.sampler.pc = true) (hprompt : s.prompt d = true)
    (hstop : s.sampler.stop = true) (hstep : step interval s l = some s') :
    s'.endsBy d interval ≤ s.endsBy d interval := by
  have hlimit := le_limit_of_prompt hprompt
  cases Step.of_step hstep with
  | advance => exact Nat.le_refl _
  | @start since hpc hphase =>
      have hnow : s.now ≤ since + d.run := by simpa [hphase, hpc, Phase.limit] using hlimit
      simp only [endsBy, hphase, hpc, if_true]
      omega
  | @short started hpc hphase helapsed =>
      have hnow : s.now ≤ started + d.pass := by simpa [hphase, hpc, Phase.limit] using hlimit
      simp only [endsBy, hphase, Delays.period]
      omega
  | @long started hpc hphase helapsed =>
      have hnow : s.now ≤ started + d.pass := by simpa [hphase, hpc, Phase.limit] using hlimit
      simp only [endsBy, hphase, Delays.period]
      omega
  | @sleep since pause hphase =>
      rw [hphase, Phase.fits, beq_iff_eq] at hfits
      have hnow : s.now ≤ since + d.run := by simpa [hphase, hfits, Phase.limit] using hlimit
      simp only [endsBy, hphase]
      omega
  | @act l th hallows hsampler =>
      cases Sampler.Step.of_step hsampler with
      | load hpc =>
          -- the check finds the flag set
          simp only [endsBy, phaseAfter, hpc, hstop, if_true]
          cases s.phase <;> simp
      | wake hpc =>
          cases hphase : s.phase with
          | idle | ticking | measured => simp [allows, hphase] at hallows
          | sleeping deadline =>
              have hnow : s.now ≤ deadline + d.wake := by
                simpa [hphase, hpc, Phase.limit] using hlimit
              simp only [endsBy, phaseAfter, hphase]
              simp
              omega
      | clear hpc | append group hpc | collected hpc | panicked hpc | lock hpc | swap hpc
      | unlock hpc =>
          cases hphase : s.phase <;> simp_all [Phase.fits, endsBy, phaseAfter, allows]
      | store | acquire | look | release => exact Nat.le_refl _

/-- It keeps to that as long as it is not late. -/
theorem ending_step (h : Ending d interval limit s) (hstep : step interval s l = some s')
    (hprompt : s'.prompt d = true) : Ending d interval limit s' where
  fits := fits_step h.fits hstep
  prompt := hprompt
  stop := by
    cases Step.of_step hstep with
    | act hallows hsampler => exact Sampler.stop_of_step hsampler h.stop
    | advance | start | short | long | sleep => exact h.stop
  ends := Nat.le_trans (endsBy_step h.fits h.prompt h.stop hstep) h.ends

/-- A thread that lives is before its limit, and that is before its end. -/
theorem Ending.now_le (h : Ending d interval limit s) (hlive : s.sampler.pc ≠ .exited) :
    s.now ≤ limit := by
  have hlimit := le_limit_of_prompt h.prompt hlive
  refine Nat.le_trans hlimit (Nat.le_trans ?_ h.ends)
  unfold endsBy Phase.limit Delays.period
  cases s.phase <;> dsimp only <;> omega

end

end Timed

/-! ## The registry with the clock -/

/-- The registry, the time, and the phase of each of its sampling threads. -/
structure TimedRegistry where
  registry : Registry := {}
  now : Nat := 0
  phases : List Timed.Phase := []

namespace TimedRegistry

/-- The passing of time, the readings of the clock by each thread, and the steps of the registry. -/
inductive Label where
  /-- time passes -/
  | advance (duration : Nat)
  /-- a thread reads the clock at the start of a tick -/
  | start (t : Nat)
  /-- a thread reads the clock after a tick -/
  | elapsed (t : Nat)
  /-- a thread goes to sleep -/
  | sleep (t : Nat)
  /-- a step of the registry, or any other of a thread or a callback -/
  | act (e : Registry.Event)

/-- The `t`-th sampling thread. -/
def thread (s : TimedRegistry) (t : Nat) : Option Timed := do
  let sampler ← s.registry.samplers[t]?
  let phase ← s.phases[t]?
  return { sampler, now := s.now, phase }

/-- A thread goes from one phase to the next. -/
def turn (s : TimedRegistry) (interval t : Nat) (l : Timed.Label) : Option TimedRegistry := do
  let th ← s.thread t
  let th' ← Timed.step interval th l
  return { s with phases := s.phases.set t th'.phase }

/-- What a thread does must be allowed at its phase. -/
def allows (s : TimedRegistry) : Registry.Event → Bool
  | .sampler t l => (s.thread t).any (·.allows l)
  | _ => true

/-- The phases after a step that leaves so many threads. A new thread is on its way to its first
check. -/
def phasesAfter (s : TimedRegistry) (count : Nat) : Registry.Event → List Timed.Phase
  | .sampler t l => (s.thread t).elim s.phases fun th => s.phases.set t (th.phaseAfter l)
  | _ => if s.phases.length < count then s.phases ++ [.idle s.now] else s.phases

/-- One step, where the collector of the `t`-th thread has the `t`-th interval. -/
def step (interval : Nat → Nat) (s : TimedRegistry) : Label → Option TimedRegistry
  | .advance duration => some { s with now := s.now + duration }
  | .start t => s.turn (interval t) t .start
  | .elapsed t => s.turn (interval t) t .elapsed
  | .sleep t => s.turn (interval t) t .sleep
  | .act e =>
      if s.allows e then do
        let registry ← s.registry.step e
        return { s with registry, phases := s.phasesAfter registry.samplers.length e }
      else none

/-- No thread is late. -/
def prompt (d : Nat → Timed.Delays) (s : TimedRegistry) : Bool :=
  (List.range s.phases.length).all fun t => (s.thread t).all (Timed.prompt (d t))

/-- A step after which no thread is late. -/
def promptStep (d : Nat → Timed.Delays) (interval : Nat → Nat) (s : TimedRegistry) (l : Label) :
    Option TimedRegistry :=
  (step interval s l).filter (prompt d)

section

variable {d : Nat → Timed.Delays} {interval : Nat → Nat} {s s' m : TimedRegistry} {l : Label}
  {ls : List Label} {t : Nat} {th : Timed}

/-- A step, and nobody late behind it. -/
theorem promptStep_eq_some :
    promptStep d interval s l = some s' ↔ step interval s l = some s' ∧ prompt d s' = true :=
  Option.filter_eq_some_iff

/-- A thread is its sampler and its phase, at the time of all. -/
theorem thread_eq_some :
    s.thread t = some th ↔
      s.registry.samplers[t]? = some th.sampler ∧ s.phases[t]? = some th.phase ∧
        th.now = s.now := by
  unfold thread
  cases s.registry.samplers[t]? with
  | none => simp
  | some sampler =>
      cases s.phases[t]? with
      | none => simp
      | some phase =>
          obtain ⟨sampler', now, phase'⟩ := th
          simp [eq_comm, and_comm]

/-- Nobody is late, so this thread is not. -/
theorem prompt_of_thread (h : s.prompt d = true) (hth : s.thread t = some th) :
    th.prompt (d t) = true := by
  obtain ⟨-, hphase, -⟩ := thread_eq_some.mp hth
  obtain ⟨hlt, -⟩ := List.getElem?_eq_some_iff.mp hphase
  have hall := List.all_eq_true.mp h t (List.mem_range.mpr hlt)
  rwa [hth] at hall

/-- Each thread has its phase. -/
def Paired (s : TimedRegistry) : Prop := s.phases.length = s.registry.samplers.length

/-! ## Each thread runs by itself -/

/-- A turn of a thread is a step of that thread alone. -/
theorem exists_of_turn {t i : Nat} {l : Timed.Label} (h : s.turn i t l = some s') :
    ∃ th th', s.thread t = some th ∧ Timed.step i th l = some th' ∧
      { s with phases := s.phases.set t th'.phase } = s' := by
  obtain ⟨th, hth, h⟩ := Option.bind_eq_some_iff.mp h
  obtain ⟨th', hstep, h⟩ := Option.bind_eq_some_iff.mp h
  exact ⟨th, th', hth, hstep, Option.some.inj h⟩

/-- What a step is for the `t`-th thread: nothing, or a step of its own. -/
def Follows (interval : Nat → Nat) (t : Nat) (th : Timed) (s' : TimedRegistry) : Prop :=
  ∃ th', s'.thread t = some th' ∧ (th' = th ∨ ∃ l, Timed.step (interval t) th l = some th')

/-- When a thread reads the clock, the others stay as they are. -/
theorem follows_turn {t' : Nat} {l : Timed.Label} (hth : s.thread t = some th)
    (hsame : ∀ th th', Timed.step (interval t') th l = some th' →
      th'.sampler = th.sampler ∧ th'.now = th.now)
    (hstep : s.turn (interval t') t' l = some s') : Follows interval t th s' := by
  obtain ⟨th₀, th', hth₀, hthread, rfl⟩ := exists_of_turn hstep
  obtain ⟨hsampler, hphase, hnow⟩ := thread_eq_some.mp hth
  by_cases ht : t' = t
  · subst ht
    obtain rfl := Option.some.inj (hth₀.symm.trans hth)
    obtain ⟨hlt, -⟩ := List.getElem?_eq_some_iff.mp hphase
    obtain ⟨hsampler', hnow'⟩ := hsame _ _ hthread
    refine ⟨th', thread_eq_some.mpr ⟨?_, List.getElem?_set_self hlt, ?_⟩, .inr ⟨l, hthread⟩⟩
    · rw [hsampler']
      exact hsampler
    · rw [hnow']
      exact hnow
  · refine ⟨th, thread_eq_some.mpr ⟨hsampler, ?_, hnow⟩, .inl rfl⟩
    rw [List.getElem?_set_ne ht]
    exact hphase

/-- Outside of its own steps a thread keeps its phase. -/
theorem getElem?_phasesAfter {count : Nat} {e : Registry.Event} {phase : Timed.Phase}
    (he : e.shown t = []) (hphase : s.phases[t]? = some phase) :
    (s.phasesAfter count e)[t]? = some phase := by
  have hspawned : (if s.phases.length < count then s.phases ++ [.idle s.now]
      else s.phases)[t]? = some phase := by
    obtain ⟨hlt, -⟩ := List.getElem?_eq_some_iff.mp hphase
    split
    · exact (List.getElem?_append_left hlt).trans hphase
    · exact hphase
  cases e with
  | sampler t' l =>
      have ht : t' ≠ t := by simpa [Registry.Event.shown] using he
      rw [phasesAfter]
      cases s.thread t' with
      | none => exact hphase
      | some th => exact (List.getElem?_set_ne ht).trans hphase
  | add | push | call | store | stored | take | join | finish => exact hspawned

/-- A step of the registry is one of the thread's own, a store to its flag, or nothing to it. -/
theorem follows_act {e : Registry.Event} {r : Registry} (hth : s.thread t = some th)
    (hallows : s.allows e = true) (hr : s.registry.step e = some r) :
    Follows interval t th
      { s with registry := r, phases := s.phasesAfter r.samplers.length e } := by
  obtain ⟨hsampler, hphase, hnow⟩ := thread_eq_some.mp hth
  -- the thread is still there, and does not see the step
  have hstill : e.shown t = [] → r.samplers[t]? = some th.sampler →
      Follows interval t th
        { s with registry := r, phases := s.phasesAfter r.samplers.length e } := fun he hkeep =>
    ⟨th, thread_eq_some.mpr ⟨hkeep, getElem?_phasesAfter he hphase, hnow⟩, .inl rfl⟩
  cases Registry.Step.of_step hr with
  | @sampler t' l th₀ th' hl hth₀ hstep =>
      by_cases ht : t' = t
      · subst ht
        obtain rfl := Option.some.inj (hth₀.symm.trans hsampler)
        obtain ⟨hlt, -⟩ := List.getElem?_eq_some_iff.mp hsampler
        obtain ⟨hlt', -⟩ := List.getElem?_eq_some_iff.mp hphase
        have hallowed : th.allows l = true := by simpa [allows, hth] using hallows
        have hthread : Timed.step (interval t') th (.act l) =
            some { th with sampler := th', phase := th.phaseAfter l } := by
          simp [Timed.step, hallowed, hstep]
        refine ⟨{ th with sampler := th', phase := th.phaseAfter l },
          thread_eq_some.mpr ⟨List.getElem?_set_self hlt, ?_, hnow⟩, .inr ⟨.act l, hthread⟩⟩
        rw [phasesAfter, hth]
        exact List.getElem?_set_self hlt'
      · refine hstill (if_neg ht) ?_
        exact (List.getElem?_set_ne ht).trans hsampler
  | skip items spawned howner hskip => exact hstill rfl hsampler
  | @add items howner hitems =>
      obtain ⟨hlt, -⟩ := List.getElem?_eq_some_iff.mp hsampler
      refine hstill rfl ?_
      exact (List.getElem?_append_left hlt).trans hsampler
  | @store call next entry howner hentry =>
      by_cases ht : entry.stop = t
      · have hthread : Timed.step (interval t) th (.act .store) =
            some { th with sampler := { th.sampler with stop := true } } := rfl
        have hkept : (s.phasesAfter (Registry.storeStop s.registry.samplers entry.stop).length
            .store)[t]? = some th.phase := getElem?_phasesAfter rfl hphase
        refine ⟨{ th with sampler := { th.sampler with stop := true } },
          thread_eq_some.mpr ⟨?_, hkept, hnow⟩, .inr ⟨.act .store, hthread⟩⟩
        rw [ht]
        exact Registry.storeStop_self hsampler
      · refine hstill rfl ?_
        exact (Registry.storeStop_of_ne ht).trans hsampler
  | push | call | stored | take | taken | join | finish =>
      exact hstill rfl hsampler

/-- **A step of the registry with the clock is a step of each of its threads**, or passes it by. -/
theorem thread_step (hth : s.thread t = some th) (hstep : step interval s l = some s') :
    Follows interval t th s' := by
  obtain ⟨hsampler, hphase, hnow⟩ := thread_eq_some.mp hth
  cases l with
  | advance duration =>
      obtain rfl := Option.some.inj hstep
      refine ⟨{ th with now := th.now + duration }, thread_eq_some.mpr ⟨hsampler, hphase, ?_⟩,
        .inr ⟨.advance duration, rfl⟩⟩
      exact congrArg (· + duration) hnow
  | start t' | elapsed t' | sleep t' =>
      refine follows_turn hth (fun th th' hthread => ?_) hstep
      cases Timed.Step.of_step hthread <;> exact ⟨rfl, rfl⟩
  | act e =>
      obtain ⟨hallows, hstep⟩ := Option.ite_none_right_eq_some.mp hstep
      obtain ⟨r, hr, hstep⟩ := Option.bind_eq_some_iff.mp hstep
      obtain rfl := Option.some.inj hstep
      exact follows_act hth hallows hr

/-! ## In every run -/

/-- Forgetting the clock leaves a step of the registry, or none. -/
theorem registry_step (hstep : step interval s l = some s') :
    s'.registry = s.registry ∨ ∃ e, s.registry.step e = some s'.registry := by
  cases l with
  | advance duration =>
      obtain rfl := Option.some.inj hstep
      exact .inl rfl
  | start t | elapsed t | sleep t =>
      obtain ⟨_, _, -, -, rfl⟩ := exists_of_turn hstep
      exact .inl rfl
  | act e =>
      obtain ⟨-, hstep⟩ := Option.ite_none_right_eq_some.mp hstep
      obtain ⟨r, hr, hstep⟩ := Option.bind_eq_some_iff.mp hstep
      obtain rfl := Option.some.inj hstep
      exact .inr ⟨e, hr⟩

/-- A spawn adds a thread and a phase, and nothing takes either away. -/
theorem paired_step (h : Paired s) (hstep : step interval s l = some s') : Paired s' := by
  unfold Paired at h ⊢
  cases l with
  | advance duration =>
      obtain rfl := Option.some.inj hstep
      exact h
  | start t | elapsed t | sleep t =>
      obtain ⟨_, _, -, -, rfl⟩ := exists_of_turn hstep
      exact (List.length_set ..).trans h
  | act e =>
      obtain ⟨-, hstep⟩ := Option.ite_none_right_eq_some.mp hstep
      obtain ⟨r, hr, hstep⟩ := Option.bind_eq_some_iff.mp hstep
      obtain rfl := Option.some.inj hstep
      cases Registry.Step.of_step hr with
      | @sampler t l =>
          rw [phasesAfter]
          cases s.thread t <;> simp [h]
      | add => simp [phasesAfter, h]
      | store => simp [phasesAfter, h, Registry.storeStop]
      | skip | push | call | stored | take | taken | join | finish => simp [phasesAfter, h]

/-- So every sampler is a thread with a phase. -/
theorem Paired.exists_thread (h : Paired s) (ht : t < s.registry.samplers.length) :
    ∃ th, s.thread t = some th := by
  have ht' : t < s.phases.length := by
    rw [h]
    exact ht
  exact ⟨{ sampler := s.registry.samplers[t], now := s.now, phase := s.phases[t] },
    thread_eq_some.mpr ⟨List.getElem?_eq_getElem ht, List.getElem?_eq_getElem ht', rfl⟩⟩

/-- A thread that was not there before is on its way to its first check. -/
theorem regular_of_new (hpaired : Paired s) (hnone : s.thread t = none)
    (hstep : step interval s l = some s') (hth : s'.thread t = some th) :
    th.Regular (interval t) := by
  obtain ⟨hsampler, hphase, hnow⟩ := thread_eq_some.mp hth
  obtain ⟨hlt, -⟩ := List.getElem?_eq_some_iff.mp hsampler
  have hle : s.registry.samplers.length ≤ t := by
    by_contra hlt
    obtain ⟨th₀, hth₀⟩ := hpaired.exists_thread (Nat.lt_of_not_le hlt)
    rw [hnone] at hth₀
    cases hth₀
  cases l with
  | advance duration =>
      obtain rfl := Option.some.inj hstep
      exact absurd hlt (Nat.not_lt_of_le hle)
  | start t' | elapsed t' | sleep t' =>
      obtain ⟨_, _, -, -, rfl⟩ := exists_of_turn hstep
      exact absurd hlt (Nat.not_lt_of_le hle)
  | act e =>
      obtain ⟨-, hstep⟩ := Option.ite_none_right_eq_some.mp hstep
      obtain ⟨r, hr, hstep⟩ := Option.bind_eq_some_iff.mp hstep
      obtain rfl := Option.some.inj hstep
      cases Registry.Step.of_step hr with
      | @add items howner hitems =>
          obtain rfl : t = s.registry.samplers.length := by
            rw [List.length_append, List.length_singleton] at hlt
            omega
          have hspawned : th.sampler = { items } := by simpa [eq_comm] using hsampler
          have hidle : th.phase = .idle s.now := by
            simpa [phasesAfter, hpaired.symm, eq_comm] using hphase
          refine ⟨by rw [hidle, hspawned]; rfl, ?_⟩
          rw [hidle, hnow]
          exact Nat.le_refl s.now
      | sampler | store =>
          simp only [Registry.storeStop, List.length_set, List.length_modify] at hlt
          exact absurd hlt (Nat.not_lt_of_le hle)
      | skip | push | call | stored | take | taken | join | finish =>
          exact absurd hlt (Nat.not_lt_of_le hle)

/-- What holds in every run in which no thread is late. -/
structure Orderly (d : Nat → Timed.Delays) (interval : Nat → Nat) (s : TimedRegistry) : Prop where
  coherent : s.registry.Coherent
  paired : Paired s
  prompt : s.prompt d = true
  regular : ∀ t th, s.thread t = some th → th.Regular (interval t)

/-- There are no threads yet. -/
theorem orderly_init : Orderly d interval {} where
  coherent := Registry.coherent_init
  paired := rfl
  prompt := rfl
  regular := nofun

/-- What holds of the registry and of each thread by itself holds of them together. -/
theorem orderly_step (h : Orderly d interval s) (hstep : promptStep d interval s l = some s') :
    Orderly d interval s' := by
  obtain ⟨hstep, hprompt⟩ := promptStep_eq_some.mp hstep
  refine ⟨?_, paired_step h.paired hstep, hprompt, fun t th' hth' => ?_⟩
  · rcases registry_step hstep with hsame | ⟨e, he⟩
    · rw [hsame]
      exact h.coherent
    · exact Registry.coherent_step h.coherent he
  · cases hth : s.thread t with
    | none => exact regular_of_new h.paired hth hstep hth'
    | some th =>
        obtain ⟨th₁, hth₁, hfollows⟩ := thread_step hth hstep
        obtain rfl := Option.some.inj (hth₁.symm.trans hth')
        rcases hfollows with rfl | ⟨l', hl'⟩
        · exact h.regular t th₁ hth
        · exact Timed.regular_step (h.regular t th hth) hl'

/-- So it is in every run in which no thread is late. -/
theorem orderly_run {past : List Label} (hrun : run (promptStep d interval) {} past = some m) :
    Orderly d interval m :=
  run_invariant (fun _ _ _ _ h hstep => orderly_step h hstep) orderly_init hrun

/-- A call has set the last stop flag: it is behind its first loop, or already joins. -/
def AllStored (s : TimedRegistry) : Prop :=
  ∃ call, s.registry.owner = .storing call s.registry.entries.length ∨
    ∃ next, s.registry.owner = .joining call next

/-- From then on all threads are told to stop. -/
theorem Orderly.stop (h : Orderly d interval m) (hstored : m.AllStored)
    (hth : m.thread t = some th) : th.sampler.stop = true := by
  obtain ⟨hsampler, -⟩ := thread_eq_some.mp hth
  obtain ⟨hlt, -⟩ := List.getElem?_eq_some_iff.mp hsampler
  have hprogress := h.coherent.progress
  have hlength := h.coherent.length
  -- no thread is without its entry, so that the loop has gone past all of them
  have hstopped : m.registry.Stopped t := by
    obtain ⟨call, howner | ⟨next, howner⟩⟩ := hstored
    · rw [howner] at hprogress hlength
      exact hprogress t (by rwa [hlength] at hlt)
    · rw [howner] at hprogress hlength
      exact hprogress.1 t (by rwa [hlength] at hlt)
  obtain ⟨th', hth', hstop⟩ := hstopped
  obtain rfl := Option.some.inj (hsampler.symm.trans hth')
  exact hstop

/-- A thread that is told to stop is at its end in time. -/
theorem ending_run {limit : Nat} (hth : m.thread t = some th)
    (hending : th.Ending (d t) (interval t) limit)
    (hrun : run (promptStep d interval) m ls = some s) :
    ∃ th', s.thread t = some th' ∧ th'.Ending (d t) (interval t) limit := by
  have hinv : ∀ l ∈ ls, ∀ s s' : TimedRegistry,
      (∃ th, s.thread t = some th ∧ th.Ending (d t) (interval t) limit) →
      promptStep d interval s l = some s' →
      ∃ th', s'.thread t = some th' ∧ th'.Ending (d t) (interval t) limit := by
    rintro l - s s' ⟨th, hth, hending⟩ hstep
    obtain ⟨hstep, hprompt⟩ := promptStep_eq_some.mp hstep
    obtain ⟨th', hth', rfl | ⟨l', hl'⟩⟩ := thread_step hth hstep
    · exact ⟨th', hth', hending⟩
    · exact ⟨th', hth', Timed.ending_step hending hl' (prompt_of_thread hprompt hth')⟩
  exact run_invariant (I := fun s : TimedRegistry =>
    ∃ th, s.thread t = some th ∧ th.Ending (d t) (interval t) limit) hinv ⟨th, hth, hending⟩ hrun

/-- **A shutdown waits for the slowest thread.** From the moment right behind the store of the last
stop flag, in a run in which no thread is late: each thread is at its end within its own latency, a
tick and a pause at most, whatever the other threads do, so that once the longest latency has passed
no join waits any more. -/
theorem shutdown_in_time {past : List Label}
    (hpast : run (promptStep d interval) {} past = some m) (hstored : m.AllStored)
    (hrun : run (promptStep d interval) m ls = some s) :
    (∀ t th, t < m.registry.samplers.length → s.registry.samplers[t]? = some th →
      th.pc ≠ .exited → s.now ≤ m.now + (d t).latency (interval t)) ∧
    (∀ call next t, t < m.registry.samplers.length → s.registry.owner = .waiting call next t →
      m.now + (d t).latency (interval t) < s.now →
        (s.registry.step (.join t)).isSome = true) := by
  have horderly := orderly_run hpast
  -- every thread that was there is there, and at its end in time
  have hends : ∀ t, t < m.registry.samplers.length → ∃ th, s.thread t = some th ∧
      th.Ending (d t) (interval t) (m.now + (d t).latency (interval t)) := by
    intro t ht
    obtain ⟨th, hth⟩ := horderly.paired.exists_thread ht
    obtain ⟨-, -, hnow⟩ := thread_eq_some.mp hth
    have hending := (horderly.regular t th hth).ending (prompt_of_thread horderly.prompt hth)
      (horderly.stop hstored hth)
    rw [hnow] at hending
    exact ending_run hth hending hrun
  constructor
  · intro t th ht hsampler hlive
    obtain ⟨th', hth', hending⟩ := hends t ht
    obtain ⟨hsampler', -, hnow⟩ := thread_eq_some.mp hth'
    obtain rfl := Option.some.inj (hsampler'.symm.trans hsampler)
    exact hnow ▸ hending.now_le hlive
  · intro call next t ht hwaiting hlate
    obtain ⟨th', hth', hending⟩ := hends t ht
    obtain ⟨hsampler, -, hnow⟩ := thread_eq_some.mp hth'
    -- after its latency a thread that still lived would be late
    have hexited : th'.sampler.pc = .exited := by
      by_contra hlive
      have hnotlate := hending.now_le hlive
      omega
    simp [Registry.step, Registry.join, hwaiting, hsampler, hexited]

/-- A first tick that takes no time, and the pause behind it. -/
def tickAndPause (t : Nat) : List Label :=
  [.act (.sampler t .load), .start t] ++
    [Sampler.Label.clear, .collected, .lock, .swap, .unlock].map (fun l => .act (.sampler t l)) ++
    [.elapsed t, .sleep t]

/-- Two threads are asleep, for 10 and for 3, when they are told to stop. -/
def stopTwo : List Label :=
  [.act (.add [Sampler.fakeCount] true), .act .push, .act (.add [Sampler.fakeCount] true),
    .act .push] ++ tickAndPause 0 ++ tickAndPause 1 ++
    [.act (.call .shutdown), .act .store, .act .store]

/-- The interval of the first thread and that of all others. -/
def twoIntervals (t : Nat) : Nat := if t = 0 then 10 else 3

/-- Both flags are stored. -/
def twoStopped : TimedRegistry where
  registry := {
    entries := [⟨0, some 0⟩, ⟨1, some 1⟩]
    owner := .storing .shutdown 2
    samplers := List.replicate 2 { items := [Sampler.fakeCount], stop := true, pc := .sleep } }
  phases := [.sleeping 10, .sleeping 3]

/-- The second ends while the first is waited for. -/
def waitTwo : List Label :=
  [.act .stored, .act .take, .advance 3, .act (.sampler 1 .wake), .act (.sampler 1 .load),
    .advance 7]

/-- The first is still asleep at the end of its interval, and the second has gone. -/
def twoWaiting : TimedRegistry where
  registry := {
    entries := [⟨0, none⟩, ⟨1, some 1⟩]
    owner := .waiting .shutdown 0 0
    samplers := [{ items := [Sampler.fakeCount], stop := true, pc := .sleep },
      { items := [Sampler.fakeCount], stop := true, pc := .exited }] }
  now := 10
  phases := [.sleeping 10, .idle 3]

/-- The first thread has slept through its interval, and is no later than its latency allows. -/
theorem shutdown_in_time_twoWaiting :
    run (promptStep (fun _ => ⟨5, 0, 0⟩) twoIntervals) {} stopTwo = some twoStopped ∧
      run (promptStep (fun _ => ⟨5, 0, 0⟩) twoIntervals) twoStopped waitTwo = some twoWaiting ∧
      twoWaiting.now ≤ twoStopped.now + (Timed.Delays.mk 5 0 0).latency 10 := by
  have hpast : run (promptStep (fun _ => ⟨5, 0, 0⟩) twoIntervals) {} stopTwo =
      some twoStopped := rfl
  have hrun : run (promptStep (fun _ => ⟨5, 0, 0⟩) twoIntervals) twoStopped waitTwo =
      some twoWaiting := rfl
  refine ⟨hpast, hrun, ?_⟩
  exact (shutdown_in_time hpast ⟨.shutdown, .inl rfl⟩ hrun).1 0 _ (by decide) rfl (by decide)

end

end TimedRegistry

end MetricsExporter.Framework
