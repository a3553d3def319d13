/-
# MetricsExporter.Framework.Clock -- the sampling loop and the clock it reads

The loop of `Registry::add` reads a clock at the start of a tick and after it, and sleeps for what
is left of the interval. `Timed` is a sampling thread with a clock that never goes back. Time passes
between any two of its steps, by any amount. Forgetting the clock leaves a run of the sampler, so
what holds of every run of a sampler holds here too.

Of `Instant` it is assumed that it never goes back, and of `thread::sleep` that it returns no
earlier than asked; both are documented. `ticks_keep_interval` needs nothing else. How late a thread
may be is no matter of the program, so `ticks_on_time` takes bounds on it (`Delays`) and speaks of
the runs within them. Times are natural numbers, with no end to them.
-/
import MetricsExporter.Framework.Sampler
import MetricsExporter.Lib.Progress
import Mathlib.Data.List.Chain

namespace MetricsExporter.Framework

open MetricsExporter.Lib

namespace Timed

/-- Where the thread stands between two readings of the clock. Times are in nanoseconds. -/
inductive Phase where
  /-- before `let started = Instant::now()`, since the thread came to its check -/
  | idle (since : Nat)
  /-- from `Instant::now()` to `started.elapsed()` -/
  | ticking (started : Nat)
  /-- `elapsed` was read, and a pause of `interval - elapsed` is due -/
  | measured (since pause : Nat)
  /-- asleep, and until the deadline at least -/
  | sleeping (deadline : Nat)
  deriving DecidableEq, Repr

end Timed

/-- A sampling thread with the clock. -/
structure Timed where
  sampler : Sampler
  now : Nat := 0
  phase : Timed.Phase := .idle 0

namespace Timed

/-- The passing of time, the three places where the loop has to do with the clock, and the steps of
the sampler. -/
inductive Label where
  /-- time passes -/
  | advance (duration : Nat)
  /-- `let started = Instant::now()` -/
  | start
  /-- `let elapsed = started.elapsed()` and the comparison with the interval -/
  | elapsed
  /-- `std::thread::sleep(interval - elapsed)` is called -/
  | sleep
  /-- any other step of the thread, or one of a callback -/
  | act (l : Sampler.Label)

/-- The buffer is cleared once the start of the tick is known, and the thread wakes once the
deadline has passed. -/
def allows (s : Timed) : Sampler.Label → Bool
  | .clear => match s.phase with
      | .ticking _ => true
      | _ => false
  | .wake => match s.phase with
      | .sleeping deadline => decide (deadline ≤ s.now)
      | _ => false
  | _ => true

/-- The phase after a step of the thread or of a callback. -/
def phaseAfter (s : Timed) : Sampler.Label → Phase
  | .wake => .idle s.now
  | _ => s.phase

/-- One step, for a collector with this interval. -/
def step (interval : Nat) (s : Timed) : Label → Option Timed
  | .advance duration => some { s with now := s.now + duration }
  | .start =>
      match s.sampler.pc, s.phase with
      | .clear, .idle _ => some { s with phase := .ticking s.now }
      | _, _ => none
  | .elapsed =>
      match s.sampler.pc, s.phase with
      | .sleep, .ticking started =>
          let elapsed := s.now - started
          if elapsed < interval then
            some { s with phase := .measured s.now (interval - elapsed) }
          else some { s with phase := .sleeping s.now }
      | _, _ => none
  | .sleep =>
      match s.phase with
      | .measured _ pause => some { s with phase := .sleeping (s.now + pause) }
      | _ => none
  | .act l =>
      if s.allows l then do
        let sampler ← Sampler.step s.sampler l
        some { s with sampler, phase := s.phaseAfter l }
      else none

/-- What a step can do. -/
inductive Step (interval : Nat) (s : Timed) : Label → Timed → Prop
  | advance (duration : Nat) :
      Step interval s (.advance duration) { s with now := s.now + duration }
  | start {since : Nat} (hpc : s.sampler.pc = .clear) (hphase : s.phase = .idle since) :
      Step interval s .start { s with phase := .ticking s.now }
  | short {started : Nat} (hpc : s.sampler.pc = .sleep) (hphase : s.phase = .ticking started)
      (helapsed : s.now - started < interval) :
      Step interval s .elapsed { s with phase := .measured s.now (interval - (s.now - started)) }
  | long {started : Nat} (hpc : s.sampler.pc = .sleep) (hphase : s.phase = .ticking started)
      (helapsed : ¬ s.now - started < interval) :
      Step interval s .elapsed { s with phase := .sleeping s.now }
  | sleep {since pause : Nat} (hphase : s.phase = .measured since pause) :
      Step interval s .sleep { s with phase := .sleeping (s.now + pause) }
  | act {l : Sampler.Label} {th : Sampler} (hallows : s.allows l = true)
      (hstep : Sampler.step s.sampler l = some th) :
      Step interval s (.act l) { s with sampler := th, phase := s.phaseAfter l }

/-- Every step is one of these, with what allowed it. -/
theorem Step.of_step {interval : Nat} {s s' : Timed} {l : Label}
    (h : step interval s l = some s') : Step interval s l s' := by
  cases l with
  | advance duration =>
      obtain rfl := Option.some.inj h
      exact .advance duration
  | start =>
      simp only [step] at h
      split at h
      · rename_i since hpc hphase
        obtain rfl := Option.some.inj h
        exact .start hpc hphase
      · cases h
  | elapsed =>
      simp only [step] at h
      split at h
      · rename_i started hpc hphase
        split at h
        · rename_i helapsed
          obtain rfl := Option.some.inj h
          exact .short hpc hphase helapsed
        · rename_i helapsed
          obtain rfl := Option.some.inj h
          exact .long hpc hphase helapsed
      · cases h
  | sleep =>
      simp only [step] at h
      split at h
      · rename_i since pause hphase
        obtain rfl := Option.some.inj h
        exact .sleep hphase
      · cases h
  | act l =>
      obtain ⟨hallows, h⟩ := Option.ite_none_right_eq_some.mp h
      obtain ⟨th, hstep, h⟩ := Option.bind_eq_some_iff.mp h
      obtain rfl := Option.some.inj h
      exact .act hallows hstep

/-! ## Timed runs are runs -/

/-- Waiting and the passing of time are not steps of the sampler. -/
def Label.shown : Label → List Sampler.Label
  | .act l => [l]
  | _ => []

/-- The labels of the sampler, without the clock. -/
def untimed (ls : List Label) : List Sampler.Label := ls.flatMap Label.shown

/-- **Forgetting the clock** leaves a run of the sampler. -/
theorem untimed_run {interval : Nat} {s s' : Timed} {ls : List Label}
    (hrun : run (step interval) s ls = some s') :
    run Sampler.step s.sampler (untimed ls) = some s'.sampler := by
  have hstep : ∀ (s : Timed) (th : Sampler) (l : Label) (s' : Timed), s.sampler = th →
      step interval s l = some s' →
      ∃ ks th', run Sampler.step th ks = some th' ∧ ks.filter (fun _ => true) = l.shown ∧
        s'.sampler = th' := by
    rintro s th l s' rfl hstep
    cases Step.of_step hstep with
    | @act l th hallows hsampler =>
        exact ⟨[l], th, run_cons_eq_some.mpr ⟨th, hsampler, rfl⟩, rfl, rfl⟩
    | advance | start | short | long | sleep => exact ⟨[], s.sampler, rfl, rfl, rfl⟩
  obtain ⟨ks, th, hks, hshown, rfl⟩ := run_project hstep rfl hrun
  rw [List.filter_true] at hshown
  rw [untimed, ← hshown]
  exact hks

/-! ## When the ticks start -/

/-- The time, and when each tick so far has started. -/
structure Trace where
  now : Nat := 0
  starts : List Nat := []

/-- What one label adds to the trace. -/
def Trace.record (t : Trace) : Label → Trace
  | .advance duration => { t with now := t.now + duration }
  | .start => { t with starts := t.starts ++ [t.now] }
  | _ => t

/-- The starts of a run, by its labels. -/
def trace (ls : List Label) : Trace := ls.foldl Trace.record {}

/-- The trace is taken label by label, the last one last. -/
theorem trace_concat (ls : List Label) (l : Label) : trace (ls ++ [l]) = (trace ls).record l := by
  simp [trace]

/-- No tick has started in the future. -/
theorem le_now_of_mem_starts {ls : List Label} {a : Nat} (ha : a ∈ (trace ls).starts) :
    a ≤ (trace ls).now := by
  induction ls using List.reverseRecOn with
  | nil => cases ha
  | append_singleton ls l ih =>
      rw [trace_concat] at ha ⊢
      cases l with
      | advance duration => exact Nat.le_add_right_of_le (ih ha)
      | start =>
          rcases List.mem_append.mp ha with ha | ha
          · exact ih ha
          · exact Nat.le_of_eq (List.mem_singleton.mp ha)
      | elapsed | sleep | act => exact ih ha

/-- The phases the thread goes through at each place of its loop. -/
def Phase.fits : Phase → Sampler.Pc → Bool
  | .idle _, .check | .idle _, .clear | .idle _, .exited => true
  | .idle _, _ => false
  | .ticking _, pc => pc != .check
  | .measured _ _, pc | .sleeping _, pc => pc == .sleep

/-- The thread and its phase go through the loop together. -/
theorem fits_step {interval : Nat} {s s' : Timed} {l : Label}
    (h : s.phase.fits s.sampler.pc = true) (hstep : step interval s l = some s') :
    s'.phase.fits s'.sampler.pc = true := by
  cases Step.of_step hstep with
  | advance => exact h
  | start hpc | short hpc | long hpc => simp [hpc, Phase.fits]
  | sleep hphase =>
      rw [hphase] at h
      cases hpc : s.sampler.pc <;> simp_all [Phase.fits]
  | @act l th hallows hsampler =>
      cases Sampler.Step.of_step hsampler with
      | load hpc =>
          cases hphase : s.phase <;> cases hstop : s.sampler.stop <;>
            simp_all [Phase.fits, phaseAfter]
      | clear hpc => cases hphase : s.phase <;> simp_all [Phase.fits, phaseAfter, allows]
      | append group hpc | collected hpc | panicked hpc | lock hpc | swap hpc | unlock hpc =>
          cases hphase : s.phase <;> simp_all [Phase.fits, phaseAfter]
      | wake hpc => rfl
      | store | acquire | look | release => exact h

/-- The earliest time at which the next tick can start. -/
def Phase.ready (interval now : Nat) : Phase → Nat
  | .idle _ => now
  | .ticking started => started + interval
  | .measured _ pause => now + pause
  | .sleeping deadline => deadline

/-- The starts keep the interval between them, and the next one will keep it too. -/
structure Spaced (interval : Nat) (t : Trace) (s : Timed) : Prop where
  now : s.now = t.now
  fits : s.phase.fits s.sampler.pc = true
  started : ∀ started, s.phase = .ticking started → started ≤ s.now
  starts : t.starts.Pairwise fun a b => a + interval ≤ b
  ready : ∀ a ∈ t.starts, a + interval ≤ s.phase.ready interval s.now

/-- Before the first tick there is nothing to keep apart. -/
theorem spaced_init (interval : Nat) (items : List MetricItem) :
    Spaced interval {} { sampler := { items } } where
  now := rfl
  fits := rfl
  started := nofun
  starts := List.Pairwise.nil
  ready := nofun

/-- The earliest next start only moves away from the starts there have been. -/
theorem spaced_step {interval : Nat} {t : Trace} {s s' : Timed} {l : Label}
    (h : Spaced interval t s) (hstep : step interval s l = some s') :
    Spaced interval (t.record l) s' := by
  have hfits := fits_step h.fits hstep
  have hready := h.ready
  cases Step.of_step hstep with
  | advance duration =>
      refine ⟨congrArg (· + duration) h.now, hfits, ?_, h.starts, fun a ha => ?_⟩
      · exact fun started hphase => Nat.le_add_right_of_le (h.started started hphase)
      · refine Nat.le_trans (hready a ha) ?_
        cases s.phase <;> simp only [Phase.ready] <;> omega
  | start hpc hphase =>
      -- every tick before was over and slept out when the thread came to its check
      rw [hphase] at hready
      have hstarts : (t.record .start).starts = t.starts ++ [s.now] := by rw [h.now]; rfl
      refine ⟨h.now, hfits, ?_, ?_, ?_⟩
      · rintro started hstarted
        exact Nat.le_of_eq (Phase.ticking.inj hstarted).symm
      · rw [hstarts, List.pairwise_append]
        refine ⟨h.starts, List.pairwise_singleton .., fun a ha b hb => ?_⟩
        obtain rfl := List.mem_singleton.mp hb
        exact hready a ha
      · rw [hstarts]
        intro a ha
        rcases List.mem_append.mp ha with ha | ha
        · exact Nat.le_add_right_of_le (hready a ha)
        · obtain rfl := List.mem_singleton.mp ha
          exact Nat.le_refl _
  | @short started hpc hphase helapsed =>
      have hstarted := h.started started hphase
      rw [hphase] at hready
      refine ⟨h.now, hfits, nofun, h.starts, fun a ha => Nat.le_trans (hready a ha) ?_⟩
      simp only [Phase.ready]
      omega
  | @long started hpc hphase helapsed =>
      have hstarted := h.started started hphase
      rw [hphase] at hready
      refine ⟨h.now, hfits, nofun, h.starts, fun a ha => Nat.le_trans (hready a ha) ?_⟩
      simp only [Phase.ready]
      omega
  | sleep hphase =>
      rw [hphase] at hready
      exact ⟨h.now, hfits, nofun, h.starts, hready⟩
  | @act l th hallows hsampler =>
      cases l with
      | wake =>
          -- the deadline has passed
          refine ⟨h.now, hfits, nofun, h.starts, fun a ha => Nat.le_trans (hready a ha) ?_⟩
          cases hphase : s.phase <;> simp_all [allows, phaseAfter, Phase.ready]
      | _ => exact ⟨h.now, hfits, h.started, h.starts, hready⟩

/-- So the starts are spaced in every run. -/
theorem spaced_run {interval : Nat} {items : List MetricItem} {ls : List Label} {s : Timed}
    (hrun : run (step interval) { sampler := { items } } ls = some s) :
    Spaced interval (trace ls) s := by
  have hinv : ∀ past s l s', Spaced interval (trace past) s → step interval s l = some s' →
      Spaced interval (trace (past ++ [l])) s' := by
    intro past s l s' h hstep
    rw [trace_concat]
    exact spaced_step h hstep
  have hinit : Spaced interval (trace []) { sampler := { items } } := spaced_init interval items
  exact run_history hinv hinit hrun

/-! ## One start for each tick -/

/-- The tick that has started and that can still be published. -/
def due (s : Timed) : Nat :=
  match s.phase with
  | .ticking _ => Sampler.swapsLeft s.sampler
  | _ => 0

/-- A start makes one publication due, and a swap uses it up. -/
theorem due_step {interval : Nat} {t : Trace} {s s' : Timed} {l : Label}
    (hfits : s.phase.fits s.sampler.pc = true) (hstep : step interval s l = some s') :
    l.shown.countP Sampler.Label.isSwap + due s' + t.starts.length ≤
      due s + (t.record l).starts.length := by
  cases Step.of_step hstep with
  | advance => simp [Label.shown, due, Trace.record]
  | start hpc hphase =>
      simp [Label.shown, due, Trace.record, Sampler.swapsLeft, hpc, Sampler.Pc.mayPublish]
      omega
  | short | long | sleep => simp [Label.shown, due, Trace.record]
  | @act l th hallows hsampler =>
      have hsame : (t.record (.act l)).starts = t.starts := rfl
      rw [hsame]
      refine Nat.add_le_add_right ?_ _
      cases Sampler.Step.of_step hsampler with
      | load hpc | clear hpc | append group hpc | collected hpc | panicked hpc | lock hpc
      | swap hpc | unlock hpc | wake hpc =>
          cases hphase : s.phase <;>
            simp_all [Label.shown, Phase.fits, phaseAfter, due, allows, Sampler.swapsLeft,
              Sampler.Pc.mayPublish, Sampler.Label.isSwap]
      | store | acquire | look | release =>
          simp [Label.shown, phaseAfter, due, Sampler.swapsLeft, Sampler.Label.isSwap]

/-- A tick is published once at most for each start. -/
theorem length_completed_le {interval : Nat} {items : List MetricItem} {ls : List Label}
    {s : Timed} (hrun : run (step interval) { sampler := { items } } ls = some s) :
    (Sampler.ticks (untimed ls)).completed.length ≤ (trace ls).starts.length := by
  let counted (past : List Label) (s : Timed) : Prop :=
    s.phase.fits s.sampler.pc = true ∧
      (untimed past).countP Sampler.Label.isSwap + due s ≤ (trace past).starts.length
  have hinv : ∀ past s l s', counted past s → step interval s l = some s' →
      counted (past ++ [l]) s' := by
    rintro past s l s' ⟨hfits, hcount⟩ hstep
    refine ⟨fits_step hfits hstep, ?_⟩
    have hdue := due_step (t := trace past) hfits hstep
    rw [trace_concat, untimed, List.flatMap_append, List.flatMap_singleton, List.countP_append]
    rw [untimed] at hcount
    omega
  have hinit : counted [] { sampler := { items } } := ⟨rfl, Nat.le_refl _⟩
  obtain ⟨-, hcount⟩ : counted ls s := run_history hinv hinit hrun
  rw [Sampler.length_completed]
  omega

/-- **The ticks keep the interval.** In every run, however the time passes, two ticks start at least
an interval apart: those that start in a window of time, and those published so far, are no more
than fit. A tick that takes longer than the interval is not made up for. -/
theorem ticks_keep_interval {interval : Nat} {items : List MetricItem} {ls : List Label}
    {s : Timed} (hrun : run (step interval) { sampler := { items } } ls = some s) :
    ((trace ls).starts.Pairwise fun a b => a + interval ≤ b) ∧
    (∀ first last, ((trace ls).starts.filter fun t => first ≤ t ∧ t ≤ last).length * interval ≤
      last - first + interval) ∧
    (Sampler.ticks (untimed ls)).completed.length * interval ≤ s.now + interval := by
  have hspaced := spaced_run hrun
  refine ⟨hspaced.starts, fun first last => ?_, ?_⟩
  · refine length_mul_le_of_spaced (hspaced.starts.sublist List.filter_sublist) ?_
    intro t ht
    exact of_decide_eq_true (List.mem_filter.mp ht).2
  · have hwindow := length_mul_le_of_spaced (a := 0) (b := s.now) hspaced.starts fun t ht =>
      ⟨Nat.zero_le t, hspaced.now ▸ le_now_of_mem_starts ht⟩
    exact Nat.le_trans (Nat.mul_le_mul_right interval (length_completed_le hrun)) hwindow

/-! ## How late a tick can be -/

/-- Bounds on what the program has no hold on. -/
structure Delays where
  /-- from `Instant::now()` to `started.elapsed()`, the wait for the lock included -/
  pass : Nat
  /-- until a thread that can go on does so -/
  run : Nat
  /-- until a thread whose deadline has passed wakes -/
  wake : Nat

/-- The latest time at which a phase is over. -/
def Phase.limit (d : Delays) : Phase → Nat
  | .idle since => since + d.run
  | .ticking started => started + d.pass
  | .measured since _ => since + d.run
  | .sleeping deadline => deadline + d.wake

/-- The thread has ended, or it is not late. -/
def prompt (d : Delays) (s : Timed) : Bool :=
  s.sampler.pc == .exited || decide (s.now ≤ s.phase.limit d)

/-- A step after which the thread is not late. -/
def promptStep (d : Delays) (interval : Nat) (s : Timed) (l : Label) : Option Timed :=
  (step interval s l).filter (prompt d)

/-- A step after which the thread is not late. -/
theorem promptStep_eq_some {d : Delays} {interval : Nat} {s s' : Timed} {l : Label} :
    promptStep d interval s l = some s' ↔ step interval s l = some s' ∧ prompt d s' = true :=
  Option.filter_eq_some_iff

/-- A thread that is not late and has not ended is within the limit of its phase. -/
theorem le_limit_of_prompt {d : Delays} {s : Timed} (h : prompt d s = true)
    (hlive : s.sampler.pc ≠ .exited) : s.now ≤ s.phase.limit d := by
  simpa [prompt, hlive] using h

/-- The longest time between the starts of two ticks. -/
def Delays.period (d : Delays) (interval : Nat) : Nat :=
  max (interval + d.run) d.pass + d.wake + d.run

/-- Where the thread stands is not far from the start of its last tick. -/
def Phase.Within (d : Delays) (interval last : Nat) : Phase → Prop
  | .idle since => since ≤ last + max (interval + d.run) d.pass + d.wake
  | .ticking started => started = last
  | .measured since pause => since + pause = last + interval
  | .sleeping deadline => deadline ≤ last + max (interval + d.run) d.pass

/-- What holds of a thread that is never late. -/
structure Timely (d : Delays) (interval : Nat) (t : Trace) (s : Timed) : Prop where
  spaced : Spaced interval t s
  prompt : s.prompt d = true
  first : t.starts = [] → s.phase = .idle 0
  head : ∀ a ∈ t.starts.head?, a ≤ d.run
  within : ∀ a ∈ t.starts.getLast?, s.phase.Within d interval a
  chain : t.starts.IsChain fun a b => b ≤ a + d.period interval

/-- One step of a thread that is not late afterwards either. -/
theorem timely_step {d : Delays} {interval : Nat} {t : Trace} {s s' : Timed} {l : Label}
    (h : Timely d interval t s) (hstep : promptStep d interval s l = some s') :
    Timely d interval (t.record l) s' := by
  obtain ⟨hstep, hprompt⟩ := promptStep_eq_some.mp hstep
  have hspaced := spaced_step h.spaced hstep
  have hlimit := le_limit_of_prompt h.prompt
  have hfits := h.spaced.fits
  have hwithin := h.within
  have hfirst := h.first
  cases Step.of_step hstep with
  | advance => exact ⟨hspaced, hprompt, h.first, h.head, h.within, h.chain⟩
  | @start since hpc hphase =>
      have hnow : s.now ≤ since + d.run := by simpa [hphase, hpc, Phase.limit] using hlimit
      have hstarts : (t.record .start).starts = t.starts ++ [s.now] := by rw [h.spaced.now]; rfl
      refine ⟨hspaced, hprompt, ?_, ?_, ?_, ?_⟩
      · simp [hstarts]
      · intro a ha
        rw [hstarts, List.head?_append] at ha
        cases hempty : t.starts with
        | nil =>
            obtain rfl := Phase.idle.inj (hphase.symm.trans (hfirst hempty))
            obtain rfl : s.now = a := by simpa [hempty] using ha
            simpa using hnow
        | cons b bs => exact h.head a (by simpa [hempty] using ha)
      · intro a ha
        rw [hstarts, List.getLast?_concat] at ha
        exact Option.some.inj ha
      -- the new start is a period behind the last one, as the phase since then was
      · rw [hstarts, List.isChain_append]
        refine ⟨h.chain, List.isChain_singleton _, fun a ha b hb => ?_⟩
        obtain rfl : s.now = b := by simpa using hb
        have hsince := hwithin a ha
        rw [hphase, Phase.Within] at hsince
        rw [Delays.period]
        omega
  | @short started hpc hphase helapsed =>
      have hstarted := h.spaced.started started hphase
      refine ⟨hspaced, hprompt, fun hempty => ?_, h.head, fun a ha => ?_, h.chain⟩
      · cases hphase.symm.trans (hfirst hempty)
      · have hlast := hwithin a ha
        rw [hphase, Phase.Within] at hlast
        rw [Phase.Within]
        omega
  | @long started hpc hphase helapsed =>
      have hnow : s.now ≤ started + d.pass := by simpa [hphase, hpc, Phase.limit] using hlimit
      refine ⟨hspaced, hprompt, fun hempty => ?_, h.head, fun a ha => ?_, h.chain⟩
      · cases hphase.symm.trans (hfirst hempty)
      · have hlast := hwithin a ha
        rw [hphase, Phase.Within] at hlast
        rw [Phase.Within]
        omega
  | @sleep since pause hphase =>
      rw [hphase, Phase.fits, beq_iff_eq] at hfits
      have hnow : s.now ≤ since + d.run := by simpa [hphase, hfits, Phase.limit] using hlimit
      refine ⟨hspaced, hprompt, fun hempty => ?_, h.head, fun a ha => ?_, h.chain⟩
      · cases hphase.symm.trans (hfirst hempty)
      · have hlast := hwithin a ha
        rw [hphase, Phase.Within] at hlast
        rw [Phase.Within]
        omega
  | @act l th hallows hsampler =>
      cases l with
      | wake =>
          cases Sampler.Step.of_step hsampler with
          | wake hpc =>
              cases hphase : s.phase with
              | idle | ticking | measured => simp [allows, hphase] at hallows
              | sleeping deadline =>
                  have hnow : s.now ≤ deadline + d.wake := by
                    simpa [hphase, hpc, Phase.limit] using hlimit
                  refine ⟨hspaced, hprompt, fun hempty => ?_, h.head, fun a ha => ?_, h.chain⟩
                  · cases hphase.symm.trans (hfirst hempty)
                  · have hlast := hwithin a ha
                    rw [hphase, Phase.Within] at hlast
                    rw [phaseAfter, Phase.Within]
                    omega
      | _ => exact ⟨hspaced, hprompt, h.first, h.head, h.within, h.chain⟩

/-- So it is in every run in which the thread is never late. -/
theorem timely_run {d : Delays} {interval : Nat} {items : List MetricItem} {ls : List Label}
    {s : Timed} (hrun : run (promptStep d interval) { sampler := { items } } ls = some s) :
    Timely d interval (trace ls) s := by
  have hinv : ∀ past s l s', Timely d interval (trace past) s →
      promptStep d interval s l = some s' → Timely d interval (trace (past ++ [l])) s' := by
    intro past s l s' h hstep
    rw [trace_concat]
    exact timely_step h hstep
  have hinit : Timely d interval (trace []) { sampler := { items } } := {
    spaced := spaced_init interval items
    prompt := by simp [prompt, Phase.limit]
    first := fun _ => rfl
    head := nofun
    within := nofun
    chain := List.isChain_nil }
  exact run_history hinv hinit hrun

/-- A run in which the thread is never late is a run. -/
theorem run_of_prompt {d : Delays} {interval : Nat} {s s' : Timed} {ls : List Label}
    (hrun : run (promptStep d interval) s ls = some s') : run (step interval) s ls = some s' :=
  run_mono (fun _ _ _ hstep => (promptStep_eq_some.mp hstep).1) hrun

/-- A thread that is never late is never far from the start of its last tick. -/
theorem now_le_of_timely {d : Delays} {interval : Nat} {t : Trace} {s : Timed}
    (h : Timely d interval t s) (hlive : s.sampler.pc ≠ .exited) :
    s.now ≤ t.starts.getLast?.getD 0 + d.period interval := by
  have hlimit := le_limit_of_prompt h.prompt hlive
  cases hlast : t.starts.getLast? with
  | none =>
      rw [h.first (List.getLast?_eq_none_iff.mp hlast), Phase.limit] at hlimit
      rw [Delays.period]
      omega
  | some a =>
      have hwithin := h.within a hlast
      rw [Option.getD_some, Delays.period]
      cases hphase : s.phase <;> rw [hphase] at hlimit hwithin <;>
        simp only [Phase.limit, Phase.Within] at hlimit hwithin <;> omega

/-- **The ticks are on time.** In a run in which the thread is never later than the bounds allow,
two ticks in a row start an interval apart at least, and at most `period` apart, and while the
thread lives its last tick has started no longer ago than that. Without delays, and with passes
shorter than the interval, the ticks start exactly at the multiples of the interval. -/
theorem ticks_on_time {d : Delays} {interval : Nat} {items : List MetricItem} {ls : List Label}
    {s : Timed} (hrun : run (promptStep d interval) { sampler := { items } } ls = some s) :
    (∀ i (hi : i + 1 < (trace ls).starts.length),
      (trace ls).starts[i] + interval ≤ (trace ls).starts[i + 1] ∧
        (trace ls).starts[i + 1] ≤ (trace ls).starts[i] + d.period interval) ∧
    (s.sampler.pc ≠ .exited → s.now ≤ (trace ls).starts.getLast?.getD 0 + d.period interval) ∧
    (d.run = 0 → d.wake = 0 → d.pass ≤ interval →
      ∀ i (hi : i < (trace ls).starts.length), (trace ls).starts[i] = i * interval) := by
  have h := timely_run hrun
  -- that the starts are spaced holds of every run, late or not
  have hspaced := (spaced_run (run_of_prompt hrun)).starts
  have hgaps : ∀ i (hi : i + 1 < (trace ls).starts.length),
      (trace ls).starts[i] + interval ≤ (trace ls).starts[i + 1] ∧
        (trace ls).starts[i + 1] ≤ (trace ls).starts[i] + d.period interval := fun i hi =>
    ⟨hspaced.isChain.getElem i hi, h.chain.getElem i hi⟩
  refine ⟨hgaps, now_le_of_timely h, fun hrun hwake hpass i hi => ?_⟩
  have hperiod : d.period interval = interval := by
    rw [Delays.period]
    omega
  -- without delays each gap is the interval, from the first start at 0 on
  induction i with
  | zero =>
      have hfirst := h.head _ (List.head?_eq_getElem?.trans (List.getElem?_eq_getElem hi))
      omega
  | succ i ih =>
      have hlast := ih (Nat.lt_of_succ_lt hi)
      obtain ⟨hlow, hhigh⟩ := hgaps i hi
      rw [hperiod] at hhigh
      rw [Nat.succ_mul]
      omega

/-- A tick of 3 and a tick of 12 under an interval of 10: after the first the thread sleeps for the
7 that are left, after the second it goes on at once. -/
def shortAndLong : List Label :=
  [.act .load, .start, .act .clear, .advance 3, .act .collected, .act .lock, .act .swap,
    .act .unlock, .elapsed, .sleep, .advance 7, .act .wake, .act .load, .start, .act .clear,
    .advance 12, .act .collected, .act .lock, .act .swap, .act .unlock, .elapsed, .act .wake,
    .act .load, .start]

theorem ticks_keep_interval_shortAndLong :
    (run (step 10) { sampler := { items := [] } } shortAndLong).isSome = true ∧
      (trace shortAndLong).starts = [0, 10, 22] ∧
      (trace shortAndLong).starts.Pairwise fun a b => a + 10 ≤ b := by
  obtain ⟨s, hrun⟩ : ∃ s, run (step 10) { sampler := { items := [] } } shortAndLong = some s :=
    ⟨_, rfl⟩
  exact ⟨by rw [hrun]; rfl, rfl, (ticks_keep_interval hrun).1⟩

theorem ticks_on_time_shortAndLong :
    (run (promptStep ⟨12, 0, 0⟩ 10) { sampler := { items := [] } } shortAndLong).isSome = true ∧
      ∀ i (hi : i + 1 < (trace shortAndLong).starts.length),
        (trace shortAndLong).starts[i + 1] ≤ (trace shortAndLong).starts[i] + 12 := by
  obtain ⟨s, hrun⟩ :
      ∃ s, run (promptStep ⟨12, 0, 0⟩ 10) { sampler := { items := [] } } shortAndLong = some s :=
    ⟨_, rfl⟩
  exact ⟨by rw [hrun]; rfl, fun i hi => ((ticks_on_time hrun).1 i hi).2⟩

end Timed

end MetricsExporter.Framework
