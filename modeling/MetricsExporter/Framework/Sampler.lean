/-
# MetricsExporter.Framework.Sampler -- a sampling thread and the callbacks that read its cache

One collector has a sampling thread, which fills a scratch buffer and swaps it with the shared cache
under the write lock, and any number of instrument callbacks, each of which goes through the cache
under one read lock. `step` lets the thread and the callbacks take turns in any order, one memory
access or lock operation at a time. What a run has published is read off its labels alone (`ticks`);
`callbacks_report_last_tick` says that the cache and every callback show exactly that.

The steps are atomic and all parties see them in one order: the stop flag is `SeqCst`, and the cache
is only touched under its lock. The lock is assumed to exclude and nothing more. Nothing is assumed
of fairness, of which waiting party is served first, or of how long anything takes; `Clock` adds the
time. `collect` may append any groups, in any number, and may panic; what it does to the state of
its collector is no part of a sampler.
-/
import MetricsExporter.Framework.Sample
import MetricsExporter.Lib.Runs
import Mathlib.Data.List.Induction

namespace MetricsExporter.Framework

open MetricsExporter.Lib

/-! ## One tick without interruption -/

/-- `Vec::clear`. -/
def clear (_buffer : List SampleGroup) : List SampleGroup := []

/-- `sample_once`: the cache and the scratch buffer it leaves. `collect` is given a buffer and
returns what it makes of it. -/
def sampleOnce (collect : List SampleGroup → List SampleGroup) (cache scratch : List SampleGroup) :
    List SampleGroup × List SampleGroup :=
  let scratch := clear scratch
  let scratch := collect scratch
  let guard := cache
  (scratch, guard)

namespace Sampler

/-! ## The thread and the callbacks -/

/-- What the sampling thread does next. -/
inductive Pc where
  /-- `while !stop.load(..)` -/
  | check
  /-- `scratch.clear()` -/
  | clear
  /-- inside `collector.collect(scratch)` -/
  | collect
  /-- `cache.write()` -/
  | lock
  /-- `std::mem::swap(&mut *guard, scratch)` -/
  | swap
  /-- the end of `sample_once`, where the guard is dropped -/
  | unlock
  /-- `std::thread::sleep(..)` -/
  | sleep
  /-- the thread has ended -/
  | exited
  deriving DecidableEq, Repr

/-- The thread holds the write lock. -/
def Pc.holdsLock : Pc → Bool
  | .swap | .unlock => true
  | _ => false

/-- A callback that holds a read lock: the item its instrument was registered for, how many values
of the cache it has looked at, and what it has reported so far. -/
structure Reader where
  item : MetricItem
  next : Nat := 0
  observed : List Observation := []

/-- The callback looks at one value. -/
def Reader.look (r : Reader) (sample : Sample) : Reader :=
  { r with
    next := r.next + 1
    observed :=
      if sample.reportedAs r.item.name r.item.kind.variant then r.observed ++ [sample.observation]
      else r.observed }

end Sampler

/-- The items, the stop flag, the cache and the scratch buffer of one collector, with where its
thread stands and which callbacks are reading. -/
structure Sampler where
  items : List MetricItem
  stop : Bool := false
  pc : Sampler.Pc := .check
  cache : List SampleGroup := []
  scratch : List SampleGroup := []
  readers : List Sampler.Reader := []

namespace Sampler

/-- The steps: those of the thread in the order of its loop, that of the registry, and those of the
callbacks. -/
inductive Label where
  /-- the thread reads the stop flag -/
  | load
  | clear
  /-- `collect` appends a group to the buffer -/
  | append (group : SampleGroup)
  /-- `collect` returns -/
  | collected
  /-- `collect` panics, which ends the thread -/
  | panicked
  | lock
  | swap
  | unlock
  | wake
  /-- the registry stores `true` in the stop flag -/
  | store
  /-- the callback of the instrument registered for the item takes a read lock -/
  | acquire (item : MetricItem)
  /-- the `i`-th of the reading callbacks looks at its next value -/
  | look (i : Nat)
  /-- the `i`-th of the reading callbacks is through and drops its guard -/
  | release (i : Nat)

/-- One step. The write lock excludes the read locks, and is excluded by them. -/
def step (s : Sampler) : Label → Option Sampler
  | .load =>
      if s.pc = .check then some { s with pc := if s.stop then .exited else .clear } else none
  | .clear =>
      if s.pc = .clear then some { s with pc := .collect, scratch := Framework.clear s.scratch }
      else none
  | .append group =>
      if s.pc = .collect then some { s with scratch := s.scratch ++ [group] } else none
  | .collected => if s.pc = .collect then some { s with pc := .lock } else none
  | .panicked => if s.pc = .collect then some { s with pc := .exited } else none
  | .lock => if s.pc = .lock ∧ s.readers.isEmpty then some { s with pc := .swap } else none
  | .swap =>
      if s.pc = .swap then some { s with pc := .unlock, cache := s.scratch, scratch := s.cache }
      else none
  | .unlock => if s.pc = .unlock then some { s with pc := .sleep } else none
  | .wake => if s.pc = .sleep then some { s with pc := .check } else none
  | .store => some { s with stop := true }
  | .acquire item =>
      if item ∈ s.items ∧ s.pc.holdsLock = false then
        some { s with readers := s.readers ++ [{ item }] }
      else none
  | .look i => do
      let r ← s.readers[i]?
      let sample ← (samples s.cache)[r.next]?
      some { s with readers := s.readers.set i (r.look sample) }
  | .release i => do
      let r ← s.readers[i]?
      if r.next = (samples s.cache).length then some { s with readers := s.readers.eraseIdx i }
      else none

/-- What a step can do, one case a label. -/
inductive Step (s : Sampler) : Label → Sampler → Prop
  | load (hpc : s.pc = .check) :
      Step s .load { s with pc := if s.stop then .exited else .clear }
  | clear (hpc : s.pc = .clear) : Step s .clear { s with pc := .collect, scratch := [] }
  | append (group : SampleGroup) (hpc : s.pc = .collect) :
      Step s (.append group) { s with scratch := s.scratch ++ [group] }
  | collected (hpc : s.pc = .collect) : Step s .collected { s with pc := .lock }
  | panicked (hpc : s.pc = .collect) : Step s .panicked { s with pc := .exited }
  | lock (hpc : s.pc = .lock) (hreaders : s.readers = []) : Step s .lock { s with pc := .swap }
  | swap (hpc : s.pc = .swap) :
      Step s .swap { s with pc := .unlock, cache := s.scratch, scratch := s.cache }
  | unlock (hpc : s.pc = .unlock) : Step s .unlock { s with pc := .sleep }
  | wake (hpc : s.pc = .sleep) : Step s .wake { s with pc := .check }
  | store : Step s .store { s with stop := true }
  | acquire (item : MetricItem) (hitem : item ∈ s.items) (hpc : s.pc.holdsLock = false) :
      Step s (.acquire item) { s with readers := s.readers ++ [{ item }] }
  | look {i : Nat} {r : Reader} {sample : Sample} (hr : s.readers[i]? = some r)
      (hsample : (samples s.cache)[r.next]? = some sample) :
      Step s (.look i) { s with readers := s.readers.set i (r.look sample) }
  | release {i : Nat} {r : Reader} (hr : s.readers[i]? = some r)
      (hnext : r.next = (samples s.cache).length) :
      Step s (.release i) { s with readers := s.readers.eraseIdx i }

/-- Every step is one of these, with what allowed it. -/
theorem Step.of_step {s s' : Sampler} {l : Label} (h : step s l = some s') : Step s l s' := by
  cases l with
  | look i =>
      obtain ⟨r, hr, h⟩ := Option.bind_eq_some_iff.mp h
      obtain ⟨sample, hsample, h⟩ := Option.bind_eq_some_iff.mp h
      obtain rfl := Option.some.inj h
      exact .look hr hsample
  | release i =>
      obtain ⟨r, hr, h⟩ := Option.bind_eq_some_iff.mp h
      obtain ⟨hnext, h⟩ := Option.ite_none_right_eq_some.mp h
      obtain rfl := Option.some.inj h
      exact .release hr hnext
  | acquire item =>
      obtain ⟨⟨hitem, hpc⟩, h⟩ := Option.ite_none_right_eq_some.mp h
      obtain rfl := Option.some.inj h
      exact .acquire item hitem hpc
  | store =>
      obtain rfl := Option.some.inj h
      exact .store
  | lock =>
      obtain ⟨⟨hpc, hreaders⟩, h⟩ := Option.ite_none_right_eq_some.mp h
      obtain rfl := Option.some.inj h
      exact .lock hpc (List.isEmpty_iff.mp hreaders)
  | load | clear | append | collected | panicked | swap | unlock | wake =>
      obtain ⟨hpc, h⟩ := Option.ite_none_right_eq_some.mp h
      obtain rfl := Option.some.inj h
      constructor
      exact hpc

/-! ## What a run has published -/

/-- The groups each completed tick appended, oldest tick first, and those the tick under way has
appended so far. -/
structure Ticks where
  completed : List (List SampleGroup) := []
  current : List SampleGroup := []

/-- What a label adds to the record: a tick begins with the clearing of the buffer and is complete
with the swap. -/
def Ticks.record (t : Ticks) : Label → Ticks
  | .clear => { t with current := [] }
  | .append group => { t with current := t.current ++ [group] }
  | .swap => { t with completed := t.completed ++ [t.current] }
  | _ => t

/-- The ticks of a run, by its labels. -/
def ticks (ls : List Label) : Ticks := ls.foldl Ticks.record {}

/-- The ticks are taken label by label, the last one last. -/
theorem ticks_concat (ls : List Label) (l : Label) : ticks (ls ++ [l]) = (ticks ls).record l := by
  simp [ticks]

/-- The groups of the last tick, and none before the first. -/
def lastTick (completed : List (List SampleGroup)) : List SampleGroup := completed.getLast?.getD []

/-- Before the first tick the cache is empty. -/
@[simp]
theorem lastTick_nil : lastTick [] = [] := rfl

/-- A tick that is published is the last one. -/
@[simp]
theorem lastTick_concat (completed : List (List SampleGroup)) (groups : List SampleGroup) :
    lastTick (completed ++ [groups]) = groups := by
  simp [lastTick]

/-- A tick is published. -/
def Label.isSwap : Label → Bool
  | .swap => true
  | _ => false

/-- There are as many completed ticks as there are swaps. -/
theorem length_completed (ls : List Label) :
    (ticks ls).completed.length = ls.countP Label.isSwap := by
  induction ls using List.reverseRecOn with
  | nil => rfl
  | append_singleton ls l ih =>
      rw [ticks_concat, List.countP_append, ← ih]
      cases l <;> simp [Ticks.record, Label.isSwap]

/-- Without a swap no tick is completed. -/
theorem completed_append {ls ls' : List Label} (hswap : ∀ l ∈ ls', l.isSwap = false) :
    (ticks (ls ++ ls')).completed = (ticks ls).completed := by
  induction ls' using List.reverseRecOn with
  | nil => rw [List.append_nil]
  | append_singleton ls' l ih =>
      obtain ⟨hswap, hl⟩ := List.forall_mem_append.mp hswap
      have hsame : ((ticks (ls ++ ls')).record l).completed = (ticks (ls ++ ls')).completed := by
        have hlast := hl l List.mem_cons_self
        cases l with
        | swap => cases hlast
        | _ => rfl
      rw [← List.append_assoc, ticks_concat, hsame, ih hswap]

/-! ## The two buffers -/

/-- The thread is between `scratch.clear()` and the swap. -/
def Pc.fills : Pc → Bool
  | .collect | .lock | .swap => true
  | _ => false

/-- The cache holds the last completed tick. The scratch buffer holds what the tick under way has
appended, and outside of a tick the content of the cache before the last swap. -/
structure Buffers (t : Ticks) (s : Sampler) : Prop where
  cache : s.cache = lastTick t.completed
  filled : s.pc.fills = true → s.scratch = t.current
  spare : s.pc.fills = false → s.pc ≠ .exited → s.scratch = lastTick t.completed.dropLast

/-- Before the first tick both buffers are empty, and so is the record. -/
theorem buffers_init (items : List MetricItem) : Buffers {} { items } where
  cache := rfl
  filled := nofun
  spare _ _ := rfl

/-- A step that leaves both buffers alone and stays on its side of the tick. -/
theorem Buffers.of_eq {t : Ticks} {s s' : Sampler} (h : Buffers t s) (hcache : s'.cache = s.cache)
    (hscratch : s'.scratch = s.scratch)
    (hpc : s'.pc ≠ .exited → s.pc ≠ .exited ∧ s'.pc.fills = s.pc.fills) : Buffers t s' := by
  refine ⟨hcache.trans h.cache, ?_, ?_⟩
  · intro hfills
    have hlive : s'.pc ≠ .exited := by
      intro hexited
      simp [hexited, Pc.fills] at hfills
    rw [(hpc hlive).2] at hfills
    exact hscratch.trans (h.filled hfills)
  · intro hfills hlive
    obtain ⟨hlive', hsame⟩ := hpc hlive
    exact hscratch.trans (h.spare (hsame ▸ hfills) hlive')

/-- Only the three labels that the record knows touch the buffers, and they do to them what they do
to it. -/
theorem buffers_step {t : Ticks} {s s' : Sampler} {l : Label} (h : Buffers t s)
    (hstep : step s l = some s') : Buffers (t.record l) s' := by
  cases Step.of_step hstep with
  | clear hpc => exact ⟨h.cache, fun _ => rfl, nofun⟩
  | append group hpc =>
      -- the buffer and the record of the tick grow by the same group
      have hfull : s.scratch = t.current := h.filled (by rw [hpc]; rfl)
      refine ⟨h.cache, fun _ => by rw [hfull]; rfl, fun hfills => ?_⟩
      simp [hpc, Pc.fills] at hfills
  | swap hpc =>
      -- the buffers trade places: what the tick appended is published, the last tick is spare
      have hfull : s.scratch = t.current := h.filled (by rw [hpc]; rfl)
      refine ⟨?_, nofun, fun _ _ => ?_⟩
      · rw [Ticks.record, lastTick_concat]
        exact hfull
      · rw [Ticks.record, List.dropLast_concat]
        exact h.cache
  | load hpc =>
      refine h.of_eq rfl rfl fun _ => ⟨by simp [hpc], ?_⟩
      cases s.stop <;> simp [hpc, Pc.fills]
  | collected hpc => exact h.of_eq rfl rfl fun _ => by simp [hpc, Pc.fills]
  -- a panic leaves a half-filled buffer behind, which nobody uses any more
  | panicked hpc => exact h.of_eq rfl rfl fun hlive => absurd rfl hlive
  | lock hpc hreaders => exact h.of_eq rfl rfl fun _ => by simp [hpc, Pc.fills]
  | unlock hpc => exact h.of_eq rfl rfl fun _ => by simp [hpc, Pc.fills]
  | wake hpc => exact h.of_eq rfl rfl fun _ => by simp [hpc, Pc.fills]
  | store | acquire | look | release => exact h.of_eq rfl rfl fun hlive => ⟨hlive, rfl⟩

/-- So the buffers are known in every run. -/
theorem buffers_run {items : List MetricItem} {ls : List Label} {s : Sampler}
    (hrun : run step { items } ls = some s) : Buffers (ticks ls) s := by
  have hinv : ∀ past s l s', Buffers (ticks past) s → step s l = some s' →
      Buffers (ticks (past ++ [l])) s' := by
    intro past s l s' h hstep
    rw [ticks_concat]
    exact buffers_step h hstep
  have hinit : Buffers (ticks []) { items } := buffers_init items
  exact run_history hinv hinit hrun

/-! ## The callbacks -/

/-- The callback has reported the values it looked at that it was to report. -/
def Reader.InStep (cache : List SampleGroup) (r : Reader) : Prop :=
  r.observed = (((samples cache).take r.next).filter
    (Sample.reportedAs r.item.name r.item.kind.variant)).map Sample.observation

/-- The write lock is held by nobody while a callback reads, and what a callback has reported is of
the cache as it is. -/
structure Reading (s : Sampler) : Prop where
  excluded : s.pc.holdsLock = true → s.readers = []
  inStep : ∀ r ∈ s.readers, r.InStep s.cache

/-- Nobody reads yet. -/
theorem reading_init (items : List MetricItem) : Reading { items } where
  excluded := nofun
  inStep := nofun

/-- A reader that has just taken the lock has seen nothing. -/
theorem inStep_new (cache : List SampleGroup) (item : MetricItem) :
    Reader.InStep cache { item } := rfl

/-- One more value looked at, and reported if it was to be. -/
theorem inStep_look {cache : List SampleGroup} {r : Reader} {sample : Sample}
    (h : r.InStep cache) (hsample : (samples cache)[r.next]? = some sample) :
    (r.look sample).InStep cache := by
  unfold Reader.InStep at h ⊢
  have htake : (samples cache).take (r.look sample).next =
      (samples cache).take r.next ++ [sample] := by
    rw [Reader.look, List.take_add_one, hsample]
    rfl
  rw [htake, List.filter_append, List.map_append]
  unfold Reader.look
  dsimp only
  cases hreported : sample.reportedAs r.item.name r.item.kind.variant with
  | false => simp [hreported, h]
  | true => simp [hreported, h]

/-- A callback that has looked at every value has reported what it should of the cache. -/
theorem inStep_all {cache : List SampleGroup} {r : Reader} (h : r.InStep cache)
    (hnext : r.next = (samples cache).length) :
    r.observed = observations r.item.name r.item.kind.variant cache := by
  rw [Reader.InStep, hnext, List.take_length] at h
  exact h

/-- The write lock and the read locks keep out of each other's way, so the cache does not change
under a callback. -/
theorem reading_step {s s' : Sampler} {l : Label} (h : Reading s) (hstep : step s l = some s') :
    Reading s' := by
  cases Step.of_step hstep with
  | lock hpc hreaders => exact ⟨fun _ => hreaders, h.inStep⟩
  | swap hpc =>
      -- nobody reads while the cache changes
      have hnone : s.readers = [] := h.excluded (by rw [hpc]; rfl)
      refine ⟨fun _ => hnone, ?_⟩
      simp [hnone]
  | acquire item hitem hpc =>
      refine ⟨fun hheld => absurd hheld (by simp [hpc]), ?_⟩
      intro r hr
      rcases List.mem_append.mp hr with hr | hr
      · exact h.inStep r hr
      · obtain rfl := List.mem_singleton.mp hr
        exact inStep_new s.cache item
  | @look i r sample hr hsample =>
      have hmem : r ∈ s.readers := List.mem_of_getElem? hr
      refine ⟨fun hheld => ?_, ?_⟩
      · rw [h.excluded hheld] at hmem
        exact absurd hmem List.not_mem_nil
      · intro r' hr'
        rcases List.mem_or_eq_of_mem_set hr' with hr' | rfl
        · exact h.inStep r' hr'
        · exact inStep_look (h.inStep r hmem) hsample
  | @release i r hr hnext =>
      refine ⟨fun hheld => ?_, fun r' hr' => h.inStep r' (List.mem_of_mem_eraseIdx hr')⟩
      simp [h.excluded hheld]
  | load hpc =>
      refine ⟨fun hheld => ?_, h.inStep⟩
      cases hstop : s.stop <;> simp [hstop, Pc.holdsLock] at hheld
  | append group hpc =>
      refine ⟨fun hheld => ?_, h.inStep⟩
      simp [hpc, Pc.holdsLock] at hheld
  | store => exact ⟨h.excluded, h.inStep⟩
  | clear | collected | panicked | unlock | wake => exact ⟨nofun, h.inStep⟩

/-- In every run, a callback is in step with the cache. -/
theorem reading_run {items : List MetricItem} {ls : List Label} {s : Sampler}
    (hrun : run step { items } ls = some s) : Reading s :=
  run_invariant (fun _ _ _ _ h hstep => reading_step h hstep) (reading_init items) hrun

/-- A callback that is through has reported what it should of the cache. -/
theorem observed_of_release {s s' : Sampler} (h : Reading s) {i : Nat} {r : Reader}
    (hr : s.readers[i]? = some r) (hrelease : step s (.release i) = some s') :
    r.observed = observations r.item.name r.item.kind.variant s.cache := by
  cases Step.of_step hrelease with
  | release hr' hnext =>
      obtain rfl := Option.some.inj (hr.symm.trans hr')
      exact inStep_all (h.inStep r (List.mem_of_getElem? hr)) hnext

/-- A callback that reads value by value reports what the callback of the registered instrument
reports of the cache at the moment the read lock is dropped. -/
theorem observed_eq_callback {s s' : Sampler} (h : Reading s) {i : Nat} {r : Reader}
    (hr : s.readers[i]? = some r) (hrelease : step s (.release i) = some s') :
    r.observed = (registerItem r.item).callback s.cache := by
  rw [registerItem_callback]
  exact observed_of_release h hr hrelease

/-- **Published data is exactly one tick.** Whatever the order in which the thread and the callbacks
take turns: the cache is empty before the first swap, and then holds what the last completed tick
appended, nothing else; the buffer a later tick starts from is what the tick before the last had
published; and a callback that is through has reported the values of the last completed tick that
have its name and variant, in order and each with the attributes of its own group. -/
theorem callbacks_report_last_tick {items : List MetricItem} {ls : List Label} {s : Sampler}
    (hrun : run step { items } ls = some s) :
    (ticks ls).completed.length = ls.countP Label.isSwap ∧
    (ls.countP Label.isSwap = 0 → s.cache = []) ∧
    (∀ earlier groups, (ticks ls).completed = earlier ++ [groups] →
      s.cache = groups ∧ (s.pc = .clear → s.scratch = lastTick earlier)) ∧
    ∀ i r s', s.readers[i]? = some r → step s (.release i) = some s' →
      r.observed =
        observations r.item.name r.item.kind.variant (lastTick (ticks ls).completed) := by
  obtain ⟨hcache, -, hspare⟩ := buffers_run hrun
  refine ⟨length_completed ls, fun hnone => ?_, ?_, fun i r s' hr hrelease => ?_⟩
  · rw [← length_completed, List.length_eq_zero_iff] at hnone
    rw [hcache, hnone, lastTick_nil]
  · intro earlier groups hcompleted
    refine ⟨by rw [hcache, hcompleted, lastTick_concat], fun hpc => ?_⟩
    rw [hspare (by rw [hpc]; rfl) (by simp [hpc]), hcompleted, List.dropLast_concat]
  · rw [← hcache]
    exact observed_of_release (reading_run hrun) hr hrelease

/-- One group with one value. -/
def countGroup (count : UInt64) : SampleGroup :=
  (SampleGroup.withAttrs [⟨"pid", .i64 42⟩]).push "fake_count" (.u64 count)

/-- The item of the collector that the tests of the source use. -/
def fakeCount : MetricItem := ⟨0, "fake_count", .counterU64, "\x7bcount\x7d", "fake test counter"⟩

/-- Two ticks. A callback that reads the first holds up the second, and another begins as soon as
the second is published. -/
def twoTicks : List Label :=
  [.load, .clear, .append (countGroup 7), .collected, .lock, .swap, .unlock,
    .acquire fakeCount, .wake, .load, .clear, .append (countGroup 8), .collected, .look 0,
    .release 0, .lock, .swap, .unlock, .acquire fakeCount, .look 0]

/-- Where `twoTicks` ends: the second callback has looked at the one value there is. -/
def afterTwoTicks : Sampler where
  items := [fakeCount]
  pc := .sleep
  cache := [countGroup 8]
  scratch := [countGroup 7]
  readers := [{
    item := fakeCount
    next := 1
    observed := [⟨.u64 8, [⟨"pid", .i64 42⟩]⟩] }]

/-- Each callback reports the tick that was published last when it took the lock. -/
theorem callbacks_report_last_tick_twoTicks :
    run step { items := [fakeCount] } twoTicks = some afterTwoTicks ∧
      afterTwoTicks.cache = [countGroup 8] ∧
      ∃ r s', afterTwoTicks.readers[0]? = some r ∧ step afterTwoTicks (.release 0) = some s' ∧
        r.observed = observations "fake_count" .u64 [countGroup 8] := by
  have hrun : run step { items := [fakeCount] } twoTicks = some afterTwoTicks := rfl
  obtain ⟨-, -, hcache, hobserved⟩ := callbacks_report_last_tick hrun
  refine ⟨hrun, (hcache [[countGroup 7]] [countGroup 8] rfl).1, _, _, rfl, rfl, ?_⟩
  exact hobserved 0 _ _ rfl rfl

/-! ## The thread on its own -/

/-- A pass of `collect` that appends these groups. -/
theorem run_appends (groups : List SampleGroup) {s : Sampler} (hpc : s.pc = .collect) :
    run step s (groups.map .append) = some { s with scratch := s.scratch ++ groups } := by
  induction groups generalizing s with
  | nil => simp
  | cons group groups ih =>
      have hfirst : step s (.append group) = some { s with scratch := s.scratch ++ [group] } := by
        rw [step, if_pos hpc]
      refine run_cons_eq_some.mpr ⟨_, hfirst, ?_⟩
      refine (ih (s := { s with scratch := s.scratch ++ [group] }) hpc).trans ?_
      rw [List.append_assoc, List.singleton_append]

/-- **A tick that nothing interrupts is `sample_once`.** -/
theorem run_tick (groups : List SampleGroup) {s : Sampler} (hpc : s.pc = .clear)
    (hreaders : s.readers = []) :
    run step s (.clear :: groups.map .append ++ [.collected, .lock, .swap, .unlock]) =
      some { s with
        pc := .sleep
        cache := (sampleOnce (· ++ groups) s.cache s.scratch).1
        scratch := (sampleOnce (· ++ groups) s.cache s.scratch).2 } := by
  refine run_append_eq_some.mpr ⟨{ s with pc := .collect, scratch := groups }, ?_, ?_⟩
  · refine run_cons_eq_some.mpr ⟨{ s with pc := .collect, scratch := [] }, ?_, ?_⟩
    · rw [step, if_pos hpc]
      rfl
    · exact run_appends groups rfl
  · simp [run, step, hreaders, sampleOnce, clear]

/-! ## The end of the thread -/

/-- The stop flag is stored. -/
def Label.isStore : Label → Bool
  | .store => true
  | _ => false

/-- Nobody takes the stop flag back. -/
theorem stop_of_step {s s' : Sampler} {l : Label} (hstep : step s l = some s')
    (hstop : s.stop = true) : s'.stop = true := by
  cases Step.of_step hstep with
  | store => rfl
  | _ => exact hstop

/-- Only the store touches the stop flag. -/
theorem stop_eq_of_step {s s' : Sampler} {l : Label} (hstep : step s l = some s')
    (hl : l.isStore = false) : s'.stop = s.stop := by
  cases Step.of_step hstep with
  | store => exact absurd hl (by simp [Label.isStore])
  | _ => rfl

/-- A thread that has ended stays so, and nobody else writes its cache. -/
theorem exited_of_step {s s' : Sampler} {l : Label} (hstep : step s l = some s')
    (hpc : s.pc = .exited) : s'.pc = .exited ∧ s'.cache = s.cache := by
  cases Step.of_step hstep with
  | store | acquire | look | release => exact ⟨hpc, rfl⟩
  | load h | clear h | append _ h | collected h | panicked h | lock h | swap h | unlock h
  | wake h =>
      rw [hpc] at h
      cases h

/-- So it is over whole runs. -/
theorem exited_of_run {s s' : Sampler} {ls : List Label} (hrun : run step s ls = some s')
    (hpc : s.pc = .exited) : s'.pc = .exited ∧ s'.cache = s.cache := by
  have hinv : ∀ l ∈ ls, ∀ m m', (m.pc = .exited ∧ m.cache = s.cache) → step m l = some m' →
      m'.pc = .exited ∧ m'.cache = s.cache := by
    rintro l - m m' ⟨hm, hcache⟩ hstep
    obtain ⟨hm', hcache'⟩ := exited_of_step hstep hm
    exact ⟨hm', hcache'.trans hcache⟩
  exact run_invariant (I := fun m => m.pc = .exited ∧ m.cache = s.cache) hinv ⟨hpc, rfl⟩ hrun

/-- The thread is in a tick that has not swapped yet. -/
def Pc.mayPublish : Pc → Bool
  | .clear | .collect | .lock | .swap => true
  | _ => false

/-- The swaps a thread can still make once its stop flag is set. -/
def swapsLeft (s : Sampler) : Nat := if s.pc.mayPublish then 1 else 0

/-- A swap uses up the one that was left, and no step makes a new one possible. -/
theorem swapsLeft_step {s s' : Sampler} {l : Label} (hstep : step s l = some s')
    (hstop : s.stop = true) : swapsLeft s' + (if l.isSwap then 1 else 0) ≤ swapsLeft s := by
  cases Step.of_step hstep with
  -- the load is the only way into a tick, and it finds the flag set
  | load hpc => simp [swapsLeft, hstop, Pc.mayPublish, Label.isSwap]
  | clear h | append _ h | collected h | panicked h | lock h | swap h | unlock h | wake h =>
      simp [swapsLeft, h, Pc.mayPublish, Label.isSwap]
  | store | acquire | look | release => simp [swapsLeft, Label.isSwap]

/-- **At most one more tick** is published once the stop flag is set. -/
theorem countP_isSwap_le {s s' : Sampler} {ls : List Label} (hrun : run step s ls = some s')
    (hstop : s.stop = true) : ls.countP Label.isSwap ≤ 1 := by
  have hcount := run_countP_le (I := fun m => m.stop = true) (p := Label.isSwap)
    (fun _ _ _ hstop hstep => stop_of_step hstep hstop)
    (fun _ _ _ hstop hstep => swapsLeft_step hstep hstop) hstop hrun
  -- the bound is that of the tick the thread may be in
  have hleft : swapsLeft s ≤ 1 := by
    unfold swapsLeft
    split <;> omega
  omega

end Sampler

end MetricsExporter.Framework
