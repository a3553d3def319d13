/-
# MetricsExporter.Framework.Progress -- shutdown comes to an end

`Sampler.stepsLeft` counts the steps a thread whose flag is set and the callbacks on its cache still
take, and `Registry.stepsLeft` adds those of the call that joins. No step raises it unless a new
callback begins, a collector is added or a further call is made, and the only steps that do not
lower it are those of `collect` filling its buffer. A call to stop can also always go on. So it
returns whatever the order of the steps: `shutdown_terminates`.

What stays open is a `collect` that appends for ever, and callbacks that keep beginning: a reader
that never leaves the lock alone can hold up the writer, and nothing in the source prevents it. Both
are excluded by name (`Event.isWork`, `Event.isRequest`) and not by an assumption on the order of
the steps.
-/
import MetricsExporter.Framework.Registry
import MetricsExporter.Lib.Progress

namespace MetricsExporter.Framework

open MetricsExporter.Lib

namespace Sampler

/-! ## One thread and its callbacks -/

/-- The steps a thread whose stop flag is set still takes, but for the groups it appends. -/
def Pc.stepsLeft : Pc → Nat
  | .clear => 7
  | .collect => 6
  | .lock => 5
  | .swap => 4
  | .unlock => 3
  | .sleep => 2
  | .check => 1
  | .exited => 0

/-- The looks a callback still takes, and the release. -/
def Reader.stepsLeft (cache : List SampleGroup) (r : Reader) : Nat :=
  (samples cache).length - r.next + 1

/-- The steps a sampler that is to stop can still take, but for callbacks that begin. -/
def stepsLeft (s : Sampler) : Nat :=
  s.pc.stepsLeft + (s.readers.map (Reader.stepsLeft s.cache)).sum

/-- Everything but a group that `collect` appends. -/
def Label.isWork : Label → Bool
  | .append _ => false
  | _ => true

/-- A callback begins. -/
def Label.isAcquire : Label → Bool
  | .acquire _ => true
  | _ => false

/-- The collector panics. -/
def Label.isPanic : Label → Bool
  | .panicked => true
  | _ => false

/-- No step of a thread whose flag is set, or of a callback under way, raises the count. -/
theorem stepsLeft_step {s s' : Sampler} {l : Label} (h : Reading s) (hstop : s.stop = true)
    (hstore : l.isStore = false) (hacquire : l.isAcquire = false) (hstep : step s l = some s') :
    stepsLeft s' + (if l.isWork then 1 else 0) ≤ stepsLeft s := by
  cases Step.of_step hstep with
  -- the flag is set, so the load is the last step of the thread
  | load hpc => simp [stepsLeft, hpc, hstop, Pc.stepsLeft, Label.isWork, Nat.add_comm]
  | append group hpc => simp [stepsLeft, Label.isWork]
  | swap hpc =>
      -- the cache changes, but nobody reads it
      have hnone : s.readers = [] := h.excluded (by rw [hpc]; rfl)
      simp [stepsLeft, hpc, hnone, Pc.stepsLeft, Label.isWork]
  | clear hpc | collected hpc | panicked hpc | lock hpc | unlock hpc | wake hpc =>
      simp only [stepsLeft, hpc, Pc.stepsLeft, Label.isWork, reduceIte]
      omega
  | store => cases hstore
  | acquire => cases hacquire
  | @look i r sample hr hsample =>
      obtain ⟨hlt, -⟩ := List.getElem?_eq_some_iff.mp hsample
      have hsum := sum_map_set (Reader.stepsLeft s.cache) hr (r.look sample)
      have hlook : (r.look sample).next = r.next + 1 := rfl
      simp only [Reader.stepsLeft, hlook] at hsum
      simp only [stepsLeft, Label.isWork, reduceIte]
      omega
  | @release i r hr hnext =>
      have hsum := sum_map_eraseIdx (Reader.stepsLeft s.cache) hr
      simp only [Reader.stepsLeft] at hsum
      simp only [stepsLeft, Label.isWork, reduceIte]
      omega

/-- No callback has looked at more values than there are. -/
def Bounded (s : Sampler) : Prop := ∀ r ∈ s.readers, r.next ≤ (samples s.cache).length

/-- A callback looks at the values there are, and the cache does not change under it. -/
theorem bounded_step {s s' : Sampler} {l : Label} (hreading : Reading s) (h : Bounded s)
    (hstep : step s l = some s') : Bounded s' := by
  cases Step.of_step hstep with
  | swap hpc =>
      have hnone : s.readers = [] := hreading.excluded (by rw [hpc]; rfl)
      simp [Bounded, hnone]
  | acquire item hitem hpc =>
      intro r hr
      rcases List.mem_append.mp hr with hr | hr
      · exact h r hr
      · obtain rfl := List.mem_singleton.mp hr
        exact Nat.zero_le _
  | @look i r sample hr hsample =>
      obtain ⟨hlt, -⟩ := List.getElem?_eq_some_iff.mp hsample
      intro r' hr'
      rcases List.mem_or_eq_of_mem_set hr' with hr' | rfl
      · exact h r' hr'
      · exact hlt
  | @release i r hr hnext => exact fun r' hr' => h r' (List.mem_of_mem_eraseIdx hr')
  | load | clear | append | collected | panicked | lock | unlock | wake | store => exact h

/-- What holds of the callbacks of a sampler in every run. -/
structure Orderly (s : Sampler) : Prop where
  reading : Reading s
  bounded : Bounded s

/-- What one step preserves, label by label. -/
theorem orderly_step {s s' : Sampler} {l : Label} (h : Orderly s) (hstep : step s l = some s') :
    Orderly s' :=
  ⟨reading_step h.reading hstep, bounded_step h.reading h.bounded hstep⟩

/-- So it is in every run. -/
theorem orderly_run {items : List MetricItem} {ls : List Label} {s : Sampler}
    (hrun : run step { items } ls = some s) : Orderly s := by
  have hinit : Orderly { items } := ⟨reading_init items, nofun⟩
  exact run_invariant (fun _ _ _ _ h hstep => orderly_step h hstep) hinit hrun

/-- A label of a thread that does not panic, or of a callback that is under way. -/
def Label.goesOn (l : Label) : Bool := l.isWork && !l.isStore && !l.isAcquire && !l.isPanic

/-- A callback that is under way can look at its next value, or is through. -/
theorem exists_step_of_reader {s : Sampler} (h : Bounded s) {i : Nat} {r : Reader}
    (hr : s.readers[i]? = some r) :
    ∃ l s', l.goesOn = true ∧ step s l = some s' := by
  have hle : r.next ≤ (samples s.cache).length := h r (List.mem_of_getElem? hr)
  by_cases hnext : r.next = (samples s.cache).length
  · exact ⟨.release i, { s with readers := s.readers.eraseIdx i }, rfl, by simp [step, hr, hnext]⟩
  · have hlt : r.next < (samples s.cache).length := by omega
    refine ⟨.look i, { s with readers := s.readers.set i (r.look (samples s.cache)[r.next]) },
      rfl, ?_⟩
    simp [step, hr, List.getElem?_eq_getElem hlt]

/-- **A thread that has not ended is never stuck**: it has a step, or it waits for a callback that
has one. -/
theorem exists_step_of_live {s : Sampler} (h : Bounded s) (hlive : s.pc ≠ .exited) :
    ∃ l s', l.goesOn = true ∧ step s l = some s' := by
  cases hpc : s.pc with
  | exited => exact absurd hpc hlive
  | lock =>
      -- the write lock is free, or a callback holds a read lock and can go on
      cases hreaders : s.readers with
      | nil => exact ⟨.lock, { s with pc := .swap }, rfl, by simp [step, hpc, hreaders]⟩
      | cons r rs => exact exists_step_of_reader h (i := 0) (r := r) (by simp [hreaders])
  | check =>
      exact ⟨.load, { s with pc := if s.stop then .exited else .clear }, rfl, by simp [step, hpc]⟩
  | clear => exact ⟨.clear, { s with pc := .collect, scratch := [] }, rfl, by
      simp [step, hpc, Framework.clear]⟩
  | collect => exact ⟨.collected, { s with pc := .lock }, rfl, by simp [step, hpc]⟩
  | swap =>
      exact ⟨.swap, { s with pc := .unlock, cache := s.scratch, scratch := s.cache }, rfl, by
        simp [step, hpc]⟩
  | unlock => exact ⟨.unlock, { s with pc := .sleep }, rfl, by simp [step, hpc]⟩
  | sleep => exact ⟨.wake, { s with pc := .check }, rfl, by simp [step, hpc]⟩

end Sampler

namespace Registry

/-! ## The call and all threads -/

/-- A state that a run of the registry comes to. -/
def Reachable (s : Registry) : Prop := ∃ es, run step {} es = some s

section

variable {s s' : Registry} {e : Event} {call : Call}

/-- One step further. -/
theorem Reachable.step (h : Reachable s) (hstep : step s e = some s') : Reachable s' := by
  obtain ⟨es, hrun⟩ := h
  exact ⟨es ++ [e], run_append_eq_some.mpr ⟨s, hrun, run_cons_eq_some.mpr ⟨s', hstep, rfl⟩⟩⟩

/-- What holds of every run. -/
theorem Reachable.coherent (h : Reachable s) : Coherent s := by
  obtain ⟨es, hrun⟩ := h
  exact coherent_run hrun

/-- A thread of the registry is in a run of its own, so its callbacks are in order. -/
theorem Reachable.orderly (h : Reachable s) {t : Nat} {th : Sampler}
    (hth : s.samplers[t]? = some th) : th.Orderly := by
  obtain ⟨es, hrun⟩ := h
  obtain ⟨items, ls, hsampler⟩ := sampled_run hrun t th hth
  exact Sampler.orderly_run hsampler

/-- The call to stop that is under way. -/
def Owner.call? : Owner → Option Call
  | .storing call _ | .joining call _ | .waiting call _ _ => some call
  | .idle | .adding _ | .dropped => none

/-- The steps a call still takes once every flag is set, among the entries there are. -/
def Owner.stepsLeft (entries : Nat) : Owner → Nat
  | .joining _ next => 2 * (entries - next) + 1
  | .waiting _ next _ => 2 * (entries - next)
  | .idle | .adding _ | .storing _ _ | .dropped => 0

/-- The steps that are left of a call and of the threads it waits for. -/
def stepsLeft (s : Registry) : Nat :=
  s.owner.stepsLeft s.entries.length + (s.samplers.map Sampler.stepsLeft).sum

/-- Everything but a group that `collect` appends. -/
def Event.isWork : Event → Bool
  | .sampler _ l => l.isWork
  | _ => true

/-- A collector is added, a further call to stop is made, or a callback begins. -/
def Event.isRequest : Event → Bool
  | .add _ _ | .call _ => true
  | .sampler _ l => l.isAcquire
  | _ => false

/-- No collector is being added, and no call is before the end of its stores. -/
def Owner.pastStores : Owner → Bool
  | .adding _ | .storing _ _ => false
  | .idle | .joining _ _ | .waiting _ _ _ | .dropped => true

/-- Every flag is set, and nobody is on the way to one that is not. -/
structure Closing (s : Registry) : Prop where
  reachable : Reachable s
  owner : s.owner.pastStores = true
  stopped : ∀ th ∈ s.samplers, th.stop = true

/-- The call goes on, or it is through. -/
theorem call_step (hcall : s.owner.call? = some call) (hstep : step s e = some s') :
    s'.owner.call? = some call ∨ e = .finish ∧ s'.owner = call.after := by
  cases Step.of_step hstep with
  | sampler => exact .inl hcall
  | skip items spawned howner => exact .inl hcall
  | add howner | push howner | call _ howner => simp [howner, Owner.call?] at hcall
  | store howner | stored howner | take howner | taken howner | join howner =>
      rw [howner] at hcall
      exact .inl hcall
  | finish howner =>
      rw [howner] at hcall
      exact .inr ⟨rfl, congrArg Call.after (Option.some.inj hcall)⟩

/-- Past the stores the call, the threads and the callbacks only use up what they have left. -/
theorem stepsLeft_step (h : Closing s) (he : e.isRequest = false) (hstep : step s e = some s') :
    Closing s' ∧ stepsLeft s' + (if e.isWork then 1 else 0) ≤ stepsLeft s := by
  have hreachable := h.reachable.step hstep
  have howner := h.owner
  cases Step.of_step hstep with
  | @sampler t l th th' hl hth hsampler =>
      have hstop : th.stop = true := h.stopped th (List.mem_of_getElem? hth)
      refine ⟨⟨hreachable, h.owner, fun th₁ hth₁ => ?_⟩, ?_⟩
      · rcases List.mem_or_eq_of_mem_set hth₁ with hold | rfl
        · exact h.stopped th₁ hold
        · exact Sampler.stop_of_step hsampler hstop
      · have hreading := (h.reachable.orderly hth).reading
        have hthread := Sampler.stepsLeft_step hreading hstop hl he hsampler
        have hsum := sum_map_set Sampler.stepsLeft hth th'
        have hwork : (Event.sampler t l).isWork = l.isWork := rfl
        rw [hwork]
        simp only [stepsLeft]
        omega
  | skip | add | call => cases he
  | push hadding => simp [hadding, Owner.pastStores] at howner
  | store hstoring | stored hstoring => simp [hstoring, Owner.pastStores] at howner
  | @take call next t entry hjoining hentry hhandle =>
      obtain ⟨hlt, -⟩ := List.getElem?_eq_some_iff.mp hentry
      refine ⟨⟨hreachable, rfl, h.stopped⟩, ?_⟩
      simp only [stepsLeft, hjoining, Owner.stepsLeft, Event.isWork, List.length_set, reduceIte]
      omega
  | @taken call next entry hjoining hentry hhandle =>
      obtain ⟨hlt, -⟩ := List.getElem?_eq_some_iff.mp hentry
      refine ⟨⟨hreachable, rfl, h.stopped⟩, ?_⟩
      simp only [stepsLeft, hjoining, Owner.stepsLeft, Event.isWork, reduceIte]
      omega
  | @join call next t th hwaiting hth hpc =>
      -- the handle that is waited for was taken from an entry
      have hprogress := h.reachable.coherent.progress
      rw [hwaiting] at hprogress
      obtain ⟨-, ⟨entry, hentry, -⟩, -, -⟩ := hprogress
      obtain ⟨hlt, -⟩ := List.getElem?_eq_some_iff.mp hentry
      refine ⟨⟨hreachable, rfl, h.stopped⟩, ?_⟩
      simp only [stepsLeft, hwaiting, Owner.stepsLeft, Event.isWork, reduceIte]
      omega
  | @finish call hjoining =>
      refine ⟨⟨hreachable, by cases call <;> rfl, h.stopped⟩, ?_⟩
      have hafter : call.after.stepsLeft s.entries.length = 0 := by cases call <;> rfl
      simp only [stepsLeft, hjoining, hafter]
      simp only [Owner.stepsLeft, Event.isWork, reduceIte]
      omega

/-- One of the threads panics. -/
def Event.isPanic : Event → Bool
  | .sampler _ l => l.isPanic
  | _ => false

/-- A step of the call, of a thread that does not panic, or of a callback under way. -/
structure Event.GoesOn (e : Event) : Prop where
  work : e.isWork = true
  request : e.isRequest = false
  panic : e.isPanic = false

/-- A step of a thread or of a callback, as a step of the registry. -/
theorem step_sampler {t : Nat} {th th' : Sampler} {l : Sampler.Label}
    (hth : s.samplers[t]? = some th) (hl : l.goesOn = true) (hstep : Sampler.step th l = some th') :
    Event.GoesOn (.sampler t l) ∧
      step s (.sampler t l) = some { s with samplers := s.samplers.set t th' } := by
  simp only [Sampler.Label.goesOn, Bool.and_eq_true, Bool.not_eq_true'] at hl
  obtain ⟨⟨⟨hwork, hstore⟩, hacquire⟩, hpanic⟩ := hl
  refine ⟨⟨hwork, hacquire, hpanic⟩, ?_⟩
  simp [step, stepSampler, hstore, hth, hstep]

/-- The loop that stores is at an entry or at its end. -/
theorem store_cases (h : Coherent s) {next : Nat} (howner : s.owner = .storing call next) :
    next = s.entries.length ∧ step s .stored = some { s with owner := .joining call 0 } ∨
      ∃ entry, s.entries[next]? = some entry ∧
        step s .store = some { s with
          owner := .storing call (next + 1)
          samplers := storeStop s.samplers entry.stop } := by
  by_cases hnext : next = s.entries.length
  · exact .inl ⟨hnext, by simp [step, stored, howner, hnext]⟩
  · have hlength : s.samplers.length = s.entries.length := by
      simpa [howner, Owner.pending] using h.length
    have hprogress := h.progress
    rw [howner] at hprogress
    -- the threads stored to so far are there, and there are no more of them than entries
    have hlt : next < s.entries.length := by
      by_contra hge
      obtain ⟨th, hth, -⟩ := hprogress s.entries.length (by omega)
      obtain ⟨hlt, -⟩ := List.getElem?_eq_some_iff.mp hth
      omega
    refine .inr ⟨s.entries[next], List.getElem?_eq_getElem hlt, ?_⟩
    simp [step, store, howner, List.getElem?_eq_getElem hlt]

/-- **A call to stop is never stuck**: it has a step, or it waits for a thread that has one, or for
a thread that waits for a callback that has one. -/
theorem exists_step_of_call (h : Reachable s) (hcall : s.owner.call? = some call) :
    ∃ e, Event.GoesOn e ∧ (step s e).isSome = true := by
  have hs : Coherent s := h.coherent
  have hprogress := hs.progress
  cases howner : s.owner with
  | idle | adding | dropped => simp [howner, Owner.call?] at hcall
  | storing call' next =>
      rcases store_cases hs howner with ⟨-, hstep⟩ | ⟨entry, -, hstep⟩
      · exact ⟨.stored, ⟨rfl, rfl, rfl⟩, by rw [hstep]; rfl⟩
      · exact ⟨.store, ⟨rfl, rfl, rfl⟩, by rw [hstep]; rfl⟩
  | joining call' next =>
      by_cases hnext : next = s.entries.length
      · exact ⟨.finish, ⟨rfl, rfl, rfl⟩, by simp [step, finish, howner, hnext]⟩
      · rw [howner] at hprogress
        have hlt : next < s.entries.length := by
          by_contra hge
          obtain ⟨-, entry, hentry, -⟩ := hprogress.2 s.entries.length (by omega)
          obtain ⟨hlt, -⟩ := List.getElem?_eq_some_iff.mp hentry
          omega
        refine ⟨.take, ⟨rfl, rfl, rfl⟩, ?_⟩
        cases hhandle : s.entries[next].handle with
        | none => simp [step, take, howner, List.getElem?_eq_getElem hlt, hhandle]
        | some t => simp [step, take, howner, List.getElem?_eq_getElem hlt, hhandle]
  | waiting call' next t =>
      rw [howner] at hprogress
      obtain ⟨rfl, ⟨entry, hentry, -⟩, hstopped, -⟩ := hprogress
      obtain ⟨hlt, -⟩ := List.getElem?_eq_some_iff.mp hentry
      obtain ⟨th, hth, -⟩ := hstopped t hlt
      by_cases hpc : th.pc = .exited
      · exact ⟨.join t, ⟨rfl, rfl, rfl⟩, by simp [step, join, howner, hth, hpc]⟩
      · obtain ⟨l, th', hl, hstep⟩ := Sampler.exists_step_of_live (h.orderly hth).bounded hpc
        obtain ⟨hgoes, hsampler⟩ := step_sampler hth hl hstep
        exact ⟨.sampler t l, hgoes, by rw [hsampler]; rfl⟩

/-! ## The end of the call -/

/-- The rounds of the first loop of `shutdown` that are left, and its end. -/
def storesLeft (s : Registry) : Nat :=
  match s.owner with
  | .storing _ next => s.entries.length + 1 - next
  | _ => 0

/-- The stores come to an end, whatever the threads do. -/
theorem exists_run_to_joining {next : Nat} (h : Reachable s)
    (howner : s.owner = .storing call next) :
    ∃ es s', (∀ e ∈ es, Event.GoesOn e) ∧ run step s es = some s' ∧
      (Reachable s' ∧ ∃ next, s'.owner = .storing call next ∨ s'.owner = .joining call 0) ∧
        s'.owner = .joining call 0 := by
  refine exists_run_to storesLeft ?_ ⟨h, next, .inl howner⟩
  rintro s ⟨h, next, howner | howner⟩ hgoal
  · rcases store_cases h.coherent howner with ⟨hnext, hstep⟩ | ⟨entry, hentry, hstep⟩
    · refine ⟨.stored, _, ⟨rfl, rfl, rfl⟩, hstep, ⟨h.step hstep, 0, .inr rfl⟩, ?_⟩
      simp only [storesLeft, howner]
      omega
    · obtain ⟨hlt, -⟩ := List.getElem?_eq_some_iff.mp hentry
      refine ⟨.store, _, ⟨rfl, rfl, rfl⟩, hstep, ⟨h.step hstep, next + 1, .inl rfl⟩, ?_⟩
      simp only [storesLeft, howner]
      omega
  · exact absurd howner hgoal

/-- Past its stores, a call has set every flag. -/
theorem closing_of_call (h : Reachable s) (hcall : s.owner.call? = some call)
    (hpast : s.owner.pastStores = true) : Closing s := by
  have hs : Coherent s := h.coherent
  have hprogress := hs.progress
  have hstopped : s.samplers.length = s.entries.length ∧ ∀ i < s.entries.length, s.Stopped i := by
    have hlength := hs.length
    cases howner : s.owner with
    | idle | adding | dropped => simp [howner, Owner.call?] at hcall
    | storing => simp [howner, Owner.pastStores] at hpast
    | joining =>
        rw [howner] at hprogress hlength
        exact ⟨hlength, hprogress.1⟩
    | waiting =>
        rw [howner] at hprogress hlength
        exact ⟨hlength, hprogress.2.2.1⟩
  refine ⟨h, hpast, fun th hth => ?_⟩
  obtain ⟨t, ht⟩ := List.mem_iff_getElem?.mp hth
  obtain ⟨hlt, -⟩ := List.getElem?_eq_some_iff.mp ht
  obtain ⟨th', hth', hstop⟩ := hstopped.2 t (hstopped.1 ▸ hlt)
  obtain rfl := Option.some.inj (ht.symm.trans hth')
  exact hstop

/-- The call is under way, or it has returned and nothing has happened to what it left. -/
def Serves (call : Call) (s : Registry) : Prop :=
  s.owner.call? = some call ∨ s.owner = call.after ∧ Settled s

/-- The call stays under way until it returns, and what it left stays settled. -/
theorem serves_step (h : Closing s) (hserves : Serves call s) (he : e.isRequest = false)
    (hstep : step s e = some s') : Serves call s' := by
  rcases hserves with hcall | ⟨hafter, hsettled⟩
  · rcases call_step hcall hstep with hcall' | ⟨rfl, hafter⟩
    · exact .inl hcall'
    · exact .inr ⟨hafter, settled_of_finish h.reachable.coherent hstep⟩
  · have hadd : e.isAdd = false := by
      cases e <;> simp_all [Event.isAdd, Event.isRequest]
    refine .inr ⟨?_, (settled_step hsettled hadd hstep).1⟩
    -- between two calls the owner does nothing on its own
    cases Step.of_step hstep with
    | sampler => exact hafter
    | skip | add | call => cases he
    | push howner | store howner | stored howner | take howner | taken howner | join howner
    | finish howner =>
        rw [hafter] at howner
        cases call <;> cases howner

/-- Behind a call none is under way. -/
theorem call?_after (call : Call) : call.after.call? = none := by cases call <;> rfl

/-- Past its stores a call returns without anything new. -/
theorem exists_run_to_return (hclosing : Closing s) (hserves : Serves call s) :
    ∃ es s', (∀ e ∈ es, Event.GoesOn e) ∧ run step s es = some s' ∧
      (Closing s' ∧ Serves call s') ∧ s'.owner = call.after := by
  -- on the steps that are left: a call that has not returned has one more, and taking it leaves
  -- fewer
  refine exists_run_to stepsLeft ?_ ⟨hclosing, hserves⟩
  rintro s ⟨hclosing, hserves⟩ hgoal
  have hcall : s.owner.call? = some call := hserves.resolve_right fun h => hgoal h.1
  obtain ⟨e, hgoes, henabled⟩ := exists_step_of_call hclosing.reachable hcall
  obtain ⟨s', hstep⟩ := Option.isSome_iff_exists.mp henabled
  obtain ⟨hclosing', hless⟩ := stepsLeft_step hclosing hgoes.request hstep
  rw [if_pos hgoes.work] at hless
  exact ⟨e, s', hgoes, hstep, ⟨hclosing', serves_step hclosing hserves hgoes.request hstep⟩, hless⟩

/-- A call gets past its stores without anything new. -/
theorem exists_run_past_stores (h : Reachable s) (hcall : s.owner.call? = some call) :
    ∃ es s', (∀ e ∈ es, Event.GoesOn e) ∧ run step s es = some s' ∧ Closing s' ∧
      Serves call s' := by
  cases hpast : s.owner.pastStores with
  | true => exact ⟨[], s, nofun, rfl, closing_of_call h hcall hpast, .inl hcall⟩
  | false =>
      cases howner : s.owner with
      | idle | joining | waiting | dropped => simp [howner, Owner.pastStores] at hpast
      | adding => simp [howner, Owner.call?] at hcall
      | storing call' next =>
          rw [howner] at hcall
          obtain rfl := Option.some.inj hcall
          obtain ⟨es, s', hes, hrun, ⟨h', -⟩, howner'⟩ := exists_run_to_joining h howner
          have hcall' : s'.owner.call? = some call' := by rw [howner']; rfl
          have hpast' : s'.owner.pastStores = true := by rw [howner']; rfl
          exact ⟨es, s', hes, hrun, closing_of_call h' hcall' hpast', .inl hcall'⟩

/-- **A call to stop can return**, wherever it has come. -/
theorem exists_run_returning (h : Reachable s) (hcall : s.owner.call? = some call) :
    ∃ es s', (∀ e ∈ es, Event.GoesOn e) ∧ run step s es = some s' ∧ s'.owner = call.after ∧
      Settled s' := by
  obtain ⟨es₁, s₁, hes₁, hrun₁, hclosing₁, hserves₁⟩ := exists_run_past_stores h hcall
  obtain ⟨es₂, s₂, hes₂, hrun₂, ⟨-, hserves₂⟩, hafter⟩ := exists_run_to_return hclosing₁ hserves₁
  have hreturned : s₂.owner.call? ≠ some call := by
    rw [hafter, call?_after]
    exact nofun
  exact ⟨es₁ ++ es₂, s₂, List.forall_mem_append.mpr ⟨hes₁, hes₂⟩,
    run_append_eq_some.mpr ⟨s₁, hrun₁, hrun₂⟩, hafter, (hserves₂.resolve_left hreturned).2⟩

/-- **A stop comes to an end.** Wherever a call to stop has come, in any run: it can return without
a callback beginning, a collector being added, a further call or a panic; and past its stores no
order of steps keeps it from returning. At most `stepsLeft` steps are left, not counting the groups
that `collect` still appends, and when none of them is possible any more the call has returned and
every thread has ended. -/
theorem shutdown_terminates {es : List Event} (hrun : run step {} es = some s)
    (hcall : s.owner.call? = some call) :
    (∃ es' s', (∀ e ∈ es', Event.GoesOn e) ∧ run step s es' = some s' ∧ s'.owner = call.after ∧
      Settled s') ∧
    (s.owner.pastStores = true → ∀ es' s', (∀ e ∈ es', e.isRequest = false) →
      run step s es' = some s' →
        es'.countP Event.isWork ≤ stepsLeft s ∧
        ((∀ e, Event.GoesOn e → step s' e = none) → s'.owner = call.after ∧ Settled s')) := by
  have h : Reachable s := ⟨es, hrun⟩
  refine ⟨exists_run_returning h hcall, ?_⟩
  intro hpast es' s' hes' hrun'
  have hclosing : Closing s := closing_of_call h hcall hpast
  have hcount := run_countP_le_of_forall (I := Closing) (p := Event.isWork)
    (fun e he _ _ hclosing hstep => stepsLeft_step hclosing (hes' e he) hstep) hclosing hrun'
  refine ⟨by omega, fun hstuck => ?_⟩
  have hinv : ∀ e ∈ es', ∀ m m', (Closing m ∧ Serves call m) → step m e = some m' →
      Closing m' ∧ Serves call m' := by
    rintro e he m m' ⟨hm, hserves⟩ hstep
    exact ⟨(stepsLeft_step hm (hes' e he) hstep).1, serves_step hm hserves (hes' e he) hstep⟩
  obtain ⟨hclosing', hserves'⟩ := run_invariant (I := fun m => Closing m ∧ Serves call m) hinv
    ⟨hclosing, .inl hcall⟩ hrun'
  -- a call that has not returned has a step
  refine hserves'.resolve_left fun hcall' => ?_
  obtain ⟨e, hgoes, henabled⟩ := exists_step_of_call hclosing'.reachable hcall'
  rw [hstuck e hgoes] at henabled
  cases henabled

/-- A collector whose thread is in a tick when it is told to stop, with a callback reading. -/
def stopInTick : List Event :=
  [.add [Sampler.fakeCount] true, .push, .sampler 0 .load, .sampler 0 .clear,
    .sampler 0 (.acquire Sampler.fakeCount), .call .shutdown, .store, .stored, .take]

/-- The flag is stored, and the call waits in the join while the thread is still collecting. -/
def afterStopInTick : Registry where
  entries := [⟨0, none⟩]
  owner := .waiting .shutdown 0 0
  samplers := [{
    items := [Sampler.fakeCount]
    stop := true
    pc := .collect
    readers := [{ item := Sampler.fakeCount }] }]

/-- From there at most nine working steps are left. -/
theorem shutdown_terminates_stopInTick :
    run step {} stopInTick = some afterStopInTick ∧ stepsLeft afterStopInTick = 9 ∧
      ∀ es' s', (∀ e ∈ es', e.isRequest = false) → run step afterStopInTick es' = some s' →
        es'.countP Event.isWork ≤ 9 := by
  have hrun : run step {} stopInTick = some afterStopInTick := rfl
  obtain ⟨-, hbound⟩ := shutdown_terminates hrun rfl
  exact ⟨hrun, rfl, fun es' s' hes' hrun' => (hbound rfl es' s' hes' hrun').1⟩

end

end Registry

end MetricsExporter.Framework
