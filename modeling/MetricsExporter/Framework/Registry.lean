/-
# MetricsExporter.Framework.Registry -- adding collectors, shutting down and dropping

The registry owns one entry for each sampling thread: a pointer to the stop flag and the handle to
join. `add`, `shutdown` and the drop of the registry take it exclusively, so their steps come one
call after the other, but any sampling thread and any callback may step in between. `step` is that
interleaving, `Coherent` what holds in each of its states, and `shutdown_final` what follows for the
flags, the handles and the caches.

`add` is cut in two at the spawn, since the new thread may run before its entry is pushed; the
instruments it builds before that are the items of the sampler. Whether a spawn succeeds is left to
the environment. A failed one leaves instruments behind whose cache stays empty, of which nothing is
said. The result of a join is dropped in the source, so a panic of the thread makes no difference to
it. The name and the log lines of a collector are left out.
-/
import MetricsExporter.Framework.Sampler

namespace MetricsExporter.Framework

open MetricsExporter.Lib

namespace Registry

/-- An entry: the thread whose stop flag it points to, and the handle of the thread to join. Threads
are numbered in the order they were spawned. -/
structure Entry where
  stop : Nat
  handle : Option Nat
  deriving DecidableEq, Repr

/-- The calls that stop the threads. `Drop` runs `shutdown`. -/
inductive Call where
  | shutdown
  | drop
  deriving DecidableEq, Repr

/-- Where the owner of the registry stands. -/
inductive Owner where
  /-- between two calls -/
  | idle
  /-- in `add`, after the spawn of the thread -/
  | adding (thread : Nat)
  /-- in the first loop of `shutdown`, at an entry -/
  | storing (call : Call) (next : Nat)
  /-- in the second loop of `shutdown`, at an entry -/
  | joining (call : Call) (next : Nat)
  /-- in the second loop of `shutdown`, with the handle of the entry taken -/
  | waiting (call : Call) (next : Nat) (thread : Nat)
  /-- the registry is gone -/
  | dropped
  deriving DecidableEq, Repr

end Registry

/-- The entries of the registry, where its owner stands, and the sampling threads with the caches
they share with the callbacks. -/
structure Registry where
  entries : List Registry.Entry := []
  owner : Registry.Owner := .idle
  samplers : List Sampler := []

namespace Registry

/-- The steps of the registry, and those of its threads and callbacks. -/
inductive Event where
  /-- a step of a sampling thread or of a callback on its cache -/
  | sampler (t : Nat) (l : Sampler.Label)
  /-- `add` up to the spawn, which may fail -/
  | add (items : List MetricItem) (spawned : Bool)
  /-- `self.entries.push(..)` -/
  | push
  /-- `shutdown` or `drop` is called -/
  | call (call : Call)
  /-- one round of the first loop -/
  | store
  /-- the end of the first loop -/
  | stored
  /-- `entry.handle.take()` in one round of the second loop -/
  | take
  /-- `handle.join()` returns -/
  | join (t : Nat)
  /-- the call returns -/
  | finish

/-- `entry.stop.store(true, ..)`. -/
def storeStop (samplers : List Sampler) (t : Nat) : List Sampler :=
  samplers.modify t fun th => { th with stop := true }

/-- Where the owner stands after a call. -/
def Call.after : Call → Owner
  | .shutdown => .idle
  | .drop => .dropped

/-- A step of the `t`-th sampling thread or of a callback on its cache. The stop flag is left to the
registry. -/
def stepSampler (s : Registry) (t : Nat) (l : Sampler.Label) : Option Registry :=
  if l.isStore then none
  else do
    let th ← s.samplers[t]?
    let th' ← Sampler.step th l
    some { s with samplers := s.samplers.set t th' }

/-- `add` up to the spawn. A collector without items is skipped, and a failed spawn leaves the
registry as it was. -/
def add (s : Registry) (items : List MetricItem) (spawned : Bool) : Option Registry :=
  if s.owner = .idle then
    if items = [] ∨ spawned = false then some s
    else
      some { s with
        owner := .adding s.samplers.length
        samplers := s.samplers ++ [{ items }] }
  else none

/-- `self.entries.push(..)`. -/
def push (s : Registry) : Option Registry :=
  match s.owner with
  | .adding t => some { s with owner := .idle, entries := s.entries ++ [⟨t, some t⟩] }
  | _ => none

/-- `shutdown` or `drop` is called. -/
def callStop (s : Registry) (call : Call) : Option Registry :=
  if s.owner = .idle then some { s with owner := .storing call 0 } else none

/-- One round of the first loop of `shutdown`. -/
def store (s : Registry) : Option Registry :=
  match s.owner with
  | .storing call next => do
      let entry ← s.entries[next]?
      some { s with
        owner := .storing call (next + 1)
        samplers := storeStop s.samplers entry.stop }
  | _ => none

/-- The end of the first loop. -/
def stored (s : Registry) : Option Registry :=
  match s.owner with
  | .storing call next =>
      if next = s.entries.length then some { s with owner := .joining call 0 } else none
  | _ => none

/-- `entry.handle.take()` in one round of the second loop. -/
def take (s : Registry) : Option Registry :=
  match s.owner with
  | .joining call next => do
      let entry ← s.entries[next]?
      match entry.handle with
      | some t =>
          some { s with
            owner := .waiting call next t
            entries := s.entries.set next { entry with handle := none } }
      | none => some { s with owner := .joining call (next + 1) }
  | _ => none

/-- `handle.join()` returns, once the thread has ended. -/
def join (s : Registry) (t : Nat) : Option Registry :=
  match s.owner with
  | .waiting call next thread => do
      let th ← s.samplers[t]?
      if t = thread ∧ th.pc = .exited then some { s with owner := .joining call (next + 1) }
      else none
  | _ => none

/-- The call returns. -/
def finish (s : Registry) : Option Registry :=
  match s.owner with
  | .joining call next =>
      if next = s.entries.length then some { s with owner := call.after } else none
  | _ => none

/-- One step of the owner, of a thread or of a callback. -/
def step (s : Registry) : Event → Option Registry
  | .sampler t l => s.stepSampler t l
  | .add items spawned => s.add items spawned
  | .push => s.push
  | .call call => s.callStop call
  | .store => s.store
  | .stored => s.stored
  | .take => s.take
  | .join t => s.join t
  | .finish => s.finish

/-- What a step can do. -/
inductive Step (s : Registry) : Event → Registry → Prop
  | sampler {t : Nat} {l : Sampler.Label} {th th' : Sampler} (hl : l.isStore = false)
      (hth : s.samplers[t]? = some th) (hstep : Sampler.step th l = some th') :
      Step s (.sampler t l) { s with samplers := s.samplers.set t th' }
  | skip (items : List MetricItem) (spawned : Bool) (howner : s.owner = .idle)
      (hskip : items = [] ∨ spawned = false) : Step s (.add items spawned) s
  | add {items : List MetricItem} (howner : s.owner = .idle) (hitems : items ≠ []) :
      Step s (.add items true)
        { s with owner := .adding s.samplers.length, samplers := s.samplers ++ [{ items }] }
  | push {t : Nat} (howner : s.owner = .adding t) :
      Step s .push { s with owner := .idle, entries := s.entries ++ [⟨t, some t⟩] }
  | call (call : Call) (howner : s.owner = .idle) :
      Step s (.call call) { s with owner := .storing call 0 }
  | store {call : Call} {next : Nat} {entry : Entry} (howner : s.owner = .storing call next)
      (hentry : s.entries[next]? = some entry) :
      Step s .store
        { s with
          owner := .storing call (next + 1)
          samplers := storeStop s.samplers entry.stop }
  | stored {call : Call} (howner : s.owner = .storing call s.entries.length) :
      Step s .stored { s with owner := .joining call 0 }
  | take {call : Call} {next t : Nat} {entry : Entry} (howner : s.owner = .joining call next)
      (hentry : s.entries[next]? = some entry) (hhandle : entry.handle = some t) :
      Step s .take
        { s with
          owner := .waiting call next t
          entries := s.entries.set next { entry with handle := none } }
  | taken {call : Call} {next : Nat} {entry : Entry} (howner : s.owner = .joining call next)
      (hentry : s.entries[next]? = some entry) (hhandle : entry.handle = none) :
      Step s .take { s with owner := .joining call (next + 1) }
  | join {call : Call} {next t : Nat} {th : Sampler} (howner : s.owner = .waiting call next t)
      (hth : s.samplers[t]? = some th) (hpc : th.pc = .exited) :
      Step s (.join t) { s with owner := .joining call (next + 1) }
  | finish {call : Call} (howner : s.owner = .joining call s.entries.length) :
      Step s .finish { s with owner := call.after }

namespace Step

variable {s s' : Registry}

/-- Event by event, the guards of the step are what the constructor asks for. A store to the flag is
no step of the thread. -/
theorem of_stepSampler {t : Nat} {l : Sampler.Label} (h : s.stepSampler t l = some s') :
    Step s (.sampler t l) s' := by
  obtain ⟨hl, h⟩ := Option.ite_none_left_eq_some.mp h
  obtain ⟨th, hth, h⟩ := Option.bind_eq_some_iff.mp h
  obtain ⟨th', hstep, h⟩ := Option.bind_eq_some_iff.mp h
  obtain rfl := Option.some.inj h
  exact .sampler (Bool.eq_false_iff.mpr hl) hth hstep

/-- A collector without items or without a thread is skipped. -/
theorem of_add {items : List MetricItem} {spawned : Bool} (h : s.add items spawned = some s') :
    Step s (.add items spawned) s' := by
  obtain ⟨howner, h⟩ := Option.ite_none_right_eq_some.mp h
  by_cases hskip : items = [] ∨ spawned = false
  · rw [if_pos hskip] at h
    obtain rfl := Option.some.inj h
    exact .skip items spawned howner hskip
  · rw [if_neg hskip] at h
    obtain rfl := Option.some.inj h
    obtain ⟨hitems, hspawned⟩ := not_or.mp hskip
    rw [Bool.not_eq_false] at hspawned
    subst hspawned
    exact .add howner hitems

theorem of_push (h : s.push = some s') : Step s .push s' := by
  unfold Registry.push at h
  split at h
  · rename_i t howner
    obtain rfl := Option.some.inj h
    exact .push howner
  · cases h

theorem of_callStop {call : Call} (h : s.callStop call = some s') : Step s (.call call) s' := by
  obtain ⟨howner, h⟩ := Option.ite_none_right_eq_some.mp h
  obtain rfl := Option.some.inj h
  exact .call call howner

theorem of_store (h : s.store = some s') : Step s .store s' := by
  unfold Registry.store at h
  split at h
  · rename_i call next howner
    obtain ⟨entry, hentry, h⟩ := Option.bind_eq_some_iff.mp h
    obtain rfl := Option.some.inj h
    exact .store howner hentry
  · cases h

theorem of_stored (h : s.stored = some s') : Step s .stored s' := by
  unfold Registry.stored at h
  split at h
  · rename_i call next howner
    obtain ⟨hnext, h⟩ := Option.ite_none_right_eq_some.mp h
    obtain rfl := Option.some.inj h
    exact .stored (hnext ▸ howner)
  · cases h

theorem of_take (h : s.take = some s') : Step s .take s' := by
  unfold Registry.take at h
  split at h
  · rename_i call next howner
    obtain ⟨entry, hentry, h⟩ := Option.bind_eq_some_iff.mp h
    cases hhandle : entry.handle with
    | none =>
        simp only [hhandle] at h
        obtain rfl := Option.some.inj h
        exact .taken howner hentry hhandle
    | some t =>
        simp only [hhandle] at h
        obtain rfl := Option.some.inj h
        exact .take howner hentry hhandle
  · cases h

theorem of_join {t : Nat} (h : s.join t = some s') : Step s (.join t) s' := by
  unfold Registry.join at h
  split at h
  · rename_i call next thread howner
    obtain ⟨th, hth, h⟩ := Option.bind_eq_some_iff.mp h
    obtain ⟨⟨ht, hpc⟩, h⟩ := Option.ite_none_right_eq_some.mp h
    obtain rfl := Option.some.inj h
    exact .join (ht ▸ howner) hth hpc
  · cases h

theorem of_finish (h : s.finish = some s') : Step s .finish s' := by
  unfold Registry.finish at h
  split at h
  · rename_i call next howner
    obtain ⟨hnext, h⟩ := Option.ite_none_right_eq_some.mp h
    obtain rfl := Option.some.inj h
    exact .finish (hnext ▸ howner)
  · cases h

/-- Every step is one of these, with what allowed it. -/
theorem of_step {e : Event} (h : step s e = some s') : Step s e s' := by
  cases e with
  | sampler t l => exact of_stepSampler h
  | add items spawned => exact of_add h
  | push => exact of_push h
  | call call => exact of_callStop h
  | store => exact of_store h
  | stored => exact of_stored h
  | take => exact of_take h
  | join t => exact of_join h
  | finish => exact of_finish h

end Step

/-! ## One sampler in the run of the registry

The registry touches a sampler in two ways: it spawns the thread, and it stores to the stop flag. So
the steps of a sampler among those of the registry are a run of its own, and what was proved of
every run of a sampler holds here. -/

section

variable {s s' : Registry} {e : Event} {es : List Event} {t : Nat} {th : Sampler}

/-- The steps of the `t`-th sampler, except for the store to its stop flag. -/
def Event.shown (t : Nat) : Event → List Sampler.Label
  | .sampler t' l => if t' = t then [l] else []
  | _ => []

/-- A label of the thread or of a callback. -/
def ofSampler (l : Sampler.Label) : Bool := !l.isStore

/-- The store sets the flag of its own thread. -/
theorem storeStop_self {samplers : List Sampler} (hth : samplers[t]? = some th) :
    (storeStop samplers t)[t]? = some { th with stop := true } := by
  simp [storeStop, hth]

/-- It leaves every other thread as it is. -/
theorem storeStop_of_ne {samplers : List Sampler} {t' : Nat} (hne : t' ≠ t) :
    (storeStop samplers t')[t]? = samplers[t]? := by
  simp [storeStop, hne]

/-- **A step of the registry is a run of each of its samplers**, of at most one step. -/
theorem project_step (hth : s.samplers[t]? = some th) (hstep : step s e = some s') :
    ∃ ls th', run Sampler.step th ls = some th' ∧ ls.filter ofSampler = e.shown t ∧
      s'.samplers[t]? = some th' := by
  cases Step.of_step hstep with
  | @sampler t' l th₀ th' hl hth₀ hsampler =>
      by_cases ht : t' = t
      · subst ht
        obtain rfl := Option.some.inj (hth₀.symm.trans hth)
        obtain ⟨hlt, -⟩ := List.getElem?_eq_some_iff.mp hth
        refine ⟨[l], th', run_cons_eq_some.mpr ⟨th', hsampler, rfl⟩, ?_, List.getElem?_set_self hlt⟩
        simp [ofSampler, hl, Event.shown]
      · refine ⟨[], th, rfl, by simp [Event.shown, ht], ?_⟩
        rw [List.getElem?_set_ne ht]
        exact hth
  | @add items howner hitems =>
      obtain ⟨hlt, -⟩ := List.getElem?_eq_some_iff.mp hth
      exact ⟨[], th, rfl, rfl, (List.getElem?_append_left hlt).trans hth⟩
  | @store call next entry howner hentry =>
      by_cases ht : entry.stop = t
      · rw [ht]
        exact ⟨[.store], { th with stop := true }, rfl, rfl, storeStop_self hth⟩
      · exact ⟨[], th, rfl, rfl, (storeStop_of_ne ht).trans hth⟩
  -- the other steps are about the owner and the entries alone
  | skip | push | call | stored | take | taken | join | finish => exact ⟨[], th, rfl, rfl, hth⟩

/-- **A run of the registry is a run of each of its samplers.** -/
theorem project_run (hth : s.samplers[t]? = some th) (hrun : run step s es = some s') :
    ∃ ls th', run Sampler.step th ls = some th' ∧
      ls.filter ofSampler = es.flatMap (Event.shown t) ∧ s'.samplers[t]? = some th' :=
  run_project (R := fun s th => s.samplers[t]? = some th)
    (fun _ _ _ _ hth hstep => project_step hth hstep) hth hrun

/-- The stop flag of the `t`-th sampler is set. -/
def Stopped (s : Registry) (t : Nat) : Prop := ∃ th, s.samplers[t]? = some th ∧ th.stop = true

/-- The `t`-th sampling thread has ended. -/
def Exited (s : Registry) (t : Nat) : Prop := ∃ th, s.samplers[t]? = some th ∧ th.pc = .exited

/-- A set flag stays set. -/
theorem stopped_of_step (h : s.Stopped t) (hstep : step s e = some s') : s'.Stopped t := by
  obtain ⟨th, hth, hstop⟩ := h
  obtain ⟨ls, th', hrun, -, hth'⟩ := project_step hth hstep
  exact ⟨th', hth', run_invariant (I := fun th => th.stop = true)
    (fun _ _ _ _ hstop hstep => Sampler.stop_of_step hstep hstop) hstop hrun⟩

/-- A thread that has ended stays so. -/
theorem exited_of_step (h : s.Exited t) (hstep : step s e = some s') : s'.Exited t := by
  obtain ⟨th, hth, hpc⟩ := h
  obtain ⟨ls, th', hrun, -, hth'⟩ := project_step hth hstep
  exact ⟨th', hth', (Sampler.exited_of_run hrun hpc).1⟩

end

/-! ## The invariant -/

/-- The threads that are spawned while their entry is not pushed yet. -/
def Owner.pending : Owner → Nat
  | .adding _ => 1
  | _ => 0

/-- The handle of the `i`-th entry is gone. -/
def Taken (s : Registry) (i : Nat) : Prop :=
  ∃ entry, s.entries[i]? = some entry ∧ entry.handle = none

/-- What the call under way has achieved so far. -/
def Progress (s : Registry) : Owner → Prop
  | .idle | .dropped => True
  | .adding t => t = s.entries.length
  | .storing _ next => ∀ i < next, s.Stopped i
  | .joining _ next =>
      (∀ i < s.entries.length, s.Stopped i) ∧ ∀ i < next, s.Exited i ∧ s.Taken i
  | .waiting _ next t =>
      t = next ∧ s.Taken next ∧ (∀ i < s.entries.length, s.Stopped i) ∧
        ∀ i < next, s.Exited i ∧ s.Taken i

/-- Every entry is about the thread of its own place, and its handle is gone only when the thread
has ended or is being waited for. -/
structure Coherent (s : Registry) : Prop where
  length : s.samplers.length = s.entries.length + s.owner.pending
  own : ∀ (i : Nat) (entry : Entry), s.entries[i]? = some entry →
    entry.stop = i ∧ (entry.handle = none ∨ entry.handle = some i)
  taken : ∀ (i : Nat) (entry : Entry), s.entries[i]? = some entry → entry.handle = none →
    s.Exited i ∨ ∃ call, s.owner = .waiting call i i
  progress : s.Progress s.owner

/-- A new registry has no entries and no threads. -/
theorem coherent_init : Coherent {} where
  length := rfl
  own := nofun
  taken := nofun
  progress := trivial

section

variable {s s' : Registry} {e : Event}

/-- Outside of a join a taken handle is that of a thread that has ended. -/
theorem Coherent.exited (h : Coherent s) (howner : ∀ call i t, s.owner ≠ .waiting call i t)
    {i : Nat} {entry : Entry} (hentry : s.entries[i]? = some entry)
    (hhandle : entry.handle = none) :
    s.Exited i := by
  rcases h.taken i entry hentry hhandle with hexited | ⟨call, hwaiting⟩
  · exact hexited
  · exact absurd hwaiting (howner call i i)

/-- A step that leaves the entries and the owner as they are. -/
theorem progress_mono (hentries : s'.entries = s.entries)
    (hstopped : ∀ i, s.Stopped i → s'.Stopped i) (hexited : ∀ i, s.Exited i → s'.Exited i)
    {owner : Owner} (h : s.Progress owner) : s'.Progress owner := by
  have htaken : ∀ i, s.Taken i → s'.Taken i := by
    intro i hi
    unfold Taken
    exact hentries ▸ hi
  cases owner with
  | idle | dropped => trivial
  | adding t => exact h.trans (congrArg List.length hentries).symm
  | storing call next => exact fun i hi => hstopped i (h i hi)
  | joining call next =>
      obtain ⟨hstop, hdone⟩ := h
      refine ⟨fun i hi => hstopped i (hstop i (hentries ▸ hi)), fun i hi => ?_⟩
      exact (hdone i hi).imp (hexited i) (htaken i)
  | waiting call next t =>
      obtain ⟨ht, hnext, hstop, hdone⟩ := h
      refine ⟨ht, htaken next hnext, fun i hi => ?_, fun i hi => ?_⟩
      · exact hstopped i (hstop i (hentries ▸ hi))
      · exact (hdone i hi).imp (hexited i) (htaken i)

/-- The entry pushed is about the thread spawned last, which is that of its place. -/
theorem coherent_push {t : Nat} (h : Coherent s) (howner : s.owner = .adding t) :
    Coherent { s with owner := .idle, entries := s.entries ++ [⟨t, some t⟩] } := by
  have ht : t = s.entries.length := by
    have hprogress := h.progress
    rw [howner] at hprogress
    exact hprogress
  have hcases : ∀ i entry, (s.entries ++ [⟨t, some t⟩])[i]? = some entry →
      s.entries[i]? = some entry ∨ i = t ∧ entry = ⟨t, some t⟩ := by
    intro i entry hentry
    rw [List.getElem?_append] at hentry
    split at hentry
    · exact .inl hentry
    · rw [List.getElem?_singleton] at hentry
      obtain ⟨hi, hentry⟩ := Option.ite_none_right_eq_some.mp hentry
      exact .inr ⟨by omega, (Option.some.inj hentry).symm⟩
  refine ⟨?_, ?_, ?_, trivial⟩
  · simp [h.length, howner, Owner.pending]
  · intro i entry hentry
    rcases hcases i entry hentry with hold | ⟨rfl, rfl⟩
    · exact h.own i entry hold
    · exact ⟨rfl, .inr rfl⟩
  · intro i entry hentry hhandle
    rcases hcases i entry hentry with hold | ⟨-, rfl⟩
    · exact .inl (h.exited (by simp [howner]) hold hhandle)
    · cases hhandle

/-- A round of the first loop. -/
theorem coherent_store {call : Call} {next : Nat} {entry : Entry} (h : Coherent s)
    (howner : s.owner = .storing call next) (hentry : s.entries[next]? = some entry)
    (hstopped : ∀ i, s.Stopped i →
      Stopped { s with samplers := storeStop s.samplers entry.stop } i)
    (hexited : ∀ i, s.Exited i → Exited { s with samplers := storeStop s.samplers entry.stop } i) :
    Coherent { s with
      owner := .storing call (next + 1)
      samplers := storeStop s.samplers entry.stop } := by
  -- the entry points to the thread of its own place, so the store extends the stopped prefix by one
  refine ⟨?_, h.own, ?_, ?_⟩
  · simp [storeStop, h.length, howner, Owner.pending]
  · intro i entry hentry hhandle
    exact .inl (hexited i (h.exited (by simp [howner]) hentry hhandle))
  · intro i hi
    rcases Nat.lt_succ_iff_lt_or_eq.mp hi with hi | rfl
    · have hprogress := h.progress
      rw [howner] at hprogress
      exact hstopped i (hprogress i hi)
    · obtain ⟨hlt, -⟩ := List.getElem?_eq_some_iff.mp hentry
      have hlt' : i < s.samplers.length := by
        rw [h.length]
        omega
      rw [(h.own i entry hentry).1]
      exact ⟨_, storeStop_self (List.getElem?_eq_getElem hlt'), rfl⟩

/-- A round of the second loop, up to the join. -/
theorem coherent_take {call : Call} {next t : Nat} {entry : Entry} (h : Coherent s)
    (howner : s.owner = .joining call next) (hentry : s.entries[next]? = some entry)
    (hhandle : entry.handle = some t) :
    Coherent { s with
      owner := .waiting call next t
      entries := s.entries.set next { entry with handle := none } } := by
  obtain ⟨hlt, -⟩ := List.getElem?_eq_some_iff.mp hentry
  obtain ⟨hstop, hown⟩ := h.own next entry hentry
  -- the handle taken is that of the thread of the place, which the call now waits for
  have ht : t = next := by simpa [hhandle] using hown
  have hcases : ∀ i entry', (s.entries.set next { entry with handle := none })[i]? = some entry' →
      (i ≠ next ∧ s.entries[i]? = some entry') ∨
        i = next ∧ entry' = { entry with handle := none } := by
    intro i entry' hentry'
    by_cases hi : next = i
    · subst hi
      rw [List.getElem?_set_self hlt] at hentry'
      exact .inr ⟨rfl, (Option.some.inj hentry').symm⟩
    · rw [List.getElem?_set_ne hi] at hentry'
      exact .inl ⟨Ne.symm hi, hentry'⟩
  refine ⟨?_, ?_, ?_, ?_⟩
  · simp [h.length, howner, Owner.pending]
  · intro i entry' hentry'
    rcases hcases i entry' hentry' with ⟨-, hold⟩ | ⟨rfl, rfl⟩
    · exact h.own i entry' hold
    · exact ⟨hstop, .inl rfl⟩
  · intro i entry' hentry' hnone
    rcases hcases i entry' hentry' with ⟨-, hold⟩ | ⟨rfl, rfl⟩
    · exact .inl (h.exited (by simp [howner]) hold hnone)
    · exact .inr ⟨call, by rw [ht]⟩
  · have hprogress := h.progress
    rw [howner] at hprogress
    refine ⟨ht, ⟨_, List.getElem?_set_self hlt, rfl⟩, fun i hi => ?_, fun i hi => ?_⟩
    · exact hprogress.1 i (by simpa using hi)
    · obtain ⟨hexited, entry', hentry', hnone⟩ := hprogress.2 i hi
      exact ⟨hexited, entry', (List.getElem?_set_ne (Nat.ne_of_gt hi)).trans hentry', hnone⟩

/-- Each step keeps the entries and the threads matched and gets the call under way one place
further. -/
theorem coherent_step (h : Coherent s) (hstep : step s e = some s') : Coherent s' := by
  have hstopped : ∀ i, s.Stopped i → s'.Stopped i := fun i hi => stopped_of_step hi hstep
  have hexited : ∀ i, s.Exited i → s'.Exited i := fun i hi => exited_of_step hi hstep
  have hprogress := h.progress
  cases Step.of_step hstep with
  | @sampler t l th th' hl hth hsampler =>
      refine ⟨(List.length_set ..).trans h.length, h.own, ?_, ?_⟩
      · intro i entry hentry hhandle
        exact (h.taken i entry hentry hhandle).imp_left (hexited i)
      · have hentries : entries { s with samplers := s.samplers.set t th' } = s.entries := rfl
        exact progress_mono hentries hstopped hexited hprogress
  | skip items spawned howner hskip => exact h
  | @add items howner hitems =>
      refine ⟨?_, h.own, ?_, ?_⟩
      · simp [h.length, howner, Owner.pending]
      · intro i entry hentry hhandle
        exact .inl (hexited i (h.exited (by simp [howner]) hentry hhandle))
      · simp [Progress, h.length, howner, Owner.pending]
  | push howner => exact coherent_push h howner
  | call call howner =>
      refine ⟨by simp [h.length, howner, Owner.pending], h.own, ?_, nofun⟩
      intro i entry hentry hhandle
      exact .inl (h.exited (by simp [howner]) hentry hhandle)
  | @store call next entry howner hentry => exact coherent_store h howner hentry hstopped hexited
  | @stored call howner =>
      rw [howner] at hprogress
      refine ⟨by simp [h.length, howner, Owner.pending], h.own, ?_, hprogress, nofun⟩
      intro i entry hentry hhandle
      exact .inl (h.exited (by simp [howner]) hentry hhandle)
  | @take call next t entry howner hentry hhandle => exact coherent_take h howner hentry hhandle
  | @taken call next entry howner hentry hhandle =>
      rw [howner] at hprogress
      refine ⟨by simp [h.length, howner, Owner.pending], h.own, ?_, hprogress.1, ?_⟩
      · intro i entry hentry hhandle
        exact .inl (h.exited (by simp [howner]) hentry hhandle)
      · intro i hi
        rcases Nat.lt_succ_iff_lt_or_eq.mp hi with hi | rfl
        · exact hprogress.2 i hi
        · exact ⟨h.exited (by simp [howner]) hentry hhandle, entry, hentry, hhandle⟩
  | @join call next t th howner hth hpc =>
      rw [howner] at hprogress
      obtain ⟨rfl, hnext, hstop, hdone⟩ := hprogress
      refine ⟨by simp [h.length, howner, Owner.pending], h.own, ?_, hstop, ?_⟩
      · intro i entry hentry hhandle
        rcases h.taken i entry hentry hhandle with hi | ⟨call', hwaiting⟩
        · exact .inl hi
        · rw [howner] at hwaiting
          cases hwaiting
          exact .inl ⟨th, hth, hpc⟩
      · intro i hi
        rcases Nat.lt_succ_iff_lt_or_eq.mp hi with hi | rfl
        · exact hdone i hi
        · exact ⟨⟨th, hth, hpc⟩, hnext⟩
  | @finish call howner =>
      refine ⟨?_, h.own, ?_, ?_⟩
      · cases call <;> simp [h.length, howner, Owner.pending, Call.after]
      · intro i entry hentry hhandle
        exact .inl (h.exited (by simp [howner]) hentry hhandle)
      · cases call <;> trivial

/-- So the registry is coherent in every run. -/
theorem coherent_run {es : List Event} (hrun : run step {} es = some s) : Coherent s :=
  run_invariant (fun _ _ _ _ h hstep => coherent_step h hstep) coherent_init hrun

end

/-! ## What a stop brings about -/

section

variable {s s' : Registry} {e : Event} {es : List Event} {t : Nat} {th : Sampler}

/-- The thread publishes a tick. -/
def Event.isSwapOf (t : Nat) (e : Event) : Bool := (e.shown t).any Sampler.Label.isSwap

/-- The ticks a thread publishes, counted among its own steps. -/
theorem countP_isSwapOf (t : Nat) (es : List Event) :
    es.countP (Event.isSwapOf t) = (es.flatMap (Event.shown t)).countP Sampler.Label.isSwap := by
  induction es with
  | nil => rfl
  | cons e es ih =>
      rw [List.countP_cons, List.flatMap_cons, List.countP_append, ih, Nat.add_comm]
      cases e with
      | sampler t' l => by_cases ht : t' = t <;> simp [Event.isSwapOf, Event.shown, ht]
      | _ => simp [Event.isSwapOf, Event.shown]

/-- A thread whose stop flag is set publishes at most once more. -/
theorem countP_isSwapOf_le (hth : s.samplers[t]? = some th) (hstop : th.stop = true)
    (hrun : run step s es = some s') : es.countP (Event.isSwapOf t) ≤ 1 := by
  obtain ⟨ls, th', hsampler, hshown, -⟩ := project_run hth hrun
  calc es.countP (Event.isSwapOf t)
      = (ls.filter ofSampler).countP Sampler.Label.isSwap := by rw [countP_isSwapOf, hshown]
    _ ≤ ls.countP Sampler.Label.isSwap := List.filter_sublist.countP_le
    _ ≤ 1 := Sampler.countP_isSwap_le hsampler hstop

/-- All flags are set, all threads have ended and all handles are taken. -/
structure Settled (s : Registry) : Prop where
  owner : ∀ t, s.owner ≠ .adding t
  handles : ∀ entry ∈ s.entries, entry.handle = none
  ended : ∀ th ∈ s.samplers, th.stop = true ∧ th.pc = .exited

/-- **The end of a stop.** When `shutdown` or `drop` returns, nothing is left to do. -/
theorem settled_of_finish (h : Coherent s) (hstep : step s .finish = some s') : Settled s' := by
  cases Step.of_step hstep with
  | @finish call howner =>
      have hprogress := h.progress
      rw [howner] at hprogress
      obtain ⟨hstopped, hdone⟩ := hprogress
      have hlength : s.samplers.length = s.entries.length := by
        simpa [howner, Owner.pending] using h.length
      refine ⟨by cases call <;> exact nofun, ?_, ?_⟩
      · intro entry hentry
        obtain ⟨i, hi⟩ := List.mem_iff_getElem?.mp hentry
        obtain ⟨hlt, -⟩ := List.getElem?_eq_some_iff.mp hi
        obtain ⟨-, entry', hentry', hnone⟩ := hdone i hlt
        obtain rfl := Option.some.inj (hi.symm.trans hentry')
        exact hnone
      · intro th hth
        obtain ⟨t, ht⟩ := List.mem_iff_getElem?.mp hth
        obtain ⟨hlt, -⟩ := List.getElem?_eq_some_iff.mp ht
        obtain ⟨th₁, hth₁, hstop⟩ := hstopped t (hlength ▸ hlt)
        obtain ⟨⟨th₂, hth₂, hpc⟩, -⟩ := hdone t (hlength ▸ hlt)
        obtain rfl := Option.some.inj (ht.symm.trans hth₁)
        obtain rfl := Option.some.inj (ht.symm.trans hth₂)
        exact ⟨hstop, hpc⟩

/-- The stop flags, in the order of the threads. -/
def flags (s : Registry) : List Bool := s.samplers.map Sampler.stop

/-- The caches, in the order of the threads. -/
def caches (s : Registry) : List (List SampleGroup) := s.samplers.map Sampler.cache

/-- A collector is added. -/
def Event.isAdd : Event → Bool
  | .add _ _ => true
  | _ => false

/-- A step of one thread that keeps a field keeps that field of all. -/
theorem map_set_eq {β : Type} (f : Sampler → β) {samplers : List Sampler} {th' : Sampler}
    (hth : samplers[t]? = some th) (hf : f th' = f th) :
    (samplers.set t th').map f = samplers.map f := by
  have hself : (samplers.map f)[t]? = some (f th) := by rw [List.getElem?_map, hth, Option.map_some]
  obtain ⟨hlt, hget⟩ := List.getElem?_eq_some_iff.mp hself
  rw [List.map_set, hf, ← hget, List.set_getElem_self]

/-- A flag that is set stays as it is. -/
theorem storeStop_of_stopped {samplers : List Sampler} (h : ∀ th ∈ samplers, th.stop = true)
    (t : Nat) : storeStop samplers t = samplers := by
  apply List.ext_getElem?
  intro i
  by_cases hi : t = i
  · subst hi
    cases hth : samplers[t]? with
    | none => simp [storeStop, hth]
    | some th =>
        rw [storeStop_self hth, ← h th (List.mem_of_getElem? hth)]
  · exact storeStop_of_ne hi

/-- Unless a collector is added, a settled registry stays as it is. -/
theorem settled_step (h : Settled s) (he : e.isAdd = false) (hstep : step s e = some s') :
    Settled s' ∧ s'.entries = s.entries ∧ s'.flags = s.flags ∧ s'.caches = s.caches := by
  cases Step.of_step hstep with
  | @sampler t l th th' hl hth hsampler =>
      obtain ⟨hstop, hpc⟩ := h.ended th (List.mem_of_getElem? hth)
      have hstop' : th'.stop = th.stop := Sampler.stop_eq_of_step hsampler hl
      obtain ⟨hpc', hcache'⟩ := Sampler.exited_of_step hsampler hpc
      refine ⟨⟨h.owner, h.handles, ?_⟩, rfl, map_set_eq _ hth hstop', map_set_eq _ hth hcache'⟩
      intro th₁ hth₁
      rcases List.mem_or_eq_of_mem_set hth₁ with hold | rfl
      · exact h.ended th₁ hold
      · exact ⟨hstop'.trans hstop, hpc'⟩
  | skip | add => cases he
  | @push t howner => exact absurd howner (h.owner t)
  | call => exact ⟨⟨nofun, h.handles, h.ended⟩, rfl, rfl, rfl⟩
  | @store call next entry howner hentry =>
      -- a further call stores `true` where it is already
      have hsame : storeStop s.samplers entry.stop = s.samplers :=
        storeStop_of_stopped (fun th hth => (h.ended th hth).1) entry.stop
      refine ⟨⟨nofun, h.handles, ?_⟩, rfl, ?_, ?_⟩
      · rw [hsame]
        exact h.ended
      · simp only [flags, hsame]
      · simp only [caches, hsame]
  | stored | taken | join => exact ⟨⟨nofun, h.handles, h.ended⟩, rfl, rfl, rfl⟩
  | @take call next t entry howner hentry hhandle =>
      -- there is no handle left to take
      rw [h.handles entry (List.mem_of_getElem? hentry)] at hhandle
      cases hhandle
  | @finish call howner =>
      exact ⟨⟨by cases call <;> exact nofun, h.handles, h.ended⟩, rfl, rfl, rfl⟩

/-- So it is over whole runs, until a collector is added. -/
theorem settled_run (h : Settled s) (hes : ∀ e ∈ es, e.isAdd = false)
    (hrun : run step s es = some s') :
    Settled s' ∧ s'.entries = s.entries ∧ s'.flags = s.flags ∧ s'.caches = s.caches := by
  have hinv : ∀ e ∈ es, ∀ m m',
      Settled m ∧ m.entries = s.entries ∧ m.flags = s.flags ∧ m.caches = s.caches →
      step m e = some m' →
      Settled m' ∧ m'.entries = s.entries ∧ m'.flags = s.flags ∧ m'.caches = s.caches := by
    rintro e he m m' ⟨hm, hentries, hflags, hcaches⟩ hstep
    obtain ⟨hm', hentries', hflags', hcaches'⟩ := settled_step hm (hes e he) hstep
    exact ⟨hm', hentries'.trans hentries, hflags'.trans hflags, hcaches'.trans hcaches⟩
  exact run_invariant (I := fun m => Settled m ∧ m.entries = s.entries ∧ m.flags = s.flags ∧
    m.caches = s.caches) hinv ⟨h, rfl, rfl, rfl⟩ hrun

/-! ## The handles -/

/-- The handle of the `t`-th thread is joined. -/
def Event.isJoinOf (t : Nat) : Event → Bool
  | .join t' => t' == t
  | _ => false

/-- The owner has taken that handle and is waiting in the join. -/
def Owner.waitsFor (t : Nat) : Owner → Bool
  | .waiting _ _ t' => t' == t
  | _ => false

/-- The handle of the `t`-th thread has been taken and joined. -/
def Joined (s : Registry) (t : Nat) : Prop := s.Taken t ∧ s.owner.waitsFor t = false

/-- Once joined, a thread is not joined again. -/
theorem joined_step (h : Coherent s) (hjoined : s.Joined t) (hstep : step s e = some s') :
    s'.Joined t ∧ e.isJoinOf t = false := by
  obtain ⟨⟨entry, hentry, hnone⟩, hwaits⟩ := hjoined
  cases Step.of_step hstep with
  | sampler | skip => exact ⟨⟨⟨entry, hentry, hnone⟩, hwaits⟩, rfl⟩
  | add | call | store | stored | taken => exact ⟨⟨⟨entry, hentry, hnone⟩, rfl⟩, rfl⟩
  | @push t' howner =>
      obtain ⟨hlt, -⟩ := List.getElem?_eq_some_iff.mp hentry
      exact ⟨⟨⟨entry, (List.getElem?_append_left hlt).trans hentry, hnone⟩, rfl⟩, rfl⟩
  | @take call next t' entry' howner hentry' hhandle =>
      -- the handle of the joined thread is gone, so it is another one that is taken
      have hne : next ≠ t := by
        rintro rfl
        obtain rfl := Option.some.inj (hentry.symm.trans hentry')
        rw [hnone] at hhandle
        cases hhandle
      have ht' : t' = next := by simpa [hhandle] using (h.own next entry' hentry').2
      refine ⟨⟨⟨entry, (List.getElem?_set_ne hne).trans hentry, hnone⟩, ?_⟩, rfl⟩
      simp [Owner.waitsFor, ht', hne]
  | @join call next t' th howner hth hpc =>
      rw [howner] at hwaits
      exact ⟨⟨⟨entry, hentry, hnone⟩, rfl⟩, hwaits⟩
  | @finish call howner =>
      exact ⟨⟨⟨entry, hentry, hnone⟩, by cases call <;> rfl⟩, rfl⟩

/-- A join is of the thread whose handle was taken. -/
theorem joined_of_join (h : Coherent s) (hstep : step s (.join t) = some s') : s'.Joined t := by
  cases Step.of_step hstep with
  | @join call next _ th howner hth hpc =>
      have hprogress := h.progress
      rw [howner] at hprogress
      obtain ⟨rfl, htaken, -, -⟩ := hprogress
      exact ⟨htaken, rfl⟩

/-- There is one such event. -/
theorem eq_join_of_isJoinOf (he : e.isJoinOf t = true) : e = .join t := by
  cases e with
  | join t' => rw [eq_of_beq he]
  | _ => cases he

/-- **No handle is joined twice.** -/
theorem countP_isJoinOf_le (hrun : run step {} es = some s) (t : Nat) :
    es.countP (Event.isJoinOf t) ≤ 1 := by
  -- either nobody has joined the thread yet, or one join has, and its handle is gone
  let once (past : List Event) (s : Registry) : Prop :=
    Coherent s ∧ (past.countP (Event.isJoinOf t) = 0 ∨
      past.countP (Event.isJoinOf t) = 1 ∧ s.Joined t)
  have hinv : ∀ past s e s', once past s → step s e = some s' → once (past ++ [e]) s' := by
    rintro past s e s' ⟨hs, hcount⟩ hstep
    refine ⟨coherent_step hs hstep, ?_⟩
    rw [List.countP_append, List.countP_singleton]
    rcases hcount with hnone | ⟨hone, hjoined⟩
    · cases he : e.isJoinOf t with
      | false => exact .inl (by simp [hnone])
      | true =>
          obtain rfl := eq_join_of_isJoinOf he
          exact .inr ⟨by simp [hnone], joined_of_join hs hstep⟩
    · obtain ⟨hjoined', he⟩ := joined_step hs hjoined hstep
      exact .inr ⟨by simp [hone, he], hjoined'⟩
  have hinit : once [] {} := ⟨coherent_init, .inl rfl⟩
  obtain ⟨-, hcount⟩ : once es s := run_history hinv hinit hrun
  omega

/-! ## Collectors added later -/

/-- `shutdown` or `drop` is called. -/
def Event.isCall : Event → Bool
  | .call _ => true
  | _ => false

/-- No call to stop is under way, and the flags of the threads from the `n`-th on are clear. -/
structure Fresh (n : Nat) (s : Registry) : Prop where
  owner : s.owner = .idle ∨ ∃ t, s.owner = .adding t
  flags : ∀ t th, n ≤ t → s.samplers[t]? = some th → th.stop = false

/-- The flag of a new thread is clear, and only a call sets one. -/
theorem fresh_step {n : Nat} (h : Fresh n s) (he : e.isCall = false) (hstep : step s e = some s') :
    Fresh n s' := by
  cases Step.of_step hstep with
  | @sampler t l th th' hl hth hsampler =>
      refine ⟨h.owner, fun t' th₁ hn hth₁ => ?_⟩
      by_cases ht : t = t'
      · subst ht
        obtain ⟨hlt, -⟩ := List.getElem?_eq_some_iff.mp hth
        rw [List.getElem?_set_self hlt] at hth₁
        obtain rfl := Option.some.inj hth₁
        exact (Sampler.stop_eq_of_step hsampler hl).trans (h.flags t th hn hth)
      · rw [List.getElem?_set_ne ht] at hth₁
        exact h.flags t' th₁ hn hth₁
  | skip => exact h
  | @add items howner hitems =>
      refine ⟨.inr ⟨_, rfl⟩, fun t th hn hth => ?_⟩
      rw [List.getElem?_append] at hth
      split at hth
      · exact h.flags t th hn hth
      · rw [List.getElem?_singleton] at hth
        obtain ⟨-, hth⟩ := Option.ite_none_right_eq_some.mp hth
        obtain rfl := Option.some.inj hth
        rfl
  | push => exact ⟨.inl rfl, h.flags⟩
  | call => cases he
  | store howner | stored howner | take howner | taken howner | join howner | finish howner =>
      -- these are rounds of a call, and none is under way
      rcases h.owner with hidle | ⟨t, hadding⟩
      · rw [hidle] at howner
        cases howner
      · rw [hadding] at howner
        cases howner

/-- So it is over whole runs, until one of them is called. -/
theorem fresh_run {n : Nat} (h : Fresh n s) (hes : ∀ e ∈ es, e.isCall = false)
    (hrun : run step s es = some s') : Fresh n s' :=
  run_invariant (fun e he _ _ h hstep => fresh_step h (hes e he) hstep) h hrun

/-! ## The caches of the threads -/

/-- Every sampler has come to where it is by a run of its own. -/
def Sampled (s : Registry) : Prop :=
  ∀ (t : Nat) (th : Sampler), s.samplers[t]? = some th →
    ∃ items ls, run Sampler.step { items } ls = some th

/-- A sampler that was not there before a step is new. -/
theorem eq_new_of_step (hnone : s.samplers[t]? = none) (hstep : step s e = some s')
    (hth : s'.samplers[t]? = some th) : ∃ items, th = { items } := by
  cases Step.of_step hstep with
  | @sampler t' l th₀ th' hl hth₀ hsampler =>
      have hlength : s.samplers.length ≤ t := List.getElem?_eq_none_iff.mp hnone
      obtain ⟨hlt, -⟩ := List.getElem?_eq_some_iff.mp hth
      rw [List.length_set] at hlt
      omega
  | @add items howner hitems =>
      rw [List.getElem?_append_right (List.getElem?_eq_none_iff.mp hnone),
        List.getElem?_singleton] at hth
      obtain ⟨-, hth⟩ := Option.ite_none_right_eq_some.mp hth
      exact ⟨items, (Option.some.inj hth).symm⟩
  | @store call next entry howner hentry =>
      have hlength : s.samplers.length ≤ t := List.getElem?_eq_none_iff.mp hnone
      obtain ⟨hlt, -⟩ := List.getElem?_eq_some_iff.mp hth
      rw [storeStop, List.length_modify] at hlt
      omega
  | skip | push | call | stored | take | taken | join | finish =>
      rw [hnone] at hth
      cases hth

/-- A step makes a new sampler or carries the run of one on. -/
theorem sampled_step (h : Sampled s) (hstep : step s e = some s') : Sampled s' := by
  intro t th' hth'
  cases hth : s.samplers[t]? with
  | none =>
      obtain ⟨items, rfl⟩ := eq_new_of_step hth hstep hth'
      exact ⟨items, [], rfl⟩
  | some th =>
      obtain ⟨items, ls, hrun⟩ := h t th hth
      obtain ⟨ls', th₁, hrun', -, hth₁⟩ := project_step hth hstep
      obtain rfl := Option.some.inj (hth'.symm.trans hth₁)
      exact ⟨items, ls ++ ls', run_append_eq_some.mpr ⟨th, hrun, hrun'⟩⟩

/-- **Each sampler of the registry is in a run of its own**, so what holds of every run of a sampler
holds of it. -/
theorem sampled_run (hrun : run step {} es = some s) : Sampled s := by
  have hinit : Sampled {} := by
    intro t th hth
    simp at hth
  exact run_invariant (fun _ _ _ _ h hstep => sampled_step h hstep) hinit hrun

/-- In a run of the registry, a callback that is through has reported what the observation loop
reports of its cache. -/
theorem observed_eq_callback (hrun : run step {} es = some s) {t i : Nat} {th th' : Sampler}
    {r : Sampler.Reader} (hth : s.samplers[t]? = some th) (hr : th.readers[i]? = some r)
    (hrelease : Sampler.step th (.release i) = some th') :
    r.observed = (registerItem r.item).callback th.cache := by
  obtain ⟨items, ls, hsampler⟩ := sampled_run hrun t th hth
  exact Sampler.observed_eq_callback (Sampler.reading_run hsampler) hr hrelease

/-! ## Shutdown is final and repeatable -/

/-- **Shutdown is final and repeatable.** In every run, for any number of collectors: a thread whose
stop flag is set publishes at most once more; when `shutdown` or `drop` returns every thread has
ended, and its cache never changes again; no handle is joined twice; until a collector is added,
further calls change no entry, no flag and no cache; and the flag of a collector added while no call
is under way stays clear until the next call. -/
theorem shutdown_final (hrun : run step {} es = some s) :
    (∀ (t : Nat) (th : Sampler), s.samplers[t]? = some th → th.stop = true →
      ∀ es' s', run step s es' = some s' → es'.countP (Event.isSwapOf t) ≤ 1) ∧
    (∀ s₁, step s .finish = some s₁ → ∀ (t : Nat) (th : Sampler), s.samplers[t]? = some th →
      th.pc = .exited ∧ ∀ es' s', run step s₁ es' = some s' →
        ∃ th' : Sampler, s'.samplers[t]? = some th' ∧ th'.pc = .exited ∧ th'.cache = th.cache) ∧
    (∀ t, es.countP (Event.isJoinOf t) ≤ 1) ∧
    (∀ s₁, step s .finish = some s₁ → ∀ es' s', (∀ e ∈ es', e.isAdd = false) →
      run step s₁ es' = some s' →
        s'.entries = s₁.entries ∧ s'.flags = s₁.flags ∧ s'.caches = s₁.caches) ∧
    (s.owner = .idle → ∀ es' s', (∀ e ∈ es', e.isCall = false) → run step s es' = some s' →
      ∀ (t : Nat) (th : Sampler), s.samplers.length ≤ t → s'.samplers[t]? = some th →
        th.stop = false) := by
  have hs : Coherent s := coherent_run hrun
  refine ⟨fun t th hth hstop es' s' hrun' => countP_isSwapOf_le hth hstop hrun', ?_,
    countP_isJoinOf_le hrun, ?_, ?_⟩
  · intro s₁ hfinish t th hth
    -- a thread that has ended stays ended in its own run, whatever the registry does next
    have hsettled := settled_of_finish hs hfinish
    have hth₁ : s₁.samplers[t]? = some th := by
      cases Step.of_step hfinish with
      | finish => exact hth
    have hpc : th.pc = .exited := (hsettled.ended th (List.mem_of_getElem? hth₁)).2
    refine ⟨hpc, fun es' s' hrun' => ?_⟩
    obtain ⟨ls, th', hsampler, -, hth'⟩ := project_run hth₁ hrun'
    exact ⟨th', hth', Sampler.exited_of_run hsampler hpc⟩
  · intro s₁ hfinish es' s' hes hrun'
    exact (settled_run (settled_of_finish hs hfinish) hes hrun').2
  · intro hidle es' s' hes hrun' t th hlength hth
    have hfresh : Fresh s.samplers.length s := by
      refine ⟨.inl hidle, fun t' th' hn hth' => ?_⟩
      obtain ⟨hlt, -⟩ := List.getElem?_eq_some_iff.mp hth'
      omega
    exact (fresh_run hfresh hes hrun').flags t th hlength hth

end

/-- Two collectors and a shutdown that catches the first of them in a tick, which it still
publishes. The call has joined both threads and is about to return. -/
def twoCollectors : List Event :=
  [.add [Sampler.fakeCount] true, .push, .add [] true, .add [Sampler.fakeCount] true, .push,
    .sampler 0 .load, .sampler 0 .clear, .sampler 0 (.append (Sampler.countGroup 7)),
    .call .shutdown, .store, .store, .stored, .take,
    .sampler 1 .load, .sampler 0 .collected, .sampler 0 .lock, .sampler 0 .swap,
    .sampler 0 .unlock, .sampler 0 .wake, .sampler 0 .load,
    .join 0, .take, .join 1]

/-- Where `twoCollectors` ends. -/
def afterTwoCollectors : Registry where
  entries := [⟨0, none⟩, ⟨1, none⟩]
  owner := .joining .shutdown 2
  samplers := [
    { items := [Sampler.fakeCount], stop := true, pc := .exited, cache := [Sampler.countGroup 7] },
    { items := [Sampler.fakeCount], stop := true, pc := .exited }]

/-- The registry is dropped afterwards, and a callback still reads the first cache. -/
def dropAfterwards : List Event :=
  [.call .drop, .store, .sampler 0 (.acquire Sampler.fakeCount), .store, .stored, .take, .take,
    .finish]

/-- Two collectors, both stopped, and a second call behind that. -/
theorem shutdown_final_twoCollectors :
    run step {} twoCollectors = some afterTwoCollectors ∧
      twoCollectors.countP (Event.isJoinOf 0) ≤ 1 ∧
      ∃ s₁ s', step afterTwoCollectors .finish = some s₁ ∧ run step s₁ dropAfterwards = some s' ∧
        s'.entries = s₁.entries ∧ s'.flags = s₁.flags ∧ s'.caches = s₁.caches := by
  have hrun : run step {} twoCollectors = some afterTwoCollectors := rfl
  obtain ⟨-, -, hjoin, hsettled, -⟩ := shutdown_final hrun
  have hadd : ∀ e ∈ dropAfterwards, e.isAdd = false := by simp [dropAfterwards, Event.isAdd]
  exact ⟨hrun, hjoin 0, _, _, rfl, rfl, hsettled _ rfl dropAfterwards _ hadd rfl⟩

end Registry

end MetricsExporter.Framework
