/-
# MetricsExporter.Lib.Progress -- runs that end

A measure that no label of a run raises, and that the counted labels lower, bounds how many of them
the run takes. Where an invariant holds and some label of a kind that lowers the measure is always
allowed, there is a run of labels of that kind to the goal. The measure of a system of many
components is the sum of theirs. Events that keep a distance are few in any window of time.

Nothing here speaks of fairness. `exists_run_to` gives one run to the goal; that every run gets
there is a bound on its labels by `run_countP_le_of_forall`, together with the fact that a run which
can go no further is at the goal, which is for the system itself to show.
-/
import MetricsExporter.Lib.Runs
import Mathlib.Algebra.BigOperators.Group.List.Basic
import Mathlib.Algebra.Ring.Nat
import Mathlib.Data.List.Perm.Basic

namespace MetricsExporter.Lib

section Runs

variable {σ ℓ : Type*} {step : σ → ℓ → Option σ} {s s' : σ} {ls : List ℓ}

/-- **Bounded work.** On the labels of the run the invariant is kept, no step raises the measure and
a step of the counted kind lowers it. -/
theorem run_countP_le_of_forall {I : σ → Prop} {measure : σ → Nat} {p : ℓ → Bool}
    (hinv : ∀ l ∈ ls, ∀ s s', I s → step s l = some s' →
      I s' ∧ measure s' + (if p l then 1 else 0) ≤ measure s)
    (hs : I s) (hrun : run step s ls = some s') : ls.countP p + measure s' ≤ measure s := by
  induction ls generalizing s with
  | nil => simp [Option.some.inj hrun]
  | cons l ls ih =>
      obtain ⟨m, hstep, hrun⟩ := run_cons_eq_some.mp hrun
      obtain ⟨hm, hfirst⟩ := hinv l List.mem_cons_self s m hs hstep
      have hrest := ih (fun l' hl' => hinv l' (List.mem_cons_of_mem l hl')) hm hrun
      rw [List.countP_cons]
      omega

/-- **Progress.** Short of the goal, some label of the kind is allowed, keeps the invariant and
lowers the measure. Then a run of such labels reaches the goal. -/
theorem exists_run_to {I goal : σ → Prop} {kind : ℓ → Prop} (measure : σ → Nat)
    (hprogress : ∀ s, I s → ¬ goal s →
      ∃ l s', kind l ∧ step s l = some s' ∧ I s' ∧ measure s' < measure s)
    (hs : I s) : ∃ ls s', (∀ l ∈ ls, kind l) ∧ run step s ls = some s' ∧ I s' ∧ goal s' := by
  induction hn : measure s using Nat.strongRecOn generalizing s with
  | ind n ih =>
      -- by induction on the measure: at the goal there is nothing to do, and short of it one step
      -- leads to where the rest is known
      by_cases hgoal : goal s
      · exact ⟨[], s, nofun, rfl, hs, hgoal⟩
      · obtain ⟨l, m, hl, hstep, hm, hless⟩ := hprogress s hs hgoal
        obtain ⟨ls, s', hls, hrun, hs', hgoal'⟩ := ih (measure m) (hn ▸ hless) hm rfl
        refine ⟨l :: ls, s', ?_, run_cons_eq_some.mpr ⟨m, hstep, hrun⟩, hs', hgoal'⟩
        exact List.forall_mem_cons.mpr ⟨hl, hls⟩

end Runs

/-! ## Measures of many components -/

section Components

variable {α : Type*} {l : List α} {i : Nat} {a : α}

/-- A component that goes takes its share away. -/
theorem sum_map_eraseIdx (f : α → Nat) (ha : l[i]? = some a) :
    ((l.eraseIdx i).map f).sum + f a = (l.map f).sum := by
  obtain ⟨hi, rfl⟩ := List.getElem?_eq_some_iff.mp ha
  rw [← ((List.getElem_cons_eraseIdx_perm hi).map f).sum_eq, List.map_cons, List.sum_cons,
    Nat.add_comm]

/-- A component that changes changes the sum by as much. -/
theorem sum_map_set (f : α → Nat) (ha : l[i]? = some a) (b : α) :
    ((l.set i b).map f).sum + f a = (l.map f).sum + f b := by
  obtain ⟨hi, -⟩ := List.getElem?_eq_some_iff.mp ha
  have hset := ((List.set_perm_cons_eraseIdx hi b).map f).sum_eq
  have herase := sum_map_eraseIdx f ha
  rw [List.map_cons, List.sum_cons] at hset
  omega

end Components

/-! ## Events that keep a distance -/

/-- Events each at least `d` after those before it, all between `a` and `b`, are few. -/
theorem length_mul_le_of_spaced {d a b : Nat} {ts : List Nat}
    (hspaced : ts.Pairwise fun t t' => t + d ≤ t') (hwindow : ∀ t ∈ ts, a ≤ t ∧ t ≤ b) :
    ts.length * d ≤ b - a + d := by
  induction ts generalizing a with
  | nil => simp
  | cons t ts ih =>
      obtain ⟨hfirst, hspaced⟩ := List.pairwise_cons.mp hspaced
      obtain ⟨⟨ha, hb⟩, hwindow⟩ := List.forall_mem_cons.mp hwindow
      rw [List.length_cons, Nat.succ_mul]
      cases ts with
      | nil => simp
      | cons t' ts =>
          -- the rest is a window that begins `d` later
          have hlater : t + d ≤ t' := hfirst t' List.mem_cons_self
          have ht' : t' ≤ b := (hwindow t' List.mem_cons_self).2
          have hrest := ih hspaced fun u hu => ⟨hfirst u hu, (hwindow u hu).2⟩
          omega

end MetricsExporter.Lib
