/-
# MetricsExporter.Lib.Runs -- runs of a labelled transition system

A system is a partial step function on its states: `step s l = none` when `s` does not allow the
label `l`. A run is a list of labels each of which is allowed where it comes. The rules here turn a
fact about one step into a fact about every run: an invariant, an invariant that also speaks of the
labels so far or needs something of them, a bound on how often a kind of label comes, and the
projection of a run onto a component.

All of them are inductions over the labels, done once. A system is deterministic in its labels: what
is open in a state is which label comes next, so that every interleaving of its parts is a list of
labels and a statement about all of them is a statement about all lists. Runs are finite; what holds
of an endless one is what holds of each of its beginnings.
-/
import Mathlib.Data.List.Basic

namespace MetricsExporter.Lib

variable {σ ℓ τ κ : Type*} {step : σ → ℓ → Option σ} {s s' : σ} {ls : List ℓ}

/-- The state after the labels, if each of them is allowed where it comes. -/
def run (step : σ → ℓ → Option σ) (s : σ) : List ℓ → Option σ
  | [] => some s
  | l :: ls => (step s l).bind fun s' => run step s' ls

@[simp]
theorem run_nil : run step s [] = some s := rfl

theorem run_cons_eq_some {l : ℓ} :
    run step s (l :: ls) = some s' ↔ ∃ m, step s l = some m ∧ run step m ls = some s' :=
  Option.bind_eq_some_iff

/-- A run may be cut anywhere, and two runs that meet are one. -/
theorem run_append_eq_some {ls' : List ℓ} :
    run step s (ls ++ ls') = some s' ↔ ∃ m, run step s ls = some m ∧ run step m ls' = some s' := by
  induction ls generalizing s with
  | nil => simp
  | cons l ls ih =>
      rw [List.cons_append, run_cons_eq_some]
      constructor
      · rintro ⟨m, hstep, hrun⟩
        obtain ⟨m', hrun, hrun'⟩ := ih.mp hrun
        exact ⟨m', run_cons_eq_some.mpr ⟨m, hstep, hrun⟩, hrun'⟩
      · rintro ⟨m', hrun, hrun'⟩
        obtain ⟨m, hstep, hrun⟩ := run_cons_eq_some.mp hrun
        exact ⟨m, hstep, ih.mpr ⟨m', hrun, hrun'⟩⟩

/-- A system that allows fewer steps has fewer runs. -/
theorem run_mono {step' : σ → ℓ → Option σ}
    (hstep : ∀ s l s', step' s l = some s' → step s l = some s')
    (hrun : run step' s ls = some s') : run step s ls = some s' := by
  induction ls generalizing s with
  | nil => exact hrun
  | cons l ls ih =>
      obtain ⟨m, hfirst, hrest⟩ := run_cons_eq_some.mp hrun
      exact run_cons_eq_some.mpr ⟨m, hstep s l m hfirst, ih hrest⟩

/-- **Invariants.** What every step of a label of the run preserves, the run preserves. -/
theorem run_invariant {I : σ → Prop}
    (hinv : ∀ l ∈ ls, ∀ s s', I s → step s l = some s' → I s')
    (hs : I s) (hrun : run step s ls = some s') : I s' := by
  induction ls generalizing s with
  | nil => exact Option.some.inj hrun ▸ hs
  | cons l ls ih =>
      obtain ⟨m, hstep, hrun⟩ := run_cons_eq_some.mp hrun
      have hm : I m := hinv l List.mem_cons_self s m hs hstep
      exact ih (fun l' hl' => hinv l' (List.mem_cons_of_mem l hl')) hm hrun

/-- **Invariants of the history.** The invariant may speak of the labels that led to the state. -/
theorem run_history {I : List ℓ → σ → Prop}
    (hinv : ∀ past s l s', I past s → step s l = some s' → I (past ++ [l]) s')
    {past : List ℓ} (hs : I past s) (hrun : run step s ls = some s') : I (past ++ ls) s' := by
  induction ls generalizing s past with
  | nil =>
      rw [List.append_nil]
      exact Option.some.inj hrun ▸ hs
  | cons l ls ih =>
      obtain ⟨m, hstep, hrun⟩ := run_cons_eq_some.mp hrun
      have hm := ih (hinv past s l m hs hstep) hrun
      rwa [List.append_assoc] at hm

/-- **Invariants under a condition on the history.** What every step preserves that leads to a
history of the kind, a run preserves each of whose histories is of the kind. -/
theorem run_history_of {I : List ℓ → σ → Prop} {P : List ℓ → Prop}
    (hinv : ∀ past s l s', P (past ++ [l]) → I past s → step s l = some s' →
      I (past ++ [l]) s')
    {past : List ℓ} (hP : ∀ l, l <+: ls → P (past ++ l)) (hs : I past s)
    (hrun : run step s ls = some s') : I (past ++ ls) s' := by
  induction ls generalizing s past with
  | nil =>
      rw [List.append_nil]
      exact Option.some.inj hrun ▸ hs
  | cons l ls ih =>
      obtain ⟨m, hstep, hrun⟩ := run_cons_eq_some.mp hrun
      have hfirst : P (past ++ [l]) := hP [l] ⟨ls, rfl⟩
      have hrest : ∀ l', l' <+: ls → P (past ++ [l] ++ l') := by
        intro l' hl'
        rw [List.append_assoc]
        exact hP (l :: l') (List.cons_prefix_cons.mpr ⟨rfl, hl'⟩)
      have hm := ih hrest (hinv past s l m hfirst hs hstep) hrun
      rwa [List.append_assoc] at hm

/-- **Bounded counts.** Where an invariant holds, no step raises the measure and a step of the
counted kind lowers it. A run then takes at most as many steps of the kind as the measure was. -/
theorem run_countP_le {I : σ → Prop} {measure : σ → Nat} {p : ℓ → Bool}
    (hinv : ∀ s l s', I s → step s l = some s' → I s')
    (hmeasure : ∀ s l s', I s → step s l = some s' →
      measure s' + (if p l then 1 else 0) ≤ measure s)
    (hs : I s) (hrun : run step s ls = some s') : ls.countP p + measure s' ≤ measure s := by
  induction ls generalizing s with
  | nil => simp [Option.some.inj hrun]
  | cons l ls ih =>
      obtain ⟨m, hstep, hrun⟩ := run_cons_eq_some.mp hrun
      have hfirst := hmeasure s l m hs hstep
      have hrest := ih (hinv s l m hs hstep) hrun
      rw [List.countP_cons]
      omega

/-- **Projection.** The states are related to those of a component, and every step of the system is
a run of the component whose visible labels are those the step shows. Then so is every run. -/
theorem run_project {step' : τ → κ → Option τ} {R : σ → τ → Prop} {shown : ℓ → List κ}
    {visible : κ → Bool}
    (hstep : ∀ s t l s', R s t → step s l = some s' →
      ∃ ks t', run step' t ks = some t' ∧ ks.filter visible = shown l ∧ R s' t')
    {t : τ} (hR : R s t) (hrun : run step s ls = some s') :
    ∃ ks t', run step' t ks = some t' ∧ ks.filter visible = ls.flatMap shown ∧ R s' t' := by
  induction ls generalizing s t with
  | nil => exact ⟨[], t, rfl, rfl, Option.some.inj hrun ▸ hR⟩
  | cons l ls ih =>
      obtain ⟨m, hfirst, hrun⟩ := run_cons_eq_some.mp hrun
      obtain ⟨ks, u, hks, hvisible, hu⟩ := hstep s t l m hR hfirst
      obtain ⟨ks', t', hks', hvisible', ht'⟩ := ih hu hrun
      refine ⟨ks ++ ks', t', run_append_eq_some.mpr ⟨u, hks, hks'⟩, ?_, ht'⟩
      rw [List.filter_append, hvisible, hvisible', List.flatMap_cons]

end MetricsExporter.Lib
