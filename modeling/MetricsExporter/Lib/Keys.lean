/-
# MetricsExporter.Lib.Keys -- lists whose elements carry a key

Going through a list of distinct keys and, for each, through the elements that carry it, visits
every element whose key is listed exactly once (`flatMap_filter_perm`). Assigning to keys their
values in any order leaves each key with its value (`foldl_assign`).

The order of the visits is that of the keys, so that all that can be said is a permutation. An
element whose key is not listed is assumed away: it would be visited by nobody.
-/
import Mathlib.Data.List.Basic
import Mathlib.Data.List.Nodup

namespace MetricsExporter.Lib

variable {α ι κ : Type*} [DecidableEq κ]

/-- **Partition by key.** The blocks of a list by distinct keys that cover it are a permutation of
the list: no element is lost and none is visited twice. -/
theorem flatMap_filter_perm (key : α → κ) {keyOf : ι → κ} {index : List ι} {l : List α}
    (hnodup : (index.map keyOf).Nodup) (hcover : ∀ a ∈ l, key a ∈ index.map keyOf) :
    (index.flatMap fun i => l.filter (fun a => decide (key a = keyOf i))).Perm l := by
  induction index generalizing l with
  | nil =>
      have hnil : l = [] := List.eq_nil_iff_forall_not_mem.mpr fun a ha => by
        simpa using hcover a ha
      rw [hnil]
      exact List.Perm.nil
  | cons i index ih =>
      rw [List.map_cons, List.nodup_cons] at hnodup
      -- the blocks of the other keys are blocks of what the first key leaves over
      have hblocks : (index.flatMap fun j => l.filter (fun a => decide (key a = keyOf j))) =
          index.flatMap fun j => (l.filter (fun a => !decide (key a = keyOf i))).filter
            (fun a => decide (key a = keyOf j)) := by
        refine List.flatMap_congr fun j hj => ?_
        have hne : keyOf j ≠ keyOf i := fun hij => hnodup.1 (hij ▸ List.mem_map_of_mem hj)
        rw [List.filter_filter]
        refine List.filter_congr fun a _ => ?_
        by_cases ha : key a = keyOf j <;> simp [ha, hne]
      -- what is left over is still covered, by the keys that remain
      have hrest : ∀ a ∈ l.filter (fun a => !decide (key a = keyOf i)),
          key a ∈ index.map keyOf := by
        intro a ha
        obtain ⟨hmem, hkey⟩ := List.mem_filter.mp ha
        rcases List.mem_cons.mp (hcover a hmem) with heq | hin
        · simp [heq] at hkey
        · exact hin
      rw [List.flatMap_cons, hblocks]
      exact ((ih hnodup.2 hrest).append_left _).trans (List.filter_append_perm _ l)

/-- Where the keys are distinct, an element is the only one with its key. -/
theorem filter_key_eq_singleton {key : α → κ} {l : List α} (hnodup : (l.map key).Nodup) {a : α}
    (ha : a ∈ l) : l.filter (fun b => key b == key a) = [a] := by
  induction l with
  | nil => simp at ha
  | cons b l ih =>
      rw [List.map_cons, List.nodup_cons] at hnodup
      -- either the element comes first, and no later one has its key, or it comes later
      rcases List.mem_cons.mp ha with rfl | hin
      · have hrest : l.filter (fun b => key b == key a) = [] := by
          rw [List.filter_eq_nil_iff]
          intro c hc heq
          apply hnodup.1
          rw [← beq_iff_eq.mp heq]
          exact List.mem_map_of_mem hc
        simp [hrest]
      · have hb : key b ≠ key a := fun heq =>
          hnodup.1 (heq.symm ▸ List.mem_map_of_mem hin)
        simp [hb, ih hnodup.2 hin]

/-- **Assignment by key.** A fold that assigns to each key the value of that key leaves every key it
goes through with its value, in whatever order it goes, and every other key as it was. -/
theorem foldl_assign {σ ν : Type*} (get : σ → κ → ν) (set : σ → κ → σ) (value : κ → ν)
    (hset : ∀ s k j, get (set s k) j = if j = k then value k else get s j) (keys : List κ) (s : σ)
    (j : κ) : get (keys.foldl set s) j = if j ∈ keys then value j else get s j := by
  induction keys generalizing s with
  | nil => simp
  | cons k keys ih =>
      rw [List.foldl_cons, ih, hset]
      -- a later assignment to `k` assigns the same value again
      by_cases hjk : j = k
      · subst hjk
        simp
      · simp [hjk]

end MetricsExporter.Lib
