/-
# MetricsExporter.Lib.Cardinality -- a table with a bounded number of keys

Recorded keys are told apart as long as there is room for them: a key that is new when the table is
full is recorded under no key of its own. Nothing is lost in this way exactly when the table has
room for all distinct keys, in whatever order and however often they come.

`recorded` goes through the keys and says of each what it is recorded under. The count of
`none_mem_recorded_iff` is of the keys already in the table and those still to come, taken together,
so that the induction goes through for a table that is not empty. Keys are never removed.
-/
import Mathlib.Data.Finset.Card

namespace MetricsExporter.Lib

variable {α : Type*} [DecidableEq α]

/-- What the keys are recorded under, one after the other, by a table that holds `kept` and has room
for `limit` keys; `none` is the overflow. -/
def recorded (limit : Nat) : List α → List α → List (Option α)
  | _, [] => []
  | kept, key :: keys =>
      if key ∈ kept then some key :: recorded limit kept keys
      else if kept.length < limit then some key :: recorded limit (kept ++ [key]) keys
      else none :: recorded limit kept keys

/-- **Something overflows** exactly when the keys in the table and those still to come are more than
it has room for. -/
theorem none_mem_recorded_iff {limit : Nat} {kept keys : List α} (hkept : kept.Nodup)
    (hroom : kept.length ≤ limit) :
    none ∈ recorded limit kept keys ↔ limit < (kept.toFinset ∪ keys.toFinset).card := by
  induction keys generalizing kept with
  | nil =>
      have hcard : kept.toFinset.card = kept.length := List.toFinset_card_of_nodup hkept
      simp [recorded, hcard, hroom]
  | cons key keys ih =>
      rw [recorded]
      by_cases hmem : key ∈ kept
      · -- an old key changes nothing
        have hunion : kept.toFinset ∪ (key :: keys).toFinset = kept.toFinset ∪ keys.toFinset := by
          ext a
          simp only [Finset.mem_union, List.mem_toFinset, List.mem_cons]
          constructor
          · rintro (ha | rfl | ha)
            · exact .inl ha
            · exact .inl hmem
            · exact .inr ha
          · rintro (ha | ha)
            · exact .inl ha
            · exact .inr (.inr ha)
        rw [if_pos hmem, hunion, List.mem_cons, ih hkept hroom]
        simp
      · rw [if_neg hmem]
        by_cases hlimit : kept.length < limit
        · have hkept' : (kept ++ [key]).Nodup := by
            rw [List.nodup_append']
            exact ⟨hkept, List.nodup_singleton key, by simpa using hmem⟩
          have hroom' : (kept ++ [key]).length ≤ limit := by
            rw [List.length_append, List.length_singleton]
            omega
          have hunion : (kept ++ [key]).toFinset ∪ keys.toFinset =
              kept.toFinset ∪ (key :: keys).toFinset := by
            ext a
            simp
          rw [if_pos hlimit, List.mem_cons, ih hkept' hroom', hunion]
          simp
        · -- the table is full, and the key is one too many
          rw [if_neg hlimit]
          refine iff_of_true List.mem_cons_self ?_
          have hsub : insert key kept.toFinset ⊆ kept.toFinset ∪ (key :: keys).toFinset := by
            intro a ha
            simp only [Finset.mem_insert, List.mem_toFinset] at ha
            rcases ha with rfl | ha
            · simp
            · simp [ha]
          have hcard := Finset.card_le_card hsub
          rw [Finset.card_insert_of_notMem (by simpa using hmem),
            List.toFinset_card_of_nodup hkept] at hcard
          omega

/-- **Nothing overflows** when an empty table has room for the distinct keys. -/
theorem none_notMem_recorded_iff {limit : Nat} {keys : List α} :
    none ∉ recorded limit [] keys ↔ keys.toFinset.card ≤ limit := by
  rw [none_mem_recorded_iff List.nodup_nil (Nat.zero_le limit), Nat.not_lt, List.toFinset_nil,
    Finset.empty_union]

end MetricsExporter.Lib
