/-
# MetricsExporter.Lib.Selection -- include lists and exclude lists

An include list lets through what one of its entries hits, and everything when it has no entries. An
exclude list holds back what one of its entries hits. The one is monotone in its entries up to the
change of meaning at the empty list, the other is antitone.

What it is to be hit is a parameter: equality, a pattern, anything that can be decided. Only the
entries count, neither their order nor how often they are listed.
-/
import Mathlib.Data.List.Basic

namespace MetricsExporter.Lib

variable {ε α : Type*} {hits : ε → α → Bool} {es es' : List ε} {a : α}

/-- What an include list lets through. -/
def includes (hits : ε → α → Bool) (es : List ε) (a : α) : Bool :=
  es.isEmpty || es.any fun e => hits e a

/-- What an exclude list lets through; the empty one lets everything through by itself. -/
def excludes (hits : ε → α → Bool) (es : List ε) (a : α) : Bool :=
  !es.any fun e => hits e a

/-- As an include list `es` lets no more through than `es'`: it has entries and all of them are in
`es'`, or `es'` lets everything through. -/
def Narrower (es es' : List ε) : Prop := es' = [] ∨ es ≠ [] ∧ es ⊆ es'

/-- More entries hit more. -/
theorem any_mono (h : es ⊆ es') (ha : (es.any fun e => hits e a) = true) :
    (es'.any fun e => hits e a) = true := by
  obtain ⟨e, he, hhit⟩ := List.any_eq_true.mp ha
  exact List.any_eq_true.mpr ⟨e, h he, hhit⟩

theorem includes_mono (h : Narrower es es') (ha : includes hits es a = true) :
    includes hits es' a = true := by
  rcases h with rfl | ⟨hne, hsub⟩
  · rfl
  · have hempty : es.isEmpty = false := by simpa using hne
    rw [includes, hempty, Bool.false_or] at ha
    rw [includes, any_mono hsub ha, Bool.or_true]

theorem excludes_anti (h : es ⊆ es') (ha : excludes hits es' a = true) :
    excludes hits es a = true := by
  rw [excludes, Bool.not_eq_true'] at ha ⊢
  rw [Bool.eq_false_iff] at ha ⊢
  exact fun hany => ha (any_mono h hany)

/-- Lists with the same entries are narrower than each other, since either both are empty or neither
is. -/
theorem narrower_of_sameEntries (h : ∀ e, e ∈ es ↔ e ∈ es') : Narrower es es' := by
  by_cases hnil : es' = []
  · exact .inl hnil
  · refine .inr ⟨?_, fun e he => (h e).mp he⟩
    rintro rfl
    obtain ⟨e, he⟩ := List.exists_mem_of_ne_nil es' hnil
    exact absurd ((h e).mpr he) List.not_mem_nil

end MetricsExporter.Lib
