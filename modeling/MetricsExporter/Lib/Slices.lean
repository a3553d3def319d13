/-
# MetricsExporter.Lib.Slices -- tokens, trimming and tables of lines over any alphabet

A text is a list over an arbitrary alphabet and a separator class is a Boolean predicate on it. Two
readings of a text are developed here: its `tokens` (the non-empty pieces between separators) and
its `trim` (the text without separators at either end).

Each reading comes with the *rendering* it inverts. `SpacedBy` says that a text shows a list of
tokens with any number of separators around them, and `Interleaved` that a list of lines shows a
list of rows in order with junk lines anywhere between. The theorems are the round trips: reading a
rendering gives back what was rendered, whatever the spacing and the junk.

A rendering is a relation and not a function, so that a round trip speaks of every spacing at once;
`spaced` and `interleaved_map` are the plainest instances, for whoever needs one. What junk is is up
to the caller, who has to show that a reader of lines reads nothing from it. That the pieces are cut
at line feeds in the first place is no concern of this module.
-/
import Mathlib.Data.List.Basic
import Mathlib.Data.List.TakeWhile

namespace MetricsExporter.Lib

variable {α : Type*}

/-- A property of every element of a list is decided by going through the list, also where the
alphabet itself could be gone through. -/
instance (priority := high) decidableForallMem (p : α → Prop) [DecidablePred p] (l : List α) :
    Decidable (∀ x ∈ l, p x) :=
  List.decidableBAll p l

/-! ## Tokens -/

/-- The non-empty pieces of `l` between separators. -/
def tokens (sep : α → Bool) (l : List α) : List (List α) :=
  (l.splitOnP sep).filter (fun t => !t.isEmpty)

/-- A token is a non-empty text without separators. -/
structure IsToken (sep : α → Bool) (t : List α) : Prop where
  ne_nil : t ≠ []
  no_sep : ∀ x ∈ t, sep x = false

/-- `l` does not continue a token that stands in front of it. -/
def Breaks (sep : α → Bool) (l : List α) : Prop :=
  ∀ x ∈ l.head?, sep x = true

instance (sep : α → Bool) (l : List α) : Decidable (Breaks sep l) :=
  inferInstanceAs (Decidable (∀ x ∈ l.head?, sep x = true))

/-- Nothing follows at the end of a text. -/
theorem breaks_nil (sep : α → Bool) : Breaks sep ([] : List α) := by
  simp [Breaks]

/-- Otherwise it is the next element that counts. -/
theorem breaks_cons {sep : α → Bool} {x : α} {l : List α} : Breaks sep (x :: l) ↔ sep x = true := by
  simp [Breaks]

@[simp]
theorem tokens_nil (sep : α → Bool) : tokens sep ([] : List α) = [] := rfl

/-- A separator in front is passed over. -/
theorem tokens_cons_sep {sep : α → Bool} {x : α} (hx : sep x = true) (l : List α) :
    tokens sep (x :: l) = tokens sep l := by
  simp [tokens, List.splitOnP_cons_eq_if_modifyHead, hx]

/-- Separators in front of a text add no token. -/
theorem tokens_seps_append {sep : α → Bool} {gap : List α} (hgap : ∀ x ∈ gap, sep x = true)
    (l : List α) : tokens sep (gap ++ l) = tokens sep l := by
  induction gap with
  | nil => rfl
  | cons x gap ih =>
      rw [List.cons_append, tokens_cons_sep (hgap x (by simp))]
      exact ih fun y hy => hgap y (List.mem_cons_of_mem x hy)

/-- A text of separators only has no token. -/
theorem tokens_seps {sep : α → Bool} {gap : List α} (hgap : ∀ x ∈ gap, sep x = true) :
    tokens sep gap = [] := by
  simpa using tokens_seps_append hgap []

/-- A token followed by a break is the first token of the text. -/
theorem tokens_token_append {sep : α → Bool} {t l : List α} (ht : IsToken sep t)
    (hl : Breaks sep l) : tokens sep (t ++ l) = t :: tokens sep l := by
  have hempty : t.isEmpty = false := by simpa using ht.ne_nil
  cases l with
  | nil => simp [tokens, List.splitOnP_eq_singleton ht.no_sep, hempty]
  | cons x l =>
      have hx : sep x = true := breaks_cons.mp hl
      rw [tokens_cons_sep hx]
      simp [tokens, List.splitOnP_append_cons_of_forall_mem ht.no_sep x hx, hempty]

/-- The first token of a text that starts within a token. -/
theorem exists_tokens_cons {sep : α → Bool} {x : α} (hx : sep x = false) (l : List α) :
    ∃ t ts, tokens sep (x :: l) = (x :: t) :: ts := by
  -- the text is cut where the token it starts in ends
  have htoken : IsToken sep (x :: l.takeWhile fun y => !sep y) := by
    refine ⟨List.cons_ne_nil _ _, fun y hy => ?_⟩
    rcases List.mem_cons.mp hy with rfl | hy
    · exact hx
    · simpa using List.mem_takeWhile_imp hy
  have hbreaks : Breaks sep (l.dropWhile fun y => !sep y) := by
    cases hrest : l.dropWhile (fun y => !sep y) with
    | nil => exact breaks_nil sep
    | cons y rest =>
        have hy := List.head?_dropWhile_not (fun y => !sep y) l
        rw [breaks_cons]
        simpa [hrest] using hy
  refine ⟨l.takeWhile fun y => !sep y, tokens sep (l.dropWhile fun y => !sep y), ?_⟩
  rw [← tokens_token_append htoken hbreaks, List.cons_append, List.takeWhile_append_dropWhile]

/-! ## Rendering tokens with any spacing -/

/-- `SpacedBy sep ts l`: the text `l` is the tokens `ts` in order, with at least one separator
between two of them and any number in front and behind. -/
inductive SpacedBy (sep : α → Bool) : List (List α) → List α → Prop
  | done {gap : List α} : (∀ x ∈ gap, sep x = true) → SpacedBy sep [] gap
  | token {gap t l : List α} {ts : List (List α)} :
      (∀ x ∈ gap, sep x = true) → IsToken sep t → Breaks sep l → SpacedBy sep ts l →
      SpacedBy sep (t :: ts) (gap ++ (t ++ l))

/-- **Round trip.** The tokens of a spaced rendering are the tokens rendered. -/
theorem SpacedBy.tokens_eq {sep : α → Bool} {ts : List (List α)} {l : List α}
    (h : SpacedBy sep ts l) : tokens sep l = ts := by
  induction h with
  | done hgap => exact tokens_seps hgap
  | token hgap ht hl _ ih => rw [tokens_seps_append hgap, tokens_token_append ht hl, ih]

/-- The canonical rendering: one separator in front of each token. -/
def spaced (blank : α) (ts : List (List α)) : List α :=
  ts.flatMap (fun t => blank :: t)

/-- The canonical rendering is one of the spaced ones, if its blank is a separator. -/
theorem spaced_spacedBy {sep : α → Bool} {blank : α} (hblank : sep blank = true)
    {ts : List (List α)} (hts : ∀ t ∈ ts, IsToken sep t) : SpacedBy sep ts (spaced blank ts) := by
  induction ts with
  | nil => exact .done (by simp [spaced])
  | cons t ts ih =>
      have hrest : SpacedBy sep ts (spaced blank ts) :=
        ih fun u hu => hts u (List.mem_cons_of_mem t hu)
      have hbreak : Breaks sep (spaced blank ts) := by
        cases ts <;> simp [spaced, Breaks, hblank]
      have hgap : ∀ x ∈ [blank], sep x = true := by simpa using hblank
      exact .token hgap (hts t (by simp)) hbreak hrest

/-- It holds nothing but the blanks and what the tokens hold. -/
theorem mem_spaced {blank x : α} {ts : List (List α)} (hx : x ∈ spaced blank ts) :
    x = blank ∨ ∃ t ∈ ts, x ∈ t := by
  obtain ⟨t, ht, hx⟩ := List.mem_flatMap.mp hx
  rcases List.mem_cons.mp hx with rfl | hx
  · exact .inl rfl
  · exact .inr ⟨t, ht, hx⟩

/-! ## Trimming -/

/-- `l` without the separators at its two ends. -/
def trim (sep : α → Bool) (l : List α) : List α :=
  ((l.dropWhile sep).reverse.dropWhile sep).reverse

/-- There is nothing to drop in front of a text without separators. -/
theorem dropWhile_eq_self {sep : α → Bool} {l : List α} (hl : ∀ x ∈ l, sep x = false) :
    l.dropWhile sep = l := by
  rw [List.dropWhile_eq_self_iff]
  intro hpos
  simp [hl _ (List.getElem_mem hpos)]

/-- **Round trip.** Trimming a text without separators that stands between two gaps. -/
theorem trim_gaps {sep : α → Bool} {pre core post : List α} (hpre : ∀ x ∈ pre, sep x = true)
    (hcore : ∀ x ∈ core, sep x = false) (hpost : ∀ x ∈ post, sep x = true) :
    trim sep (pre ++ (core ++ post)) = core := by
  have hpost' : ∀ x ∈ post.reverse, sep x = true := fun x hx => hpost x (List.mem_reverse.mp hx)
  have hcore' : ∀ x ∈ core.reverse, sep x = false := fun x hx => hcore x (List.mem_reverse.mp hx)
  rw [trim, List.dropWhile_append_of_pos hpre]
  -- without a core the two gaps are one, which goes from the front already
  cases core with
  | nil =>
      have hdrop : post.dropWhile sep = [] := List.dropWhile_eq_nil_iff.mpr hpost
      simp [hdrop]
  | cons x core =>
      have hx : sep x = false := hcore x (by simp)
      rw [List.cons_append, List.dropWhile_cons, if_neg (by simp [hx]), ← List.cons_append,
        List.reverse_append, List.dropWhile_append_of_pos hpost', dropWhile_eq_self hcore',
        List.reverse_reverse]

/-- Separators behind a text do not change what is left of it. -/
theorem trim_append_gap {sep : α → Bool} (l : List α) {gap : List α}
    (hgap : ∀ x ∈ gap, sep x = true) : trim sep (l ++ gap) = trim sep l := by
  have hgap' : ∀ x ∈ gap.reverse, sep x = true := fun x hx => hgap x (List.mem_reverse.mp hx)
  -- either nothing is left of `l`, or the trimming at the front stops before the gap
  by_cases hl : ∀ x ∈ l, sep x = true
  · have hnil : l.dropWhile sep = [] := List.dropWhile_eq_nil_iff.mpr hl
    have hnil' : (l ++ gap).dropWhile sep = [] := by
      rw [List.dropWhile_append_of_pos hl]
      exact List.dropWhile_eq_nil_iff.mpr hgap
    rw [trim, trim, hnil, hnil']
  · have hsome : l.dropWhile sep ≠ [] := by
      rw [ne_eq, List.dropWhile_eq_nil_iff]
      exact hl
    have hdrop : (l ++ gap).dropWhile sep = l.dropWhile sep ++ gap := by
      rw [List.dropWhile_append, if_neg (by simpa using hsome)]
    rw [trim, trim, hdrop, List.reverse_append, List.dropWhile_append_of_pos hgap']

/-! ## The first separator -/

/-- The first separator stands right behind a text without separators. -/
theorem findIdx?_append_cons {sep : α → Bool} {pre : List α} (hpre : ∀ x ∈ pre, sep x = false)
    {x : α} (hx : sep x = true) (post : List α) :
    (pre ++ x :: post).findIdx? sep = some pre.length := by
  induction pre with
  | nil => simp [List.findIdx?_cons, hx]
  | cons y pre ih =>
      have hy : sep y = false := hpre y (by simp)
      have hrest := ih fun z hz => hpre z (List.mem_cons_of_mem y hz)
      simp [List.findIdx?_cons, hy, hrest]

/-- A text is cut at its first separator. -/
theorem exists_of_findIdx?_eq_some {sep : α → Bool} {l : List α} {i : Nat}
    (h : l.findIdx? sep = some i) :
    ∃ pre x post, l = pre ++ x :: post ∧ pre.length = i ∧ (∀ y ∈ pre, sep y = false) ∧
      sep x = true := by
  obtain ⟨hi, hx, hbefore⟩ := List.findIdx?_eq_some_iff_getElem.mp h
  refine ⟨l.take i, l[i], l.drop (i + 1), ?_, ?_, ?_, hx⟩
  · rw [List.getElem_cons_drop, List.take_append_drop]
  · exact List.length_take_of_le hi.le
  · intro y hy
    obtain ⟨j, hj, rfl⟩ := List.mem_take_iff_getElem.mp hy
    exact Bool.eq_false_iff.mpr (hbefore j (lt_of_lt_of_le hj (min_le_left _ _)))

/-! ## Tables: rows in order, junk lines anywhere -/

section Tables

variable {ρ σ τ : Type*} {renders : ρ → τ → Prop} {junk : τ → Prop}

/-- `Interleaved renders junk rs ls`: the lines `ls` render the rows `rs` in order, with any junk
lines between, before and after them. -/
inductive Interleaved (renders : ρ → τ → Prop) (junk : τ → Prop) : List ρ → List τ → Prop
  | nil : Interleaved renders junk [] []
  | row {r : ρ} {l : τ} {rs : List ρ} {ls : List τ} :
      renders r l → Interleaved renders junk rs ls → Interleaved renders junk (r :: rs) (l :: ls)
  | skip {l : τ} {rs : List ρ} {ls : List τ} :
      junk l → Interleaved renders junk rs ls → Interleaved renders junk rs (l :: ls)

/-- A table without junk. -/
theorem interleaved_map {line : ρ → τ} (hline : ∀ r, renders r (line r)) (rs : List ρ) :
    Interleaved renders junk rs (rs.map line) := by
  induction rs with
  | nil => exact .nil
  | cons r rs ih => exact .row (hline r) ih

/-- **Round trip.** A line reader that reads every rendered row and skips every junk line reads
the table back in order. -/
theorem Interleaved.filterMap_eq {read : τ → Option σ} {value : ρ → σ} {rs : List ρ}
    {ls : List τ} (h : Interleaved renders junk rs ls)
    (hrow : ∀ r l, renders r l → read l = some (value r)) (hjunk : ∀ l, junk l → read l = none) :
    ls.filterMap read = rs.map value := by
  induction h with
  | nil => rfl
  | row hr _ ih => rw [List.filterMap_cons_some (hrow _ _ hr), ih, List.map_cons]
  | skip hj _ ih => rw [List.filterMap_cons_none (hjunk _ hj), ih]

end Tables

end MetricsExporter.Lib
