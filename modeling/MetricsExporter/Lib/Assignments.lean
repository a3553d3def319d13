/-
# MetricsExporter.Lib.Assignments -- keyed entries, of which the last accepted one counts

An entry is a key together with the value read for it, or nothing when the value was refused. A pass
over a list of entries assigns to each key the values read for it, one after the other. A refused
value of a required key ends the pass with an error, a refused value of any other key is skipped.

What a pass comes to is said key by key: by the `readings` of the key, in order, and the last of
them that was accepted. `foldlM_assign_of_accepted` and `foldlM_assign_of_refused` are the two ways
it can end, and `foldlM_eq_assign` brings a loop over lines into this form, whatever its state looks
like.

The keys may hold values of different types, and nothing is assumed of the lists: a key may come any
number of times, or never. All refusals of required keys give the one error `err`; a pass that tells
them apart is left out, as is one that remembers where it failed.
-/
import Mathlib.Data.List.Basic
import Mathlib.Logic.Function.Basic

namespace MetricsExporter.Lib

/-! ## The last accepted reading -/

section

variable {α : Type*}

/-- The last reading that was accepted. -/
def lastAccepted (rs : List (Option α)) : Option α := (rs.filterMap id).getLast?

@[simp]
theorem lastAccepted_nil : lastAccepted ([] : List (Option α)) = none := rfl

/-- Whatever is accepted in the second list comes last, so that the first one counts only where the
second has nothing. -/
theorem lastAccepted_append (rs rs' : List (Option α)) :
    lastAccepted (rs ++ rs') = (lastAccepted rs').or (lastAccepted rs) := by
  rw [lastAccepted, List.filterMap_append, List.getLast?_append]
  rfl

/-- The same for a single reading in front. -/
theorem lastAccepted_cons (r : Option α) (rs : List (Option α)) :
    lastAccepted (r :: rs) = (lastAccepted rs).or r := by
  have hone : lastAccepted [r] = r := by cases r <;> rfl
  rw [← List.singleton_append, lastAccepted_append, hone]

/-- Where no reading was refused, the last one counts. -/
theorem getLast?_eq_lastAccepted {rs : List (Option α)} (hrs : none ∉ rs) (hne : rs ≠ []) :
    rs.getLast? = some (lastAccepted rs) := by
  obtain ⟨init, last, rfl⟩ := List.eq_nil_or_concat' rs |>.resolve_left hne
  rw [List.getLast?_concat, lastAccepted_append]
  cases last with
  | none => simp at hrs
  | some a => rfl

/-- Readings of which none was refused are accepted, if there are any. -/
theorem lastAccepted_isSome {rs : List (Option α)} (hrs : none ∉ rs) (hne : rs ≠ []) :
    (lastAccepted rs).isSome = true := by
  rw [Option.isSome_iff_ne_none]
  intro hnone
  have hlast := getLast?_eq_lastAccepted hrs hne
  rw [hnone] at hlast
  exact hrs (List.mem_of_getLast? hlast)

end

/-! ## Entries and passes -/

variable {κ ε σ τ : Type*} [DecidableEq κ] {ω : κ → Type*}

/-- A key and the value read for it, if it was accepted. -/
abbrev Entry (ω : κ → Type*) := (k : κ) × Option (ω k)

/-- What each key holds, if anything. -/
abbrev Values (ω : κ → Type*) := (k : κ) → Option (ω k)

/-- One entry. -/
def Values.assign (required : κ → Bool) (err : ε) (values : Values ω) :
    Entry ω → Except ε (Values ω)
  | ⟨k, some w⟩ => .ok (Function.update values k (some w))
  | ⟨k, none⟩ => if required k then .error err else .ok values

/-- What was read for a key, in order. -/
def readings (k : κ) (es : List (Entry ω)) : List (Option (ω k)) :=
  es.filterMap fun e => if h : e.1 = k then some (h ▸ e.2) else none

@[simp]
theorem readings_nil (k : κ) : readings k ([] : List (Entry ω)) = [] := rfl

/-- An entry of the key itself is its first reading. -/
theorem readings_cons_self (k : κ) (r : Option (ω k)) (es : List (Entry ω)) :
    readings k (⟨k, r⟩ :: es) = r :: readings k es := by
  simp [readings]

/-- An entry of another key is none. -/
theorem readings_cons_of_ne {j k : κ} (hne : j ≠ k) (r : Option (ω j)) (es : List (Entry ω)) :
    readings k (⟨j, r⟩ :: es) = readings k es := by
  simp [readings, hne]

/-- What a key holds after an entry and all that follow. -/
theorem update_or_readings (values : Values ω) (j k : κ) (r : Option (ω j))
    (es : List (Entry ω)) :
    (lastAccepted (readings k es)).or (Function.update values j (r.or (values j)) k) =
      (lastAccepted (readings k (⟨j, r⟩ :: es))).or (values k) := by
  by_cases hjk : j = k
  · subst hjk
    rw [Function.update_self, readings_cons_self, lastAccepted_cons, Option.or_assoc]
  · rw [Function.update_of_ne (Ne.symm hjk), readings_cons_of_ne hjk]

variable {required : κ → Bool} {err : ε}

/-- **A pass that succeeds.** Where no value of a required key was refused, each key ends up with
the last value accepted for it. -/
theorem foldlM_assign_of_accepted {es : List (Entry ω)}
    (hes : ∀ k, required k = true → none ∉ readings k es) (values : Values ω) :
    es.foldlM (Values.assign required err) values =
      .ok fun k => (lastAccepted (readings k es)).or (values k) := by
  induction es generalizing values with
  | nil => rfl
  | cons e es ih =>
      obtain ⟨j, r⟩ := e
      -- what is accepted in the whole list is accepted in the rest of it
      have htail : ∀ k, required k = true → none ∉ readings k es := by
        intro k hk hmem
        apply hes k hk
        by_cases hjk : j = k
        · subst hjk
          rw [readings_cons_self]
          exact List.mem_cons_of_mem r hmem
        · rwa [readings_cons_of_ne hjk]
      -- so the first entry does not end the pass, and changes at most its own key
      have hfirst : values.assign required err ⟨j, r⟩ =
          .ok (Function.update values j (r.or (values j))) := by
        cases r with
        | some w => rfl
        | none =>
            have hj : required j = false := by
              rw [Bool.eq_false_iff]
              intro hj
              exact hes j hj (by rw [readings_cons_self]; exact List.mem_cons_self)
            rw [Values.assign, hj, Option.none_or, Function.update_eq_self]
            rfl
      rw [List.foldlM_cons, hfirst]
      refine (ih htail _).trans ?_
      simp only [update_or_readings]

/-- **A pass that fails.** A refused value of a required key ends it, wherever it stands. -/
theorem foldlM_assign_of_refused {es : List (Entry ω)} {k : κ} (hk : required k = true)
    (hes : none ∈ readings k es) (values : Values ω) :
    es.foldlM (Values.assign required err) values = .error err := by
  induction es generalizing values with
  | nil => simp at hes
  | cons e es ih =>
      obtain ⟨j, r⟩ := e
      rw [List.foldlM_cons]
      -- either this entry ends the pass, or the entry that does is still to come
      cases hfirst : values.assign required err ⟨j, r⟩ with
      | error err' =>
          cases r with
          | some w => cases hfirst
          | none =>
              have herr : err' = err := by
                rw [Values.assign] at hfirst
                split at hfirst
                · exact (Except.error.inj hfirst).symm
                · cases hfirst
              rw [herr]
              rfl
      | ok values' =>
          refine ih ?_ values'
          by_cases hjk : j = k
          · subst hjk
            rw [readings_cons_self] at hes
            rcases List.mem_cons.mp hes with hnone | hmem
            · rw [← hnone, Values.assign, if_pos hk] at hfirst
              cases hfirst
            · exact hmem
          · rwa [readings_cons_of_ne hjk] at hes

/-! ## Loops that assign -/

section

variable {step : σ → τ → Except ε σ} {entry : τ → Option (Entry ω)} {state : Values ω → σ}

/-- A loop whose body does to its state what the entry of a line does to the values, and nothing on
a line without an entry, is a pass over the entries of the lines. -/
theorem foldlM_eq_assign
    (hstep : ∀ values l, step (state values) l =
      (entry l).elim (.ok (state values)) fun e => (values.assign required err e).map state)
    (ls : List τ) (values : Values ω) :
    ls.foldlM step (state values) =
      ((ls.filterMap entry).foldlM (Values.assign required err) values).map state := by
  induction ls generalizing values with
  | nil => rfl
  | cons l ls ih =>
      rw [List.foldlM_cons, hstep]
      cases hentry : entry l with
      | none =>
          rw [List.filterMap_cons_none hentry]
          exact ih values
      | some e =>
          rw [List.filterMap_cons_some hentry, List.foldlM_cons, Option.elim_some]
          cases values.assign required err e with
          | error err' => rfl
          | ok values' => exact ih values'

/-- A line without an entry, or with a refused value of a key that is not required, may stand
anywhere. -/
theorem foldlM_assign_skip {l : τ}
    (hl : ∀ e, entry l = some e → required e.1 = false ∧ e.2 = none) (pre post : List τ)
    (values : Values ω) :
    ((pre ++ l :: post).filterMap entry).foldlM (Values.assign required err) values =
      ((pre ++ post).filterMap entry).foldlM (Values.assign required err) values := by
  rw [List.filterMap_append, List.filterMap_append, List.foldlM_append, List.foldlM_append]
  refine congrArg (bind _) (funext fun values' => ?_)
  cases hentry : entry l with
  | none => rw [List.filterMap_cons_none hentry]
  | some e =>
      obtain ⟨k, r⟩ := e
      obtain ⟨hk, hr⟩ : required k = false ∧ r = none := hl _ hentry
      rw [List.filterMap_cons_some hentry, List.foldlM_cons, hr, Values.assign, hk]
      rfl

end

/-! ## Entries without refusals -/

/-- Entries that hold one value for each key. -/
def givenEntries (value : (k : κ) → ω k) (keys : List κ) : List (Entry ω) :=
  keys.map fun k => ⟨k, some (value k)⟩

/-- However often a key is gone through, all it is given is its one value. -/
theorem mem_readings_givenEntries {value : (k : κ) → ω k} {keys : List κ} {k : κ}
    {r : Option (ω k)} (hr : r ∈ readings k (givenEntries value keys)) : r = some (value k) := by
  induction keys with
  | nil => simp [givenEntries] at hr
  | cons j keys ih =>
      rw [givenEntries, List.map_cons] at hr
      by_cases hjk : j = k
      · subst hjk
        rw [readings_cons_self] at hr
        rcases List.mem_cons.mp hr with rfl | hr
        · rfl
        · exact ih hr
      · rw [readings_cons_of_ne hjk] at hr
        exact ih hr

/-- A key holds its value exactly if it is gone through. -/
theorem lastAccepted_givenEntries (value : (k : κ) → ω k) (keys : List κ) (k : κ) :
    lastAccepted (readings k (givenEntries value keys)) =
      if k ∈ keys then some (value k) else none := by
  induction keys with
  | nil => rfl
  | cons j keys ih =>
      rw [givenEntries, List.map_cons]
      -- the key of this entry is given its value again, any other key waits for its turn
      by_cases hjk : j = k
      · subst hjk
        rw [readings_cons_self, lastAccepted_cons]
        refine (congrArg (Option.or · _) ih).trans ?_
        by_cases hmem : j ∈ keys <;> simp [hmem]
      · rw [readings_cons_of_ne hjk]
        refine ih.trans ?_
        simp [Ne.symm hjk]

/-- **A pass over given values** leaves each key it goes through with its value. -/
theorem foldlM_givenEntries (value : (k : κ) → ω k) (keys : List κ) :
    (givenEntries value keys).foldlM (Values.assign required err) (fun _ => none) =
      .ok fun k => if k ∈ keys then some (value k) else none := by
  rw [foldlM_assign_of_accepted]
  · simp only [lastAccepted_givenEntries, Option.or_none]
  · intro k _ hmem
    cases mem_readings_givenEntries hmem

end MetricsExporter.Lib
