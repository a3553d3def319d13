/-
# MetricsExporter.Lib.Loops -- what a `for` loop over a list computes

A loop written in `do` notation that never leaves early is a left fold of its body (`id_forIn`), or
a monadic one where the body may fail (`except_forIn`). A fold that only ever adds to the end of a
list it carries gathers what each round adds, in order (`foldl_gather`), also where it passes over
some elements (`foldl_if_append`).

The rules ask of the body what it computes, not how: the proof of `hbody` is where a `continue` or a
nested loop is unfolded, once for each loop. Loops that `break` or `return` are left out.
-/
import Mathlib.Data.List.Basic

namespace MetricsExporter.Lib

variable {α β σ : Type*}

/-- A pure loop whose body always goes on to the next element is a left fold. -/
theorem id_forIn (step : σ → α → σ) {l : List α} {init : σ} {body : α → σ → Id (ForInStep σ)}
    (hbody : ∀ a s, body a s = pure (.yield (step s a))) :
    (forIn l init body : Id σ) = pure (l.foldl step init) := by
  obtain rfl : body = fun a s => pure (.yield (step s a)) := funext₂ hbody
  exact List.forIn_pure_yield_eq_foldl (fun a s => step s a) init

/-- A loop that stops at the first error of its body and otherwise goes on is a monadic fold. -/
theorem except_forIn {ε : Type*} (step : σ → α → Except ε σ) {l : List α} {init : σ}
    {body : α → σ → Except ε (ForInStep σ)}
    (hbody : ∀ a s, body a s = step s a >>= fun s => pure (.yield s)) :
    (forIn l init body : Except ε σ) = l.foldlM step init := by
  induction l generalizing init with
  | nil => rfl
  | cons a l ih =>
      rw [List.forIn_cons, hbody, List.foldlM_cons]
      cases step init a with
      | error err => rfl
      | ok s => exact ih

/-- A sequence of two fallible steps succeeds when both do. -/
theorem except_bind_eq_ok {ε : Type*} {x : Except ε α} {f : α → Except ε β} {b : β} :
    x.bind f = .ok b ↔ ∃ a, x = .ok a ∧ f a = .ok b := by
  cases x with
  | error err => simp [Except.bind]
  | ok a => simp [Except.bind]

/-- A fold whose step adds `f a` at the end of a list gathers all of them. -/
theorem foldl_gather (f : α → List β) (l : List α) (out : List β) :
    l.foldl (fun out a => out ++ f a) out = out ++ l.flatMap f := by
  rw [List.foldl_append_eq_append, List.flatMap_def]

/-- A fold that skips some elements and adds `f a` for the others. -/
theorem foldl_if_append (p : α → Bool) (f : α → List β) (l : List α) (out : List β) :
    l.foldl (fun out a => if p a then out ++ f a else out) out =
      out ++ (l.filter p).flatMap f := by
  rw [← foldl_gather, List.foldl_filter]

end MetricsExporter.Lib
