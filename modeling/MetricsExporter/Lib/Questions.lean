/-
# MetricsExporter.Lib.Questions -- programs that ask an environment

A `Query A α` asks questions one after the other and gives a result. It can be run against an
environment that stays as it is (`eval`, `trace`), and against one that may change before every
question (`evalLive`, `traceLive`). A run of the second kind that asks no question twice is a run of
the first kind: against the environment made of the answers it has got (`seen`).

What a program asks next may depend on all answers so far. An environment is any function from
questions to answers, so that nothing is assumed of how it changes, and an answer may be that there
is none. A program cannot change its environment: it only reads.
-/
import Mathlib.Logic.Function.Basic

namespace MetricsExporter.Lib

variable {Q : Type} {A : Q → Type} {α β σ : Type}

/-- A program that asks questions; the answers to `q` are those of type `A q`. -/
inductive Query (A : Q → Type) (α : Type) where
  | done (a : α)
  | ask (q : Q) (next : A q → Query A α)

namespace Query

/-! ## Against an environment that stays -/

/-- The result. -/
def eval (env : (q : Q) → A q) : Query A α → α
  | .done a => a
  | .ask q next => (next (env q)).eval env

/-- The questions, in order. -/
def trace (env : (q : Q) → A q) : Query A α → List Q
  | .done _ => []
  | .ask q next => q :: (next (env q)).trace env

/-- **Only the answers count.** Environments that agree on the questions asked against the one give
the same run. -/
theorem run_congr {env env' : (q : Q) → A q} (p : Query A α)
    (h : ∀ q ∈ p.trace env, env' q = env q) :
    p.trace env' = p.trace env ∧ p.eval env' = p.eval env := by
  induction p with
  | done a => exact ⟨rfl, rfl⟩
  | ask q next ih =>
      rw [trace, List.forall_mem_cons] at h
      obtain ⟨hq, hrest⟩ := h
      obtain ⟨htrace, heval⟩ := ih (env q) hrest
      constructor
      · rw [trace, trace, hq, htrace]
      · rw [eval, eval, hq, heval]

/-! ## Against one that changes -/

/-- The result, where the `i`-th question is answered by `envs i`. -/
def evalLive : (Nat → (q : Q) → A q) → Query A α → α
  | _, .done a => a
  | envs, .ask q next => (next (envs 0 q)).evalLive fun i => envs (i + 1)

/-- The questions, in order. -/
def traceLive : (Nat → (q : Q) → A q) → Query A α → List Q
  | _, .done _ => []
  | envs, .ask q next => q :: (next (envs 0 q)).traceLive fun i => envs (i + 1)

variable [DecidableEq Q]

/-- The environment of the answers got, and of `base` where nothing was asked. -/
def seen (base : (q : Q) → A q) : (Nat → (q : Q) → A q) → Query A α → (q : Q) → A q
  | _, .done _ => base
  | envs, .ask q next =>
      Function.update (seen base (fun i => envs (i + 1)) (next (envs 0 q))) q (envs 0 q)

/-- What was seen is an answer got, or that of `base`. -/
theorem seen_cases (base : (q : Q) → A q) (envs : Nat → (q : Q) → A q) (p : Query A α) (q : Q) :
    p.seen base envs q = base q ∨ ∃ i, p.seen base envs q = envs i q := by
  induction p generalizing envs with
  | done a => exact .inl rfl
  | ask q' next ih =>
      by_cases hq : q = q'
      · subst hq
        exact .inr ⟨0, Function.update_self ..⟩
      · rw [seen, Function.update_of_ne hq]
        refine (ih (envs 0 q') fun i => envs (i + 1)).imp_right ?_
        rintro ⟨i, hi⟩
        exact ⟨i + 1, hi⟩

/-- **One environment stands for all of them.** A program that asks no question twice against what
it has seen has run just as it does against that, and has seen each answer as it was when it
asked. -/
theorem live_eq_seen (base : (q : Q) → A q) (envs : Nat → (q : Q) → A q) (p : Query A α)
    (hnodup : (p.trace (p.seen base envs)).Nodup) :
    p.traceLive envs = p.trace (p.seen base envs) ∧
      p.evalLive envs = p.eval (p.seen base envs) ∧
      ∀ i q, (p.traceLive envs)[i]? = some q → p.seen base envs q = envs i q := by
  induction p generalizing envs with
  | done a => exact ⟨rfl, rfl, nofun⟩
  | ask q next ih =>
      have hanswer : (ask q next).seen base envs q = envs 0 q := Function.update_self ..
      rw [trace, hanswer, List.nodup_cons] at hnodup
      obtain ⟨hnew, hnodup⟩ := hnodup
      -- the rest of the program does not see the first answer, as it does not ask for it
      have hrest : ∀ q' ∈ (next (envs 0 q)).trace ((ask q next).seen base envs),
          (next (envs 0 q)).seen base (fun i => envs (i + 1)) q' =
            (ask q next).seen base envs q' := by
        intro q' hq'
        have hne : q' ≠ q := fun h => hnew (h ▸ hq')
        exact (Function.update_of_ne hne ..).symm
      obtain ⟨htrace, heval⟩ := run_congr (next (envs 0 q)) hrest
      rw [← htrace] at hnodup
      obtain ⟨htraceLive, hevalLive, hseen⟩ := ih (envs 0 q) (fun i => envs (i + 1)) hnodup
      refine ⟨?_, ?_, ?_⟩
      · rw [traceLive, trace, hanswer, htraceLive, htrace]
      · rw [evalLive, eval, hanswer, hevalLive, heval]
      · -- the first answer is the one at 0, and the others are those of the rest, one later
        intro i q' hq'
        cases i with
        | zero =>
            obtain rfl := Option.some.inj hq'
            exact hanswer
        | succ i =>
            have hasked : ((next (envs 0 q)).traceLive fun i => envs (i + 1))[i]? = some q' := hq'
            have hmem : q' ∈ (next (envs 0 q)).trace ((ask q next).seen base envs) := by
              rw [← htrace, ← htraceLive]
              exact List.mem_of_getElem? hasked
            rw [← hrest q' hmem]
            exact hseen i q' hasked

/-! ## Sequencing -/

/-- Go on with the result. The questions of the second program may depend on it. -/
def bind : Query A α → (α → Query A β) → Query A β
  | .done a, f => f a
  | .ask q next, f => .ask q fun answer => (next answer).bind f

omit [DecidableEq Q] in
/-- Against an environment that stays, a sequence computes what its parts do. -/
theorem eval_bind (env : (q : Q) → A q) (p : Query A α) (f : α → Query A β) :
    (p.bind f).eval env = (f (p.eval env)).eval env := by
  induction p with
  | done a => rfl
  | ask q next ih => exact ih (env q)

omit [DecidableEq Q] in
/-- It asks the questions of the first program and then those of the second. -/
theorem trace_bind (env : (q : Q) → A q) (p : Query A α) (f : α → Query A β) :
    (p.bind f).trace env = p.trace env ++ (f (p.eval env)).trace env := by
  induction p with
  | done a => rfl
  | ask q next ih => exact congrArg (q :: ·) (ih (env q))

end Query

end MetricsExporter.Lib
