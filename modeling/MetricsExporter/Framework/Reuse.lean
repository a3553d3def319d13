/-
# MetricsExporter.Framework.Reuse -- the two buffers are reused

The sampling loop owns two vectors for good. `scratch.clear()` keeps the room of the one, the swap
lets it trade places with the other, and a push enlarges the scratch buffer only when it is full. So
they are enlarged a bounded number of times in all, however many ticks there are, and not at all any
more once two ticks in a row have been as large as those to come.

How much a full vector grows is left open (`Growth`): `Vec` promises room for one more element and
nothing else. Only the two vectors of groups are followed. A group and its attributes may own memory
of their own, which `clear` gives back, and which is no part of this.
-/
import MetricsExporter.Framework.Sampler
import Mathlib.Data.List.Infix
import Mathlib.Order.Monotone.Basic

namespace MetricsExporter.Framework

open MetricsExporter.Lib

/-! ## Room in a vector -/

/-- How a vector that is full is enlarged: to make room for one more element at least. -/
structure Growth where
  grow : Nat → Nat
  lt_grow : ∀ capacity, capacity < grow capacity

/-- The room of a vector, and how often it has been enlarged. -/
structure Room where
  capacity : Nat := 0
  enlarged : Nat := 0
  deriving DecidableEq, Repr

/-- `Vec::push` onto a vector of this length. -/
def Room.push (g : Growth) (room : Room) (length : Nat) : Room :=
  if length < room.capacity then room
  else { capacity := g.grow room.capacity, enlarged := room.enlarged + 1 }

section

variable {g : Growth} {room : Room} {length : Nat}

/-- With room to spare a push enlarges nothing. -/
theorem Room.push_of_lt (h : length < room.capacity) : room.push g length = room := if_pos h

/-- Room is never given back. -/
theorem Room.capacity_le_push : room.capacity ≤ (room.push g length).capacity := by
  rw [push]
  split
  · exact Nat.le_refl _
  · exact Nat.le_of_lt (g.lt_grow _)

/-- There is room for the element. -/
theorem Room.lt_push (h : length ≤ room.capacity) : length < (room.push g length).capacity := by
  rw [push]
  split
  · assumption
  · exact Nat.lt_of_le_of_lt h (g.lt_grow _)

/-- The room is what the enlargements have made of none. -/
def Room.Grown (g : Growth) (room : Room) : Prop := room.capacity = g.grow^[room.enlarged] 0

/-- More enlargements make more room. -/
theorem Growth.strictMono (g : Growth) : StrictMono fun k => g.grow^[k] 0 := by
  apply strictMono_nat_of_lt_succ
  intro k
  rw [Function.iterate_succ_apply']
  exact g.lt_grow _

/-- A push keeps to what the enlargements make. -/
theorem Room.grown_push (h : room.Grown g) : (room.push g length).Grown g := by
  rw [push]
  split
  · exact h
  · show g.grow room.capacity = g.grow^[room.enlarged + 1] 0
    rw [Function.iterate_succ_apply', h]

/-- A vector that never holds more than `n` elements is not enlarged any more with room for `n`. -/
theorem Room.enlarged_push_le {n k : Nat} (h : room.Grown g) (hk : n ≤ g.grow^[k] 0)
    (henlarged : room.enlarged ≤ k) (hlength : length < n) :
    (room.push g length).enlarged ≤ k := by
  rw [push]
  split
  · exact henlarged
  · rename_i hfull
    have hlt : g.grow^[room.enlarged] 0 < g.grow^[k] 0 := by
      rw [← h]
      omega
    exact g.strictMono.lt_iff_lt.mp hlt

end

/-! ## The sampler with its buffers -/

/-- A sampler with the room of its scratch buffer and of its cache. -/
structure Reuse where
  sampler : Sampler
  scratch : Room := {}
  cache : Room := {}

namespace Reuse

open Sampler (Label Ticks ticks countGroup fakeCount)

/-- The room after a step. `clear` keeps it. -/
def after (g : Growth) (s : Reuse) (sampler : Sampler) : Label → Reuse
  | .append _ => { s with sampler, scratch := s.scratch.push g s.sampler.scratch.length }
  | .swap => { sampler, scratch := s.cache, cache := s.scratch }
  | _ => { s with sampler }

/-- A step of the sampler, and what it does to the room. -/
def step (g : Growth) (s : Reuse) (l : Label) : Option Reuse := do
  let sampler ← Sampler.step s.sampler l
  return s.after g sampler l

/-- The buffers follow the sampler and do not lead it. -/
theorem after_sampler (g : Growth) (s : Reuse) (sampler : Sampler) (l : Label) :
    (s.after g sampler l).sampler = sampler := by
  cases l <;> rfl

/-- So a step is one of the sampler, with its buffers behind it. -/
theorem step_eq_some {g : Growth} {s s' : Reuse} {l : Label} :
    step g s l = some s' ↔
      ∃ sampler, Sampler.step s.sampler l = some sampler ∧ s.after g sampler l = s' := by
  rw [step]
  cases Sampler.step s.sampler l <;> simp

/-- **The room decides nothing.** The runs are those of the sampler. -/
theorem run_iff {g : Growth} {s : Reuse} {ls : List Label} {sampler : Sampler} :
    Lib.run Sampler.step s.sampler ls = some sampler ↔
      ∃ s', Lib.run (step g) s ls = some s' ∧ s'.sampler = sampler := by
  induction ls generalizing s with
  | nil => simp [run]
  | cons l ls ih =>
      rw [run_cons_eq_some]
      constructor
      · rintro ⟨m, hstep, hrun⟩
        rw [← after_sampler g s m l] at hrun
        obtain ⟨s', hrun', hsampler⟩ := ih.mp hrun
        have hstep' : step g s l = some (s.after g m l) := step_eq_some.mpr ⟨m, hstep, rfl⟩
        exact ⟨s', run_cons_eq_some.mpr ⟨_, hstep', hrun'⟩, hsampler⟩
      · rintro ⟨s', hrun, hsampler⟩
        obtain ⟨m, hstep, hrun⟩ := run_cons_eq_some.mp hrun
        obtain ⟨m', hstep', rfl⟩ := step_eq_some.mp hstep
        have hrest := ih.mpr ⟨s', hrun, hsampler⟩
        rw [after_sampler] at hrest
        exact ⟨m', hstep', hrest⟩

/-! ## What there is room for -/

/-- No pass appends more than `n` groups while the labels follow on those of the past. -/
def Bounded (n : Nat) (past ls : List Label) : Prop :=
  ∀ l, l <+: ls → (ticks (past ++ l)).current.length ≤ n

theorem bounded_iff_inits {n : Nat} {past ls : List Label} :
    (∀ l ∈ ls.inits, (ticks (past ++ l)).current.length ≤ n) ↔ Bounded n past ls :=
  forall_congr' fun l => by rw [List.mem_inits]

instance (n : Nat) (past ls : List Label) : Decidable (Bounded n past ls) :=
  @decidable_of_iff _ _ bounded_iff_inits (List.decidableBAll _ _)

/-- The vectors hold what they have room for: the ticks have gone through them in turns, the last
one through the cache. -/
structure Roomy (t : Ticks) (s : Reuse) : Prop where
  scratch : s.sampler.scratch.length ≤ s.scratch.capacity
  cache : s.sampler.cache.length ≤ s.cache.capacity
  last : ∀ i groups, t.completed[i]? = some groups → i % 2 ≠ t.completed.length % 2 →
    groups.length ≤ s.cache.capacity
  before : ∀ i groups, t.completed[i]? = some groups → i % 2 = t.completed.length % 2 →
    groups.length ≤ s.scratch.capacity

/-- Two buffers without room, and nothing in them. -/
theorem roomy_init (items : List MetricItem) : Roomy {} { sampler := { items } } where
  scratch := Nat.le_refl 0
  cache := Nat.le_refl 0
  last := by simp
  before := by simp

/-- The ticks take turns: what was the last one is the one before the last after a swap. -/
theorem roomy_step {g : Growth} {t : Ticks} {s s' : Reuse} {l : Label} (h : Roomy t s)
    (hbuffers : Sampler.Buffers t s.sampler) (hstep : step g s l = some s') :
    Roomy (t.record l) s' := by
  obtain ⟨sampler, hsampler, rfl⟩ := step_eq_some.mp hstep
  cases Sampler.Step.of_step hsampler with
  | append group hpc =>
      have hgrows : s.scratch.capacity ≤ (s.scratch.push g s.sampler.scratch.length).capacity :=
        Room.capacity_le_push
      exact {
        scratch := by
          show (s.sampler.scratch ++ [group]).length ≤ _
          rw [List.length_append]
          exact Room.lt_push h.scratch
        cache := h.cache
        last := h.last
        before := fun i groups hi hparity => Nat.le_trans (h.before i groups hi hparity) hgrows }
  | swap hpc =>
      -- the tick that is published has gone through the scratch buffer
      have hfull : s.sampler.scratch = t.current := hbuffers.filled (by rw [hpc]; rfl)
      have hcases : ∀ i groups, (t.completed ++ [t.current])[i]? = some groups →
          t.completed[i]? = some groups ∨ i = t.completed.length ∧ groups = t.current := by
        intro i groups hi
        rw [List.getElem?_append] at hi
        split at hi
        · exact .inl hi
        · rename_i hlt
          have hzero : i - t.completed.length = 0 := by
            have := (List.getElem?_eq_some_iff.mp hi).1
            simp at this
            omega
          rw [hzero] at hi
          exact .inr ⟨by omega, (Option.some.inj hi).symm⟩
      have hlength : (t.completed ++ [t.current]).length = t.completed.length + 1 := by simp
      exact {
        scratch := h.cache, cache := h.scratch
        last := fun i groups hi hparity => by
          change i % 2 ≠ (t.completed ++ [t.current]).length % 2 at hparity
          rw [hlength] at hparity
          rcases hcases i groups hi with hi | ⟨-, rfl⟩
          · exact h.before i groups hi (by omega)
          · exact hfull ▸ h.scratch
        before := fun i groups hi hparity => by
          change i % 2 = (t.completed ++ [t.current]).length % 2 at hparity
          rw [hlength] at hparity
          rcases hcases i groups hi with hi | ⟨rfl, -⟩
          · exact h.last i groups hi (by omega)
          · omega }
  | clear hpc =>
      exact {
        scratch := Nat.zero_le _, cache := h.cache, last := h.last, before := h.before }
  | load | collected | panicked | lock | unlock | wake | store | acquire | look | release =>
      exact {
        scratch := h.scratch, cache := h.cache, last := h.last, before := h.before }

/-- Neither vector has been enlarged more than `k` times. -/
structure Few (g : Growth) (k : Nat) (s : Reuse) : Prop where
  scratch : s.scratch.Grown g ∧ s.scratch.enlarged ≤ k
  cache : s.cache.Grown g ∧ s.cache.enlarged ≤ k

/-- No reallocation has been needed. -/
theorem few_init (g : Growth) (k : Nat) (items : List MetricItem) :
    Few g k { sampler := { items } } :=
  ⟨⟨rfl, Nat.zero_le k⟩, ⟨rfl, Nat.zero_le k⟩⟩

/-- An append stays below the largest tick, so it enlarges a vector only while that has less room.
-/
theorem few_step {g : Growth} {n k : Nat} {t : Ticks} {s s' : Reuse} {l : Label}
    (h : Few g k s) (hk : n ≤ g.grow^[k] 0) (hbuffers : Sampler.Buffers t s.sampler)
    (hn : (t.record l).current.length ≤ n) (hstep : step g s l = some s') : Few g k s' := by
  obtain ⟨sampler, hsampler, rfl⟩ := step_eq_some.mp hstep
  cases Sampler.Step.of_step hsampler with
  | append group hpc =>
      have hfull : s.sampler.scratch = t.current := hbuffers.filled (by rw [hpc]; rfl)
      have hlength : s.sampler.scratch.length < n := by
        rw [hfull]
        rw [Sampler.Ticks.record, List.length_append] at hn
        exact hn
      exact ⟨⟨Room.grown_push h.scratch.1,
        Room.enlarged_push_le h.scratch.1 hk h.scratch.2 hlength⟩, h.cache⟩
  | swap hpc => exact ⟨h.cache, h.scratch⟩
  | load | clear | collected | panicked | lock | unlock | wake | store | acquire | look
  | release => exact ⟨h.scratch, h.cache⟩

/-- The two vectors are these two, and there is room for `n` elements in either. -/
structure Settled (n : Nat) (a b : Room) (s : Reuse) : Prop where
  first : n ≤ a.capacity
  second : n ≤ b.capacity
  same : s.scratch = a ∧ s.cache = b ∨ s.scratch = b ∧ s.cache = a

theorem Settled.scratch {n : Nat} {a b : Room} {s : Reuse} (h : Settled n a b s) :
    n ≤ s.scratch.capacity := by
  rcases h.same with ⟨hscratch, -⟩ | ⟨hscratch, -⟩
  · exact hscratch ▸ h.first
  · exact hscratch ▸ h.second

/-- With room enough an append enlarges nothing, and a swap trades the two. -/
theorem settled_step {g : Growth} {n : Nat} {a b : Room} {t : Ticks} {s s' : Reuse} {l : Label}
    (h : Settled n a b s) (hbuffers : Sampler.Buffers t s.sampler)
    (hn : (t.record l).current.length ≤ n) (hstep : step g s l = some s') :
    Settled n a b s' := by
  obtain ⟨sampler, hsampler, rfl⟩ := step_eq_some.mp hstep
  cases Sampler.Step.of_step hsampler with
  | append group hpc =>
      have hfull : s.sampler.scratch = t.current := hbuffers.filled (by rw [hpc]; rfl)
      have hlength : s.sampler.scratch.length < s.scratch.capacity := by
        rw [hfull]
        rw [Sampler.Ticks.record, List.length_append] at hn
        exact Nat.lt_of_lt_of_le hn h.scratch
      refine ⟨h.first, h.second, ?_⟩
      rw [after, Room.push_of_lt hlength]
      exact h.same
  | swap hpc => exact ⟨h.first, h.second, h.same.symm.imp And.symm And.symm⟩
  | load | clear | collected | panicked | lock | unlock | wake | store | acquire | look
  | release => exact ⟨h.first, h.second, h.same⟩

/-! ## Over a run -/

section

variable {g : Growth} {items : List MetricItem} {past ls : List Label} {m s : Reuse} {n k : Nat}

theorem buffers_run (hrun : Lib.run (step g) { sampler := { items } } ls = some s) :
    Sampler.Buffers (ticks ls) s.sampler :=
  Sampler.buffers_run (run_iff.mpr ⟨s, hrun, rfl⟩)

theorem buffers_step {t : Ticks} {l : Label} (h : Sampler.Buffers t m.sampler)
    (hstep : step g m l = some s) : Sampler.Buffers (t.record l) s.sampler := by
  obtain ⟨sampler, hsampler, rfl⟩ := step_eq_some.mp hstep
  rw [after_sampler]
  exact Sampler.buffers_step h hsampler

theorem roomy_run (hrun : Lib.run (step g) { sampler := { items } } ls = some s) :
    Roomy (ticks ls) s := by
  have hinv : ∀ past s l s', (Sampler.Buffers (ticks past) s.sampler ∧ Roomy (ticks past) s) →
      step g s l = some s' →
      Sampler.Buffers (ticks (past ++ [l])) s'.sampler ∧ Roomy (ticks (past ++ [l])) s' := by
    rintro past s l s' ⟨hbuffers, hroomy⟩ hstep
    rw [Sampler.ticks_concat]
    exact ⟨buffers_step hbuffers hstep, roomy_step hroomy hbuffers hstep⟩
  have hinit : Sampler.Buffers (ticks []) ({ items } : Sampler) ∧
      Roomy (ticks []) { sampler := { items } } := ⟨Sampler.buffers_init items, roomy_init items⟩
  exact (run_history hinv hinit hrun).2

/-- However many ticks there are, the vectors are enlarged until there is room for the largest of
them. -/
theorem few_run (hrun : Lib.run (step g) { sampler := { items } } ls = some s)
    (hn : Bounded n [] ls) (hk : n ≤ g.grow^[k] 0) : Few g k s := by
  have hinv : ∀ past s l s', (ticks (past ++ [l])).current.length ≤ n →
      (Sampler.Buffers (ticks past) s.sampler ∧ Few g k s) → step g s l = some s' →
      Sampler.Buffers (ticks (past ++ [l])) s'.sampler ∧ Few g k s' := by
    rintro past s l s' hlength ⟨hbuffers, hfew⟩ hstep
    rw [Sampler.ticks_concat] at hlength ⊢
    exact ⟨buffers_step hbuffers hstep, few_step hfew hk hbuffers hlength hstep⟩
  have hinit : Sampler.Buffers (ticks []) ({ items } : Sampler) ∧
      Few g k { sampler := { items } } := ⟨Sampler.buffers_init items, few_init g k items⟩
  exact (run_history_of (P := fun past => (ticks past).current.length ≤ n)
    (I := fun past s => Sampler.Buffers (ticks past) s.sampler ∧ Few g k s) hinv hn hinit hrun).2

/-- With room for the largest tick to come in both vectors, these stay as they are. -/
theorem settled_run {a b : Room} (hm : Settled n a b m)
    (hbuffers : Sampler.Buffers (ticks past) m.sampler) (hn : Bounded n past ls)
    (hrun : Lib.run (step g) m ls = some s) : Settled n a b s := by
  have hinv : ∀ past s l s', (ticks (past ++ [l])).current.length ≤ n →
      (Sampler.Buffers (ticks past) s.sampler ∧ Settled n a b s) → step g s l = some s' →
      Sampler.Buffers (ticks (past ++ [l])) s'.sampler ∧ Settled n a b s' := by
    rintro past s l s' hlength ⟨hbuffers, hsettled⟩ hstep
    rw [Sampler.ticks_concat] at hlength ⊢
    exact ⟨buffers_step hbuffers hstep, settled_step hsettled hbuffers hlength hstep⟩
  have hinit : Sampler.Buffers (ticks past) m.sampler ∧ Settled n a b m := ⟨hbuffers, hm⟩
  exact (run_history_of (P := fun past => (ticks past).current.length ≤ n)
    (I := fun past s => Sampler.Buffers (ticks past) s.sampler ∧ Settled n a b s)
    hinv hn hinit hrun).2

/-- Two ticks in a row have gone through either vector. -/
theorem Roomy.settled {t : Ticks} (h : Roomy t m) {i : Nat} {first second : List SampleGroup}
    (hfirst : t.completed[i]? = some first) (hsecond : t.completed[i + 1]? = some second)
    (hn : n ≤ first.length) (hn' : n ≤ second.length) : Settled n m.scratch m.cache m := by
  by_cases hparity : i % 2 = t.completed.length % 2
  · have hbefore : first.length ≤ m.scratch.capacity := h.before i first hfirst hparity
    have hlast : second.length ≤ m.cache.capacity := h.last (i + 1) second hsecond (by omega)
    exact ⟨Nat.le_trans hn hbefore, Nat.le_trans hn' hlast, .inl ⟨rfl, rfl⟩⟩
  · have hlast : first.length ≤ m.cache.capacity := h.last i first hfirst hparity
    have hbefore : second.length ≤ m.scratch.capacity :=
      h.before (i + 1) second hsecond (by omega)
    exact ⟨Nat.le_trans hn' hbefore, Nat.le_trans hn hlast, .inl ⟨rfl, rfl⟩⟩

/-- **The buffers settle.** Whatever the order in which the thread and the callbacks take turns:
while no pass appends more than `n` groups, neither vector is enlarged more often than it takes to
make room for `n` from nothing, however long the run; and once two ticks in a row had at least `n`
groups, the thread goes on with the same two vectors, neither of them enlarged, as long as no pass
appends more than `n`. -/
theorem buffers_settle (hpast : Lib.run (step g) { sampler := { items } } past = some m) :
    (∀ k, n ≤ g.grow^[k] 0 → Bounded n [] past →
      m.scratch.enlarged ≤ k ∧ m.cache.enlarged ≤ k) ∧
    ∀ i first second, (ticks past).completed[i]? = some first →
      (ticks past).completed[i + 1]? = some second → n ≤ first.length → n ≤ second.length →
      ∀ ls s, Lib.run (step g) m ls = some s → Bounded n past ls →
        s.scratch = m.scratch ∧ s.cache = m.cache ∨ s.scratch = m.cache ∧ s.cache = m.scratch := by
  refine ⟨?_, ?_⟩
  · intro k hk hn
    have hfew := few_run hpast hn hk
    exact ⟨hfew.scratch.2, hfew.cache.2⟩
  · intro i first second hfirst hsecond hn hn' ls s hrun hbounded
    have hsettled := (roomy_run hpast).settled hfirst hsecond hn hn'
    exact (settled_run hsettled (buffers_run hpast) hbounded hrun).same

/-- Room for four elements at first, and then twice as much each time. -/
def doubling : Growth where
  grow capacity := max (2 * capacity) 4
  lt_grow capacity := by omega

/-- Where `twoTicks` ends: each of the vectors has been enlarged once. -/
def afterTwoReused : Reuse where
  sampler := Sampler.afterTwoTicks
  scratch := { capacity := 4, enlarged := 1 }
  cache := { capacity := 4, enlarged := 1 }

/-- A third tick. -/
def thirdTick : List Label :=
  [.release 0, .wake, .load, .clear, .append (countGroup 9), .collected, .lock, .swap]

theorem buffers_settle_thirdTick :
    Lib.run (step doubling) { sampler := { items := [fakeCount] } } Sampler.twoTicks =
        some afterTwoReused ∧
      ∃ s, Lib.run (step doubling) afterTwoReused thirdTick = some s ∧
        (s.scratch = afterTwoReused.scratch ∧ s.cache = afterTwoReused.cache ∨
          s.scratch = afterTwoReused.cache ∧ s.cache = afterTwoReused.scratch) := by
  have hrun : Lib.run (step doubling) { sampler := { items := [fakeCount] } } Sampler.twoTicks =
      some afterTwoReused := rfl
  refine ⟨hrun, _, rfl, ?_⟩
  have hbounded : Bounded 1 Sampler.twoTicks thirdTick := by decide
  exact (buffers_settle hrun).2 0 [countGroup 7] [countGroup 8] rfl rfl (Nat.le_refl 1)
    (Nat.le_refl 1) thirdTick _ rfl hbounded

end

end Reuse

end MetricsExporter.Framework
