/-
  TypedStore — runs of machines.

  * `after_append`, `answers_append`: a run goes on where its first part
    ended;
  * `after_invariant`: what every instruction keeps, a run keeps;
  * `after_successes`, `answers_successes`: where failing has no effect, the
    instructions that fail can be left out;
  * `after_exchanged`, `answers_exchanged`: instructions can be exchanged for
    others that do the same, anywhere in a run;
  * `answersOf`: the answers to some of the instructions; `answers_filter`: the
    others can be left out if they leave the state alone.
-/
import Mathlib.Data.List.Forall2
import TypedStore.Machine

namespace TypedStore

namespace Machine

variable {ι : Type → Type 1} {σ : Type} (m : Machine ι σ)

@[simp] theorem after_nil (s : σ) : m.after [] s = s := rfl

@[simp] theorem after_cons (i : Step ι) (run : List (Step ι)) (s : σ) :
    m.after (i :: run) s = m.after run (m.next i s) := rfl

theorem after_append (first second : List (Step ι)) (s : σ) :
    m.after (first ++ second) s = m.after second (m.after first s) :=
  List.foldl_append

theorem answers_append (first second : List (Step ι)) (s : σ) :
    m.answers (first ++ second) s = m.answers first s ++ m.answers second (m.after first s) := by
  induction first generalizing s with
  | nil => rfl
  | cons i first ih => simp only [List.cons_append, answers, ih, after_cons]

/-- What every instruction keeps, a run keeps. -/
theorem after_invariant {P : σ → Prop} (hstep : ∀ i s, P s → P (m.next i s)) (run : List (Step ι))
    {s : σ} (h : P s) : P (m.after run s) := by
  induction run generalizing s with
  | nil => exact h
  | cons i run ih => exact ih (hstep i s h)

/-! ## Leaving out what fails -/

section
variable {m} (hm : m.IsAtomic)
include hm

theorem after_successes (run : List (Step ι)) (s : σ) :
    m.after (m.successes run s) s = m.after run s := by
  induction run generalizing s with
  | nil => rfl
  | cons i run ih =>
    rw [successes, after_cons]
    split
    · exact ih _
    · next hfail =>
      have hs : m.next i s = s := hm i s (by simpa using hfail)
      rw [hs]; exact ih s

theorem answers_successes (run : List (Step ι)) (s : σ) :
    m.answers (m.successes run s) s = (m.answers run s).filter Answer.isOk := by
  induction run generalizing s with
  | nil => rfl
  | cons i run ih =>
    rw [successes, answers]
    split
    · next hok => rw [List.filter_cons_of_pos hok, answers, ih]
    · next hfail =>
      have hs : m.next i s = s := hm i s (by simpa using hfail)
      rw [List.filter_cons_of_neg hfail, hs]; exact ih s

end

/-! ## Exchanging instructions -/

/-- Two instructions do the same in every state. -/
def Same (i j : Step ι) : Prop := ∀ s, m.answer j s = m.answer i s ∧ m.next j s = m.next i s

/-- The second run is the first one with some instructions exchanged for
    others, which `R` relates to them. -/
def Exchanged (R : Step ι → Step ι → Prop) (run run' : List (Step ι)) : Prop :=
  List.Forall₂ (fun i j => i = j ∨ R i j) run run'

section
variable {m} {R : Step ι → Step ι → Prop} (hR : ∀ i j, R i j → m.Same i j)
include hR

theorem same_of_eq_or {i j : Step ι} (h : i = j ∨ R i j) : m.Same i j := by
  rcases h with rfl | h
  · exact fun s => ⟨rfl, rfl⟩
  · exact hR i j h

theorem after_exchanged {run run' : List (Step ι)} (h : Exchanged R run run') (s : σ) :
    m.after run' s = m.after run s := by
  induction h generalizing s with
  | nil => rfl
  | cons hi _ ih => rw [after_cons, after_cons, (same_of_eq_or hR hi s).2, ih]

theorem answers_exchanged {run run' : List (Step ι)} (h : Exchanged R run run') (s : σ) :
    m.answers run' s = m.answers run s := by
  induction h generalizing s with
  | nil => rfl
  | cons hi _ ih =>
    rw [answers, answers, (same_of_eq_or hR hi s).1, (same_of_eq_or hR hi s).2, ih]

end

/-! ## The answers to some instructions -/

/-- The answers in a run to the instructions that `p` picks. -/
def answersOf (p : Step ι → Bool) : List (Step ι) → σ → List Answer
  | [], _ => []
  | i :: rest, s =>
    if p i then m.answer i s :: answersOf p rest (m.next i s) else answersOf p rest (m.next i s)

theorem answersOf_cons_of_pos {p : Step ι → Bool} {i : Step ι} (h : p i = true)
    (rest : List (Step ι)) (s : σ) :
    m.answersOf p (i :: rest) s = m.answer i s :: m.answersOf p rest (m.next i s) := if_pos h

theorem answersOf_cons_of_neg {p : Step ι → Bool} {i : Step ι} (h : p i = false)
    (rest : List (Step ι)) (s : σ) :
    m.answersOf p (i :: rest) s = m.answersOf p rest (m.next i s) :=
  if_neg (by simp [h])

/-- What leaves the state alone can be left out of a run. -/
theorem answers_filter {p : Step ι → Bool} {run : List (Step ι)}
    (hrun : ∀ i ∈ run, p i = false → ∀ s, m.next i s = s) (s : σ) :
    m.answers (run.filter p) s = m.answersOf p run s ∧
      m.after (run.filter p) s = m.after run s := by
  induction run generalizing s with
  | nil => exact ⟨rfl, rfl⟩
  | cons i run ih =>
    have hrest := ih fun j hj => hrun j (List.mem_cons_of_mem i hj)
    cases hp : p i with
    | true =>
      obtain ⟨hanswers, hafter⟩ := hrest (m.next i s)
      rw [List.filter_cons_of_pos hp, answersOf_cons_of_pos m hp, answers, hanswers, after_cons,
        hafter]
      exact ⟨rfl, rfl⟩
    | false =>
      have hs := hrun i List.mem_cons_self hp s
      rw [List.filter_cons_of_neg (by simp [hp]), answersOf_cons_of_neg m hp, after_cons, hs]
      exact hrest s

end Machine

end TypedStore
