/-
  TypedStore — machines and their runs.

  A machine says what each instruction of a family answers in a state, and
  which state follows.  The family is indexed by the type of the answer.  A
  run is a list of instructions of any types.

  * `Machine.after`, `Machine.answers`: the state after a run, and all that is
    answered in it;
  * `Machine.successes`: the instructions of a run that did not fail in it.
-/
import TypedStore.Error

namespace TypedStore

/-- What the instructions of a family answer in a state, and the state after
    them. -/
structure Machine (ι : Type → Type 1) (σ : Type) where
  act : {α : Type} → ι α → σ → Except StoreError α × σ

/-- An instruction of some type. -/
abbrev Step (ι : Type → Type 1) : Type 1 := (α : Type) × ι α

/-- An answer of some type. -/
abbrev Answer : Type 1 := (α : Type) × Except StoreError α

/-- Whether an answer is a result and not an error. -/
def Answer.isOk (a : Answer) : Bool := a.2.isOk

namespace Machine

variable {ι : Type → Type 1} {σ : Type} (m : Machine ι σ)

/-- The answer to an instruction. -/
def answer (i : Step ι) (s : σ) : Answer := ⟨i.1, (m.act i.2 s).1⟩

/-- The state after an instruction. -/
def next (i : Step ι) (s : σ) : σ := (m.act i.2 s).2

/-- The state after a run. -/
def after (run : List (Step ι)) (s : σ) : σ := run.foldl (fun t i => m.next i t) s

/-- All that is answered in a run. -/
def answers : List (Step ι) → σ → List Answer
  | [], _ => []
  | i :: rest, s => m.answer i s :: answers rest (m.next i s)

/-- The instructions of a run that succeed in it. -/
def successes : List (Step ι) → σ → List (Step ι)
  | [], _ => []
  | i :: rest, s =>
    if (m.answer i s).isOk then i :: successes rest (m.next i s) else successes rest (m.next i s)

/-- Whether an instruction that fails leaves every state as it was. -/
def IsAtomic : Prop := ∀ i s, (m.answer i s).isOk = false → m.next i s = s

end Machine

end TypedStore
