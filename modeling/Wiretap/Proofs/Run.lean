import Mathlib.Data.List.Forall2

/-!
# Runs

A machine that can refuse an event is a function from a state and an event to the next state, if
there is one. A run is a list of events that can happen one after the other.

Results:

* `run?_append`: a run of two parts is a run of the first and then one of the second.
* `run?_invariant`: what one event preserves, a run preserves.
* `history_concat`: the history of a run grows by what its last event adds.
* `run?_congr`, `history_congr`: runs of events that do the same come to the same.
-/

namespace Wiretap

variable {σ ε : Type} {act? : σ → ε → Option σ} {s₀ s : σ}

/-- The state after a run, if each of the events can happen in its turn. -/
def run? (act? : σ → ε → Option σ) (s : σ) : List ε → Option σ
  | [] => some s
  | e :: es => (act? s e).bind fun s => run? act? s es

@[simp] theorem run?_nil : run? act? s [] = some s := rfl

theorem run?_cons (e : ε) (es : List ε) :
    run? act? s (e :: es) = (act? s e).bind fun s => run? act? s es := rfl

theorem run?_append (es es' : List ε) :
    run? act? s (es ++ es') = (run? act? s es).bind fun s => run? act? s es' := by
  induction es generalizing s with
  | nil => rfl
  | cons e es ih =>
    rw [List.cons_append, run?_cons, run?_cons]
    cases act? s e with
    | none => rfl
    | some s' => exact ih

/-- The invariant may speak of the events that have happened. -/
theorem run?_invariant {motive : List ε → σ → Prop} (start : motive [] s₀)
    (next : ∀ {past s e s'}, run? act? s₀ past = some s → motive past s → act? s e = some s' →
      motive (past ++ [e]) s') {es : List ε} (h : run? act? s₀ es = some s) : motive es s := by
  suffices hpast : ∀ past s₁, run? act? s₀ past = some s₁ → motive past s₁ →
      run? act? s₁ es = some s → motive (past ++ es) s from hpast [] s₀ rfl start h
  clear h
  induction es with
  | nil =>
    intro past s₁ _ hinv h
    cases h
    rw [List.append_nil]
    exact hinv
  | cons e es ih =>
    intro past s₁ hrun hinv h
    rw [run?_cons] at h
    obtain ⟨s₂, he, hes⟩ := Option.bind_eq_some_iff.mp h
    have hrun' : run? act? s₀ (past ++ [e]) = some s₂ := by
      rw [run?_append, hrun, Option.bind_some, run?_cons, he]
      rfl
    have hnext := ih (past ++ [e]) s₂ hrun' (next hrun hinv he) hes
    rw [List.append_assoc] at hnext
    exact hnext

/-! ## Histories -/

variable {ν : Type} {note : σ → ε → List ν}

/-- What is noted in the course of a run, where a note depends on the state in which an event
happens. -/
def history (act? : σ → ε → Option σ) (note : σ → ε → List ν) (s : σ) : List ε → List ν
  | [] => []
  | e :: es =>
    note s e ++ match act? s e with
      | some s => history act? note s es
      | none => []

theorem history_concat (es : List ε) (e : ε) (h : run? act? s₀ es = some s) :
    history act? note s₀ (es ++ [e]) = history act? note s₀ es ++ note s e := by
  induction es generalizing s₀ with
  | nil =>
    cases h
    simp only [List.nil_append, history]
    cases act? s e <;> simp
  | cons e' es ih =>
    rw [run?_cons] at h
    obtain ⟨s₁, he, hes⟩ := Option.bind_eq_some_iff.mp h
    simp only [List.cons_append, history, he]
    rw [ih hes, List.append_assoc]

theorem filterMap_history {μ : Type} (f : ν → Option μ) (s : σ) (es : List ε) :
    (history act? note s es).filterMap f =
      history act? (fun s e => (note s e).filterMap f) s es := by
  induction es generalizing s with
  | nil => rfl
  | cons e es ih =>
    simp only [history, List.filterMap_append]
    cases act? s e with
    | none => rfl
    | some s' => rw [ih s']

/-! ## Events that do the same -/

section Congruence

variable {R : ε → ε → Prop} {es es' : List ε}

theorem run?_congr (hact : ∀ s e e', R e e' → act? s e = act? s e') (h : List.Forall₂ R es es')
    (s : σ) : run? act? s es = run? act? s es' := by
  induction h generalizing s with
  | nil => rfl
  | cons he _ ih =>
    rw [run?_cons, run?_cons, hact s _ _ he]
    exact congrArg _ (funext ih)

theorem history_congr (hact : ∀ s e e', R e e' → act? s e = act? s e')
    (hnote : ∀ s e e', R e e' → note s e = note s e') (h : List.Forall₂ R es es') (s : σ) :
    history act? note s es = history act? note s es' := by
  induction h generalizing s with
  | nil => rfl
  | @cons e e' _ _ he _ ih =>
    simp only [history]
    rw [hact s e e' he, hnote s e e' he]
    cases act? s e' with
    | none => rfl
    | some s' => exact congrArg _ (ih s')

end Congruence

end Wiretap
