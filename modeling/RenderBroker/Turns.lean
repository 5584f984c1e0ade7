/-!
# Turns

Threads that share a state go on in turns, in any order. A turn is one step that no other thread can
see half done; whether it can be taken depends on the state, and one that cannot has to wait.
-/

namespace RenderBroker

/-- A state comes to another by turns that could each be taken. -/
inductive Reaches {σ τ : Type} (step : σ → τ → Option σ) (s : σ) : σ → Prop where
  | refl : Reaches step s s
  | snoc {u v : σ} {t : τ} (before : Reaches step s u) (last : step u t = some v) :
      Reaches step s v

namespace Reaches

variable {σ τ : Type} {step : σ → τ → Option σ} {s u v : σ}

theorem single {t : τ} (h : step s t = some u) : Reaches step s u :=
  .snoc .refl h

theorem trans (h : Reaches step s u) (k : Reaches step u v) : Reaches step s v := by
  induction k with
  | refl => exact h
  | snoc _ last ih => exact ih.snoc last

theorem cons {t : τ} (first : step s t = some u) (rest : Reaches step u v) : Reaches step s v :=
  (single first).trans rest

theorem of_foldlM {ts : List τ} (h : ts.foldlM step s = some u) : Reaches step s u := by
  induction ts generalizing s with
  | nil =>
    cases h
    exact .refl
  | cons t ts ih =>
    rw [List.foldlM_cons] at h
    obtain ⟨v, first, rest⟩ := Option.bind_eq_some_iff.mp h
    exact .cons first (ih rest)

/-- What every turn keeps holds in every state that is come to. -/
theorem keeps {P : σ → Prop} (turn : ∀ {a b : σ} {t : τ}, P a → step a t = some b → P b)
    (start : P s) (h : Reaches step s u) : P u := by
  induction h with
  | refl => exact start
  | snoc _ last ih => exact turn ih last

end Reaches

end RenderBroker
