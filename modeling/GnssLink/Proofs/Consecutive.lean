import Mathlib.Data.List.Basic

/-!
# Calls one after the other

A call changes a state and has an answer, also when it is refused.  Calls that are made one after
the other each find the state that the earlier ones left, so the answer to one of them depends on
those in front of it only.

## Main definitions

* `Consecutive.answers`, `Consecutive.after` — the answers to some calls, and the state after them.

## Main results

* `Consecutive.after_append`, `Consecutive.answers_append` — calls that are made in two parts.
* `Consecutive.getElem?_answers` — the answer to one call among others.
* `Consecutive.run_eq_pure` — calls that have the same effect in another place.
-/

namespace GnssLink.Consecutive

variable {σ α β : Type} {call : α → StateM σ β} {s : σ} {a : α} {calls early late : List α}

/-- The answers to calls that are made one after the other. -/
def answers (call : α → StateM σ β) (s : σ) (calls : List α) : List β :=
  ((calls.mapM call).run s).1

/-- The state after calls that are made one after the other. -/
def after (call : α → StateM σ β) (s : σ) (calls : List α) : σ :=
  ((calls.mapM call).run s).2

theorem answers_cons : answers call s (a :: calls) =
    (call a s).1 :: answers call (call a s).2 calls := by
  rw [answers, List.mapM_cons]
  rfl

theorem after_cons : after call s (a :: calls) = after call (call a s).2 calls := by
  rw [after, List.mapM_cons]
  rfl

theorem answers_append : answers call s (early ++ late) =
    answers call s early ++ answers call (after call s early) late := by
  induction early generalizing s with
  | nil => rfl
  | cons a early ih =>
    rw [List.cons_append, answers_cons, ih, after_cons, answers_cons, List.cons_append]

theorem after_append : after call s (early ++ late) = after call (after call s early) late := by
  induction early generalizing s with
  | nil => rfl
  | cons a early ih => rw [List.cons_append, after_cons, ih, after_cons]

/-- One more call. -/
theorem after_concat : after call s (early ++ [a]) = (call a (after call s early)).2 := by
  rw [after_append, after_cons]
  rfl

/-- There is one answer for each call. -/
theorem length_answers : (answers call s calls).length = calls.length := by
  induction calls generalizing s with
  | nil => rfl
  | cons a calls ih => rw [answers_cons, List.length_cons, ih, List.length_cons]

/-- The answer to one call among others. -/
theorem getElem?_answers :
    (answers call s (early ++ a :: late))[early.length]? =
      some (call a (after call s early)).1 := by
  have hplace : early.length = (answers call s early).length := length_answers.symm
  rw [answers_append, answers_cons, hplace, List.getElem?_append_right (Nat.le_refl _),
    Nat.sub_self, List.getElem?_cons_zero]

/-- Calls that are made in another place, with other effects beside them, answer and act like these
if each single one does so in every state. -/
theorem run_eq_pure {τ : Type} {m : Type → Type} [Monad m] [LawfulMonad m]
    {inPlace : α → StateT τ m β} {place : σ → τ}
    (h : ∀ a s, (inPlace a).run (place s) = pure ((call a s).1, place (call a s).2))
    (s : σ) (calls : List α) :
    (calls.mapM inPlace).run (place s) =
      pure (answers call s calls, place (after call s calls)) := by
  induction calls generalizing s with
  | nil => rw [List.mapM_nil, StateT.run_pure]; rfl
  | cons a calls ih =>
    rw [List.mapM_cons, StateT.run_bind, h, pure_bind, StateT.run_bind, ih, pure_bind,
      StateT.run_pure, answers_cons, after_cons]

end GnssLink.Consecutive
