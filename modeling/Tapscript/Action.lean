import Tapscript.Fault

/-!
# Actions

An action works on a state and either returns a value or stops with a fault. A stopped action
leaves the state as it was at the stop: nothing is undone. The equations at the end say what an
action does to a given state, so that a sequence of actions unfolds without its monad.
-/

namespace Tapscript

/-- A computation on a state that may stop with a fault. -/
abbrev Action (σ α : Type) := EStateM Fault σ α

namespace Action

variable {σ τ α : Type}

/-- A check that does not touch the state. -/
def check (e : Except Fault α) : Action σ α := fun s =>
  match e with
  | .ok a => .ok a s
  | .error f => .error f s

/-- Stops because a rule of execution is broken. -/
def refuse (r : Refusal) : Action σ α := fun s => .error (.refused r) s

/-- Works on a part of the state, which is put back also when the action stops. -/
def focus (part : σ → τ) (put : σ → τ → σ) (act : Action τ α) : Action σ α := fun s =>
  match act (part s) with
  | .ok a t => .ok a (put s t)
  | .error f t => .error f (put s t)

/-- The outcome of an action without its final state. -/
def outcome (act : Action σ α) (s : σ) : Except Fault α :=
  match act s with
  | .ok a _ => .ok a
  | .error f _ => .error f

/-- The state after an action, whether it returned or stopped. -/
def after (act : Action σ α) (s : σ) : σ :=
  match act s with
  | .ok _ s' => s'
  | .error _ s' => s'

/-! ## Equations -/

variable {β : Type}

theorem bind_apply (act : Action σ α) (next : α → Action σ β) (s : σ) :
    (act >>= next) s =
      match act s with
      | .ok a s' => next a s'
      | .error e s' => .error e s' := by
  simp only [bind, EStateM.bind]
  cases act s <;> rfl

theorem bind_apply_ok {act : Action σ α} {s s' : σ} {a : α} (h : act s = .ok a s')
    (next : α → Action σ β) : (act >>= next) s = next a s' := by
  rw [bind_apply, h]

theorem bind_apply_error {act : Action σ α} {s s' : σ} {e : Fault} (h : act s = .error e s')
    (next : α → Action σ β) : (act >>= next) s = .error e s' := by
  rw [bind_apply, h]

theorem bind_eq_ok_iff {act : Action σ α} {next : α → Action σ β} {s s'' : σ} {b : β} :
    (act >>= next) s = .ok b s'' ↔ ∃ a s', act s = .ok a s' ∧ next a s' = .ok b s'' := by
  rw [bind_apply]
  cases act s with
  | ok a s' =>
    constructor
    · intro h
      exact ⟨a, s', rfl, h⟩
    · rintro ⟨_, _, h, hnext⟩
      cases h
      exact hnext
  | error e s' => simp

@[simp]
theorem get_bind_apply (next : σ → Action σ β) (s : σ) :
    ((get : Action σ σ) >>= next) s = next s s := rfl

@[simp]
theorem modify_bind_apply (change : σ → σ) (next : Unit → Action σ β) (s : σ) :
    ((modify change : Action σ Unit) >>= next) s = next () (change s) := rfl

@[simp]
theorem check_ok (a : α) (s : σ) : check (.ok a) s = .ok a s := rfl

@[simp]
theorem check_error (e : Fault) (s : σ) : check (.error e : Except Fault α) s = .error e s := rfl

theorem focus_apply_ok {part : σ → τ} {put : σ → τ → σ} {act : Action τ α} {s : σ} {a : α} {t : τ}
    (h : act (part s) = .ok a t) : focus part put act s = .ok a (put s t) := by
  rw [focus, h]

theorem focus_apply_error {part : σ → τ} {put : σ → τ → σ} {act : Action τ α} {s : σ} {e : Fault}
    {t : τ} (h : act (part s) = .error e t) : focus part put act s = .error e (put s t) := by
  rw [focus, h]

end Action

end Tapscript
