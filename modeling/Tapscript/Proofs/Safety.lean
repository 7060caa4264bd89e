import Tapscript.Action

/-!
# Safe actions

An action is safe for a condition on the state and a condition on faults when it keeps the first,
whether it returns or stops, and stops only with faults of the second kind. Safety passes from the
parts of an action to the whole, and from single actions to a history of them.

* `Action.safe_bind`, `Action.safe_focus`: safety of composed actions.
* `Action.Safe.replay`: a history of safe actions keeps the condition.
-/

namespace Tapscript.Action

variable {σ τ α β : Type}

/-- The state after a history: each action starts where the one before it returned or stopped. -/
def replay (acts : List (Action σ α)) (s : σ) : σ := acts.foldl (fun s act => act.after s) s

@[simp]
theorem replay_nil (s : σ) : replay ([] : List (Action σ α)) s = s := rfl

@[simp]
theorem replay_cons (act : Action σ α) (acts : List (Action σ α)) (s : σ) :
    replay (act :: acts) s = replay acts (act.after s) := rfl

/-- In a state with `P` the action ends in a state with `P`, and stops only with a fault in `Q`. -/
def Safe (P : σ → Prop) (Q : Fault → Prop) (act : Action σ α) : Prop :=
  ∀ s, P s →
    match act s with
    | .ok _ s' => P s'
    | .error e s' => P s' ∧ Q e

variable {P : σ → Prop} {Q : Fault → Prop}

/-! ## What safety says -/

theorem Safe.after {act : Action σ α} (h : act.Safe P Q) {s : σ} (hs : P s) : P (act.after s) := by
  have hsafe := h s hs
  unfold Action.after
  cases hact : act s with
  | ok a s' =>
    rw [hact] at hsafe
    exact hsafe
  | error e s' =>
    rw [hact] at hsafe
    exact hsafe.1

theorem Safe.fault {act : Action σ α} (h : act.Safe P Q) {s s' : σ} {e : Fault} (hs : P s)
    (hact : act s = .error e s') : Q e := by
  have hsafe := h s hs
  rw [hact] at hsafe
  exact hsafe.2

theorem Safe.returned {act : Action σ α} (h : act.Safe P Q) {s s' : σ} {a : α} (hs : P s)
    (hact : act s = .ok a s') : P s' := by
  have hsafe := h s hs
  rw [hact] at hsafe
  exact hsafe

/-- What every action of a history keeps holds at its end. -/
theorem Safe.replay {acts : List (Action σ α)} (h : ∀ act ∈ acts, act.Safe P Q) {s : σ} (hs : P s) :
    P (replay acts s) := by
  induction acts generalizing s with
  | nil => exact hs
  | cons act acts ih =>
    rw [replay_cons]
    refine ih (fun act' hact' => h act' (List.mem_cons_of_mem _ hact')) ?_
    exact (h act List.mem_cons_self).after hs

/-- More faults may be allowed. -/
theorem Safe.mono {act : Action σ α} (h : act.Safe P Q) {R : Fault → Prop} (hQR : ∀ e, Q e → R e) :
    act.Safe P R := by
  intro s hs
  have hact := h s hs
  cases he : act s with
  | ok a s' =>
    rw [he] at hact
    exact hact
  | error e s' =>
    rw [he] at hact
    exact ⟨hact.1, hQR e hact.2⟩

/-! ## Safety of composed actions -/

theorem safe_pure (a : α) : Safe P Q (pure a : Action σ α) := fun _ hs => hs

theorem safe_bind {act : Action σ α} {next : α → Action σ β} (hact : act.Safe P Q)
    (hnext : ∀ a, (next a).Safe P Q) : (act >>= next).Safe P Q := by
  intro s hs
  have h := hact s hs
  cases he : act s with
  | ok a s' =>
    rw [he] at h
    rw [bind_apply_ok he]
    exact hnext a s' h
  | error e s' =>
    rw [he] at h
    rw [bind_apply_error he]
    exact h

theorem safe_get_bind {next : σ → Action σ β} (h : ∀ s, P s → (next s).Safe P Q) :
    ((get : Action σ σ) >>= next).Safe P Q := fun s hs => h s hs s hs

theorem safe_modify {change : σ → σ} (h : ∀ s, P s → P (change s)) :
    Safe P Q (modify change : Action σ Unit) := h

theorem safe_check {x : Except Fault α} (h : ∀ e, x = .error e → Q e) :
    Safe P Q (check x : Action σ α) := by
  intro s hs
  cases hx : x with
  | ok a => exact hs
  | error e => exact ⟨hs, h e hx⟩

theorem safe_refuse {r : Refusal} (h : Q (.refused r)) : Safe P Q (refuse r : Action σ α) :=
  fun _ hs => ⟨hs, h⟩

/-- Work on a part is safe when the whole keeps its condition under whatever the part may become. -/
theorem safe_focus {part : σ → τ} {put : σ → τ → σ} {act : Action τ α} {R : τ → Prop}
    (hact : act.Safe R Q) (hpart : ∀ s, P s → R (part s)) (hput : ∀ s t, P s → R t → P (put s t)) :
    (focus part put act).Safe P Q := by
  intro s hs
  have h := hact (part s) (hpart s hs)
  cases he : act (part s) with
  | ok a t =>
    rw [he] at h
    rw [focus_apply_ok he]
    exact hput s t hs h
  | error e t =>
    rw [he] at h
    rw [focus_apply_error he]
    exact ⟨hput s t hs h.1, h.2⟩

end Tapscript.Action
