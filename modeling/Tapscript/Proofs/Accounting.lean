import Tapscript.Family.Call
import Tapscript.Proofs.Balance
import Tapscript.Proofs.Safety

/-!
# The accounting of a family over its history

Whatever calls are made on the members of a family, and whether they return or stop, the family stays
balanced, and the check that follows a change of the totals never fails.

* `perform_ending`: all that can come of one call on a truthful family. A call that stops has changed
  nothing, and did not stop because the totals disagree.
* `perform_failed`, `perform_others`: what a call leaves as it was.
* `balanced_safe`, `balanced_history`: every call, and every history of calls, keeps a family balanced.
-/

namespace Tapscript

/-! ## Faults of admission -/

/-- An amount is not within a bound because it is above it, or because there is no number to compare
with. -/
theorem Bound.check_error {bound : Bound} {amount : Int} {excess : Int → Fault} {e : Fault}
    (h : bound.check amount excess = .error e) : e = .mismatch ∨ ∃ most, e = excess most := by
  unfold Bound.check at h
  split at h
  · cases h
    exact Or.inl rfl
  · split at h
    · cases h
    · cases h
      exact Or.inr ⟨_, rfl⟩

namespace Value

theorem wholeItem_error {v : Value} {e : Fault} (h : v.wholeItem = .error e) : e = .mismatch := by
  unfold wholeItem at h
  split at h
  · cases h
  · cases h
    rfl

/-- A value is not admitted because it holds no bytes, because there is no limit to compare with, or
because it is too long. -/
theorem accept_error {v : Value} {limit : Bound} {e : Fault} (h : v.accept limit = .error e) :
    e = .mismatch ∨ ∃ size most, e = .refused (.itemTooLong size most) := by
  unfold accept at h
  cases hw : v.wholeItem with
  | error e' =>
    rw [hw] at h
    cases h
    exact Or.inl (wholeItem_error hw)
  | ok x =>
    simp only [hw, bind, Except.bind] at h
    split at h
    · rename_i e' hcheck
      cases h
      exact (Bound.check_error hcheck).imp_right fun ⟨most, he⟩ => ⟨_, most, he⟩
    · cases h

theorem asItem_error {v : Value} {e : Fault} (h : v.asItem = .error e) :
    e = .mismatch ∨ ∃ size most, e = .refused (.itemTooLong size most) := by
  unfold asItem at h
  split at h
  · cases h
  · exact accept_error h

theorem elements_error {v : Value} {e : Fault} (h : v.elements = .error e) : e = .mismatch := by
  unfold elements at h
  split at h
  · cases h
  · cases h
    rfl

theorem toInt_error {v : Value} {e : Fault} (h : v.toInt = .error e) : e = .mismatch := by
  unfold toInt at h
  split at h
  · cases h
  · cases h
    rfl

end Value

/-- A traversal stops with the fault of one of its elements. -/
theorem exists_of_mapM_error {α β : Type} {f : α → Except Fault β} {xs : List α} {e : Fault}
    (h : xs.mapM f = .error e) : ∃ x ∈ xs, f x = .error e := by
  induction xs with
  | nil => cases h
  | cons x xs ih =>
    rw [List.mapM_cons] at h
    cases hx : f x with
    | error e' =>
      rw [hx] at h
      cases h
      exact ⟨x, List.mem_cons_self, hx⟩
    | ok y =>
      cases hxs : xs.mapM f with
      | error e' =>
        rw [hx, hxs] at h
        cases h
        obtain ⟨x', hx', he⟩ := ih hxs
        exact ⟨x', List.mem_cons_of_mem _ hx', he⟩
      | ok ys =>
        rw [hx, hxs] at h
        cases h

/-- A traversal that goes through has the results of its elements. -/
theorem map_eq_of_mapM_ok {α β : Type} {f : α → Except Fault β} {xs : List α} {ys : List β}
    (h : xs.mapM f = .ok ys) : xs.map f = ys.map .ok := by
  induction xs generalizing ys with
  | nil =>
    cases h
    rfl
  | cons x xs ih =>
    rw [List.mapM_cons] at h
    cases hx : f x with
    | error e =>
      rw [hx] at h
      cases h
    | ok y =>
      cases hxs : xs.mapM f with
      | error e =>
        rw [hx, hxs] at h
        cases h
      | ok ys' =>
        rw [hx, hxs] at h
        cases h
        rw [List.map_cons, List.map_cons, hx, ih hxs]

theorem Counter.number_error {c : Counter} {e : Fault} (h : c.number = .error e) : e = .mismatch := by
  cases c with
  | none =>
    cases h
    rfl
  | some n => cases h

namespace Family

variable {count bytes : Nat} {f : Family}

/-! ## What can come of a call -/

/-- The items a call puts on a member if there is room for them. -/
def Call.Brings : Call → List Item → Prop
  | .push v, xs => ∃ x, v.asItem = .ok x ∧ xs = [x]
  | .extend v, xs => ∃ vs, v.elements = .ok vs ∧ vs.mapM Value.asItem = .ok xs
  | _, _ => False

/-- What can come of a call on member `i` of a truthful family: it stops and has changed nothing, it
only looks, it takes items from the top of the member, it puts items on top for which there was room,
or it adds a child. -/
inductive Ending (c : Call) (i : Nat) (f : Family) {α : Type} : EStateM.Result Fault Family α → Prop
  | stopped {e : Fault} (h : e ≠ .broken) : Ending c i f (.error e f)
  | looked (a : α) : Ending c i f (.ok a f)
  | taken (a : α) {s : Stack} (hs : f.members[i]? = some s) (n : Nat) :
    Ending c i f (.ok a (f.refill i (s.items.drop n)))
  | put (a : α) {s : Stack} (hs : f.members[i]? = some s) {xs : List Item} (hxs : c.Brings xs)
    (hr : f.reserve xs.length (Item.total xs) = .ok ()) :
    Ending c i f (.ok a (f.refill i (xs.reverse ++ s.items)))
  | grown (a : α) (hc : c = .child) : Ending c i f (.ok a f.grown)

variable {c : Call} {i : Nat}

theorem Ending.reply {α β : Type} {act : Action Family α} (h : Ending c i f (act f))
    (answer : α → β) : Ending c i f ((act >>= fun a => pure (answer a)) f) := by
  rw [Action.bind_apply]
  generalize act f = result at h
  cases h with
  | stopped h => exact .stopped h
  | looked a => exact .looked _
  | taken a hs n => exact .taken _ hs n
  | put a hs hxs hr => exact .put _ hs hxs hr
  | grown a hc => exact .grown _ hc

theorem Ending.check {α β : Type} {x : Except Fault α} {next : α → Action Family β}
    (hx : ∀ e, x = .error e → e ≠ .broken) (hnext : ∀ a, x = .ok a → Ending c i f (next a f)) :
    Ending c i f ((Action.check x >>= next) f) := by
  cases x with
  | error e => exact .stopped (hx e rfl)
  | ok a => exact hnext a rfl

theorem Ending.member {α : Type} {next : Stack → Action Family α}
    (hnext : ∀ s, f.members[i]? = some s → Ending c i f (next s f)) :
    Ending c i f ((Family.member i >>= next) f) := by
  cases hs : f.members[i]? with
  | none =>
    have hmember : Family.member i f = .error .outOfRange f := by rw [member_apply, hs]
    rw [Action.bind_apply_error hmember]
    exact .stopped (by simp)
  | some s =>
    have hmember : Family.member i f = .ok s f := by rw [member_apply, hs]
    rw [Action.bind_apply_ok hmember]
    exact hnext s hs

theorem reserve_ne_broken {n k : Int} {e : Fault} (h : f.reserve n k = .error e) : e ≠ .broken := by
  unfold reserve Tally.reserve at h
  cases hc : f.held.count.number with
  | error e' =>
    rw [hc] at h
    cases h
    rw [Counter.number_error hc]
    simp
  | ok c =>
    cases hcheck : f.root.bounds.count.check (c + n) fun most => .refused (.tooManyItems most n) with
    | error e' =>
      simp only [hc, hcheck, bind, Except.bind] at h
      cases h
      rcases Bound.check_error hcheck with rfl | ⟨most, rfl⟩ <;> simp
    | ok u =>
      cases hb : f.held.bytes.number with
      | error e' =>
        simp only [hc, hcheck, hb, bind, Except.bind] at h
        cases h
        rw [Counter.number_error hb]
        simp
      | ok b =>
        simp only [hc, hcheck, hb, bind, Except.bind] at h
        rcases Bound.check_error h with rfl | ⟨most, rfl⟩ <;> simp

theorem pushItems_ending (h : f.Truthful) (i : Nat) {xs : List Item} (hxs : c.Brings xs) :
    Ending c i f (pushItems i xs f) := by
  cases hs : f.members[i]? with
  | none =>
    rw [pushItems_apply]
    simp only [hs]
    exact .stopped (by simp)
  | some s =>
    rw [pushItems_truthful h hs]
    cases hr : f.reserve xs.length (Item.total xs) with
    | error e => exact .stopped (reserve_ne_broken hr)
    | ok u => exact .put _ hs hxs hr

theorem push_ending (h : f.Truthful) (i : Nat) (v : Value) :
    Ending (.push v) i f (push i v f) := by
  refine Ending.check ?_ (fun x hx => ?_)
  · intro e he
    rcases Value.asItem_error he with rfl | ⟨size, most, rfl⟩ <;> simp
  · rw [pushItem_eq_pushItems]
    exact pushItems_ending h i ⟨x, hx, rfl⟩

theorem extend_ending (h : f.Truthful) (i : Nat) (v : Value) :
    Ending (.extend v) i f (extend i v f) := by
  refine Ending.check ?_ (fun vs hvs => Ending.check ?_ (fun xs hxs =>
    pushItems_ending h i ⟨vs, hvs, hxs⟩))
  · intro e he
    rw [Value.elements_error he]
    simp
  · intro e he
    obtain ⟨v', -, hv⟩ := exists_of_mapM_error he
    rcases Value.asItem_error hv with rfl | ⟨size, most, rfl⟩ <;> simp

theorem pop_ending (h : f.Truthful) (i : Nat) : Ending c i f (pop i f) := by
  cases hs : f.members[i]? with
  | none =>
    rw [pop_apply]
    simp only [hs]
    exact .stopped (by simp)
  | some s =>
    rw [pop_truthful h hs]
    cases hitems : s.items with
    | nil => exact .stopped (by simp)
    | cons x rest =>
      have hrest : rest = s.items.drop 1 := by rw [hitems, List.drop_succ_cons, List.drop_zero]
      rw [hrest]
      exact .taken x hs 1

theorem clear_ending (h : f.Truthful) (i : Nat) : Ending c i f (clear i f) := by
  refine Ending.member (fun s hs => ?_)
  rw [popMany_truthful s.depth h hs (Nat.le_refl _)]
  exact .taken () hs s.depth

theorem peek_ending (i : Nat) (depth : Int) : Ending c i f (peek i depth f) := by
  refine Ending.member (fun s _ => ?_)
  cases hpeek : s.peek depth with
  | ok x => exact .looked x
  | error e =>
    refine .stopped ?_
    unfold Stack.peek at hpeek
    split at hpeek
    · cases hpeek
    · cases hpeek
      simp

theorem makeChild_ending (i : Nat) : Ending .child i f (makeChild i f) :=
  Ending.member (fun _ _ => .grown _ rfl)

/-- All that can come of a call on a truthful family. -/
theorem perform_ending (h : f.Truthful) (i : Nat) (c : Call) :
    Ending c i f (perform i c f) := by
  cases c with
  | push v => exact (push_ending h i v).reply _
  | pop => exact (pop_ending h i).reply _
  | peek depth =>
    refine Ending.check ?_ (fun n _ => (peek_ending i n).reply _)
    intro e he
    rw [Value.toInt_error he]
    simp
  | extend v => exact (extend_ending h i v).reply _
  | clear => exact (clear_ending h i).reply _
  | child => exact (makeChild_ending i).reply _

/-! ## What a call leaves alone -/

section Frame

variable {f' : Family} {j : Nat}

theorem perform_failed (h : f.Truthful) {e : Fault} (he : perform i c f = .error e f') : f' = f := by
  have hending := perform_ending h i c
  rw [he] at hending
  cases hending
  rfl

theorem after_cases (h : f.Truthful) (i : Nat) (c : Call) :
    (perform i c).after f = f ∨ (∃ items, (perform i c).after f = f.refill i items) ∨
      (c = .child ∧ (perform i c).after f = f.grown) := by
  have hending := perform_ending h i c
  unfold Action.after
  generalize perform i c f = result at hending
  cases hending with
  | stopped _ => exact Or.inl rfl
  | looked a => exact Or.inl rfl
  | taken a hs n => exact Or.inr (Or.inl ⟨_, rfl⟩)
  | put a hs hxs hr => exact Or.inr (Or.inl ⟨_, rfl⟩)
  | grown a hc => exact Or.inr (Or.inr ⟨hc, rfl⟩)

theorem truthful_after (h : f.Truthful) (i : Nat) (c : Call) : ((perform i c).after f).Truthful := by
  rcases after_cases h i c with heq | ⟨items, heq⟩ | ⟨-, heq⟩
  · rw [heq]
    exact h
  · rw [heq]
    exact truthful_refill h i items
  · rw [heq]
    exact truthful_grown h

theorem perform_others (h : f.Truthful) (hij : i ≠ j) (hj : j < f.members.length) (c : Call) :
    ((perform i c).after f).members[j]? = f.members[j]? := by
  rcases after_cases h i c with heq | ⟨items, heq⟩ | ⟨-, heq⟩
  · rw [heq]
  · rw [heq, member_refill_other f hij]
  · rw [heq, members_grown, List.getElem?_append_left hj]

theorem perform_child (hi : i < f.members.length) :
    perform i .child f = .ok (.bounds childBounds) f.grown := by
  have hmember : member i f = .ok f.members[i] f := by
    rw [member_apply, List.getElem?_eq_getElem hi]
  have hmake : makeChild i f = .ok { bounds := childBounds } f.grown := by
    unfold makeChild
    rw [Action.bind_apply_ok hmember]
    rfl
  exact Action.bind_apply_ok hmake _

end Frame

/-! ## Calls on a balanced family -/

/-- Room was reserved for the new items, so the family stays balanced with them. -/
theorem balanced_of_reserve {s : Stack} (h : f.Balanced count bytes)
    (hs : f.members[i]? = some s) {xs : List Item}
    (hr : f.reserve xs.length (Item.total xs) = .ok ()) :
    (f.refill i (xs.reverse ++ s.items)).Balanced count bytes := by
  rw [reserve_balanced h] at hr
  split at hr
  · cases hr
  · split at hr
    · cases hr
    · have hc := itemCount_refill hs (xs.reverse ++ s.items)
      have hb := itemBytes_refill hs (xs.reverse ++ s.items)
      simp only [List.length_append, List.length_reverse, Item.total_append,
        Item.total_reverse] at hc hb
      exact balanced_refill h.bounds h.sizes (by omega) (by omega)

theorem balanced_of_drop {s : Stack} (h : f.Balanced count bytes) (hs : f.members[i]? = some s)
    (n : Nat) : (f.refill i (s.items.drop n)).Balanced count bytes := by
  have hsplit : Item.total (s.items.take n) + Item.total (s.items.drop n) = Item.total s.items := by
    rw [← Item.total_append, List.take_append_drop]
  refine balanced_refill_of_le h hs ?_ (by omega)
  rw [List.length_drop]
  exact Nat.sub_le _ _

/-- A condition on balanced families that survives other items and more children survives every
call. -/
theorem perform_safe {P : Family → Prop} (hP : ∀ f, P f → f.Balanced count bytes)
    (hrefill : ∀ f i items, P f → (f.refill i items).Balanced count bytes → P (f.refill i items))
    (hgrown : ∀ f, P f → P f.grown) (i : Nat) (c : Call) :
    (perform i c).Safe P (· ≠ .broken) := by
  intro f hf
  have hbalanced := hP f hf
  have h := perform_ending hbalanced.truthful i c
  generalize perform i c f = result at h
  cases h with
  | stopped h => exact ⟨hf, h⟩
  | looked a => exact hf
  | taken a hs n => exact hrefill f i _ hf (balanced_of_drop hbalanced hs n)
  | put a hs _ hr => exact hrefill f i _ hf (balanced_of_reserve hbalanced hs hr)
  | grown a _ => exact hgrown f hf

/-! ## Histories -/

/-- The family after a history of calls, each with the number of the member it is made on. -/
def history (calls : List (Nat × Call)) (f : Family) : Family :=
  Action.replay (calls.map fun c => perform c.1 c.2) f

theorem balanced_safe (i : Nat) (c : Call) :
    (perform i c).Safe (Balanced count bytes) (· ≠ .broken) :=
  perform_safe (fun _ h => h) (fun _ _ _ _ h => h) (fun _ h => balanced_grown h) i c

theorem balanced_history (calls : List (Nat × Call)) (h : f.Balanced count bytes) :
    (f.history calls).Balanced count bytes := by
  refine Action.Safe.replay (Q := (· ≠ .broken)) ?_ h
  intro act hact
  obtain ⟨c, -, rfl⟩ := List.mem_map.mp hact
  exact balanced_safe c.1 c.2

end Family

end Tapscript
