import Tapscript.Proofs.Flaws
import Tapscript.Proofs.Steps

/-!
# How a machine starts

A machine starts with the witness on its main stack and an empty alt stack, if the witness has fewer
items than the element limit and its bytes fit the memory limit.

* `start_seeded`, `seeded_eq_launch`: a start is the admission of the witness followed by `launch`.
* `start_eq_launch`: a start, by the first flaw of the witness and by the script.
* `sound_of_launch`: a machine that started is sound.
* `start_ok`: what is known of the witness and the limits of a machine that started.
-/

namespace Tapscript.Machine

variable {limits : Limits} {memory : Nat}

/-- A machine with nothing on its stacks. -/
def blank (limits : Limits) (witness : List Item) (script : List Value) : Machine :=
  { limits := some limits, witness, script, family := emptyFamily limits }

theorem sound_blank (hm : limits.stackMemory = some memory) (witness : List Item)
    (script : List Value) : (blank limits witness script).Sound limits memory where
  limits_eq := rfl
  balanced :=
    { bounds := by
        have hpos := limits.stackElements_pos
        have hcount : ((limits.stackElements : Int) - 1) = ((limits.stackElements - 1 : Nat) : Int) := by
          omega
        simp only [blank, emptyFamily, hm, Option.map_some, hcount]
        rfl
      held := rfl
      sizes := by
        intro s hs
        simp only [blank, emptyFamily, Family.members, List.mem_cons, List.not_mem_nil,
          or_false] at hs
        rcases hs with rfl | rfl <;> rfl
      count_le := Nat.zero_le _
      bytes_le := Nat.zero_le _ }
  alt := by simp [blank, emptyFamily]

/-- What comes of a witness whose values are items already, and of a script. -/
def launch (limits : Limits) (memory : Nat) (items : List Item) (ops : List Value) :
    Except Fault Machine :=
  if limits.stackElements ≤ items.length then
    .error (.refused (.tooManyItems (limits.stackElements - 1) items.length))
  else if memory < Item.total items then
    .error (.refused (.tooManyBytes memory (Item.total items)))
  else .ok ((blank limits items ops).arrange items.reverse [])

theorem sound_arrange_blank (hm : limits.stackMemory = some memory) {witness : List Item}
    {script : List Value} {main alt : List Item}
    (hc : main.length + alt.length < limits.stackElements)
    (hb : Item.total main + Item.total alt ≤ memory) :
    ((blank limits witness script).arrange main alt).Sound limits memory := by
  have hcount : (blank limits witness script).family.itemCount = 0 := rfl
  have hbytes : (blank limits witness script).family.itemBytes = 0 := rfl
  exact sound_arrange (sound_blank hm witness script) (by omega) (by omega)

/-- The witness is refused for the number of its items, or else for their bytes, or it goes on the
main stack as a whole. -/
theorem pushItems_blank (hm : limits.stackMemory = some memory) (items : List Item)
    (ops : List Value) :
    onFamily (Family.pushItems mainMember items) (blank limits items ops) =
      match launch limits memory items ops with
      | .ok m => .ok () m
      | .error e => .error e (blank limits items ops) := by
  have hsound := sound_blank hm items ops
  have hpush := Family.pushItems_truthful hsound.balanced.truthful (member_main _) items
  rw [Family.reserve_balanced hsound.balanced] at hpush
  have hcount : (blank limits items ops).family.itemCount = 0 := rfl
  have hbytes : (blank limits items ops).family.itemBytes = 0 := rfl
  have hpos := limits.stackElements_pos
  unfold launch
  by_cases hc : limits.stackElements ≤ items.length
  · have hlimit : ((limits.stackElements - 1 : Nat) : Int) = (limits.stackElements : Int) - 1 := by
      omega
    rw [if_pos (by omega), hlimit] at hpush
    rw [if_pos hc]
    exact Action.focus_apply_error hpush
  · rw [if_neg (by omega)] at hpush
    rw [if_neg hc]
    by_cases hb : memory < Item.total items
    · rw [if_pos (by omega)] at hpush
      rw [if_pos hb]
      exact Action.focus_apply_error hpush
    · rw [if_neg (by omega)] at hpush
      rw [if_neg hb]
      have hempty : items.reverse ++ (blank limits items ops).mainStack.items = items.reverse :=
        List.append_nil _
      rw [hempty] at hpush
      refine (onFamily_ok hpush).trans ?_
      rw [← arrange_main hsound]
      rfl

theorem launch_ok {items : List Item} {ops : List Value} {m : Machine}
    (h : launch limits memory items ops = .ok m) :
    items.length < limits.stackElements ∧ Item.total items ≤ memory ∧
      m = (blank limits items ops).arrange items.reverse [] := by
  unfold launch at h
  split at h
  · cases h
  · split at h
    · cases h
    · rename_i hc hb
      exact ⟨Nat.not_le.mp hc, Nat.not_lt.mp hb, (Except.ok.inj h).symm⟩

theorem sound_of_launch (hm : limits.stackMemory = some memory) {items : List Item}
    {ops : List Value} {m : Machine} (h : launch limits memory items ops = .ok m) :
    m.Sound limits memory := by
  obtain ⟨hc, hb, rfl⟩ := launch_ok h
  exact sound_arrange_blank hm (by simpa using hc) (by simpa using hb)

/-- The end of a start: the witness is put on the main stack of a blank machine, and the room is
checked. -/
def seeded (limits : Limits) (items : List Item) (ops : List Value) : Except Fault Machine :=
  match (onFamily (Family.pushItems mainMember items) >>= fun _ => requireRoom)
      (blank limits items ops) with
  | .ok () m => .ok m
  | .error e _ => .error e

/-- All values of the witness are made items before the script is looked at, and both before
anything is put on a stack. -/
theorem start_seeded (limits : Limits) (witness script : Value) :
    start limits witness script =
      (do
        let items ← (← witness.elements).mapM limits.accept
        let ops ← script.elements
        seeded limits items ops) := by
  unfold start
  cases witness.elements with
  | error e => rfl
  | ok vs =>
    simp only [bind, Except.bind]
    cases vs.mapM limits.accept with
    | error e => rfl
    | ok items =>
      cases script.elements with
      | error e => rfl
      | ok ops => rfl

/-- The room check at the end of a start never fails. -/
theorem seeded_eq_launch (hm : limits.stackMemory = some memory) (items : List Item)
    (ops : List Value) : seeded limits items ops = launch limits memory items ops := by
  have hpush := pushItems_blank hm items ops
  unfold seeded
  cases hlaunch : launch limits memory items ops with
  | error e =>
    rw [hlaunch] at hpush
    rw [Action.bind_apply_error hpush]
  | ok m =>
    rw [hlaunch] at hpush
    rw [Action.bind_apply_ok hpush, requireRoom_sound (sound_of_launch hm hlaunch)]

theorem start_eq_launch {itemSize : Nat} {witness : Value} {vs : List Value}
    (hi : limits.itemSize = some itemSize) (hm : limits.stackMemory = some memory)
    (hw : witness.elements = .ok vs) (script : Value) :
    start limits witness script =
      match vs.findSome? (Value.flaw? itemSize), script.elements? with
      | some flaw, _ => .error flaw
      | none, none => .error .mismatch
      | none, some ops => launch limits memory (vs.map Value.heldItem) ops := by
  rw [start_seeded, hw]
  change (vs.mapM limits.accept >>= fun items => script.elements >>= fun ops =>
    seeded limits items ops) = _
  rw [Limits.mapM_accept_eq hi, Value.elements]
  cases vs.findSome? (Value.flaw? itemSize) with
  | some flaw => rfl
  | none =>
    cases script.elements? with
    | none => rfl
    | some ops => exact seeded_eq_launch hm _ ops

/-- Without a number for the memory no witness fits, not even an empty one. -/
theorem memory_of_seeded {items : List Item} {ops : List Value} {m : Machine}
    (h : seeded limits items ops = .ok m) : ∃ memory, limits.stackMemory = some memory := by
  cases hm : limits.stackMemory with
  | some memory => exact ⟨memory, rfl⟩
  | none =>
    have hroot : (emptyFamily limits).members[mainMember]? = some (emptyFamily limits).root := rfl
    have hheld : (emptyFamily limits).held = ⟨some 0, some 0⟩ := rfl
    cases hreserve : (emptyFamily limits).reserve items.length (Item.total items) with
    | ok u =>
      obtain ⟨-, most, hbytes, -⟩ := (Family.reserve_eq_ok_iff hheld).mp hreserve
      simp [emptyFamily, hm] at hbytes
    | error e =>
      have hpush : Family.pushItems mainMember items (emptyFamily limits) =
          .error e (emptyFamily limits) := by
        simp only [Family.pushItems_apply, hroot, hreserve]
      have hfocus : onFamily (Family.pushItems mainMember items) (blank limits items ops) =
          .error e (blank limits items ops) := Action.focus_apply_error hpush
      unfold seeded at h
      rw [Action.bind_apply_error hfocus] at h
      cases h

/-- A machine that started was launched with the values of its witness as items. -/
theorem start_ok {witness script : Value} {m : Machine} (h : start limits witness script = .ok m) :
    ∃ vs items ops memory, witness.elements = .ok vs ∧ vs.mapM limits.accept = .ok items ∧
      script.elements = .ok ops ∧ limits.stackMemory = some memory ∧
      launch limits memory items ops = .ok m := by
  rw [start_seeded] at h
  cases hvs : witness.elements with
  | error e =>
    rw [hvs] at h
    cases h
  | ok vs =>
    cases hitems : vs.mapM limits.accept with
    | error e =>
      simp only [hvs, hitems, bind, Except.bind] at h
      cases h
    | ok items =>
      cases hops : script.elements with
      | error e =>
        simp only [hvs, hitems, hops, bind, Except.bind] at h
        cases h
      | ok ops =>
        simp only [hvs, hitems, hops, bind, Except.bind] at h
        obtain ⟨memory, hm⟩ := memory_of_seeded h
        exact ⟨vs, items, ops, memory, rfl, hitems, rfl, hm, seeded_eq_launch hm items ops ▸ h⟩

end Tapscript.Machine
