import Tapscript.Proofs.Conservation

/-!
# Admissible starts

A machine starts with what a caller hands in as a witness and as a script. Several checks stand in the way:
each value of the witness must hold bytes, and not too many of them, the script must be something that can be
walked through, and the main stack must have room for the items and for their bytes. The first check that
fails, in this order, decides the fault. The room check at the end of a start never does.

* `Refusal.Reads`: the kind and the message under which a refusal is reported.
* `first_flaw`: the value that decides, with what stands before it, and what is reported of it.
* `checks_of_start`: what is known of a machine that started.
* `start_reports_first_failure`: all checks in their order, and that the room check is none of them.
-/

namespace Tapscript

open Text (grouped)

/-! ## What is reported -/

/-- A refusal is reported under a kind, with a message. -/
def Refusal.Reads (r : Refusal) (kind : ErrorKind) (text : String) : Prop :=
  r.kind = kind ∧ r.message = text

theorem Refusal.reads_itemTooLong (size limit : Int) :
    (itemTooLong size limit).Reads .oversize
      ("item length " ++ grouped size ++ " exceeds the limit of " ++ grouped limit ++ " bytes") :=
  ⟨rfl, rfl⟩

theorem Refusal.reads_tooManyItems (limit adding : Int) :
    (tooManyItems limit adding).Reads .stackOverflow
      ("stack element limit of " ++ grouped limit ++ " exceeded adding " ++ grouped adding ++
        " item(s)") := ⟨rfl, rfl⟩

theorem Refusal.reads_tooManyBytes (limit adding : Int) :
    (tooManyBytes limit adding).Reads .stackOverflow
      ("stack memory limit of " ++ grouped limit ++ " bytes exceeded adding " ++ grouped adding ++
        " bytes") := ⟨rfl, rfl⟩

/-- A flaw says that a value holds no bytes, or how many too many. -/
theorem Value.flaw?_reads {most : Nat} {v : Value} {e : Fault} (h : v.flaw? most = some e) :
    (v.content? = none ∧ e = .mismatch) ∨
      ∃ content r, v.content? = some content ∧ most < content.size ∧ e = .refused r ∧
        r.Reads .oversize ("item length " ++ grouped content.size ++ " exceeds the limit of " ++
          grouped most ++ " bytes") := by
  unfold flaw? at h
  split at h
  · rename_i hv
    exact Or.inl ⟨hv, (Option.some.inj h).symm⟩
  · rename_i content hv
    split at h
    · rename_i hlong
      exact Or.inr ⟨content, _, hv, hlong, (Option.some.inj h).symm, Refusal.reads_itemTooLong _ _⟩
    · cases h

/-- The first flaw is that of a value behind values that are all admitted. -/
theorem Value.first_flaw {most : Nat} {vs : List Value} {e : Fault}
    (h : vs.findSome? (Value.flaw? most) = some e) :
    ∃ before v after, vs = before ++ v :: after ∧
      (∀ u ∈ before, ∃ content, u.content? = some content ∧ content.size ≤ most) ∧
      ((v.content? = none ∧ e = .mismatch) ∨
        ∃ content r, v.content? = some content ∧ most < content.size ∧ e = .refused r ∧
          r.Reads .oversize ("item length " ++ grouped content.size ++ " exceeds the limit of " ++
            grouped most ++ " bytes")) := by
  obtain ⟨before, v, after, hvs, hv, hbefore⟩ := List.findSome?_eq_some_iff.mp h
  refine ⟨before, v, after, hvs, ?_, Value.flaw?_reads hv⟩
  intro u hu
  obtain ⟨hcontent, hsize⟩ := Value.content?_eq_of_flaw? (hbefore u hu)
  exact ⟨_, hcontent, hsize⟩

namespace Machine

variable {rules : Rules} {witness script : Value} {vs : List Value} {m : Machine}

/-! ## Starts -/

/-- The items of a machine that started are those its witness holds, and all checks pass on it. -/
theorem checks_of_start (hw : witness.elements = .ok vs)
    (h : start rules.limits witness script = .ok m) :
    (m.mainStack.bottomUp.map fun x => some x.bytes) = vs.map Value.content? ∧
      m.altStack.bottomUp = [] ∧ m.opCount = 0 ∧
      m.family.held =
        ⟨some (vs.length : Int), some (Item.total (vs.map Value.heldItem) : Int)⟩ ∧
      m.audit = .ok () ∧ requireRoom m = .ok () m := by
  obtain ⟨rules', hlimits, -, hfits, hm, vs', hvs', hcontents⟩ := Plain.eq_machine_of_start rfl h
  obtain rfl : vs = vs' := Except.ok.inj (hw.symm.trans hvs')
  generalize m.witness = items at hfits hm hcontents
  generalize m.script = ops at hm
  subst hm
  have hitems : vs.map Value.heldItem = items := Value.map_heldItem hcontents
  have hlength : vs.length = items.length := by rw [← hitems, List.length_map]
  have hsound := Plain.sound_machine hfits items ops 0
  have hsizes := Plain.sizeCheck_machine hfits items ops 0
  rw [hlimits] at hsound hsizes
  refine ⟨?_, Plain.alt_machine .., rfl, ?_, (audit_sound hsound).trans hsizes,
    requireRoom_sound hsound⟩
  · rw [Plain.main_machine, hcontents]
  · rw [Plain.held_machine, Plain.zipper, hitems, hlength, List.reverse_nil, List.append_nil]

/-- **Admissible starts.** Take rules with a number for every limit on the stacks, a witness that yields any
values, and any script. The first value of the witness that holds no bytes or too many of them decides the
fault, and only then a script that cannot be walked through, too many items, and too many bytes, one after
another. An item that is too long is reported as oversize, with its length; too many items and too many bytes
are reported as an overflow, the one with the element limit and the other with the memory limit. A machine
starts in all other cases. It holds the bytes of the witness in their order on the main stack and nothing on
the alt stack, has counted no operation, its totals are those of the witness, and its own checks pass. No
start is refused by the room check. -/
theorem start_reports_first_failure (rules : Rules) {witness : Value} {vs : List Value}
    (hw : witness.elements = .ok vs) (script : Value) :
    let items := vs.map Value.heldItem
    (start rules.limits witness script =
      match vs.findSome? (Value.flaw? rules.itemSize), script.elements? with
      | some flaw, _ => .error flaw
      | none, none => .error .mismatch
      | none, some ops =>
        if rules.stackElements ≤ vs.length then
          .error (.refused (.tooManyItems (rules.stackElements - 1) vs.length))
        else if rules.stackMemory < Item.total items then
          .error (.refused (.tooManyBytes rules.stackMemory (Item.total items)))
        else .ok (Plain.machine rules.limits items ops ⟨items, []⟩ 0)) ∧
      (∀ flaw, vs.findSome? (Value.flaw? rules.itemSize) = some flaw →
        ∃ before v after, vs = before ++ v :: after ∧
          (∀ u ∈ before, ∃ content, u.content? = some content ∧ content.size ≤ rules.itemSize) ∧
          ((v.content? = none ∧ flaw = .mismatch) ∨
            ∃ content r, v.content? = some content ∧ rules.itemSize < content.size ∧
              flaw = .refused r ∧
              r.Reads .oversize ("item length " ++ grouped content.size ++
                " exceeds the limit of " ++ grouped rules.itemSize ++ " bytes"))) ∧
      (Refusal.tooManyItems (rules.stackElements - 1) vs.length).Reads .stackOverflow
        ("stack element limit of " ++ grouped (rules.stackElements - 1) ++ " exceeded adding " ++
          grouped vs.length ++ " item(s)") ∧
      (Refusal.tooManyBytes rules.stackMemory (Item.total items)).Reads .stackOverflow
        ("stack memory limit of " ++ grouped rules.stackMemory ++ " bytes exceeded adding " ++
          grouped (Item.total items) ++ " bytes") ∧
      (∀ m, start rules.limits witness script = .ok m →
        (m.mainStack.bottomUp.map fun x => some x.bytes) = vs.map Value.content? ∧
        m.altStack.bottomUp = [] ∧ m.opCount = 0 ∧
        m.family.held = ⟨some (vs.length : Int), some (Item.total items : Int)⟩ ∧
        m.audit = .ok () ∧ requireRoom m = .ok () m) ∧
      ∀ held most, start rules.limits witness script ≠ .error (.refused (.tooDeep held most)) := by
  intro items
  have hlength : items.length = vs.length := List.length_map _
  have hstart := start_eq_launch rules.itemSize_limits rules.stackMemory_limits hw script
  simp only [Plain.launch_eq_machine, ← show items = vs.map Value.heldItem from rfl, hlength] at hstart
  refine ⟨hstart, fun flaw hflaw => Value.first_flaw hflaw, Refusal.reads_tooManyItems _ _,
    Refusal.reads_tooManyBytes _ _, fun m hm => checks_of_start hw hm, ?_⟩
  intro held most hdeep
  rw [hstart] at hdeep
  split at hdeep
  · rename_i flaw hflaw
    obtain ⟨v, -, hv⟩ := List.exists_of_findSome?_eq_some hflaw
    rcases Value.flaw?_eq_some hv with rfl | ⟨size, rfl⟩
    · cases hdeep
    · cases hdeep
  · cases hdeep
  · split at hdeep
    · cases hdeep
    · split at hdeep
      · cases hdeep
      · cases hdeep

/-- Five values of five kinds are eight bytes, two words among them four. With three words more, which are too
many bytes for an item, a text behind them and nothing as a script, the words decide. With one item more there
are too many items, and too many bytes too, and the items decide. -/
theorem start_of_mixed_witness :
    let rules : Rules := ⟨4, 6, 9, none, by decide⟩
    let vs : List Value :=
      [.bytes #[1], .item ⟨#[2, 3]⟩, .growable #[], .borrowed #[9], .words .two [0x0102, 5]]
    (∃ m, start rules.limits (.list vs) (.tuple [.int 0x7e]) = .ok m ∧
        m.mainStack.bottomUp = [⟨#[1]⟩, ⟨#[2, 3]⟩, ⟨#[]⟩, ⟨#[9]⟩, ⟨#[2, 1, 5, 0]⟩] ∧
        m.family.held = ⟨some 5, some 8⟩ ∧ m.audit = .ok ()) ∧
      start rules.limits (.list (vs ++ [.words .two [1, 2, 3], .text "00"])) .nothing =
        .error (.refused (.itemTooLong 6 4)) ∧
      start rules.limits (.tuple (vs ++ [.bytes #[7, 8, 9]])) (.list []) =
        .error (.refused (.tooManyItems 5 6)) ∧
      (Refusal.tooManyItems 5 6).Reads .stackOverflow
        "stack element limit of 5 exceeded adding 6 item(s)" := by
  intro rules vs
  have hlist : ∀ us : List Value, (Value.list us).elements = .ok us := fun _ => rfl
  have htuple : ∀ us : List Value, (Value.tuple us).elements = .ok us := fun _ => rfl
  obtain ⟨hfits, -, -, -, hchecks, -⟩ :=
    start_reports_first_failure rules (hlist vs) (.tuple [.int 0x7e])
  obtain ⟨-, -, -, hheld, haudit, -⟩ := hchecks _ hfits
  obtain ⟨hlong, -⟩ := start_reports_first_failure rules
    (hlist (vs ++ [.words .two [1, 2, 3], .text "00"])) .nothing
  obtain ⟨hmany, -, hreads, -⟩ :=
    start_reports_first_failure rules (htuple (vs ++ [.bytes #[7, 8, 9]])) (.list [])
  exact ⟨⟨_, hfits, rfl, hheld, haudit⟩, hlong, hmany, hreads.1,
    hreads.2.trans (by decide +kernel)⟩

end Machine

end Tapscript
