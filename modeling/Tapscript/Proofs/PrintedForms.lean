import Tapscript.Proofs.Batches

/-!
# Printed forms are unambiguous

The printed form of a stack tells its items, whatever bytes they hold: marks, backslashes, or text that looks
like the end of an item and the start of the next one. A quotation is read back byte by byte up to its closing
mark (`Text.Quoted.read?`), since inside it the mark follows a backslash. So a quotation ends where its own
text says, and with it an item, and with the items the list of them.

* `read?_escape`, `read?_content`: one byte of a quotation, and all of them, are read back.
* `selfDelimiting_ofBytes`, `SelfDelimiting.between`, `SelfDelimiting.listed`: forms that can be told from the
  text behind them, and how they are put together.
* `stack_form_tells_items`: stacks and items, and the commands that print and compare them.
-/

namespace Tapscript

namespace Text.Quoted

/-! ## Reading a quotation back -/

/-- The byte that a character stands for. -/
def byteOf (c : Char) : UInt8 := UInt8.ofNat c.toNat

/-- The byte that a character stands for behind a backslash. -/
def escapedByte (c : Char) : UInt8 :=
  if c = 't' then 0x09 else if c = 'n' then 0x0a else if c = 'r' then 0x0d else byteOf c

/-- A reading of bytes and of the text behind them, with one byte more in front. -/
def ahead (b : UInt8) (reading : Option (List UInt8 × List Char)) : Option (List UInt8 × List Char) :=
  reading.map fun (bs, rest) => (b :: bs, rest)

/-- Where a reader stands in a quotation: between two bytes, behind a backslash, or before one of the two
digits of a code, the second time with the value of the first digit. -/
inductive Place where
  | between
  | escape
  | high
  | low (h : Nat)

/-- Reads bytes up to the closing mark `m`, and gives the text behind the mark. -/
def read? (m : Char) : Place → List Char → Option (List UInt8 × List Char)
  | _, [] => none
  | .between, c :: text =>
    if c = m then some ([], text)
    else if c = backslash then read? m .escape text
    else ahead (byteOf c) (read? m .between text)
  | .escape, c :: text =>
    if c = 'x' then read? m .high text else ahead (escapedByte c) (read? m .between text)
  | .high, c :: text => (Hex.value? c).bind fun h => read? m (.low h) text
  | .low h, c :: text =>
    (Hex.value? c).bind fun l => ahead (UInt8.ofNat (16 * h + l)) (read? m .between text)

/-- The two marks. -/
def IsMark (m : Char) : Prop := m = apostrophe ∨ m = doubleQuote

theorem isMark_mark (content : List Char) : IsMark (mark content) := by
  unfold mark
  split
  · exact Or.inr rfl
  · exact Or.inl rfl

variable {m : Char} {text : List Char}

theorem IsMark.backslash_ne (hm : IsMark m) : backslash ≠ m := by
  rcases hm with rfl | rfl <;> decide

theorem read?_mark (m : Char) (text : List Char) :
    read? m .between (m :: text) = some ([], text) := by
  rw [read?, if_pos rfl]

theorem read?_kept {c : Char} (hm : c ≠ m) (hb : c ≠ backslash) :
    read? m .between (c :: text) = ahead (byteOf c) (read? m .between text) := by
  rw [read?, if_neg hm, if_neg hb]

theorem read?_letter {c : Char} (hm : IsMark m) (hc : c ≠ 'x') :
    read? m .between (backslash :: c :: text) = ahead (escapedByte c) (read? m .between text) := by
  rw [read?, if_neg hm.backslash_ne, if_pos rfl, read?, if_neg hc]

theorem read?_pair (hm : IsMark m) (b : UInt8) :
    read? m .between (backslash :: 'x' :: (Hex.pair b ++ text)) = ahead b (read? m .between text) := by
  have hb : b.toNat < 256 := b.toNat_lt
  have high := Hex.value?_digitChar (b.toNat / 16) (by omega)
  have low := Hex.value?_digitChar (b.toNat % 16) (by omega)
  have whole : 16 * (b.toNat / 16) + b.toNat % 16 = b.toNat := by omega
  rw [read?, if_neg hm.backslash_ne, if_pos rfl, read?, if_pos rfl, Hex.pair_eq]
  simp only [List.cons_append, List.nil_append, read?, high, low, whole, Option.bind_some,
    UInt8.ofNat_toNat]

/-! ## Bytes -/

theorem toNat_character (b : UInt8) : (Char.ofNat b.toNat).toNat = b.toNat := by
  have hb : b.toNat < 256 := b.toNat_lt
  have hvalid : b.toNat.isValidChar := Or.inl (by omega)
  rw [Char.ofNat, dif_pos hvalid]
  rfl

theorem byteOf_character (b : UInt8) : byteOf (Char.ofNat b.toNat) = b := by
  rw [byteOf, toNat_character, UInt8.ofNat_toNat]

/-- The characters that follow a backslash as they are stand for themselves there. -/
theorem read?_guarded (hm : IsMark m) {c : Char} (hc : c = backslash ∨ c = m) :
    read? m .between (backslash :: c :: text) = ahead (byteOf c) (read? m .between text) := by
  have hchar : c = backslash ∨ c = apostrophe ∨ c = doubleQuote := by
    rcases hc with hc | rfl
    · exact Or.inl hc
    · exact Or.inr hm
  have hletters : c ≠ 'x' ∧ c ≠ 't' ∧ c ≠ 'n' ∧ c ≠ 'r' := by
    rcases hchar with rfl | rfl | rfl <;> decide
  obtain ⟨hx, ht, hn, hr⟩ := hletters
  rw [read?_letter hm hx, escapedByte, if_neg ht, if_neg hn, if_neg hr]

/-- A byte is read back from what a quotation writes for it. -/
theorem read?_escape (hm : IsMark m) (b : UInt8) :
    read? m .between (escape .bytes m (Char.ofNat b.toNat) ++ text) =
      ahead b (read? m .between text) := by
  have hbyte := byteOf_character b
  have hcode := toNat_character b
  generalize Char.ofNat b.toNat = c at hbyte hcode ⊢
  -- Each way of writing a byte takes the reader along a path of its own, and back between two bytes.
  unfold escape
  split
  · rename_i hguarded
    have hc : c = backslash ∨ c = m := by simpa [Style.bytes] using hguarded
    rw [← hbyte]
    exact read?_guarded hm hc
  rename_i hplain
  split
  · rename_i htab
    rw [← hbyte, htab]
    exact read?_letter hm (by decide)
  split
  · rename_i hfeed
    rw [← hbyte, hfeed]
    exact read?_letter hm (by decide)
  split
  · rename_i hreturn
    rw [← hbyte, hreturn]
    exact read?_letter hm (by decide)
  split
  · rw [← hbyte]
    exact read?_kept (fun h => hplain (Or.inr (Or.inl h))) (fun h => hplain (Or.inl h))
  · have hlow : c.toNat < 0x100 := by
      rw [hcode]
      exact b.toNat_lt
    rw [codeEscape, if_pos hlow, hcode]
    exact read?_pair hm b

/-- A quotation is read back up to its mark, whatever text follows. -/
theorem read?_content (hm : IsMark m) (bs : List UInt8) (text : List Char) :
    read? m .between ((characters bs).flatMap (escape .bytes m) ++ m :: text) = some (bs, text) := by
  induction bs with
  | nil => exact read?_mark m text
  | cons b bs ih =>
    have hcons : (characters (b :: bs)).flatMap (escape .bytes m) ++ m :: text =
        escape .bytes m (Char.ofNat b.toNat) ++
          ((characters bs).flatMap (escape .bytes m) ++ m :: text) := by
      simp [characters]
    rw [hcons, read?_escape hm, ih]
    rfl

end Text.Quoted

/-! ## Forms that tell where they end -/

namespace Text

/-- A form can be told from whatever text follows it. -/
def SelfDelimiting {α : Type} (form : α → List Char) : Prop :=
  ∀ (a b : α) (s t : List Char), form a ++ s = form b ++ t → a = b ∧ s = t

namespace SelfDelimiting

variable {α : Type} {form : α → List Char}

theorem eq_iff (h : SelfDelimiting form) {a b : α} : form a = form b ↔ a = b := by
  constructor
  · intro hsame
    exact (h a b [] [] (by rw [hsame])).1
  · rintro rfl
    rfl

/-- A form stays one between two fixed texts. -/
theorem between (h : SelfDelimiting form) (front back : List Char) :
    SelfDelimiting fun a => front ++ form a ++ back := by
  intro a b s t hsame
  simp only [List.append_assoc, List.append_cancel_left_eq] at hsame
  obtain ⟨hab, hrest⟩ := h a b _ _ hsame
  exact ⟨hab, List.append_cancel_left hrest⟩

/-- Forms behind commas, with a closing bracket at the end, tell the values and where the bracket is. -/
theorem commas (h : SelfDelimiting form) {xs ys : List α} {s t : List Char}
    (hsame : xs.flatMap (fun x => [',', ' '] ++ form x) ++ ']' :: s =
      ys.flatMap (fun y => [',', ' '] ++ form y) ++ ']' :: t) : xs = ys ∧ s = t := by
  -- A comma or the bracket: the first character tells whether there is another form.
  induction xs generalizing ys with
  | nil =>
    cases ys with
    | nil => exact ⟨rfl, (List.cons.inj hsame).2⟩
    | cons y ys => exact absurd (List.cons.inj hsame).1 (by decide)
  | cons x xs ih =>
    cases ys with
    | nil => exact absurd (List.cons.inj hsame).1 (by decide)
    | cons y ys =>
      simp only [List.flatMap_cons, List.append_assoc, List.append_cancel_left_eq] at hsame
      obtain ⟨hxy, hrest⟩ := h x y _ _ hsame
      obtain ⟨hxs, hst⟩ := ih hrest
      exact ⟨by rw [hxy, hxs], hst⟩

end SelfDelimiting

theorem intercalate_eq_flatMap (sep part : List Char) (parts : List (List Char)) :
    sep.intercalate (part :: parts) = part ++ parts.flatMap (sep ++ ·) := by
  induction parts generalizing part with
  | nil => rw [List.intercalate_singleton, List.flatMap_nil, List.append_nil]
  | cons next parts ih =>
    rw [List.intercalate_cons_cons, ih, List.flatMap_cons, List.append_assoc, List.append_assoc]

/-- Forms with commas between them, in brackets, are told as a list if none of them starts like the end of the
list. -/
theorem SelfDelimiting.listed {α : Type} {form : α → List Char} (h : SelfDelimiting form)
    (hhead : ∀ a s t, form a ++ s ≠ ']' :: t) :
    SelfDelimiting fun xs : List α => '[' :: ([',', ' '].intercalate (xs.map form) ++ [']']) := by
  intro xs ys s t hsame
  have hrest : [',', ' '].intercalate (xs.map form) ++ ']' :: s =
      [',', ' '].intercalate (ys.map form) ++ ']' :: t := by simpa using hsame
  cases xs with
  | nil =>
    cases ys with
    | nil => exact ⟨rfl, (List.cons.inj hrest).2⟩
    | cons y ys =>
      rw [List.map_cons, intercalate_eq_flatMap, List.append_assoc] at hrest
      exact absurd hrest.symm (hhead y _ _)
  | cons x xs =>
    cases ys with
    | nil =>
      rw [List.map_cons, intercalate_eq_flatMap, List.append_assoc] at hrest
      exact absurd hrest (hhead x _ _)
    | cons y ys =>
      simp only [List.map_cons, intercalate_eq_flatMap, List.append_assoc, List.flatMap_map] at hrest
      obtain ⟨hxy, hlater⟩ := h x y _ _ hrest
      obtain ⟨hxs, hst⟩ := h.commas hlater
      exact ⟨by rw [hxy, hxs], hst⟩

/-- A quotation of bytes tells its mark, and read with this mark it tells its bytes and where it ends. -/
theorem selfDelimiting_ofBytes : SelfDelimiting Quoted.ofBytes := by
  intro bs cs s t hsame
  have hform : ∀ (ds : List UInt8) (u : List Char), Quoted.ofBytes ds ++ u =
      'b' :: Quoted.mark (Quoted.characters ds) ::
        ((Quoted.characters ds).flatMap (Quoted.escape .bytes (Quoted.mark (Quoted.characters ds))) ++
          Quoted.mark (Quoted.characters ds) :: u) := by
    intro ds u
    simp [Quoted.ofBytes, Quoted.quote, Quoted.enclose, Quoted.Style.bytes]
  rw [hform, hform] at hsame
  obtain ⟨hmark, hcontent⟩ := List.cons.inj (List.cons.inj hsame).2
  have hread := Quoted.read?_content (Quoted.isMark_mark (Quoted.characters bs)) bs s
  have hread' := Quoted.read?_content (Quoted.isMark_mark (Quoted.characters cs)) cs t
  rw [hcontent, hmark, hread'] at hread
  cases hread
  exact ⟨rfl, rfl⟩

end Text

/-! ## Items and stacks -/

theorem Item.selfDelimiting_printed : Text.SelfDelimiting printed := by
  intro x y s t hsame
  have hbytes := Text.selfDelimiting_ofBytes.between "ByteBuffer(".toList [')']
  obtain ⟨hxy, hst⟩ := hbytes x.bytes.toList y.bytes.toList s t hsame
  exact ⟨congrArg Item.mk (Array.toList_inj.mp hxy), hst⟩

theorem Item.selfDelimiting_printedList : Text.SelfDelimiting printedList := by
  apply selfDelimiting_printed.listed
  intro x s t hsame
  exact absurd (List.cons.inj hsame).1 (by decide)

theorem Stack.printed_eq_iff {s t : Stack} : s.printed = t.printed ↔ s.bottomUp = t.bottomUp :=
  (Item.selfDelimiting_printedList.between "BoundedStack(".toList [')']).eq_iff

namespace Forest

variable {w : Forest} {a b : Int} {s t : Stack}

theorem print_apply (hs : stack a w = .ok s w) :
    perform a .print w = .ok (.text (String.ofList s.printed)) w := Action.bind_apply_ok hs _

theorem equalsStack_apply (hs : stack a w = .ok s w) (ht : stack b w = .ok t w) :
    perform a (.equalsStack b) w = .ok (.equality (s.items == t.items)) w :=
  (Action.bind_apply_ok hs _).trans (Action.bind_apply_ok ht _)

/-- **Printed forms are unambiguous.** Two stacks have the same printed form exactly when they hold the same
items in the same order, and two items exactly when they have the same bytes. So two stacks of a forest, of one
family or of two, are printed alike exactly when they compare as equal. -/
theorem stack_form_tells_items :
    (∀ s t : Stack, s.printed = t.printed ↔ s.bottomUp = t.bottomUp) ∧
      (∀ x y : Item, x.printed = y.printed ↔ x.bytes = y.bytes) ∧
      ∀ (w : Forest) (a b : Int) (s t : Stack), stack a w = .ok s w → stack b w = .ok t w →
        (perform a .print w = perform b .print w ↔
          perform a (.equalsStack b) w = .ok (.equality true) w) := by
  refine ⟨?_, ?_, ?_⟩
  · intro s t
    exact Stack.printed_eq_iff
  · intro x y
    rw [Item.selfDelimiting_printed.eq_iff, Item.mk.injEq]
  · intro w a b s t hs ht
    rw [print_apply hs, print_apply ht, equalsStack_apply hs ht]
    simp [String.ofList_inj, Stack.printed_eq_iff, Stack.bottomUp]

/-- Two stacks of two families: one holds two items, the other one item whose bytes look like the end of the
first of them and the start of the second. The double quotes around these bytes tell the two apart. -/
theorem forged_boundary_shows :
    let two : Stack := { bounds := {}, size := some 2, items := [⟨#[0x62]⟩, ⟨#[0x61]⟩] }
    let forged : Item :=
      ⟨#[0x61, 0x27, 0x29, 0x2c, 0x20, 0x42, 0x79, 0x74, 0x65, 0x42, 0x75, 0x66, 0x66, 0x65, 0x72, 0x28,
        0x62, 0x27, 0x62]⟩
    let one : Stack := { bounds := {}, size := some 19, items := [forged] }
    let w : Forest :=
      ⟨[{ root := two, held := ⟨some 2, some 2⟩ }, { root := one, held := ⟨some 1, some 19⟩ }],
        [⟨0, 0⟩, ⟨1, 0⟩]⟩
    stack 0 w = .ok two w ∧ stack 1 w = .ok one w ∧
      two.printed = "BoundedStack([ByteBuffer(b'a'), ByteBuffer(b'b')])".toList ∧
      one.printed = "BoundedStack([ByteBuffer(b\"a'), ByteBuffer(b'b\")])".toList ∧
      perform 0 .print w ≠ perform 1 .print w := by
  intro two forged one w
  have htwo : stack 0 w = .ok two w := rfl
  have hone : stack 1 w = .ok one w := rfl
  obtain ⟨-, -, hcommands⟩ := stack_form_tells_items
  refine ⟨htwo, hone, by decide, by decide, ?_⟩
  intro hsame
  have hequal : perform 0 (.equalsStack 1) w = .ok (.equality false) w := rfl
  rw [(hcommands w 0 1 two one htwo hone).mp hsame] at hequal
  cases hequal

end Forest

end Tapscript
