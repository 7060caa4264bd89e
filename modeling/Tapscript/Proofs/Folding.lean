import Mathlib.Data.List.DropRight
import Tapscript.Proofs.Stops

/-!
# Repeated concatenation

Concatenation works on the last two items of the main stack, so doing it again and again joins the last
items from the right. With the help of the alt stack they can be joined from the left instead. The
intermediate items differ, but in both orders they are parts of the whole: both go through exactly when
the whole is not longer than the item size, and leave the same stacks.

* `halts_cats`: concatenations one after the other that do not go through, beside `leads_cats`.
* `leads_leftFold`, `halts_leftFold`: the same items joined from the left.
* `cats_fold_top`: both on a machine after any steps.
-/

namespace Tapscript

/-- Joins the last `k + 1` items of the main stack from the left: all but the first two of them wait on the
alt stack. -/
def Opcode.leftFold (k : Nat) : List Opcode :=
  List.replicate (k - 1) .toAlt ++ .cat :: (List.replicate (k - 1) [.fromAlt, .cat]).flatten

namespace Item

theorem joined_cons_cons (x y : Item) (rest : List Item) :
    joined ((x ++ y) :: rest) = joined (x :: y :: rest) := by
  apply eq_of_bytes
  simp [bytes_joined, bytes_append]

theorem total_rtake_le {n k : Nat} (h : n ≤ k) (xs : List Item) :
    total (xs.rtake n) ≤ total (xs.rtake k) := by
  have hdrop : xs.rtake n = (xs.rtake k).drop (xs.length - n - (xs.length - k)) := by
    rw [List.rtake, List.rtake, List.drop_drop]
    congr 1
    omega
  have htotal := congrArg total (List.take_append_drop (xs.length - n - (xs.length - k)) (xs.rtake k))
  rw [← hdrop, total_append] at htotal
  omega

/-- Items that are not too long each, and are too long together, have a longest final part that is not too
long. -/
theorem exists_overlong {size : Nat} {xs : List Item} (hitems : ∀ x ∈ xs, x.size ≤ size)
    (hlong : size < total xs) :
    ∃ below x upper, xs = below ++ x :: upper ∧ upper ≠ [] ∧ total upper ≤ size ∧
      size < x.size + total upper := by
  induction xs with
  | nil => simp at hlong
  | cons x rest ih =>
    rw [List.forall_mem_cons] at hitems
    -- Either `x` is the item too many, or there is one further up.
    by_cases hrest : total rest ≤ size
    · refine ⟨[], x, rest, rfl, ?_, hrest, hlong⟩
      rintro rfl
      rw [total_cons, total_nil] at hlong
      omega
    · obtain ⟨below, y, upper, rfl, hne, hupper, hy⟩ := ih hitems.2 (Nat.lt_of_not_le hrest)
      exact ⟨x :: below, y, upper, rfl, hne, hupper, hy⟩

end Item

namespace Plain

variable {rules : Rules} {low alt : List Item} {x y : Item} {rest : List Item}

theorem exec_cat_long {itemSize : Nat} (hlong : itemSize < x.size + y.size) (low alt : List Item) :
    exec itemSize Opcode.cat.code ⟨low ++ [x] ++ [y], alt⟩ =
      .error (.joinTooLong (x.size + y.size) itemSize) := by
  simp [exec, Opcode.code, cat, Nat.not_le.mpr hlong]

/-! ## From the right -/

/-- The concatenation that would join one item too many is refused, and the items above are joined. -/
theorem halts_cats (hbudget : rules.opBudget = none) {upper : List Item} (hne : upper ≠ [])
    (hupper : Item.total upper ≤ rules.itemSize) (hlong : rules.itemSize < x.size + Item.total upper)
    (below low alt : List Item) :
    ∃ r, r.kind = .oversize ∧
      Halts rules (List.replicate (below.length + upper.length) .cat) (upper.length - 1) r
        ⟨low ++ (below ++ x :: upper), alt⟩ ⟨low ++ below ++ [x] ++ [Item.joined upper], alt⟩ := by
  have hpos : 0 < upper.length := List.length_pos_iff.mpr hne
  have hleads := leads_cats hbudget hne hupper (low ++ below ++ [x]) alt
  have hjoined : rules.itemSize < x.size + (Item.joined upper).size := by rwa [Item.size_joined]
  have hhalts := hleads.halts (exec_cat_long hjoined (low ++ below) alt)
    (List.replicate below.length .cat)
  have hscript : List.replicate (upper.length - 1) Opcode.cat ++
      .cat :: List.replicate below.length .cat =
        List.replicate (below.length + upper.length) .cat := by
    rw [← List.replicate_succ, List.replicate_append_replicate]
    congr 1
    omega
  rw [hscript, List.length_replicate] at hhalts
  simp only [List.append_assoc, List.singleton_append] at hhalts ⊢
  exact ⟨_, rfl, hhalts⟩

/-! ## From the left -/

theorem leads_sending (hbudget : rules.opBudget = none) (xs main alt : List Item) :
    Leads rules (List.replicate xs.length .toAlt) ⟨main ++ xs, alt⟩ ⟨main, alt ++ xs.reverse⟩ := by
  induction xs generalizing main with
  | nil =>
    simp only [List.append_nil, List.reverse_nil, List.length_nil]
    exact leads_nil rules _
  | cons x xs ih =>
    have hlater := ih (main ++ [x])
    have hlast := leads_toAlt hbudget main (alt ++ xs.reverse) x
    rw [List.append_assoc, List.singleton_append] at hlater
    rw [List.length_cons, List.replicate_succ', List.reverse_cons, ← List.append_assoc alt]
    exact hlater.append hlast

theorem leads_absorbing (hbudget : rules.opBudget = none)
    (hsize : x.size + Item.total rest ≤ rules.itemSize) (main alt : List Item) :
    Leads rules (List.replicate rest.length [.fromAlt, .cat]).flatten
      ⟨main ++ [x], alt ++ rest.reverse⟩ ⟨main ++ [Item.joined (x :: rest)], alt⟩ := by
  induction rest generalizing x with
  | nil =>
    rw [Item.joined_singleton, List.reverse_nil, List.append_nil]
    exact leads_nil rules _
  | cons y rest ih =>
    rw [Item.total_cons] at hsize
    -- The items went to the alt stack from the last to the first, so `y` is on top of it.
    have hfetch := leads_fromAlt hbudget (main ++ [x]) (alt ++ rest.reverse) y
    have hxy : x.size + y.size ≤ rules.itemSize := by omega
    have hjoin := leads_cat hbudget main (alt ++ rest.reverse) hxy
    have hlater := ih (x := x ++ y) (by rw [Item.size_append]; omega)
    rw [Item.joined_cons_cons] at hlater
    rw [List.length_cons, List.replicate_succ, List.flatten_cons, List.reverse_cons,
      ← List.append_assoc alt]
    exact (hfetch.append hjoin).append hlater

theorem halts_absorbing (hbudget : rules.opBudget = none) (hx : x.size ≤ rules.itemSize)
    (hlong : rules.itemSize < x.size + Item.total rest) (main alt : List Item) :
    ∃ n r q, Halts rules (List.replicate rest.length [.fromAlt, .cat]).flatten n r
      ⟨main ++ [x], alt ++ rest.reverse⟩ q := by
  induction rest generalizing x with
  | nil =>
    rw [Item.total_nil] at hlong
    omega
  | cons y rest ih =>
    rw [Item.total_cons] at hlong
    have hfetch := leads_fromAlt hbudget (main ++ [x]) (alt ++ rest.reverse) y
    rw [List.length_cons, List.replicate_succ, List.flatten_cons, List.reverse_cons,
      ← List.append_assoc alt]
    by_cases hxy : x.size + y.size ≤ rules.itemSize
    · have hjoin := leads_cat hbudget main (alt ++ rest.reverse) hxy
      obtain ⟨n, r, q, hlater⟩ := ih (x := x ++ y) (by rwa [Item.size_append])
        (by rw [Item.size_append]; omega)
      exact ⟨_, r, q, (hfetch.append hjoin).append_halts hlater⟩
    · have hrefused := exec_cat_long (Nat.lt_of_not_le hxy) main (alt ++ rest.reverse)
      exact ⟨_, _, _, hfetch.halts hrefused _⟩

theorem leads_leftFold (hbudget : rules.opBudget = none)
    (hsize : Item.total (x :: y :: rest) ≤ rules.itemSize) (low alt : List Item) :
    Leads rules (Opcode.leftFold (rest.length + 1)) ⟨low ++ x :: y :: rest, alt⟩
      ⟨low ++ [Item.joined (x :: y :: rest)], alt⟩ := by
  rw [Item.total_cons, Item.total_cons] at hsize
  have hxy : x.size + y.size ≤ rules.itemSize := by omega
  have hrest : (x ++ y).size + Item.total rest ≤ rules.itemSize := by
    rw [Item.size_append]
    omega
  have hsend := leads_sending hbudget rest (low ++ [x] ++ [y]) alt
  have hjoin := leads_cat hbudget low (alt ++ rest.reverse) hxy
  have hlater := leads_absorbing hbudget hrest low alt
  rw [Item.joined_cons_cons] at hlater
  have hscript := hsend.append (hjoin.append hlater)
  simp only [List.append_assoc, List.cons_append, List.nil_append] at hscript
  exact hscript

theorem halts_leftFold (hbudget : rules.opBudget = none)
    (hlong : rules.itemSize < Item.total (x :: y :: rest)) (low alt : List Item) :
    ∃ n r q, Halts rules (Opcode.leftFold (rest.length + 1)) n r ⟨low ++ x :: y :: rest, alt⟩ q := by
  rw [Item.total_cons, Item.total_cons] at hlong
  have hsend := leads_sending hbudget rest (low ++ [x] ++ [y]) alt
  by_cases hxy : x.size + y.size ≤ rules.itemSize
  · have hjoined : (x ++ y).size ≤ rules.itemSize := by rwa [Item.size_append]
    have hrest : rules.itemSize < (x ++ y).size + Item.total rest := by
      rw [Item.size_append]
      omega
    have hjoin := leads_cat hbudget low (alt ++ rest.reverse) hxy
    obtain ⟨n, r, q, hlater⟩ := halts_absorbing hbudget hjoined hrest low alt
    have hscript := hsend.append_halts (hjoin.append_halts hlater)
    simp only [List.append_assoc, List.cons_append, List.nil_append] at hscript
    exact ⟨_, r, q, hscript⟩
  · have hscript := hsend.halts (exec_cat_long (Nat.lt_of_not_le hxy) low (alt ++ rest.reverse))
      (List.replicate rest.length [.fromAlt, .cat]).flatten
    simp only [List.append_assoc, List.cons_append, List.nil_append] at hscript
    exact ⟨_, _, _, hscript⟩

/-! ## Machines -/

theorem stopsAt_cats {xs : List Item} (hp : Fits rules ⟨low ++ xs, alt⟩)
    (hbudget : rules.opBudget = none) {k : Nat} (hlength : xs.length = k + 1)
    (hlong : rules.itemSize < Item.total xs) (witness : List Item) (script : List Value) (i : Int) :
    ∃ j r, 1 ≤ j ∧ j ≤ k ∧ rules.itemSize < Item.total (xs.rtake (j + 1)) ∧
      (∀ n, n < j → Item.total (xs.rtake (n + 1)) ≤ rules.itemSize) ∧ r.kind = .oversize ∧
      (machine rules.limits witness script ⟨low ++ xs, alt⟩ i).StopsAt
        (Opcode.elements (List.replicate k .cat)) (j - 1) (.refused r)
        (machine rules.limits witness script ⟨low ++ xs.rdrop j ++ [Item.joined (xs.rtake j)], alt⟩
          (j - 1 + 1 : Nat)) := by
  have hitems : ∀ x ∈ xs, x.size ≤ rules.itemSize := by
    intro x hx
    exact hp.items x (by simp [zipper, hx])
  obtain ⟨below, x, upper, rfl, hne, hupper, hx⟩ := Item.exists_overlong hitems hlong
  obtain ⟨r, hkind, hhalts⟩ := halts_cats hbudget hne hupper hx below low alt
  have hk : below.length + upper.length = k := by
    simp only [List.length_append, List.length_cons] at hlength
    omega
  have hbelow : (below ++ x :: upper).length - upper.length = (below ++ [x]).length := by
    simp only [List.length_append, List.length_cons, List.length_nil]
    omega
  have hrtake : (below ++ x :: upper).rtake upper.length = upper := by
    rw [List.rtake, hbelow, List.append_cons below x upper, List.drop_left]
  have hrtake' : (below ++ x :: upper).rtake (upper.length + 1) = x :: upper := by
    simp [List.rtake]
  have hrdrop : (below ++ x :: upper).rdrop upper.length = below ++ [x] := by
    rw [List.rdrop, hbelow, List.append_cons below x upper, List.take_left]
  refine ⟨upper.length, r, List.length_pos_iff.mpr hne, by omega, ?_, ?_, hkind, ?_⟩
  · rw [hrtake', Item.total_cons]
    exact hx
  · intro n hn
    have hle := Item.total_rtake_le (show n + 1 ≤ upper.length by omega) (below ++ x :: upper)
    rw [hrtake] at hle
    omega
  · rw [hrtake, hrdrop, ← hk, ← List.append_assoc low below [x]]
    exact stopsAt_of_halts hp hbudget hhalts witness script i

end Plain

namespace Machine

/-- **Repeated concatenation.** Take a machine that started with an item size and without an op budget,
after any steps, with at least two items `xs` on top of the main stack. As many concatenations as join them
all go through exactly when they are not longer than the item size together, and leave them joined in their
place. Otherwise the first concatenation that would make an item too long is refused, with the items above
joined and those below as they were. Joined from the left with the help of the alt stack, the same items
are accepted and the same stacks are left. -/
theorem cats_fold_top {limits : Limits} {itemSize : Nat} {witness script : Value} {m₀ : Machine}
    (hi : limits.itemSize = some itemSize) (hbudget : limits.opBudget = none)
    (h : start limits witness script = .ok m₀) (before : List Int) {low xs : List Item} {k : Nat}
    (hk : 1 ≤ k) (hlength : xs.length = k + 1)
    (hmain : (m₀.attempt before).mainStack.bottomUp = low ++ xs) :
    let m := m₀.attempt before
    let right := Opcode.elements (List.replicate k .cat)
    let left := Opcode.elements (Opcode.leftFold k)
    ((∃ m', runValue (.list right) m = .ok () m') ↔ Item.total xs ≤ itemSize) ∧
      (∀ m', runValue (.list right) m = .ok () m' →
        m'.mainStack.bottomUp = low ++ [Item.joined xs] ∧ m'.altStack = m.altStack) ∧
      (itemSize < Item.total xs → ∃ j r m', 1 ≤ j ∧ j ≤ k ∧ itemSize < Item.total (xs.rtake (j + 1)) ∧
        (∀ n, n < j → Item.total (xs.rtake (n + 1)) ≤ itemSize) ∧ r.kind = .oversize ∧
        m.StopsAt right (j - 1) (.refused r) m' ∧
        m'.mainStack.bottomUp = low ++ xs.rdrop j ++ [Item.joined (xs.rtake j)] ∧
        m'.altStack = m.altStack) ∧
      ((∃ m', runValue (.list left) m = .ok () m') ↔ ∃ m', runValue (.list right) m = .ok () m') ∧
      ∀ m' m'', runValue (.list left) m = .ok () m' → runValue (.list right) m = .ok () m'' →
        m'.mainStack = m''.mainStack ∧ m'.altStack = m''.altStack := by
  intro m right left
  obtain ⟨rules, ⟨main, alt⟩, i, rfl, rfl, hp, hm⟩ := Plain.eq_machine_of_attempt hi h before
  rw [hm, Plain.main_machine] at hmain
  change m = _ at hm
  clear_value m
  subst hm hmain
  obtain ⟨x, y, rest, rfl⟩ : ∃ x y rest, xs = x :: y :: rest := by
    match xs, hlength with
    | [_], hlength => simp at hlength; omega
    | x :: y :: rest, _ => exact ⟨x, y, rest, rfl⟩
  obtain rfl : k = rest.length + 1 := by simpa using hlength.symm
  by_cases hsize : Item.total (x :: y :: rest) ≤ rules.itemSize
  · have hright : runValue (.list right) _ = .ok () _ :=
      Plain.runValue_of_leads hp (Plain.leads_cats hbudget (List.cons_ne_nil x (y :: rest)) hsize low alt)
        m₀.witness m₀.script i
    have hleft : runValue (.list left) _ = .ok () _ :=
      Plain.runValue_of_leads hp (Plain.leads_leftFold hbudget hsize low alt) m₀.witness m₀.script i
    refine ⟨⟨fun _ => hsize, fun _ => ⟨_, hright⟩⟩, ?_, fun hlong => absurd hsize (by omega),
      ⟨fun _ => ⟨_, hright⟩, fun _ => ⟨_, hleft⟩⟩, ?_⟩
    · intro m' hrun
      rw [hright] at hrun
      cases hrun
      exact ⟨Plain.main_machine .., rfl⟩
    · intro m' m'' hrun hrun'
      rw [hleft] at hrun
      rw [hright] at hrun'
      cases hrun
      cases hrun'
      exact ⟨rfl, rfl⟩
  · have hlong := Nat.lt_of_not_le hsize
    obtain ⟨j, r, hj, hjk, hover, hunder, hkind, hstop⟩ :=
      Plain.stopsAt_cats hp hbudget hlength hlong m₀.witness m₀.script i
    obtain ⟨n, r', q, hhalts⟩ := Plain.halts_leftFold hbudget hlong low alt
    -- Neither order goes through; what is left to say is where the concatenations stop.
    have hright := hstop.runValue_ne_ok
    have hleft := (Plain.stopsAt_of_halts hp hbudget hhalts m₀.witness m₀.script i).runValue_ne_ok
    refine ⟨⟨fun ⟨m', hrun⟩ => absurd hrun (hright m'), fun h => absurd h hsize⟩,
      fun m' hrun => absurd hrun (hright m'), ?_,
      ⟨fun ⟨m', hrun⟩ => absurd hrun (hleft m'), fun ⟨m', hrun⟩ => absurd hrun (hright m')⟩,
      fun m' m'' hrun _ => absurd hrun (hleft m')⟩
    intro _
    exact ⟨j, r, _, hj, hjk, hover, hunder, hkind, hstop, Plain.main_machine .., rfl⟩

/-- Four bytes where an item may have three. The last three are joined in either order, and left as the same
stacks; all four are not, and the third concatenation is refused. -/
theorem cats_fold_top_of_four :
    let limits : Limits := ⟨some 3, 5, some 4, none, by decide⟩
    let items : List Item := [⟨#[9]⟩, ⟨#[1]⟩, ⟨#[2]⟩, ⟨#[3]⟩]
    let m₀ := (blank limits items []).arrange items.reverse []
    let m := m₀.attempt [0x6c, 0x6b, 0x6c]
    start limits (.list (items.map .item)) (.list []) = .ok m₀ ∧
      (∃ m' m'', runValue (.list (Opcode.elements [.cat, .cat])) m = .ok () m' ∧
        m'.mainStack.bottomUp = [⟨#[9]⟩, ⟨#[1, 2, 3]⟩] ∧
        runValue (.list (Opcode.elements [.toAlt, .cat, .fromAlt, .cat])) m = .ok () m'' ∧
        m''.mainStack = m'.mainStack ∧ m''.altStack = m'.altStack) ∧
      ∃ r m', m.StopsAt (Opcode.elements [.cat, .cat, .cat]) 2 (.refused r) m' ∧ r.kind = .oversize ∧
        m'.mainStack.bottomUp = [⟨#[9]⟩, ⟨#[1, 2, 3]⟩] := by
  intro limits items m₀ m
  have hstart : start limits (.list (items.map .item)) (.list []) = .ok m₀ := rfl
  have hmain : m.mainStack.bottomUp = [⟨#[9]⟩] ++ [⟨#[1]⟩, ⟨#[2]⟩, ⟨#[3]⟩] := by decide +kernel
  have hmain' : m.mainStack.bottomUp = [] ++ items := hmain
  have hthree := cats_fold_top (k := 2) rfl rfl hstart [0x6c, 0x6b, 0x6c] (by decide) rfl hmain
  have hfour := cats_fold_top (k := 3) rfl rfl hstart [0x6c, 0x6b, 0x6c] (by decide) rfl hmain'
  refine ⟨hstart, ?_, ?_⟩
  · obtain ⟨hiff, hjoined, -, hiff', hsame⟩ := hthree
    obtain ⟨m', hright⟩ := hiff.mpr (by decide)
    obtain ⟨m'', hleft⟩ := hiff'.mpr ⟨m', hright⟩
    exact ⟨m', m'', hright, (hjoined m' hright).1, hleft, hsame m'' m' hleft hright⟩
  · obtain ⟨j, r, m', hj, hjk, hover, hunder, hkind, hstop, hleft, -⟩ := hfour.2.2.1 (by decide)
    have hcases : j = 1 ∨ j = 2 ∨ j = 3 := by omega
    rcases hcases with rfl | rfl | rfl
    · exact absurd hover (by decide)
    · exact absurd hover (by decide)
    · exact ⟨r, m', hstop, hkind, hleft⟩

end Machine

end Tapscript
