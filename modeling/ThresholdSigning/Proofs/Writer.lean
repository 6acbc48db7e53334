import ThresholdSigning.Json.Writer
import ThresholdSigning.Proofs.Grammar

namespace ThresholdSigning.Json

/-- No redundant zero stands in front of the digits that are written. -/
theorem whole_toDigits (n : Nat) : Whole n (Nat.toDigits 10 n) := by
  refine ⟨⟨Nat.toDigits_ne_nil, fun c hc => Nat.isDigit_of_mem_toDigits (by decide) (by decide) hc⟩,
    Nat.ofDigitChars_ten_toDigits.symm, ?_⟩
  induction n using Nat.strongRecOn with
  | ind n ih =>
    intro hhead
    by_cases hsmall : n < 10
    · rw [Nat.toDigits_of_lt_base hsmall] at hhead ⊢
      rw [Option.some.inj hhead]
    · obtain ⟨c, tail, hdigits⟩ :=
        List.exists_cons_of_ne_nil (Nat.toDigits_ne_nil (b := 10) (n := n / 10))
      rw [Nat.toDigits_of_base_le (by decide) (by omega), hdigits] at hhead
      have hzero := ih (n / 10) (by omega) (by rw [hdigits]; exact hhead)
      have hvalue : n / 10 = 0 := by
        rw [← Nat.ofDigitChars_ten_toDigits (n := n / 10), hzero]
        rfl
      omega

theorem unit?_of_control {n : Nat} (h : n < 32) :
    unit? '0' '0' (hexDigit (n / 16)) (hexDigit (n % 16)) = some n := by
  revert n
  decide

/-- A character that is written is one unit again. -/
theorem exists_unit (c : Char) :
    ∃ unit, (∀ {units cs}, Units units cs → Units (unit :: units) (escapeChar c ++ cs)) ∧
      ∀ units, joinUnits (unit :: units) = (joinUnits units).map (c :: ·) := by
  unfold escapeChar
  split
  next h =>
    subst h
    exact ⟨.char '"', fun hunits => .short rfl hunits, fun _ => rfl⟩
  split
  next h =>
    subst h
    exact ⟨.char '\\', fun hunits => .short rfl hunits, fun _ => rfl⟩
  split
  next h =>
    subst h
    exact ⟨.char '\x08', fun hunits => .short rfl hunits, fun _ => rfl⟩
  split
  next h =>
    subst h
    exact ⟨.char '\x0c', fun hunits => .short rfl hunits, fun _ => rfl⟩
  split
  next h =>
    subst h
    exact ⟨.char '\n', fun hunits => .short rfl hunits, fun _ => rfl⟩
  split
  next h =>
    subst h
    exact ⟨.char '\r', fun hunits => .short rfl hunits, fun _ => rfl⟩
  split
  next h =>
    subst h
    exact ⟨.char '\t', fun hunits => .short rfl hunits, fun _ => rfl⟩
  split
  next hcontrol =>
    have hlow : c.toNat < 32 := UInt32.lt_iff_toNat_lt.mp hcontrol
    refine ⟨.escaped c.toNat, fun hunits => .unit (unit?_of_control hlow) hunits, fun units => ?_⟩
    conv => lhs; unfold joinUnits
    rw [if_neg (by omega), if_neg (by omega), Char.ofNat_toNat]
  next hquote hbackslash _ _ _ _ _ hcontrol =>
    exact ⟨.char c, fun hunits => .char hcontrol hquote hbackslash hunits, fun _ => rfl⟩

theorem exists_units_escape (text : List Char) :
    ∃ units, Units units (text.flatMap escapeChar) ∧ joinUnits units = some text := by
  induction text with
  | nil => exact ⟨[], .nil, rfl⟩
  | cons c text ih =>
    obtain ⟨units, hunits, hjoin⟩ := ih
    obtain ⟨unit, hescape, hunit⟩ := exists_unit c
    refine ⟨unit :: units, hescape hunits, ?_⟩
    rw [hunit, hjoin]
    rfl

theorem quoted_writeText (text : Option String) : Quoted text (writeText text) := by
  cases text with
  | none =>
    have hhalf : Units [.escaped 0xd800] "\\ud800".toList := .unit rfl .nil
    exact .mk hhalf
  | some text =>
    obtain ⟨units, hunits, hjoin⟩ := exists_units_escape text.toList
    have hquoted := Quoted.mk hunits
    rw [hjoin, Option.map_some, String.ofList_toList] at hquoted
    exact hquoted

theorem Spelled.element {j : Json} {cs : List Char} (h : Spelled j cs) : Element j cs := by
  simpa using Element.mk spaces_nil h spaces_nil

theorem label_writeText (name : Option String) : Label name (writeText name) := by
  simpa using Label.mk spaces_nil (quoted_writeText name) spaces_nil

theorem exists_items {j : Json} {items : List Json} (hj : Spelled j j.write)
    (hitems : ∀ item ∈ items, Spelled item item.write) :
    ∃ cs, Items (j :: items) cs ∧ j.write ++ writeItems items = cs ++ [']'] := by
  induction items generalizing j with
  | nil => exact ⟨j.write, .last hj.element, by rw [writeItems]⟩
  | cons item items ih =>
    obtain ⟨hitem, hrest⟩ := List.forall_mem_cons.mp hitems
    obtain ⟨cs, hcs, hwrite⟩ := ih hitem hrest
    refine ⟨_, .more hj.element hcs, ?_⟩
    rw [writeItems, List.cons_append, hwrite]
    simp

theorem exists_members (name : Option String) {j : Json}
    {members : List (Option String × Json)} (hj : Spelled j j.write)
    (hmembers : ∀ m ∈ members, Spelled m.2 m.2.write) :
    ∃ cs, Members ((name, j) :: members) cs ∧
      writeText name ++ ':' :: j.write ++ writeMembers members = cs ++ ['}'] := by
  induction members generalizing name j with
  | nil => exact ⟨_, .last (label_writeText name) hj.element, by rw [writeMembers]⟩
  | cons m members ih =>
    obtain ⟨next, value⟩ := m
    obtain ⟨hvalue, hrest⟩ := List.forall_mem_cons.mp hmembers
    obtain ⟨cs, hcs, hwrite⟩ := ih next hvalue hrest
    refine ⟨_, .more (label_writeText name) hj.element hcs, ?_⟩
    rw [writeMembers]
    simp only [List.append_assoc, List.cons_append] at hwrite ⊢
    rw [hwrite]

theorem number_minusOne : Number none ['-', '1'] := by
  have hdigits : Digits ['1'] := ⟨List.cons_ne_nil _ _, List.forall_mem_singleton.mpr rfl⟩
  have hone : Whole 1 ['1'] := ⟨hdigits, rfl, by simp⟩
  exact .negative (.mk hone .absent .absent)

theorem number_toDigits (n : Nat) : Number (some n) (Nat.toDigits 10 n) := by
  have h := Number.unsigned (.mk (whole_toDigits n) .absent .absent)
  rwa [List.append_nil, List.append_nil] at h

/-- What is written for a value spells it. -/
theorem spelled_write (j : Json) : Spelled j j.write := by
  induction hsize : sizeOf j using Nat.strongRecOn generalizing j with
  | ind n ih =>
    subst hsize
    cases j with
    | null => exact .null
    | bool b =>
      cases b with
      | true => exact .yes
      | false => exact .no
    | number natural =>
      cases natural with
      | none => exact .number number_minusOne
      | some n => exact .number (number_toDigits n)
    | string text => exact .string (quoted_writeText text)
    | array items =>
      cases items with
      | nil => exact .noItems spaces_nil
      | cons item items =>
        -- the writer recurses on a list inside the value, so the induction is on the size
        have hitems : ∀ x ∈ item :: items, Spelled x x.write := by
          intro x hx
          refine ih (sizeOf x) ?_ x rfl
          have := List.sizeOf_lt_of_mem hx
          simp only [Json.array.sizeOf_spec]
          omega
        obtain ⟨hitem, hrest⟩ := List.forall_mem_cons.mp hitems
        obtain ⟨cs, hcs, hwrite⟩ := exists_items hitem hrest
        have hspelled := Spelled.items hcs
        rw [← hwrite] at hspelled
        exact hspelled
    | object members =>
      cases members with
      | nil => exact .noMembers spaces_nil
      | cons m members =>
        obtain ⟨name, value⟩ := m
        have hmembers : ∀ x ∈ (name, value) :: members, Spelled x.2 x.2.write := by
          rintro ⟨xname, x⟩ hx
          refine ih (sizeOf x) ?_ x rfl
          have := List.sizeOf_lt_of_mem hx
          simp only [Json.object.sizeOf_spec, Prod.mk.sizeOf_spec] at this ⊢
          omega
        obtain ⟨hvalue, hrest⟩ := List.forall_mem_cons.mp hmembers
        obtain ⟨cs, hcs, hwrite⟩ := exists_members name hvalue hrest
        have hspelled := Spelled.members hcs
        rw [← hwrite] at hspelled
        exact hspelled

theorem parse?_text (j : Json) : parse? j.text = some j := by
  rw [parse?_eq_some_iff, text, String.toList_ofList]
  exact (spelled_write j).element

end ThresholdSigning.Json
