import ThresholdSigning.Bytes
import ThresholdSigning.Text.Quoted
import ThresholdSigning.Text.Record
import Mathlib.Data.List.Forall2
import Mathlib.Tactic.IntervalCases

namespace ThresholdSigning

/-- The value of a lower-case hexadecimal digit. -/
def digitValue (c : Char) : Nat := if c.toNat < 58 then c.toNat - 48 else c.toNat - 87

def digitsValue (digits : List Char) : Nat := digits.foldl (fun n c => 16 * n + digitValue c) 0

theorem digitValue_digitChar {d : Nat} (h : d < 16) : digitValue d.digitChar = d := by
  interval_cases d <;> rfl

theorem hexDigit_eq_digitChar {d : Nat} (h : d < 16) : hexDigit d = d.digitChar := by
  interval_cases d <;> rfl

theorem hexDigit_inj {d d' : Nat} (h : d < 16) (h' : d' < 16) (heq : hexDigit d = hexDigit d') :
    d = d' := by
  rw [hexDigit_eq_digitChar h, hexDigit_eq_digitChar h'] at heq
  rw [← digitValue_digitChar h, heq, digitValue_digitChar h']

theorem digitsValue_toDigits (n : Nat) : digitsValue (Nat.toDigits 16 n) = n := by
  induction n using Nat.strongRecOn with
  | ind n ih =>
    rw [Nat.toDigits_eq_if (by omega)]
    split
    next h => simp [digitsValue, digitValue_digitChar h]
    next h =>
      have hrest := ih (n / 16) (by omega)
      unfold digitsValue at hrest ⊢
      rw [List.foldl_append, hrest, List.foldl_cons, List.foldl_nil,
        digitValue_digitChar (Nat.mod_lt n (by omega))]
      omega

theorem exists_of_mem_toDigits {n : Nat} {c : Char} (h : c ∈ Nat.toDigits 16 n) :
    ∃ d < 16, c = d.digitChar := by
  induction n using Nat.strongRecOn with
  | ind n ih =>
    rw [Nat.toDigits_eq_if (by omega)] at h
    split at h
    next hlow => exact ⟨n, hlow, List.mem_singleton.mp h⟩
    next =>
      rcases List.mem_append.mp h with h | h
      · exact ih (n / 16) (by omega) h
      · exact ⟨n % 16, Nat.mod_lt n (by omega), List.mem_singleton.mp h⟩

theorem exists_of_mem_hex {bytes : ByteArray} {c : Char} (h : c ∈ (hex bytes).toList) :
    ∃ d < 16, c = d.digitChar := by
  rw [hex, String.toList_ofList] at h
  obtain ⟨b, -, hc⟩ := List.mem_flatMap.mp h
  have hb := b.toNat_lt
  simp only [List.mem_cons, List.not_mem_nil, or_false] at hc
  rcases hc with rfl | rfl
  · exact ⟨b.toNat / 16, by omega, hexDigit_eq_digitChar (by omega)⟩
  · exact ⟨b.toNat % 16, by omega, hexDigit_eq_digitChar (by omega)⟩

theorem flatMap_hexDigit_inj {bs bs' : List UInt8}
    (h : (bs.flatMap fun b => [hexDigit (b.toNat / 16), hexDigit (b.toNat % 16)]) =
      bs'.flatMap fun b => [hexDigit (b.toNat / 16), hexDigit (b.toNat % 16)]) : bs = bs' := by
  induction bs generalizing bs' with
  | nil =>
    cases bs' with
    | nil => rfl
    | cons b' bs' => simp at h
  | cons b bs ih =>
    cases bs' with
    | nil => simp at h
    | cons b' bs' =>
      have hb := b.toNat_lt
      have hb' := b'.toNat_lt
      simp only [List.flatMap_cons, List.cons_append, List.nil_append, List.cons.injEq] at h
      have hhigh := hexDigit_inj (by omega) (by omega) h.1
      have hlow := hexDigit_inj (by omega) (by omega) h.2.1
      have hbyte : b.toNat = b'.toNat := by omega
      rw [UInt8.toNat_inj.mp hbyte, ih h.2.2]

theorem hex_inj {x y : ByteArray} (h : hex x = hex y) : x = y := by
  have hlist := flatMap_hexDigit_inj (String.ofList_injective h)
  cases x
  cases y
  simpa using hlist

/-- The characters that come after a text where it stands inside another one. -/
def stops : List Char := [',', ' ', ']']

/-- Characters that can follow a text inside another one. -/
def Stopped (rest : List Char) : Prop := ∃ c ∈ rest.head?, c ∈ stops

/-- Texts whose end can be seen where they stand inside another text. -/
def Delimited {α : Type} (text : α → String) : Prop :=
  ∀ (a a' : α) (rest rest' : List Char), Stopped rest → Stopped rest' →
    (text a).toList ++ rest = (text a').toList ++ rest' → text a = text a'

/-- Texts whose end can be seen, and that tell what is kept of the value behind them: that much and
no more. -/
structure Tells {α β : Type} (text : α → String) (kept : α → β) : Prop where
  delimited : Delimited text
  eq_iff : ∀ a a', text a = text a' ↔ kept a = kept a'

theorem Delimited.comp {α γ : Type} {text : α → String} (h : Delimited text) (f : γ → α) :
    Delimited fun c => text (f c) :=
  fun c c' => h (f c) (f c')

theorem Tells.comp {α β γ : Type} {text : α → String} {kept : α → β} (h : Tells text kept)
    (f : γ → α) : Tells (fun c => text (f c)) fun c => kept (f c) where
  delimited := h.delimited.comp f
  eq_iff c c' := h.eq_iff (f c) (f c')

theorem stopped_cons {c : Char} (h : c ∈ stops) (rest : List Char) : Stopped (c :: rest) :=
  ⟨c, rfl, h⟩

theorem Stopped.takeWhile_append {plain rest : List Char} (h : Stopped rest)
    (hplain : ∀ c ∈ plain, c ∉ stops) : (plain ++ rest).takeWhile (· ∉ stops) = plain := by
  rw [List.takeWhile_append_of_pos (by simpa using hplain)]
  obtain ⟨c, hc, hstop⟩ := h
  cases rest with
  | nil => cases hc
  | cons c' rest =>
    cases hc
    simp [hstop]

theorem digitChar_notMem_stops {d : Nat} (h : d < 16) : d.digitChar ∉ stops := by
  interval_cases d <;> decide

section

variable {α : Type} {text : α → String}

theorem delimited_of_notMem_stops (h : ∀ a, ∀ c ∈ (text a).toList, c ∉ stops) :
    Delimited text := by
  intro a a' rest rest' hrest hrest' heq
  have hlists := hrest.takeWhile_append (h a)
  rw [heq, hrest'.takeWhile_append (h a')] at hlists
  exact String.toList_inj.mp hlists.symm

/-- Digits between two plain texts, where the bytes tell everything. -/
theorem tells_hex {bytes : α → ByteArray} (hbytes : ∀ a a', bytes a = bytes a' → a = a')
    {before after : String} (hbefore : ∀ c ∈ before.toList, c ∉ stops)
    (hafter : ∀ c ∈ after.toList, c ∉ stops) :
    Tells (fun a => before ++ hex (bytes a) ++ after) id where
  delimited := by
    apply delimited_of_notMem_stops
    intro a c hc
    simp only [String.toList_append, List.mem_append] at hc
    rcases hc with (hc | hc) | hc
    · exact hbefore c hc
    · obtain ⟨d, hd, rfl⟩ := exists_of_mem_hex hc
      exact digitChar_notMem_stops hd
    · exact hafter c hc
  eq_iff a a' := by
    constructor
    · intro h
      apply hbytes a a'
      apply hex_inj
      simpa [← String.toList_inj] using h
    · rintro rfl
      rfl

theorem tells_number : Tells (fun n : Nat => toString n) id where
  delimited := by
    apply delimited_of_notMem_stops
    intro n c hc
    rw [Nat.toString_eq_ofList_toDigits, String.toList_ofList] at hc
    have hdigit := Nat.isDigit_of_mem_toDigits (by omega) (by omega) hc
    simp only [stops, List.mem_cons, List.not_mem_nil, or_false]
    rintro (rfl | rfl | rfl) <;> exact absurd hdigit (by decide)
  eq_iff n n' := by
    constructor
    · intro h
      rw [Nat.toString_eq_ofList_toDigits, Nat.toString_eq_ofList_toDigits] at h
      have hvalue := congrArg (Nat.ofDigitChars 10 · 0) (String.ofList_injective h)
      simpa [Nat.ofDigitChars_ten_toDigits] using hvalue
    · rintro rfl
      rfl

/-- An item of a list or a record, with the separator before it. -/
def separated (item : String) : List Char := ',' :: ' ' :: item.toList

theorem toList_intercalate (item : String) (items : List String) :
    (", ".intercalate (item :: items)).toList = item.toList ++ items.flatMap separated := by
  induction items generalizing item with
  | nil => simp
  | cons next items ih =>
    rw [String.intercalate_cons_cons, String.toList_append, ih, List.flatMap_cons]
    simp [separated]

theorem stopped_separated (items : List String) {rest : List Char} (h : Stopped rest) :
    Stopped (items.flatMap separated ++ rest) := by
  cases items with
  | nil => exact h
  | cons item items => exact stopped_cons (by decide) _

theorem map_eq_of_separated (h : Delimited text) {xs ys : List α} (rest rest' : List Char)
    (heq : (xs.map text).flatMap separated ++ ']' :: rest =
      (ys.map text).flatMap separated ++ ']' :: rest') : xs.map text = ys.map text := by
  have hclose (rest : List Char) : Stopped (']' :: rest) := stopped_cons (by decide) rest
  induction xs generalizing ys with
  | nil =>
    cases ys with
    | nil => rfl
    | cons y ys => simp [separated] at heq
  | cons x xs ih =>
    cases ys with
    | nil => simp [separated] at heq
    | cons y ys =>
      simp only [List.map_cons, List.flatMap_cons, separated, List.cons_append, List.cons.injEq,
        true_and, List.append_assoc] at heq
      have hitem := h x y _ _ (stopped_separated _ (hclose rest))
        (stopped_separated _ (hclose rest')) heq
      rw [hitem, List.append_cancel_left_eq] at heq
      rw [List.map_cons, List.map_cons, hitem, ih heq]

/-- What a list shows are the texts of its entries, also in front of other text. -/
theorem map_eq_of_listText (h : Delimited text)
    (hfirst : ∀ a, ∃ c ∈ (text a).toList.head?, c ≠ ']') {xs ys : List α} (rest rest' : List Char)
    (heq : (listText (xs.map text)).toList ++ rest = (listText (ys.map text)).toList ++ rest') :
    xs.map text = ys.map text := by
  have hopen (items : List String) (rest : List Char) : (listText items).toList ++ rest =
      '[' :: ((", ".intercalate items).toList ++ ']' :: rest) := by simp [listText]
  have hne (x : α) (xs : List α) (l l' : List Char) :
      (", ".intercalate ((x :: xs).map text)).toList ++ l ≠ ']' :: l' := by
    obtain ⟨c, hc, hother⟩ := hfirst x
    obtain ⟨chars, hchars⟩ := List.head?_eq_some_iff.mp hc
    rw [List.map_cons, toList_intercalate, hchars]
    simp [hother]
  rw [hopen, hopen, List.cons.injEq] at heq
  have hbodies := heq.2
  cases xs with
  | nil =>
    cases ys with
    | nil => rfl
    | cons y ys => exact absurd hbodies.symm (hne y ys _ _)
  | cons x xs =>
    cases ys with
    | nil => exact absurd hbodies (hne x xs _ _)
    | cons y ys =>
      apply map_eq_of_separated h rest rest'
      rw [List.map_cons, List.map_cons, toList_intercalate, toList_intercalate] at hbodies
      simpa [separated] using hbodies

theorem Tells.list {β : Type} {kept : α → β} (h : Tells text kept)
    (hfirst : ∀ a, ∃ c ∈ (text a).toList.head?, c ≠ ']') :
    Tells (fun as : List α => listText (as.map text)) (List.map kept) where
  delimited as as' rest rest' _ _ heq :=
    congrArg listText (map_eq_of_listText h.delimited hfirst rest rest' heq)
  eq_iff as as' := by
    have htexts : listText (as.map text) = listText (as'.map text) ↔
        as.map text = as'.map text := by
      constructor
      · intro heq
        exact map_eq_of_listText h.delimited hfirst [] [] (by rw [heq])
      · exact congrArg listText
    have hentries {γ : Type} (f : α → γ) :
        as.map f = as'.map f ↔ List.Forall₂ (fun a a' => f a = f a') as as' := by
      rw [← List.forall₂_eq_eq_eq, List.forall₂_map_left_iff, List.forall₂_map_right_iff]
    rw [htexts, hentries, hentries]
    simp only [h.eq_iff]

/-- The items of a record whose fields are the given texts of `a`. -/
def fieldItems (fields : List (String × (α → String))) (a : α) : List String :=
  fields.map fun field => field.1 ++ ": " ++ field.2 a

theorem field_eq_of_separated {fields : List (String × (α → String))}
    (h : ∀ field ∈ fields, Delimited field.2) {a a' : α} {rest rest' : List Char}
    (hrest : Stopped rest) (hrest' : Stopped rest')
    (heq : (fieldItems fields a).flatMap separated ++ rest =
      (fieldItems fields a').flatMap separated ++ rest') :
    ∀ field ∈ fields, field.2 a = field.2 a' := by
  induction fields with
  | nil => exact fun _ hf => absurd hf List.not_mem_nil
  | cons field fields ih =>
    simp only [fieldItems, List.map_cons, List.flatMap_cons, separated, String.toList_append,
      List.cons_append, List.append_assoc, List.cons.injEq, true_and,
      List.append_cancel_left_eq] at heq
    obtain ⟨hfield, hfields⟩ := List.forall_mem_cons.mp h
    have hitem := hfield a a' _ _ (stopped_separated _ hrest) (stopped_separated _ hrest') heq
    rw [hitem, List.append_cancel_left_eq] at heq
    exact List.forall_mem_cons.mpr ⟨hitem, ih hfields heq⟩

/-- The text of a record whose fields are the given texts of `a`. -/
def recordOf (name : String) (fields : List (String × (α → String))) (heldBack : Bool) (a : α) :
    String :=
  recordText name (fields.map fun field => (field.1, field.2 a)) heldBack

theorem recordOf_eq (name : String) (fields : List (String × (α → String))) (heldBack : Bool)
    (a : α) :
    recordOf name fields heldBack a = name ++ " \x7b " ++
      ", ".intercalate (fieldItems fields a ++ if heldBack then [".."] else []) ++ " \x7d" := by
  rw [recordOf, recordText, List.map_map]
  rfl

/-- What a record shows are the texts of its fields, also in front of other text. -/
theorem field_eq_of_recordOf {name : String} {fields : List (String × (α → String))}
    {heldBack : Bool} (h : ∀ field ∈ fields, Delimited field.2) {a a' : α}
    (rest rest' : List Char)
    (heq : (recordOf name fields heldBack a).toList ++ rest =
      (recordOf name fields heldBack a').toList ++ rest') :
    ∀ field ∈ fields, field.2 a = field.2 a' := by
  cases fields with
  | nil => exact fun _ hf => absurd hf List.not_mem_nil
  | cons field fields =>
    set held : List String := if heldBack then [".."] else [] with hheld
    have htext (a : α) (rest : List Char) :
        (recordOf name (field :: fields) heldBack a).toList ++ rest = (name ++ " \x7b ").toList ++
          ((", ".intercalate (fieldItems (field :: fields) a ++ held)).toList ++
            ' ' :: '\x7d' :: rest) := by
      rw [recordOf_eq, ← hheld]
      simp
    have hbody (a : α) (rest : List Char) :
        ',' :: ' ' :: ((", ".intercalate (fieldItems (field :: fields) a ++ held)).toList ++
            ' ' :: '\x7d' :: rest) =
          (fieldItems (field :: fields) a).flatMap separated ++
            (held.flatMap separated ++ ' ' :: '\x7d' :: rest) := by
      rw [fieldItems, List.map_cons, List.cons_append, toList_intercalate]
      simp [separated]
    rw [htext, htext, List.append_cancel_left_eq] at heq
    -- with a separator in front the first item is like the others
    have hbodies := congrArg (fun text => ',' :: ' ' :: text) heq
    simp only [hbody] at hbodies
    have hend (rest : List Char) : Stopped (held.flatMap separated ++ ' ' :: '\x7d' :: rest) :=
      stopped_separated held (stopped_cons (by decide) _)
    exact field_eq_of_separated h (hend rest) (hend rest') hbodies

theorem tells_record {β : Type} (name : String) (fields : List (String × (α → String)))
    (heldBack : Bool) {kept : α → β} (h : ∀ field ∈ fields, Delimited field.2)
    (hkept : ∀ a a', (∀ field ∈ fields, field.2 a = field.2 a') ↔ kept a = kept a') :
    Tells (recordOf name fields heldBack) kept := by
  have hfields (a a' : α) : recordOf name fields heldBack a = recordOf name fields heldBack a' ↔
      ∀ field ∈ fields, field.2 a = field.2 a' := by
    constructor
    · intro heq
      exact field_eq_of_recordOf h [] [] (by rw [heq])
    · intro heq
      have hshown : (fields.map fun field => (field.1, field.2 a)) =
          fields.map fun field => (field.1, field.2 a') :=
        List.map_congr_left fun field hf => by rw [heq field hf]
      rw [recordOf, recordOf, hshown]
  constructor
  · intro a a' rest rest' _ _ heq
    exact (hfields a a').mpr (field_eq_of_recordOf h rest rest' heq)
  · intro a a'
    rw [hfields, hkept]

end

/-- The character that stands behind an escape. -/
def unescape : List Char → Option Char
  | [] => none
  | mark :: rest =>
    if mark = 'u' then some (Char.ofNat (digitsValue ((rest.drop 1).takeWhile (· ≠ '\x7d'))))
    else if mark = '0' then some '\x00'
    else if mark = 't' then some '\t'
    else if mark = 'n' then some '\n'
    else if mark = 'r' then some '\r'
    else some mark

/-- The first character of what is quoted, if anything is left of it. -/
def unquote : List Char → Option Char
  | [] => none
  | c :: rest => if c = '"' then none else if c = '\\' then unescape rest else some c

theorem takeWhile_toDigits (n : Nat) (rest : List Char) :
    (Nat.toDigits 16 n ++ '\x7d' :: rest).takeWhile (· ≠ '\x7d') = Nat.toDigits 16 n := by
  have hdigits : ∀ c ∈ Nat.toDigits 16 n, decide (c ≠ '\x7d') = true := by
    intro c hc
    obtain ⟨d, hd, rfl⟩ := exists_of_mem_toDigits hc
    interval_cases d <;> decide
  rw [List.takeWhile_append_of_pos hdigits]
  simp

theorem unquote_quoteChar (c : Char) (rest : List Char) :
    unquote (quoteChar c ++ rest) = some c := by
  unfold quoteChar
  split_ifs with hnull htab hline hreturn hquote hslash hhidden
  case pos => simp [unquote, unescape, hnull]
  case pos => simp [unquote, unescape, htab]
  case pos => simp [unquote, unescape, hline]
  case pos => simp [unquote, unescape, hreturn]
  case pos => simp [unquote, unescape, hquote]
  case pos => simp [unquote, unescape, hslash]
  case pos =>
    have hescape : "\\u\x7b".toList ++ Nat.toDigits 16 c.toNat ++ ['\x7d'] ++ rest =
        '\\' :: 'u' :: '\x7b' :: (Nat.toDigits 16 c.toNat ++ '\x7d' :: rest) := by simp
    rw [hescape, unquote, if_neg (by decide), if_pos rfl, unescape, if_pos rfl, List.drop_one,
      List.tail_cons, takeWhile_toDigits, digitsValue_toDigits, Char.ofNat_toNat]
  case neg => simp [unquote, hquote, hslash]

theorem quoted_cancel {s s' : List Char} (rest rest' : List Char)
    (h : s.flatMap quoteChar ++ '"' :: rest = s'.flatMap quoteChar ++ '"' :: rest') : s = s' := by
  induction s generalizing s' with
  | nil =>
    cases s' with
    | nil => rfl
    | cons c' s' =>
      have hread := congrArg unquote h
      rw [List.flatMap_cons, List.append_assoc, unquote_quoteChar] at hread
      cases hread
  | cons c s ih =>
    cases s' with
    | nil =>
      have hread := congrArg unquote h
      rw [List.flatMap_cons, List.append_assoc, unquote_quoteChar] at hread
      cases hread
    | cons c' s' =>
      rw [List.flatMap_cons, List.append_assoc, List.flatMap_cons, List.append_assoc] at h
      have hread := congrArg unquote h
      rw [unquote_quoteChar, unquote_quoteChar, Option.some.injEq] at hread
      rw [hread, List.append_cancel_left_eq] at h
      rw [hread, ih h]

theorem quoted_inj {s s' : String} (rest rest' : List Char)
    (h : (quoted s).toList ++ rest = (quoted s').toList ++ rest') : s = s' := by
  apply String.toList_inj.mp
  apply quoted_cancel rest rest'
  simpa [quoted] using h

theorem tells_quoted : Tells quoted id where
  delimited _ _ rest rest' _ _ heq := congrArg quoted (quoted_inj rest rest' heq)
  eq_iff s s' := by
    constructor
    · intro h
      have hlists : (quoted s).toList ++ [] = (quoted s').toList ++ [] := by rw [h]
      exact quoted_inj [] [] hlists
    · rintro rfl
      rfl

end ThresholdSigning
