import ThresholdSigning.Proofs.Lexeme

namespace ThresholdSigning.Json

/-- The name of a member, with the blanks around it. -/
inductive Label : Option String → List Char → Prop
  | mk {name : Option String} {left cs right : List Char} (hleft : Spaces left)
      (hquoted : Quoted name cs) (hright : Spaces right) : Label name (left ++ (cs ++ right))

mutual

/-- The texts of a value. -/
inductive Spelled : Json → List Char → Prop
  | null : Spelled .null ['n', 'u', 'l', 'l']
  | yes : Spelled (.bool true) ['t', 'r', 'u', 'e']
  | no : Spelled (.bool false) ['f', 'a', 'l', 's', 'e']
  | number {n : Option Nat} {cs : List Char} (hnumber : Number n cs) : Spelled (.number n) cs
  | string {text : Option String} {cs : List Char} (hquoted : Quoted text cs) :
      Spelled (.string text) cs
  | noItems {blanks : List Char} (hblanks : Spaces blanks) :
      Spelled (.array []) ('[' :: (blanks ++ [']']))
  | items {js : List Json} {cs : List Char} (hitems : Items js cs) :
      Spelled (.array js) ('[' :: (cs ++ [']']))
  | noMembers {blanks : List Char} (hblanks : Spaces blanks) :
      Spelled (.object []) ('{' :: (blanks ++ ['}']))
  | members {ms : List (Option String × Json)} {cs : List Char} (hmembers : Members ms cs) :
      Spelled (.object ms) ('{' :: (cs ++ ['}']))

/-- A value with the blanks around it. -/
inductive Element : Json → List Char → Prop
  | mk {j : Json} {left cs right : List Char} (hleft : Spaces left) (hspelled : Spelled j cs)
      (hright : Spaces right) : Element j (left ++ (cs ++ right))

/-- Values with commas between them. -/
inductive Items : List Json → List Char → Prop
  | last {j : Json} {cs : List Char} (hitem : Element j cs) : Items [j] cs
  | more {j : Json} {js : List Json} {cs tail : List Char} (hitem : Element j cs)
      (hitems : Items js tail) : Items (j :: js) (cs ++ ',' :: tail)

/-- Members with commas between them. -/
inductive Members : List (Option String × Json) → List Char → Prop
  | last {name : Option String} {j : Json} {key cs : List Char} (hname : Label name key)
      (hvalue : Element j cs) : Members [(name, j)] (key ++ ':' :: cs)
  | more {name : Option String} {j : Json} {ms : List (Option String × Json)}
      {key cs tail : List Char} (hname : Label name key) (hvalue : Element j cs)
      (hmembers : Members ms tail) : Members ((name, j) :: ms) (key ++ ':' :: (cs ++ ',' :: tail))

end

variable {j : Json} {js : List Json} {ms : List (Option String × Json)} {cs s rest : List Char}
  {n : Nat}

theorem readValue_skipSpaces (n : Nat) (s : List Char) :
    readValue n (skipSpaces s) = readValue n s := by
  cases n with
  | zero => rw [readValue, readValue]
  | succ n => simp only [readValue, skipSpaces_skipSpaces]

theorem readItems_skipSpaces (n : Nat) (s : List Char) :
    readItems n (skipSpaces s) = readItems n s := by
  cases n with
  | zero => rw [readItems, readItems]
  | succ n => simp only [readItems, readValue_skipSpaces]

theorem readMembers_skipSpaces (n : Nat) (s : List Char) :
    readMembers n (skipSpaces s) = readMembers n s := by
  cases n with
  | zero => rw [readMembers, readMembers]
  | succ n => simp only [readMembers, skipSpaces_skipSpaces]

theorem not_isSpace_of_isDigit {c : Char} (hc : c.isDigit = true) :
    isSpace c = false ∧ c ≠ ']' := by
  constructor
  · cases hspace : isSpace c with
    | false => rfl
    | true =>
      simp only [isSpace, Bool.or_eq_true, decide_eq_true_eq] at hspace
      rcases hspace with ((rfl | rfl) | rfl) | rfl <;> cases hc
  · rintro rfl
    cases hc

theorem Number.head {n : Option Nat} (h : Number n cs) :
    ∃ c tail, cs = c :: tail ∧ (c.isDigit = true ∨ c = '-') := by
  cases h with
  | unsigned h =>
    obtain ⟨c, tail, rfl, hc⟩ := h.head
    exact ⟨c, tail, rfl, .inl hc⟩
  | negative => exact ⟨'-', _, rfl, .inr rfl⟩

/-- A value starts neither with a blank nor as a list ends. -/
theorem Spelled.head (h : Spelled j cs) :
    ∃ c tail, cs = c :: tail ∧ isSpace c = false ∧ c ≠ ']' := by
  cases h with
  | number hnumber =>
    obtain ⟨c, tail, rfl, hc | rfl⟩ := hnumber.head
    · exact ⟨c, tail, rfl, not_isSpace_of_isDigit hc⟩
    · exact ⟨_, _, rfl, by decide, by decide⟩
  | string hquoted =>
    cases hquoted
    exact ⟨_, _, rfl, by decide, by decide⟩
  | _ => exact ⟨_, _, rfl, by decide, by decide⟩

theorem Items.head (h : Items js cs) (s : List Char) :
    ∃ c tail, skipSpaces (cs ++ s) = c :: tail ∧ c ≠ ']' := by
  have hitem {j : Json} {cs : List Char} (h : Element j cs) (s : List Char) :
      ∃ c tail, skipSpaces (cs ++ s) = c :: tail ∧ c ≠ ']' := by
    obtain ⟨hleft, hspelled, -⟩ := h
    obtain ⟨c, tail, rfl, hspace, hc⟩ := hspelled.head
    rw [List.append_assoc, skipSpaces_append hleft, List.append_assoc, List.cons_append,
      skipSpaces_cons hspace]
    exact ⟨c, _, rfl, hc⟩
  cases h with
  | last h => exact hitem h s
  | more h =>
    rw [List.append_assoc]
    exact hitem h _

theorem Label.skipSpaces {name : Option String} {key : List Char} (h : Label name key)
    (s : List Char) : ∃ cs right, Quoted name ('"' :: cs) ∧ Spaces right ∧
      skipSpaces (key ++ s) = '"' :: (cs ++ (right ++ s)) := by
  cases h with
  | @mk left cs right hleft hquoted hright =>
    cases hquoted with
    | @mk units cs hunits =>
      refine ⟨cs ++ ['"'], right, .mk hunits, hright, ?_⟩
      rw [List.append_assoc, skipSpaces_append hleft, List.append_assoc, List.cons_append,
        skipSpaces_cons (by decide)]

theorem Members.head (h : Members ms cs) (s : List Char) :
    ∃ tail, skipSpaces (cs ++ s) = '"' :: tail := by
  cases h with
  | last hname =>
    rw [List.append_assoc]
    obtain ⟨cs, right, -, -, hskip⟩ := hname.skipSpaces (_ ++ s)
    exact ⟨_, hskip⟩
  | more hname =>
    rw [List.append_assoc]
    obtain ⟨cs, right, -, -, hskip⟩ := hname.skipSpaces (_ ++ s)
    exact ⟨_, hskip⟩

theorem Stops.append {right : List Char} (hright : Spaces right) (hs : Stops s) :
    Stops (right ++ s) := by
  cases right with
  | nil => exact hs
  | cons c right =>
    have hspace := hright c List.mem_cons_self
    simp only [isSpace, Bool.or_eq_true, decide_eq_true_eq] at hspace
    rintro c ⟨⟩
    rcases hspace with ((rfl | rfl) | rfl) | rfl <;> decide

/-- With fuel `n` all texts are read that are not too long for it. -/
structure Complete (n : Nat) : Prop where
  value : ∀ {j cs s}, Spelled j cs → Stops s → 2 * cs.length ≤ n →
    readValue n (cs ++ s) = some (j, s)
  items : ∀ {js cs s}, Items js cs → 2 * cs.length + 1 ≤ n →
    readItems n (cs ++ ']' :: s) = some (js, s)
  members : ∀ {ms cs s}, Members ms cs → 2 * cs.length + 1 ≤ n →
    readMembers n (cs ++ '}' :: s) = some (ms, s)

theorem Complete.element (hn : Complete n) (h : Element j cs) (hs : Stops s)
    (hfuel : 2 * cs.length ≤ n) :
    ∃ right, Spaces right ∧ readValue n (cs ++ s) = some (j, right ++ s) := by
  cases h with
  | @mk _ left cs right hleft hspelled hright =>
    simp only [List.length_append] at hfuel
    refine ⟨right, hright, ?_⟩
    rw [← hn.value hspelled (hs.append hright) (by omega), ← readValue_skipSpaces,
      List.append_assoc, skipSpaces_append hleft, readValue_skipSpaces, List.append_assoc]

theorem readValue_number {m : Option Nat} (h : Number m cs) (hs : Stops s) :
    readValue (n + 1) (cs ++ s) = some (.number m, s) := by
  have hread := readNumber_append h hs
  obtain ⟨c, tail, rfl, hc⟩ := h.head
  have hspace : isSpace c = false := by
    rcases hc with hc | rfl
    · exact (not_isSpace_of_isDigit hc).1
    · rfl
  have hne {d : Char} {rest : List Char} (hd : d.isDigit = false ∧ d ≠ '-')
      (heq : c :: (tail ++ s) = d :: rest) : False := by
    obtain ⟨rfl, -⟩ := List.cons.inj heq
    rcases hc with hc | hc
    · exact absurd hc (by simp [hd.1])
    · exact hd.2 hc
  rw [readValue, List.cons_append, skipSpaces_cons hspace]
  split
  next heq => exact (hne (by decide) heq).elim
  next heq => exact (hne (by decide) heq).elim
  next heq => exact (hne (by decide) heq).elim
  next heq => exact (hne (by decide) heq).elim
  next heq => exact (hne (by decide) heq).elim
  next heq => exact (hne (by decide) heq).elim
  next => rw [← List.cons_append, hread]

theorem Complete.value_succ (hn : Complete n) (h : Spelled j cs) (hs : Stops s)
    (hfuel : 2 * cs.length ≤ n + 1) : readValue (n + 1) (cs ++ s) = some (j, s) := by
  cases h with
  | null => rw [readValue, List.cons_append, skipSpaces_cons (by decide)]; rfl
  | yes => rw [readValue, List.cons_append, skipSpaces_cons (by decide)]; rfl
  | no => rw [readValue, List.cons_append, skipSpaces_cons (by decide)]; rfl
  | number hnumber => exact readValue_number hnumber hs
  | string hquoted =>
    cases hquoted with
    | mk hunits =>
      rw [readValue, List.cons_append, skipSpaces_cons (by decide)]
      simp only [readText_append (.mk hunits)]
  | @noItems blanks hblanks =>
    have hskip := skipSpaces_append_cons (c := ']') hblanks (by decide) s
    rw [readValue, List.cons_append, skipSpaces_cons (by decide), List.append_assoc,
      List.singleton_append]
    simp only [hskip]
  | @items js cs hitems =>
    simp only [List.length_cons, List.length_append, List.length_nil] at hfuel
    -- the reader has skipped the blanks already when it finds that the list is not empty
    obtain ⟨c, tail, hhead, hc⟩ := hitems.head (']' :: s)
    have hread := hn.items (s := s) hitems (by omega)
    rw [← readItems_skipSpaces, hhead] at hread
    rw [readValue, List.cons_append, skipSpaces_cons (by decide), List.append_assoc,
      List.singleton_append]
    simp only [hhead]
    split
    next heq => exact absurd (List.cons.inj heq).1 hc
    next => rw [hread]
  | @noMembers blanks hblanks =>
    have hskip := skipSpaces_append_cons (c := '}') hblanks (by decide) s
    rw [readValue, List.cons_append, skipSpaces_cons (by decide), List.append_assoc,
      List.singleton_append]
    simp only [hskip]
  | @members ms cs hmembers =>
    simp only [List.length_cons, List.length_append, List.length_nil] at hfuel
    obtain ⟨tail, hhead⟩ := hmembers.head ('}' :: s)
    have hread := hn.members (s := s) hmembers (by omega)
    rw [← readMembers_skipSpaces, hhead] at hread
    rw [readValue, List.cons_append, skipSpaces_cons (by decide), List.append_assoc,
      List.singleton_append]
    simp only [hhead]
    split
    next heq => cases (List.cons.inj heq).1
    next => rw [hread]

theorem stops_cons {c : Char} (h : c.isDigit = false ∧ c ≠ '.' ∧ c ≠ 'e' ∧ c ≠ 'E') :
    Stops (c :: s) := by
  rintro d ⟨⟩
  exact h

theorem Complete.items_succ (hn : Complete n) (h : Items js cs)
    (hfuel : 2 * cs.length + 1 ≤ n + 1) : readItems (n + 1) (cs ++ ']' :: s) = some (js, s) := by
  rw [readItems]
  cases h with
  | last hitem =>
    obtain ⟨right, hright, hread⟩ :=
      hn.element (s := ']' :: s) hitem (stops_cons (by decide)) (by omega)
    have hskip := skipSpaces_append_cons (c := ']') hright (by decide) s
    simp only [hread, hskip]
  | @more j js cs tail hitem hitems =>
    simp only [List.length_cons, List.length_append] at hfuel
    obtain ⟨right, hright, hread⟩ :=
      hn.element (s := ',' :: (tail ++ ']' :: s)) hitem (stops_cons (by decide)) (by omega)
    have hskip := skipSpaces_append_cons (c := ',') hright (by decide) (tail ++ ']' :: s)
    rw [List.append_assoc, List.cons_append]
    simp only [hread, hskip, hn.items hitems (by omega)]

theorem Complete.members_succ (hn : Complete n) (h : Members ms cs)
    (hfuel : 2 * cs.length + 1 ≤ n + 1) :
    readMembers (n + 1) (cs ++ '}' :: s) = some (ms, s) := by
  rw [readMembers]
  cases h with
  | @last name j key cs hname hvalue =>
    simp only [List.length_cons, List.length_append] at hfuel
    obtain ⟨label, blanks, hquoted, hblanks, hhead⟩ := hname.skipSpaces (':' :: (cs ++ '}' :: s))
    have hcolon := skipSpaces_append_cons (c := ':') hblanks (by decide) (cs ++ '}' :: s)
    obtain ⟨right, hright, hread⟩ :=
      hn.element (s := '}' :: s) hvalue (stops_cons (by decide)) (by omega)
    have hskip := skipSpaces_append_cons (c := '}') hright (by decide) s
    rw [List.append_assoc, List.cons_append, hhead]
    simp only [readText_append hquoted, hcolon, hread, hskip]
  | @more name j ms key cs tail hname hvalue hmembers =>
    simp only [List.length_cons, List.length_append] at hfuel
    obtain ⟨label, blanks, hquoted, hblanks, hhead⟩ :=
      hname.skipSpaces (':' :: (cs ++ ',' :: (tail ++ '}' :: s)))
    have hcolon :=
      skipSpaces_append_cons (c := ':') hblanks (by decide) (cs ++ ',' :: (tail ++ '}' :: s))
    obtain ⟨right, hright, hread⟩ :=
      hn.element (s := ',' :: (tail ++ '}' :: s)) hvalue (stops_cons (by decide)) (by omega)
    have hskip := skipSpaces_append_cons (c := ',') hright (by decide) (tail ++ '}' :: s)
    rw [List.append_assoc, List.cons_append, List.append_assoc, List.cons_append, hhead]
    simp only [readText_append hquoted, hcolon, hread, hskip, hn.members hmembers (by omega)]

/-- By induction on the fuel, which goes down with every value, item and member. -/
theorem complete (n : Nat) : Complete n := by
  induction n with
  | zero =>
    refine ⟨fun h _ hfuel => ?_, fun _ hfuel => ?_, fun _ hfuel => ?_⟩
    · obtain ⟨c, tail, rfl, -⟩ := h.head
      simp at hfuel
    · omega
    · omega
  | succ n ih => exact ⟨ih.value_succ, ih.items_succ, ih.members_succ⟩

/-- With fuel `n` nothing is read but texts. -/
structure Sound (n : Nat) : Prop where
  value : ∀ {j s rest}, readValue n s = some (j, rest) →
    ∃ left cs, Spaces left ∧ Spelled j cs ∧ s = left ++ (cs ++ rest)
  items : ∀ {js s rest}, readItems n s = some (js, rest) →
    ∃ cs, Items js cs ∧ s = cs ++ ']' :: rest
  members : ∀ {ms s rest}, readMembers n s = some (ms, rest) →
    ∃ cs, Members ms cs ∧ s = cs ++ '}' :: rest

theorem exists_spaces_of_skipSpaces {t : List Char} (h : skipSpaces s = t) :
    ∃ left, Spaces left ∧ s = left ++ t := by
  subst h
  exact exists_spaces s

theorem Sound.value_succ (hn : Sound n) (h : readValue (n + 1) s = some (j, rest)) :
    ∃ left cs, Spaces left ∧ Spelled j cs ∧ s = left ++ (cs ++ rest) := by
  obtain ⟨left, hleft, hs⟩ := exists_spaces s
  rw [readValue] at h
  split at h
  next heq =>
    split at h
    next hread =>
      cases h
      obtain ⟨cs, hquoted, rfl⟩ := exists_quoted hread
      exact ⟨left, _, hleft, .string hquoted, by rw [hs, heq, List.cons_append]⟩
    next => cases h
  next tail heq =>
    split at h
    next hclose =>
      cases h
      obtain ⟨blanks, hblanks, rfl⟩ := exists_spaces_of_skipSpaces hclose
      exact ⟨left, _, hleft, .noItems hblanks, by rw [hs, heq]; simp⟩
    next =>
      split at h
      next hread =>
        cases h
        rw [readItems_skipSpaces] at hread
        obtain ⟨cs, hitems, rfl⟩ := hn.items hread
        exact ⟨left, _, hleft, .items hitems, by rw [hs, heq]; simp⟩
      next => cases h
  next tail heq =>
    split at h
    next hclose =>
      cases h
      obtain ⟨blanks, hblanks, rfl⟩ := exists_spaces_of_skipSpaces hclose
      exact ⟨left, _, hleft, .noMembers hblanks, by rw [hs, heq]; simp⟩
    next =>
      split at h
      next hread =>
        cases h
        rw [readMembers_skipSpaces] at hread
        obtain ⟨cs, hmembers, rfl⟩ := hn.members hread
        exact ⟨left, _, hleft, .members hmembers, by rw [hs, heq]; simp⟩
      next => cases h
  next heq =>
    cases h
    exact ⟨left, _, hleft, .null, by rw [hs, heq]; rfl⟩
  next heq =>
    cases h
    exact ⟨left, _, hleft, .yes, by rw [hs, heq]; rfl⟩
  next heq =>
    cases h
    exact ⟨left, _, hleft, .no, by rw [hs, heq]; rfl⟩
  next =>
    split at h
    next hread =>
      cases h
      obtain ⟨cs, hnumber, heq⟩ := exists_number hread
      exact ⟨left, _, hleft, .number hnumber, by rw [hs, heq]⟩
    next => cases h

theorem Sound.element (hn : Sound n) {t : List Char} (h : readValue n s = some (j, rest))
    (hrest : skipSpaces rest = t) : ∃ cs, Element j cs ∧ s = cs ++ t := by
  obtain ⟨left, cs, hleft, hspelled, rfl⟩ := hn.value h
  obtain ⟨right, hright, rfl⟩ := exists_spaces_of_skipSpaces hrest
  exact ⟨_, .mk hleft hspelled hright, by simp⟩

theorem Sound.items_succ (hn : Sound n) (h : readItems (n + 1) s = some (js, rest)) :
    ∃ cs, Items js cs ∧ s = cs ++ ']' :: rest := by
  rw [readItems] at h
  split at h
  next => cases h
  next hread =>
    split at h
    next hclose =>
      cases h
      obtain ⟨cs, hitem, rfl⟩ := hn.element hread hclose
      exact ⟨_, .last hitem, rfl⟩
    next hcomma =>
      split at h
      next htail =>
        cases h
        obtain ⟨cs, hitem, rfl⟩ := hn.element hread hcomma
        obtain ⟨tail, hitems, rfl⟩ := hn.items htail
        exact ⟨_, .more hitem hitems, by simp⟩
      next => cases h
    next => cases h

theorem Sound.members_succ (hn : Sound n) (h : readMembers (n + 1) s = some (ms, rest)) :
    ∃ cs, Members ms cs ∧ s = cs ++ '}' :: rest := by
  rw [readMembers] at h
  split at h
  next hquote =>
    obtain ⟨left, hleft, rfl⟩ := exists_spaces_of_skipSpaces hquote
    split at h
    next => cases h
    next hname =>
      obtain ⟨cs, hquoted, rfl⟩ := exists_quoted hname
      split at h
      next hcolon =>
        obtain ⟨right, hright, rfl⟩ := exists_spaces_of_skipSpaces hcolon
        have hlabel := Label.mk hleft hquoted hright
        split at h
        next => cases h
        next hread =>
          split at h
          next hclose =>
            cases h
            obtain ⟨cs, hvalue, rfl⟩ := hn.element hread hclose
            exact ⟨_, .last hlabel hvalue, by simp⟩
          next hcomma =>
            split at h
            next htail =>
              cases h
              obtain ⟨cs, hvalue, rfl⟩ := hn.element hread hcomma
              obtain ⟨tail, hmembers, rfl⟩ := hn.members htail
              exact ⟨_, .more hlabel hvalue hmembers, by simp⟩
            next => cases h
          next => cases h
      next => cases h
  next => cases h

theorem sound (n : Nat) : Sound n := by
  induction n with
  | zero =>
    refine ⟨fun h => ?_, fun h => ?_, fun h => ?_⟩
    · rw [readValue] at h
      cases h
    · rw [readItems] at h
      cases h
    · rw [readMembers] at h
      cases h
  | succ n ih => exact ⟨ih.value_succ, ih.items_succ, ih.members_succ⟩

/-- A text is read as the value that it spells, and nothing else is read. -/
theorem parse?_eq_some_iff {text : String} :
    parse? text = some j ↔ Element j text.toList := by
  unfold parse?
  constructor
  · intro h
    split at h
    next hread =>
      split at h
      next hend =>
        cases h
        obtain ⟨cs, helement, hs⟩ := (sound _).element hread (List.isEmpty_iff.mp hend)
        rwa [hs, List.append_nil]
      next => cases h
    next => cases h
  · intro h
    have hstops : Stops [] := fun c hc => by cases hc
    obtain ⟨right, hright, hread⟩ :=
      (complete (2 * text.toList.length + 1)).element h hstops (by omega)
    rw [List.append_nil, List.append_nil] at hread
    rw [hread]
    simp [skipSpaces_eq_nil_iff.mpr hright]

end ThresholdSigning.Json
