import ThresholdSigning.Proofs.Members
import ThresholdSigning.Proofs.Settings
import ThresholdSigning.Proofs.Writer
import ThresholdSigning.Settings.Document

namespace ThresholdSigning

open Json (named member? Slot)

/-- The value that a choice is written as. -/
def Choice.toJson : Choice → Json
  | word n => .ofWord n
  | flag b => .bool b

namespace Setting

/-- The choice that a value stands for: a length of time by a natural number of 64 bits, the flag
by a truth value. -/
inductive Denotes : Setting → Json → Choice → Prop
  | word {x : Setting} (htime : x ≠ requirePreParams) (n : UInt64) :
      Denotes x (.number (some n.toNat)) (.word n)
  | flag (b : Bool) : Denotes requirePreParams (.bool b) (.flag b)

/-- What a setting becomes, which is its default where no member has its name. -/
inductive Filled (members : List (String × Json)) (x : Setting) : Choice → Prop
  | absent (habsent : Slot members x.name none) : Filled members x (({} : Settings).get x)
  | given {j : Json} {v : Choice} (hgiven : Slot members x.name (some j))
      (hdenotes : x.Denotes j v) : Filled members x v

/-- The name of a setting is repeated, or what stands under it denotes nothing. -/
inductive Misfilled (members : List (String × Json)) (x : Setting) : Prop
  | repeated (hmany : 1 < (members.map Prod.fst).count x.name)
  | senseless {j : Json} (hmem : (x.name, j) ∈ members) (hnone : ∀ v, ¬ x.Denotes j v)

variable {members : List (String × Json)} {x : Setting} {v w : Choice} {j : Json}

theorem Denotes.unique (hv : x.Denotes j v) (hw : x.Denotes j w) : v = w := by
  cases hv with
  | word htime n =>
    generalize hj : Json.number (some n.toNat) = j at hw
    cases hw with
    | word _ m =>
      injection hj with hj
      rw [UInt64.toNat_inj.mp (Option.some.inj hj)]
    | flag => exact absurd rfl htime
  | flag b =>
    cases hw with
    | flag => rfl

theorem Filled.field (h : x.Filled members v) :
    Json.Filled members x.name x.Denotes (some (({} : Settings).get x)) v := by
  cases h with
  | absent habsent => exact .absent habsent rfl
  | given hgiven hdenotes => exact .given hgiven hdenotes

theorem Misfilled.field (h : x.Misfilled members) :
    Json.Misfilled members x.name x.Denotes (some (({} : Settings).get x)) := by
  cases h with
  | repeated hmany => exact .repeated hmany
  | senseless hmem hnone => exact .senseless hmem hnone

theorem Filled.unique (hv : x.Filled members v) (hw : x.Filled members w) : v = w :=
  hv.field.unique hw.field Denotes.unique

theorem Misfilled.not_filled (h : x.Misfilled members) : ¬ x.Filled members v :=
  fun hfilled => Json.misfilled_iff.mp h.field v hfilled.field

end Setting

namespace Settings

open Setting

variable {members : List (String × Json)} {x : Setting} {s : Settings}

theorem ofJson?_named (members : List (String × Json)) :
    ofJson? (.object (named members)) = do
      let keyGeneration ← (member? (named members) (Setting.name .keyGeneration)).bind
        (field Json.word? ({} : Settings).keyGenerationSecs)
      let signing ← (member? (named members) (Setting.name .signing)).bind
        (field Json.word? ({} : Settings).signingSecs)
      let preParams ← (member? (named members) (Setting.name .preParams)).bind
        (field Json.word? ({} : Settings).preParamsSecs)
      let joinInterval ← (member? (named members) (Setting.name .joinInterval)).bind
        (field Json.word? ({} : Settings).joinIntervalMillis)
      let require ← (member? (named members) (Setting.name .requirePreParams)).bind
        (field Json.flag? ({} : Settings).requirePreParams)
      return ⟨keyGeneration, signing, preParams, joinInterval, require⟩ := by
  rw [ofJson?, Json.record?_named]
  simp only [List.mapM_cons, List.mapM_nil, Setting.name]
  cases member? (named members) keyGenerationName with
  | none => rfl
  | some keyGeneration =>
  cases member? (named members) signingName with
  | none => simp
  | some signing =>
  cases member? (named members) preParamsName with
  | none => simp
  | some preParams =>
  cases member? (named members) joinIntervalName with
  | none => simp
  | some joinInterval =>
  cases member? (named members) requirePreParamsName with
  | none => simp
  | some require => rfl

theorem member_cases {α : Type} {read : Json → Option α} {choice : α → Choice} {unset : α}
    (hdefault : ({} : Settings).get x = choice unset)
    (hread : ∀ {j a}, read j = some a ↔ x.Denotes j (choice a))
    (hchoice : ∀ {j v}, x.Denotes j v → ∃ a, v = choice a) :
    (x.Misfilled members ∧ (member? (named members) x.name).bind (field read unset) = none) ∨
      ∃ a, x.Filled members (choice a) ∧
        (member? (named members) x.name).bind (field read unset) = some a := by
  obtain ⟨hmany, hmember⟩ | ⟨slot, hslot, hmember⟩ := Json.member?_cases members x.name
  · exact .inl ⟨.repeated hmany, by rw [hmember]; rfl⟩
  rw [hmember, Option.bind_some]
  cases slot with
  | none => exact .inr ⟨unset, hdefault ▸ .absent hslot, rfl⟩
  | some j =>
    cases hvalue : read j with
    | some a => exact .inr ⟨a, .given hslot (hread.mp hvalue), hvalue⟩
    | none =>
      cases hslot with
      | given _ hmem =>
        refine .inl ⟨.senseless hmem fun v hdenotes => ?_, hvalue⟩
        obtain ⟨a, rfl⟩ := hchoice hdenotes
        cases hvalue.symm.trans (hread.mpr hdenotes)

theorem word_cases {unset : UInt64} (htime : x ≠ .requirePreParams)
    (hdefault : ({} : Settings).get x = .word unset) :
    (x.Misfilled members ∧ (member? (named members) x.name).bind (field Json.word? unset) = none) ∨
      ∃ n, x.Filled members (.word n) ∧
        (member? (named members) x.name).bind (field Json.word? unset) = some n := by
  refine member_cases hdefault ?_ ?_
  · intro j n
    rw [Json.word?_eq_some_iff]
    constructor
    · rintro rfl
      exact .word htime n
    · rintro ⟨⟩
      rfl
  · intro j v h
    cases h with
    | word _ n => exact ⟨n, rfl⟩
    | flag => exact absurd rfl htime

theorem flag_cases {unset : Bool} (hdefault : ({} : Settings).get .requirePreParams = .flag unset) :
    (Misfilled members .requirePreParams ∧
        (member? (named members) (name .requirePreParams)).bind (field Json.flag? unset) = none) ∨
      ∃ b, Filled members .requirePreParams (.flag b) ∧
        (member? (named members) (name .requirePreParams)).bind (field Json.flag? unset) =
          some b := by
  refine member_cases hdefault ?_ ?_
  · intro j b
    rw [Json.flag?_eq_some_iff]
    constructor
    · rintro rfl
      exact .flag b
    · rintro ⟨⟩
      rfl
  · intro j v h
    cases h with
    | word htime => exact absurd rfl htime
    | flag b => exact ⟨b, rfl⟩

/-- All that can come of the members of an object. -/
inductive Entries (members : List (String × Json)) : Option Settings → Prop
  | refused {x : Setting} (hmisfilled : x.Misfilled members) : Entries members none
  | complete {s : Settings} (hfilled : ∀ x, Filled members x (s.get x)) : Entries members (some s)

/-- One member is taken, and then the rest. -/
theorem Entries.bind {α : Type} {choice : α → Choice} {read : Option α}
    {rest : α → Option Settings}
    (hread : (x.Misfilled members ∧ read = none) ∨ ∃ a, x.Filled members (choice a) ∧ read = some a)
    (hrest : ∀ a, x.Filled members (choice a) → Entries members (rest a)) :
    Entries members (read >>= rest) := by
  obtain ⟨hmisfilled, rfl⟩ | ⟨a, hfilled, rfl⟩ := hread
  · exact .refused hmisfilled
  · exact hrest a hfilled

theorem ofJson?_entries (members : List (String × Json)) :
    Entries members (ofJson? (.object (named members))) := by
  rw [ofJson?_named]
  refine .bind (word_cases (by decide) rfl) fun keyGeneration hkeyGeneration => ?_
  refine .bind (word_cases (by decide) rfl) fun signing hsigning => ?_
  refine .bind (word_cases (by decide) rfl) fun preParams hpreParams => ?_
  refine .bind (word_cases (by decide) rfl) fun joinInterval hjoinInterval => ?_
  refine .bind (flag_cases rfl) fun require hrequire => ?_
  refine .complete fun x => ?_
  cases x <;> assumption

theorem Entries.eq_some_iff {r : Option Settings} (h : Entries members r) :
    r = some s ↔ ∀ x, Filled members x (s.get x) := by
  cases h with
  | refused hmisfilled =>
    constructor
    · rintro ⟨⟩
    · exact fun hfilled => absurd (hfilled _) hmisfilled.not_filled
  | complete hfilled =>
    constructor
    · rintro ⟨⟩
      exact hfilled
    · exact fun hfilled' => congrArg some (eq_of_get fun x => (hfilled x).unique (hfilled' x))

theorem Entries.eq_none_iff {r : Option Settings} (h : Entries members r) :
    r = none ↔ ∃ x, Misfilled members x := by
  cases h with
  | refused hmisfilled => exact ⟨fun _ => ⟨_, hmisfilled⟩, fun _ => rfl⟩
  | complete hfilled =>
    constructor
    · rintro ⟨⟩
    · rintro ⟨x, hmisfilled⟩
      exact absurd (hfilled x) hmisfilled.not_filled

theorem toJson_eq (s : Settings) :
    s.toJson = .object (named (Setting.all.map fun x => (x.name, (s.get x).toJson))) :=
  rfl

theorem filled_toJson (s : Settings) (x : Setting) :
    x.Filled (Setting.all.map fun x => (x.name, (s.get x).toJson)) (s.get x) := by
  have honce : (Setting.all.map Setting.name).count x.name = 1 := by cases x <;> decide
  have hmem := List.mem_map_of_mem (f := fun x => (x.name, (s.get x).toJson)) (mem_all x)
  refine .given (.given ?_ hmem) ?_
  · rw [List.map_map]
    exact honce
  · cases x with
    | requirePreParams => exact .flag _
    | _ => exact .word (by decide) _

theorem parse?_eq_ofJson? {text : String} {j : Json} (h : j.Element text.toList) :
    parse? text = ofJson? j := by
  rw [parse?, Json.parse?_eq_some_iff.mpr h]
  rfl

/-- Settings are restored from the text that is written for them. From any text that spells an
object, in whatever order its members come and whatever else it holds, each setting is taken as it
is given, or is left at its default; the text is refused if a setting is given twice, or as no
setting of its kind. -/
theorem parse?_of_object (s : Settings) (members : List (String × Json)) (text : String)
    (hobject : Json.Element (.object (named members)) text.toList) :
    parse? s.text = some s ∧
      (∀ s', parse? text = some s' ↔ ∀ x, Filled members x (s'.get x)) ∧
      (parse? text = none ↔ ∃ x, Misfilled members x) := by
  refine ⟨?_, fun s' => ?_, ?_⟩
  · have htext : s.toJson.Element s.text.toList :=
      Json.parse?_eq_some_iff.mp (Json.parse?_text s.toJson)
    rw [parse?_eq_ofJson? htext, toJson_eq, (ofJson?_entries _).eq_some_iff]
    exact filled_toJson s
  · rw [parse?_eq_ofJson? hobject, (ofJson?_entries members).eq_some_iff]
  · rw [parse?_eq_ofJson? hobject, (ofJson?_entries members).eq_none_iff]

/-- A document that gives two settings out of order, the largest number among them, and names a
note of its own twice. -/
def annotatedText : String :=
  " \x7b\"note\":[\x7b\"é\\n\":[-1,\"\\ud800\"]\x7d,null],\"require_pre_params\":true," ++
    "\"note\":\x7b\x7d,\"keygen_timeout_secs\":18446744073709551615\x7d\n"

def annotatedMembers : List (String × Json) :=
  [("note", .array [.object [(some "é\n", .array [.number none, .string none])], .null]),
    ("require_pre_params", .bool true), ("note", .object []),
    ("keygen_timeout_secs", .number (some 18446744073709551615))]

theorem parse?_annotated :
    Json.Element (.object (named annotatedMembers)) annotatedText.toList ∧
      parse? annotatedText =
        some { keyGenerationSecs := 18446744073709551615, requirePreParams := true } := by
  have hobject : Json.Element (.object (named annotatedMembers)) annotatedText.toList := by
    have htext : annotatedText.toList =
        [' '] ++ ((Json.object (named annotatedMembers)).write ++ ['\n']) := by
      decide +kernel
    rw [htext]
    exact .mk (by simp [Json.Spaces, Json.isSpace]) (Json.spelled_write _)
      (by simp [Json.Spaces, Json.isSpace])
  refine ⟨hobject, ((parse?_of_object {} annotatedMembers annotatedText hobject).2.1 _).mpr ?_⟩
  intro x
  cases x with
  | keyGeneration =>
    have hmem : ("keygen_timeout_secs", Json.number (some 18446744073709551615)) ∈
        annotatedMembers := by simp [annotatedMembers]
    exact .given (.given (by decide) hmem) (.word (by decide) 18446744073709551615)
  | signing => exact .absent (.absent (by decide))
  | preParams => exact .absent (.absent (by decide))
  | joinInterval => exact .absent (.absent (by decide))
  | requirePreParams =>
    have hmem : ("require_pre_params", Json.bool true) ∈ annotatedMembers := by
      simp [annotatedMembers]
    exact .given (.given (by decide) hmem) (.flag true)

end Settings

end ThresholdSigning
