import ThresholdSigning.Proofs.Decimal
import ThresholdSigning.Proofs.Settings
import ThresholdSigning.Settings.Environment

namespace ThresholdSigning

/-- A text with blanks around its core, or without. -/
def Padded (core text : List Char) : Prop :=
  ∃ left right, text = left ++ core ++ right ∧ (∀ c ∈ left, isBlank c = true) ∧
    ∀ c ∈ right, isBlank c = true

theorem padded_trimBlanks (text : List Char) : Padded (trimBlanks text) text := by
  refine ⟨text.takeWhile isBlank, ((text.dropWhile isBlank).reverse.takeWhile isBlank).reverse,
    ?_, List.all_eq_true.mp List.all_takeWhile, fun c hc => ?_⟩
  · rw [List.append_assoc, trimBlanks, ← List.reverse_append, List.takeWhile_append_dropWhile,
      List.reverse_reverse, List.takeWhile_append_dropWhile]
  · exact List.all_eq_true.mp List.all_takeWhile c (List.mem_reverse.mp hc)

theorem dropWhile_isBlank_of_not {cs : List Char} (h : ∀ c ∈ cs, isBlank c = false) :
    cs.dropWhile isBlank = cs := by
  cases cs with
  | nil => rfl
  | cons c cs => rw [List.dropWhile_cons_of_neg (by simp [h c List.mem_cons_self])]

/-- A core without blanks is what is left of a padded text. -/
theorem Padded.trimBlanks_eq {core text : List Char} (h : Padded core text) (hsome : core ≠ [])
    (hcore : ∀ c ∈ core, isBlank c = false) : trimBlanks text = core := by
  obtain ⟨left, right, rfl, hleft, hright⟩ := h
  obtain ⟨c, cs, rfl⟩ := List.exists_cons_of_ne_nil hsome
  have hc : ¬ isBlank c = true := by simp [hcore c List.mem_cons_self]
  have hreverse : ∀ d ∈ (c :: cs).reverse, isBlank d = false :=
    fun d hd => hcore d (List.mem_reverse.mp hd)
  rw [trimBlanks, List.append_assoc, List.dropWhile_append_of_pos hleft, List.cons_append,
    List.dropWhile_cons_of_neg hc, ← List.cons_append, List.reverse_append,
    List.dropWhile_append_of_pos fun d hd => hright d (List.mem_reverse.mp hd),
    dropWhile_isBlank_of_not hreverse, List.reverse_reverse]

theorem trimBlanks_eq_iff {core text : List Char} (hsome : core ≠ [])
    (hcore : ∀ c ∈ core, isBlank c = false) : trimBlanks text = core ↔ Padded core text := by
  constructor
  · rintro rfl
    exact padded_trimBlanks text
  · exact fun h => h.trimBlanks_eq hsome hcore

theorem parseWord_trimBlanks_eq_ok_iff {text : List Char} {n : Nat} :
    parseWord (trimBlanks text) = .ok n ↔ ∃ core, Numeral core n ∧ Padded core text := by
  rw [parseWord_eq_ok_iff]
  constructor
  · exact fun h => ⟨_, h, padded_trimBlanks text⟩
  · rintro ⟨core, hnumeral, hpadded⟩
    obtain ⟨hsome, hcore⟩ := hnumeral.isBlank_eq_false
    rwa [hpadded.trimBlanks_eq hsome hcore]

/-- The word for a flag. -/
def flagWord (b : Bool) : List Char := (if b then "true" else "false").toList

theorem flagWord_isBlank_eq_false (b : Bool) :
    flagWord b ≠ [] ∧ ∀ c ∈ flagWord b, isBlank c = false := by
  cases b <;> simp [flagWord, isBlank]

theorem parseFlag_eq_some_iff {s : List Char} {b : Bool} :
    parseFlag s = some b ↔ s = flagWord b := by
  unfold parseFlag
  split
  next h =>
    subst h
    cases b <;> simp [flagWord]
  next htrue =>
    split
    next h =>
      subst h
      cases b <;> simp [flagWord]
    next hfalse =>
      have hnone : s ≠ flagWord b := by
        cases b with
        | false => exact hfalse
        | true => exact htrue
      simp [hnone]

theorem parseFlag_trimBlanks_eq_some_iff {text : List Char} {b : Bool} :
    parseFlag (trimBlanks text) = some b ↔ Padded (flagWord b) text := by
  obtain ⟨hsome, hcore⟩ := flagWord_isBlank_eq_false b
  rw [parseFlag_eq_some_iff, trimBlanks_eq_iff hsome hcore]

namespace Setting

/-- The environment variable that a setting is taken from. -/
def variableName : Setting → String
  | keyGeneration => "TSS_KEYGEN_TIMEOUT_SECS"
  | signing => "TSS_SIGNING_TIMEOUT_SECS"
  | preParams => "TSS_PRE_PARAMS_TIMEOUT_SECS"
  | joinInterval => "TSS_JOIN_RETRANSMIT_INTERVAL_MS"
  | requirePreParams => "TSS_REQUIRE_PRE_PARAMS"

theorem variableName_eq (x : Setting) : x.variableName = "TSS_" ++ x.name.toUpper := by
  cases x <;> decide +kernel

/-- What is chosen with the text of a variable: a length of time by a number, the flag by a word. -/
inductive Spells : Setting → List Char → Choice → Prop
  | word {x : Setting} {core text : List Char} {n : UInt64} (htime : x ≠ requirePreParams)
      (hnumeral : Numeral core n.toNat) (hpadded : Padded core text) : Spells x text (.word n)
  | flag {text : List Char} {b : Bool} (hpadded : Padded (flagWord b) text) :
      Spells requirePreParams text (.flag b)

/-- Why the text of a variable is refused. -/
inductive Refuses : Setting → List Char → SettingFault → Prop
  | number {x : Setting} {text : List Char} {fault : NumberFault} (htime : x ≠ requirePreParams)
      (hfault : parseWord (trimBlanks text) = .error fault) :
      Refuses x text (.badNumber x.variableName fault)
  | flag {text : List Char} (hnone : parseFlag (trimBlanks text) = none) :
      Refuses requirePreParams text (.badFlag requirePreParams.variableName)

variable {lookup : String → Option String} {x : Setting} {v w : Choice} {fault : SettingFault}

/-- What a setting becomes, which is its default where its variable is not set. -/
inductive Holds (lookup : String → Option String) (x : Setting) : Choice → Prop
  | unset (hunset : lookup x.variableName = none) : Holds lookup x (({} : Settings).get x)
  | set {text : String} {v : Choice} (hset : lookup x.variableName = some text)
      (hspells : x.Spells text.toList v) : Holds lookup x v

/-- The variable of a setting holds a text that spells nothing. -/
structure Offends (lookup : String → Option String) (x : Setting) (text : String)
    (fault : SettingFault) : Prop where
  isSet : lookup x.variableName = some text
  refuses : x.Refuses text.toList fault
  spellsNothing : ∀ v, ¬ x.Spells text.toList v

theorem spells_word_iff {text : List Char} {n : UInt64} (htime : x ≠ requirePreParams) :
    x.Spells text (.word n) ↔ parseWord (trimBlanks text) = .ok n.toNat := by
  rw [parseWord_trimBlanks_eq_ok_iff]
  constructor
  · rintro (⟨_, hnumeral, hpadded⟩ | _)
    exact ⟨_, hnumeral, hpadded⟩
  · rintro ⟨core, hnumeral, hpadded⟩
    exact .word htime hnumeral hpadded

theorem spells_flag_iff {text : List Char} {b : Bool} :
    requirePreParams.Spells text (.flag b) ↔ parseFlag (trimBlanks text) = some b := by
  rw [parseFlag_trimBlanks_eq_some_iff]
  constructor
  · intro h
    cases h with
    | flag hpadded => exact hpadded
  · exact .flag

theorem Spells.unique {text : List Char} (hv : x.Spells text v) (hw : x.Spells text w) :
    v = w := by
  cases hv with
  | word htime hnumeral hpadded =>
    cases hw with
    | word _ hnumeral' hpadded' =>
      have h := parseWord_trimBlanks_eq_ok_iff.mpr ⟨_, hnumeral, hpadded⟩
      have h' := parseWord_trimBlanks_eq_ok_iff.mpr ⟨_, hnumeral', hpadded'⟩
      rw [UInt64.toNat_inj.mp (Except.ok.inj (h.symm.trans h'))]
    | flag => exact absurd rfl htime
  | flag hpadded =>
    cases hw with
    | word htime => exact absurd rfl htime
    | flag hpadded' =>
      have h := parseFlag_trimBlanks_eq_some_iff.mpr hpadded
      have h' := parseFlag_trimBlanks_eq_some_iff.mpr hpadded'
      rw [Option.some.inj (h.symm.trans h')]

theorem Holds.unique (hv : x.Holds lookup v) (hw : x.Holds lookup w) : v = w := by
  cases hv with
  | unset hunset =>
    cases hw with
    | unset => rfl
    | set hset => cases hunset.symm.trans hset
  | set hset hspells =>
    cases hw with
    | unset hunset => cases hunset.symm.trans hset
    | set hset' hspells' =>
      obtain rfl := Option.some.inj (hset.symm.trans hset')
      exact hspells.unique hspells'

theorem Refuses.unique {text : List Char} {fault' : SettingFault} (h : x.Refuses text fault)
    (h' : x.Refuses text fault') : fault = fault' := by
  cases h with
  | number htime hfault =>
    cases h' with
    | number _ hfault' => rw [Except.error.inj (hfault.symm.trans hfault')]
    | flag => exact absurd rfl htime
  | flag =>
    cases h' with
    | number htime => exact absurd rfl htime
    | flag => rfl

theorem Offends.not_holds {text : String} (hoffends : x.Offends lookup text fault) :
    ¬ x.Holds lookup v := by
  intro hv
  cases hv with
  | unset hunset => cases hunset.symm.trans hoffends.isSet
  | set hset hspells =>
    obtain rfl := Option.some.inj (hset.symm.trans hoffends.isSet)
    exact hoffends.spellsNothing _ hspells

/-- Two reports of the first variable that cannot be read are the same. -/
theorem Offends.unique_of_first {y : Setting} {text text' : String} {fault' : SettingFault}
    (hx : x.Offends lookup text fault) (hxfirst : ∀ z < x, ∃ v, z.Holds lookup v)
    (hy : y.Offends lookup text' fault') (hyfirst : ∀ z < y, ∃ v, z.Holds lookup v) :
    fault = fault' := by
  obtain rfl : x = y := by
    refine eq_of_first (p := fun z => ¬ ∃ v, z.Holds lookup v) ?_ ?_ ?_ ?_
    · exact not_exists.mpr fun v => hx.not_holds
    · exact fun z hlt hnone => hnone (hxfirst z hlt)
    · exact not_exists.mpr fun v => hy.not_holds
    · exact fun z hlt hnone => hnone (hyfirst z hlt)
  obtain rfl := Option.some.inj (hx.isSet.symm.trans hy.isSet)
  exact hx.refuses.unique hy.refuses

end Setting

namespace Settings

open Setting

variable {lookup : String → Option String} {x : Setting} {s : Settings} {e : Error}

theorem wordVariable_cases {unset : UInt64} (htime : x ≠ .requirePreParams)
    (hdefault : ({} : Settings).get x = .word unset) :
    (∃ text fault, x.Offends lookup text fault ∧
        wordVariable lookup x.variableName unset = .error (.setting fault)) ∨
      ∃ n, x.Holds lookup (.word n) ∧ wordVariable lookup x.variableName unset = .ok n := by
  unfold wordVariable
  cases hset : lookup x.variableName with
  | none => exact .inr ⟨unset, hdefault ▸ .unset hset, rfl⟩
  | some text =>
    dsimp only
    cases hread : parseWord (trimBlanks text.toList) with
    | ok n =>
      obtain ⟨core, hnumeral, -⟩ := parseWord_trimBlanks_eq_ok_iff.mp hread
      refine .inr ⟨UInt64.ofNat n, .set hset ((spells_word_iff htime).mpr ?_), rfl⟩
      rw [hread, UInt64.toNat_ofNat_of_lt' hnumeral.lt_wordLimit]
    | error fault =>
      refine .inl ⟨text, _, ⟨hset, .number htime hread, fun v hspells => ?_⟩, rfl⟩
      cases hspells with
      | word _ hnumeral hpadded =>
        cases hread.symm.trans (parseWord_trimBlanks_eq_ok_iff.mpr ⟨_, hnumeral, hpadded⟩)
      | flag => exact htime rfl

theorem flagVariable_cases {unset : Bool}
    (hdefault : ({} : Settings).get .requirePreParams = .flag unset) :
    (∃ text fault, Offends lookup .requirePreParams text fault ∧
        flagVariable lookup (variableName .requirePreParams) unset = .error (.setting fault)) ∨
      ∃ b, Holds lookup .requirePreParams (.flag b) ∧
        flagVariable lookup (variableName .requirePreParams) unset = .ok b := by
  unfold flagVariable
  cases hset : lookup (variableName .requirePreParams) with
  | none => exact .inr ⟨unset, hdefault ▸ .unset hset, rfl⟩
  | some text =>
    dsimp only
    cases hread : parseFlag (trimBlanks text.toList) with
    | some b => exact .inr ⟨b, .set hset (spells_flag_iff.mpr hread), rfl⟩
    | none =>
      refine .inl ⟨text, _, ⟨hset, .flag hread, fun v hspells => ?_⟩, rfl⟩
      cases hspells with
      | word htime => exact htime rfl
      | flag hpadded => cases hread.symm.trans (parseFlag_trimBlanks_eq_some_iff.mpr hpadded)

/-- All that can come of reading the variables in order. -/
inductive Readings (lookup : String → Option String) : Except Error Settings → Prop
  | refused {x : Setting} {text : String} {fault : SettingFault}
      (hoffends : x.Offends lookup text fault) (hfirst : ∀ y < x, ∃ v, y.Holds lookup v) :
      Readings lookup (.error (.setting fault))
  | complete {s : Settings} (hholds : ∀ x, Holds lookup x (s.get x)) :
      Readings lookup (s.validate.map fun _ => s)

/-- One variable is read, and then the rest. -/
theorem Readings.bind {α : Type} {choice : α → Choice} {read : Except Error α}
    {rest : α → Except Error Settings} (hfirst : ∀ y < x, ∃ v, y.Holds lookup v)
    (hread : (∃ text fault, x.Offends lookup text fault ∧ read = .error (.setting fault)) ∨
      ∃ a, x.Holds lookup (choice a) ∧ read = .ok a)
    (hrest : ∀ a, x.Holds lookup (choice a) → Readings lookup (rest a)) :
    Readings lookup (read >>= rest) := by
  obtain ⟨text, fault, hoffends, rfl⟩ | ⟨a, hholds, rfl⟩ := hread
  · exact .refused hoffends hfirst
  · exact hrest a hholds

theorem ofEnvironment_readings (lookup : String → Option String) :
    Readings lookup (ofEnvironment lookup) := by
  have hearlier {x : Setting} (h : ∀ y ∈ Setting.all.takeWhile (· ≠ x), ∃ v, y.Holds lookup v) :
      ∀ y < x, ∃ v, y.Holds lookup v := fun y hlt => h y (lt_iff_mem.mp hlt)
  -- a variable is read only where all before it could be; these facts pile up as `hsome`
  refine .bind (x := .keyGeneration) (hearlier (by simp [Setting.all]))
    (wordVariable_cases (by decide) rfl) fun keyGeneration hkeyGeneration => ?_
  have hsome := Exists.intro _ hkeyGeneration
  refine .bind (x := .signing) (hearlier (by simp [Setting.all, *]))
    (wordVariable_cases (by decide) rfl) fun signing hsigning => ?_
  have hsome := Exists.intro _ hsigning
  refine .bind (x := .preParams) (hearlier (by simp [Setting.all, *]))
    (wordVariable_cases (by decide) rfl) fun preParams hpreParams => ?_
  have hsome := Exists.intro _ hpreParams
  refine .bind (x := .joinInterval) (hearlier (by simp [Setting.all, *]))
    (wordVariable_cases (by decide) rfl) fun joinInterval hjoinInterval => ?_
  have hsome := Exists.intro _ hjoinInterval
  refine .bind (x := .requirePreParams) (hearlier (by simp [Setting.all, *]))
    (flagVariable_cases rfl) fun require hrequire => ?_
  have hvalidate (s : Settings) :
      (do s.validate; return s : Except Error Settings) = s.validate.map fun _ => s := by
    cases s.validate <;> rfl
  rw [hvalidate]
  refine .complete fun x => ?_
  cases x <;> assumption

theorem validate_map_eq_ok_iff {s' : Settings} :
    (s.validate.map fun _ => s) = .ok s' ↔ s = s' ∧ s.validate = .ok () := by
  cases s.validate <;> simp [Except.map]

theorem validate_map_eq_error_iff :
    (s.validate.map fun _ => s) = .error e ↔ s.validate = .error e := by
  cases s.validate <;> simp [Except.map]

theorem Readings.eq_ok_iff {r : Except Error Settings} (h : Readings lookup r) :
    r = .ok s ↔ (∀ x, Holds lookup x (s.get x)) ∧ s.validate = .ok () := by
  cases h with
  | refused hoffends _ =>
    constructor
    · rintro ⟨⟩
    · exact fun h => absurd (h.1 _) hoffends.not_holds
  | @complete s' hholds =>
    rw [validate_map_eq_ok_iff]
    constructor
    · rintro ⟨rfl, hvalid⟩
      exact ⟨hholds, hvalid⟩
    · rintro ⟨hholds', hvalid⟩
      obtain rfl : s' = s := eq_of_get fun x => (hholds x).unique (hholds' x)
      exact ⟨rfl, hvalid⟩

theorem Readings.eq_error_iff {r : Except Error Settings} (h : Readings lookup r) :
    r = .error e ↔
      (∃ x text fault, Offends lookup x text fault ∧ (∀ y < x, ∃ v, Holds lookup y v) ∧
        e = .setting fault) ∨
      ∃ s : Settings, (∀ x, Holds lookup x (s.get x)) ∧ s.validate = .error e := by
  cases h with
  | @refused x text fault hoffends hfirst =>
    constructor
    · rintro ⟨⟩
      exact .inl ⟨x, text, fault, hoffends, hfirst, rfl⟩
    · rintro (⟨x', text', fault', hoffends', hfirst', rfl⟩ | ⟨s, hholds, -⟩)
      · rw [hoffends.unique_of_first hfirst hoffends' hfirst']
      · exact absurd (hholds x) hoffends.not_holds
  | @complete s hholds =>
    rw [validate_map_eq_error_iff]
    constructor
    · exact fun hinvalid => .inr ⟨s, hholds, hinvalid⟩
    · rintro (⟨x, text, fault, hoffends, -⟩ | ⟨s', hholds', hinvalid⟩)
      · exact absurd (hholds x) hoffends.not_holds
      · obtain rfl : s = s' := eq_of_get fun x => (hholds x).unique (hholds' x)
        exact hinvalid

/-- The variables of the settings, and they alone, decide. Each that is set has to spell a choice,
and no length of time may be zero; the first variable that spells nothing is reported, and only
where there is none the first length of time that is zero. -/
theorem ofEnvironment_decided (lookup : String → Option String) :
    (∀ s, ofEnvironment lookup = .ok s ↔
        (∀ x, Holds lookup x (s.get x)) ∧ ∀ x, s.get x ≠ .word 0) ∧
      (∀ s : Settings, s.validate = .ok () ↔ ∀ x, s.get x ≠ .word 0) ∧
      (∀ e, ofEnvironment lookup = .error e ↔
        (∃ x text fault, Offends lookup x text fault ∧ (∀ y < x, ∃ v, Holds lookup y v) ∧
          e = .setting fault) ∨
        ∃ s : Settings, (∀ x, Holds lookup x (s.get x)) ∧
          ∃ x, s.get x = .word 0 ∧ (∀ y < x, s.get y ≠ .word 0) ∧
            e = .setting (.notPositive x.name)) ∧
      ofEnvironment
          (fun name => if name ∈ Setting.all.map variableName then lookup name else none) =
        ofEnvironment lookup ∧
      ∀ x : Setting, x.variableName = "TSS_" ++ x.name.toUpper := by
  have hreadings := ofEnvironment_readings lookup
  refine ⟨fun s => ?_, fun s => validate_eq_ok_iff_get, fun e => ?_, ?_, variableName_eq⟩
  · rw [hreadings.eq_ok_iff, validate_eq_ok_iff_get]
  · simp only [hreadings.eq_error_iff, validate_eq_error_iff_get]
  · simp [ofEnvironment, wordVariable, flagVariable, Setting.all, variableName]

/-- An unreadable flag is reported before a time of zero that stands in front of it. -/
example : ofEnvironment (fun name =>
    if name = "TSS_SIGNING_TIMEOUT_SECS" then some " +0 "
    else if name = "TSS_REQUIRE_PRE_PARAMS" then some "True" else none) =
      .error (.setting (.badFlag "TSS_REQUIRE_PRE_PARAMS")) := by
  decide +kernel

end Settings

end ThresholdSigning
