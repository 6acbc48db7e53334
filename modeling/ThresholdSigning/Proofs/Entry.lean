import ThresholdSigning.Event.Document
import ThresholdSigning.Proofs.Members
import ThresholdSigning.Proofs.Writer

namespace ThresholdSigning

open Json (named member? Slot Filled Misfilled OrNull)

namespace EventKind

theorem ofName?_eq_some_iff {name : String} {k : EventKind} :
    ofName? name = some k ↔ name = k.name := by
  constructor
  · intro h
    have hname := List.find?_some h
    exact (of_decide_eq_true hname).symm
  · rintro rfl
    exact ofName?_name k

/-- A kind is given by its name, or by an object that has nothing but the name. -/
inductive Denoted : Json → EventKind → Prop
  | text (k : EventKind) : Denoted (.ofText k.name) k
  | object (k : EventKind) : Denoted (.object [(some k.name, .null)]) k

theorem ofJson?_eq_some_iff {j : Json} {k : EventKind} : ofJson? j = some k ↔ Denoted j k := by
  unfold ofJson?
  constructor
  · intro h
    split at h
    next name =>
      rw [ofName?_eq_some_iff.mp h]
      exact .text k
    next name =>
      rw [ofName?_eq_some_iff.mp h]
      exact .object k
    next => cases h
  · intro h
    cases h with
    | text => exact ofName?_name k
    | object => exact ofName?_name k

end EventKind

namespace Context

variable {c : Context} {name value other : String} {entries : List (String × String)}

theorem lookup_put :
    (put name value entries).lookup other =
      if other = name then some value else entries.lookup other := by
  induction entries with
  | nil =>
    by_cases hother : other = name
    · subst hother
      simp [put]
    · simp [put, hother]
  | cons entry entries ih =>
    obtain ⟨first, text⟩ := entry
    by_cases hfirst : first = name
    · subst hfirst
      by_cases hother : other = first
      · subst hother
        simp [put]
      · simp [put, hother, List.lookup_cons, beq_eq_false_iff_ne.mpr hother]
    · by_cases hother : other = first
      · subst hother
        simp [put, hfirst]
      · simp [put, hfirst, ih, List.lookup_cons, beq_eq_false_iff_ne.mpr hother]

/-- Of several values under a name the last counts. -/
theorem lookup?_foldl_insert (calls : List (String × String)) (c : Context) :
    (calls.foldl (fun c call => c.insert call.1 call.2) c).lookup? name =
      (calls.reverse.lookup name).or (c.lookup? name) := by
  induction calls generalizing c with
  | nil => rfl
  | cons call calls ih =>
    rw [List.foldl_cons, ih, List.reverse_cons, List.lookup_append, Option.or_assoc]
    congr 1
    rw [lookup?, insert, lookup_put, lookup?, List.lookup_cons]
    split
    next hname => rw [beq_iff_eq.mpr hname, Option.some_or]
    next hname => rw [beq_eq_false_iff_ne.mpr hname, List.lookup_nil, Option.none_or]

theorem put_of_not_mem (h : name ∉ entries.map Prod.fst) :
    put name value entries = entries ++ [(name, value)] := by
  induction entries with
  | nil => rfl
  | cons entry entries ih =>
    rw [List.map_cons, List.mem_cons, not_or] at h
    rw [put, if_neg (Ne.symm h.1), ih h.2, List.cons_append]

theorem entries_foldl_insert {tail : List (String × String)}
    (h : ((c.entries ++ tail).map Prod.fst).Nodup) :
    (tail.foldl (fun c entry => c.insert entry.1 entry.2) c).entries = c.entries ++ tail := by
  induction tail generalizing c with
  | nil => exact (List.append_nil _).symm
  | cons entry tail ih =>
    have hfresh : entry.1 ∉ c.entries.map Prod.fst := by
      rw [List.map_append, List.map_cons] at h
      intro hmem
      exact (List.nodup_append.mp h).2.2 _ hmem _ List.mem_cons_self rfl
    have hinsert : (c.insert entry.1 entry.2).entries = c.entries ++ [entry] :=
      put_of_not_mem hfresh
    rw [List.foldl_cons, ih, hinsert, List.append_assoc, List.singleton_append]
    rwa [hinsert, List.append_assoc, List.singleton_append]

theorem eq_of_entries_eq {d : Context} (h : c.entries = d.entries) : c = d := by
  cases c
  cases d
  cases h
  rfl

theorem ofList_entries (c : Context) : ofList c.entries = c :=
  eq_of_entries_eq (entries_foldl_insert (c := empty) c.nodup)

/-- The members of an object that has texts by name. -/
def texts (entries : List (String × String)) : List (String × Json) :=
  entries.map fun entry => (entry.1, .ofText entry.2)

/-- Texts by name are given by an object of texts. Of members with one name the last counts. -/
inductive Denoted : Json → Context → Prop
  | object (entries : List (String × String)) :
      Denoted (.object (named (texts entries))) (ofList entries)

theorem mapM_eq_some_iff {members : List (Option String × Json)} :
    members.mapM (fun member => do return (← member.1, ← member.2.text?)) = some entries ↔
      members = named (texts entries) := by
  constructor
  · intro h
    induction members generalizing entries with
    | nil =>
      cases h
      rfl
    | cons member members ih =>
      rw [List.mapM_cons] at h
      obtain ⟨entry, hentry, h⟩ := Option.bind_eq_some_iff.mp h
      obtain ⟨tail, htail, h⟩ := Option.bind_eq_some_iff.mp h
      cases h
      obtain ⟨name, hname, hentry⟩ := Option.bind_eq_some_iff.mp hentry
      obtain ⟨text, htext, hentry⟩ := Option.bind_eq_some_iff.mp hentry
      cases hentry
      rw [ih htail, ← Prod.eta member, hname, Json.text?_eq_some_iff.mp htext]
      rfl
  · rintro rfl
    induction entries with
    | nil => rfl
    | cons entry entries ih =>
      rw [texts, List.map_cons, named, List.map_cons, List.mapM_cons]
      exact congrArg (Option.bind · fun tail => some (entry :: tail)) ih

theorem ofJson?_eq_some_iff {j : Json} : ofJson? j = some c ↔ Denoted j c := by
  constructor
  · intro h
    unfold ofJson? at h
    split at h
    next members =>
      obtain ⟨entries, hentries, hc⟩ := Option.bind_eq_some_iff.mp h
      rw [mapM_eq_some_iff.mp hentries]
      cases hc
      exact .object entries
    next => cases h
  · intro h
    cases h with
    | object entries =>
      have hentries := mapM_eq_some_iff.mpr (rfl : named (texts entries) = named (texts entries))
      exact congrArg (Option.bind · fun entries => some (ofList entries)) hentries

theorem toJson_eq (c : Context) : c.toJson = .object (named (texts c.entries)) := by
  rw [texts, named, List.map_map]
  rfl

theorem denoted_toJson (c : Context) : Denoted c.toJson c := by
  have h := Denoted.object c.entries
  rwa [ofList_entries, ← toJson_eq] at h

end Context

/-- Contexts are put in one after the other, and nothing else of the event changes. -/
theorem Event.foldl_withContext (calls : List (String × String)) (e : Event) :
    calls.foldl (fun e call => e.withContext call.1 call.2) e =
      { e with context := calls.foldl (fun c call => c.insert call.1 call.2) e.context } := by
  induction calls generalizing e with
  | nil => rfl
  | cons call calls ih =>
    rw [List.foldl_cons, ih]
    rfl

namespace LogEntry

variable {members : List (String × Json)} {name : String} {entry : LogEntry}

def IsText (j : Json) (s : String) : Prop := j = .ofText s

def IsWord (j : Json) (n : UInt64) : Prop := j = .ofWord n

/-- The entry that the members of an object stand for. -/
structure Denotes (members : List (String × Json)) (entry : LogEntry) : Prop where
  kind : Filled members "event_type" EventKind.Denoted none entry.event.kind
  timestamp : Filled members "timestamp_ms" IsWord none entry.timestamp
  correlationId :
    Filled members "correlation_id" (OrNull IsText) (some none) entry.event.correlationId
  member : Filled members "member_id" (OrNull IsText) (some none) entry.event.member
  protocol : Filled members "protocol" (OrNull IsText) (some none) entry.event.protocol
  duration : Filled members "duration_ms" (OrNull IsWord) (some none) entry.event.duration
  context : Filled members "context" Context.Denoted (some .empty) entry.event.context
  error : Filled members "error" (OrNull IsText) (some none) entry.event.error

/-- The members of an object stand for no entry: a field cannot be filled. -/
inductive Refused (members : List (String × Json)) : Prop
  | kind (h : Misfilled members "event_type" EventKind.Denoted none)
  | timestamp (h : Misfilled members "timestamp_ms" IsWord none)
  | text {name : String} (hname : name ∈ ["correlation_id", "member_id", "protocol", "error"])
      (h : Misfilled members name (OrNull IsText) (some none))
  | duration (h : Misfilled members "duration_ms" (OrNull IsWord) (some none))
  | context (h : Misfilled members "context" Context.Denoted (some .empty))

theorem kind_eq_some_iff {kind : EventKind} :
    Json.field members name (·.bind EventKind.ofJson?) = some kind ↔
      Filled members name EventKind.Denoted none kind :=
  Json.field_eq_some_iff rfl EventKind.ofJson?_eq_some_iff

theorem word_eq_some_iff {n : UInt64} :
    Json.field members name (·.bind Json.word?) = some n ↔
      Filled members name IsWord none n :=
  Json.field_eq_some_iff rfl Json.word?_eq_some_iff

theorem optionalText_eq_some_iff {s : Option String} :
    Json.field members name (optional Json.text?) = some s ↔
      Filled members name (OrNull IsText) (some none) s := by
  refine Json.field_eq_some_iff rfl (Json.option?_eq_some_iff ?_ Json.text?_eq_some_iff)
  rintro s ⟨⟩

theorem optionalWord_eq_some_iff {n : Option UInt64} :
    Json.field members name (optional Json.word?) = some n ↔
      Filled members name (OrNull IsWord) (some none) n := by
  refine Json.field_eq_some_iff rfl (Json.option?_eq_some_iff ?_ Json.word?_eq_some_iff)
  rintro n ⟨⟩

theorem context_eq_some_iff {c : Context} :
    Json.field members name (fun slot => (slot.map Context.ofJson?).getD (some .empty)) = some c ↔
      Filled members name Context.Denoted (some .empty) c :=
  Json.field_eq_some_iff rfl Context.ofJson?_eq_some_iff

/-- The fields of an object are read one by one. -/
theorem ofJson?_named (members : List (String × Json)) :
    ofJson? (.object (named members)) = do
      let kind ← Json.field members "event_type" (·.bind EventKind.ofJson?)
      let timestamp ← Json.field members "timestamp_ms" (·.bind Json.word?)
      let correlationId ← Json.field members "correlation_id" (optional Json.text?)
      let member ← Json.field members "member_id" (optional Json.text?)
      let protocol ← Json.field members "protocol" (optional Json.text?)
      let duration ← Json.field members "duration_ms" (optional Json.word?)
      let context ← Json.field members "context" fun slot =>
        (slot.map Context.ofJson?).getD (some .empty)
      let error ← Json.field members "error" (optional Json.text?)
      return ⟨⟨kind, correlationId, member, protocol, duration, context, error⟩, timestamp⟩ := by
  rw [ofJson?, Json.record?_named]
  · simp only [Json.field, names, List.mapM_cons, List.mapM_nil]
    cases member? (named members) "event_type" with
    | none => rfl
    | some kind =>
    cases member? (named members) "timestamp_ms" with
    | none => simp
    | some timestamp =>
    cases member? (named members) "correlation_id" with
    | none => simp
    | some correlationId =>
    cases member? (named members) "member_id" with
    | none => simp
    | some member =>
    cases member? (named members) "protocol" with
    | none => simp
    | some protocol =>
    cases member? (named members) "duration_ms" with
    | none => simp
    | some duration =>
    cases member? (named members) "context" with
    | none => simp
    | some context =>
    cases member? (named members) "error" with
    | none => simp
    | some error =>
    cases kind with
    | none => rfl
    | some kind =>
    cases timestamp with
    | none => simp [ofJson?.read?]
    | some timestamp => rfl
  · rintro items ⟨⟩

theorem ofJson?_eq_some_iff :
    ofJson? (.object (named members)) = some entry ↔ Denotes members entry := by
  rw [ofJson?_named]
  simp only [Option.bind_eq_bind, Option.bind_eq_some_iff, kind_eq_some_iff, word_eq_some_iff,
    optionalText_eq_some_iff, optionalWord_eq_some_iff, context_eq_some_iff]
  constructor
  · rintro ⟨kind, hkind, timestamp, htimestamp, correlationId, hcorrelationId, member, hmember,
      protocol, hprotocol, duration, hduration, context, hcontext, error, herror, ⟨⟩⟩
    exact ⟨hkind, htimestamp, hcorrelationId, hmember, hprotocol, hduration, hcontext, herror⟩
  · intro h
    exact ⟨_, h.kind, _, h.timestamp, _, h.correlationId, _, h.member, _, h.protocol, _,
      h.duration, _, h.context, _, h.error, rfl⟩

theorem Refused.not_denotes (h : Refused members) : ¬ Denotes members entry := by
  intro hdenotes
  cases h with
  | kind h => exact Json.misfilled_iff.mp h _ hdenotes.kind
  | timestamp h => exact Json.misfilled_iff.mp h _ hdenotes.timestamp
  | text hname h =>
    have hempty := Json.misfilled_iff.mp h
    simp only [List.mem_cons, List.not_mem_nil, or_false] at hname
    rcases hname with rfl | rfl | rfl | rfl
    · exact hempty _ hdenotes.correlationId
    · exact hempty _ hdenotes.member
    · exact hempty _ hdenotes.protocol
    · exact hempty _ hdenotes.error
  | duration h => exact Json.misfilled_iff.mp h _ hdenotes.duration
  | context h => exact Json.misfilled_iff.mp h _ hdenotes.context

theorem exists_denotes_of_not_refused (h : ¬ Refused members) : ∃ entry, Denotes members entry := by
  have htext (name : String)
      (hname : name ∈ ["correlation_id", "member_id", "protocol", "error"]) :=
    Json.exists_filled fun hmisfilled => h (.text hname hmisfilled)
  obtain ⟨kind, hkind⟩ := Json.exists_filled fun hmisfilled => h (.kind hmisfilled)
  obtain ⟨timestamp, htimestamp⟩ := Json.exists_filled fun hmisfilled => h (.timestamp hmisfilled)
  obtain ⟨correlationId, hcorrelationId⟩ := htext "correlation_id" (by simp)
  obtain ⟨member, hmember⟩ := htext "member_id" (by simp)
  obtain ⟨protocol, hprotocol⟩ := htext "protocol" (by simp)
  obtain ⟨error, herror⟩ := htext "error" (by simp)
  obtain ⟨duration, hduration⟩ := Json.exists_filled fun hmisfilled => h (.duration hmisfilled)
  obtain ⟨context, hcontext⟩ := Json.exists_filled fun hmisfilled => h (.context hmisfilled)
  exact ⟨⟨⟨kind, correlationId, member, protocol, duration, context, error⟩, timestamp⟩, hkind,
    htimestamp, hcorrelationId, hmember, hprotocol, hduration, hcontext, herror⟩

theorem ofJson?_eq_none_iff : ofJson? (.object (named members)) = none ↔ Refused members := by
  constructor
  · intro h
    refine Classical.byContradiction fun hrefused => ?_
    obtain ⟨entry, hdenotes⟩ := exists_denotes_of_not_refused hrefused
    cases h.symm.trans (ofJson?_eq_some_iff.mpr hdenotes)
  · intro h
    rw [Option.eq_none_iff_forall_ne_some]
    intro entry hentry
    exact h.not_denotes (ofJson?_eq_some_iff.mp hentry)

/-- The members that an entry is written with. -/
def written (entry : LogEntry) : List (String × Json) :=
  [("event_type", .ofText entry.event.kind.name), ("timestamp_ms", .ofWord entry.timestamp),
    ("correlation_id", .ofOption .ofText entry.event.correlationId),
    ("member_id", .ofOption .ofText entry.event.member),
    ("protocol", .ofOption .ofText entry.event.protocol),
    ("duration_ms", .ofOption .ofWord entry.event.duration),
    ("context", entry.event.context.toJson), ("error", .ofOption .ofText entry.event.error)]

theorem toJson_eq (entry : LogEntry) : entry.toJson = .object (named entry.written) := rfl

theorem denotes_written (entry : LogEntry) : Denotes entry.written entry := by
  have hgiven {name : String} {j : Json} (honce : names.count name = 1)
      (hmem : (name, j) ∈ entry.written) : Slot entry.written name (some j) := .given honce hmem
  have htext (s : Option String) : OrNull IsText (.ofOption .ofText s) s := by
    cases s with
    | none => exact .null
    | some s => exact .value rfl
  have hword (n : Option UInt64) : OrNull IsWord (.ofOption .ofWord n) n := by
    cases n with
    | none => exact .null
    | some n => exact .value rfl
  exact {
    kind := .given (hgiven (by decide) (by simp [written])) (.text _)
    timestamp := .given (hgiven (by decide) (by simp [written])) rfl
    correlationId := .given (hgiven (by decide) (by simp [written])) (htext _)
    member := .given (hgiven (by decide) (by simp [written])) (htext _)
    protocol := .given (hgiven (by decide) (by simp [written])) (htext _)
    duration := .given (hgiven (by decide) (by simp [written])) (hword _)
    context := .given (hgiven (by decide) (by simp [written])) entry.event.context.denoted_toJson
    error := .given (hgiven (by decide) (by simp [written])) (htext _) }

theorem parse?_eq_ofJson? {text : String} {j : Json} (h : j.Element text.toList) :
    parse? text = ofJson? j := by
  rw [parse?, Json.parse?_eq_some_iff.mpr h]
  rfl

/-- Kind and timestamp have to be there, the kind has to be known, and a context cannot be null. -/
theorem refused_of_flaw
    (h : "event_type" ∉ members.map Prod.fst ∨
      (∃ name, ("event_type", .ofText name) ∈ members ∧ ∀ kind : EventKind, name ≠ kind.name) ∨
      "timestamp_ms" ∉ members.map Prod.fst ∨ ("context", .null) ∈ members) :
    Refused members := by
  rcases h with hkind | ⟨name, hname, hunknown⟩ | htimestamp | hcontext
  · exact .kind (.missing hkind rfl)
  · refine .kind (.senseless hname fun kind hdenoted => ?_)
    generalize hj : Json.ofText name = j at hdenoted
    cases hdenoted with
    | text =>
      injection hj with hj
      exact hunknown kind (Option.some.inj hj)
    | object => cases hj
  · exact .timestamp (.missing htimestamp rfl)
  · refine .context (.senseless hcontext fun c hdenoted => ?_)
    cases hdenoted

/-- An entry is restored from the text that is written for it, whatever its texts and numbers are
and in whatever order its context is written. From any text that spells an object, in whatever order
its members come and whatever else it holds, each field is taken as it is given, and an optional one
is absent and a context empty where no member has its name; the text is refused exactly if a field
cannot be filled. The context of an event has for each name the value that was put in last. -/
theorem lossless_and_strict (entry : LogEntry) (members : List (String × Json)) (text : String)
    (hobject : Json.Element (.object (named members)) text.toList) (event : Event)
    (calls : List (String × String)) :
    parse? entry.text = some entry ∧
      (∀ read, parse? text = some read ↔ Denotes members read) ∧
      (parse? text = none ↔ Refused members) ∧
      (("event_type" ∉ members.map Prod.fst ∨
          (∃ name, ("event_type", .ofText name) ∈ members ∧ ∀ kind : EventKind, name ≠ kind.name) ∨
          "timestamp_ms" ∉ members.map Prod.fst ∨ ("context", .null) ∈ members) →
        parse? text = none) ∧
      ∃ context : Context,
        calls.foldl (fun e call => e.withContext call.1 call.2) event =
            { event with context := context } ∧
          ∀ name, context.lookup? name =
            (calls.reverse.lookup name).or (event.context.lookup? name) := by
  have hnone : parse? text = none ↔ Refused members := by
    rw [parse?_eq_ofJson? hobject, ofJson?_eq_none_iff]
  refine ⟨?_, fun read => ?_, hnone, fun hflaw => hnone.mpr (refused_of_flaw hflaw), ?_⟩
  · have htext : entry.toJson.Element entry.text.toList :=
      Json.parse?_eq_some_iff.mp (Json.parse?_text entry.toJson)
    rw [parse?_eq_ofJson? htext, toJson_eq, ofJson?_eq_some_iff]
    exact denotes_written entry
  · rw [parse?_eq_ofJson? hobject, ofJson?_eq_some_iff]
  · exact ⟨_, Event.foldl_withContext calls event,
      fun name => Context.lookup?_foldl_insert calls event.context⟩

/-- An entry as it may come from elsewhere: out of order, with a note of its own, a null, a context
that names the peers twice, and an error in several lines. -/
def foreignText : String :=
  " \x7b\"timestamp_ms\":18446744073709551615,\"error\":\"\\\"é\\\"\\n\\u0001\"," ++
    "\"context\":\x7b\"peers\":\"2\",\"peers\":\"\"\x7d,\"note\":[true]," ++
    "\"event_type\":\"join_timeout\",\"member_id\":null\x7d\n"

def foreignMembers : List (String × Json) :=
  [("timestamp_ms", .ofWord 18446744073709551615), ("error", .ofText "\"é\"\n\x01"),
    ("context", .object (named (Context.texts [("peers", "2"), ("peers", "")]))),
    ("note", .array [.bool true]), ("event_type", .ofText EventKind.joinTimeout.name),
    ("member_id", .null)]

theorem parse?_foreign :
    Json.Element (.object (named foreignMembers)) foreignText.toList ∧
      parse? foreignText =
        some ⟨{ kind := .joinTimeout, error := some "\"é\"\n\x01",
                context := .ofList [("peers", "")] }, 18446744073709551615⟩ := by
  have hobject : Json.Element (.object (named foreignMembers)) foreignText.toList := by
    have htext : foreignText.toList =
        [' '] ++ ((Json.object (named foreignMembers)).write ++ ['\n']) := by
      decide +kernel
    rw [htext]
    exact .mk (by simp [Json.Spaces, Json.isSpace]) (Json.spelled_write _)
      (by simp [Json.Spaces, Json.isSpace])
  have hgiven {name : String} {j : Json} (honce : (foreignMembers.map Prod.fst).count name = 1)
      (hmem : (name, j) ∈ foreignMembers) : Slot foreignMembers name (some j) := .given honce hmem
  refine ⟨hobject, ((lossless_and_strict ⟨{ kind := .joinTimeout }, 0⟩ foreignMembers foreignText
    hobject { kind := .joinTimeout } []).2.1 _).mpr ?_⟩
  exact {
    kind := .given (hgiven (by decide) (by simp [foreignMembers])) (.text .joinTimeout)
    timestamp := .given (hgiven (by decide) (by simp [foreignMembers])) rfl
    correlationId := .absent (.absent (by decide)) rfl
    member := .given (hgiven (by decide) (by simp [foreignMembers])) .null
    protocol := .absent (.absent (by decide)) rfl
    duration := .absent (.absent (by decide)) rfl
    context := .given (hgiven (by decide) (by simp [foreignMembers]))
      (.object [("peers", "2"), ("peers", "")])
    error := .given (hgiven (by decide) (by simp [foreignMembers])) (.value rfl) }

end LogEntry

end ThresholdSigning
