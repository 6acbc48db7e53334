import ThresholdSigning.Duration
import ThresholdSigning.Member

namespace ThresholdSigning

/-- What an event reports. -/
inductive EventKind
  | executionStarted
  | executionCompleted
  | executionFailed
  | executionTimeout
  | joinCompleted
  | joinTimeout
  | messageDropped
  | preParamsMissing
deriving DecidableEq

namespace EventKind

def name : EventKind → String
  | executionStarted => "execution_started"
  | executionCompleted => "execution_completed"
  | executionFailed => "execution_failed"
  | executionTimeout => "execution_timeout"
  | joinCompleted => "join_completed"
  | joinTimeout => "join_timeout"
  | messageDropped => "message_dropped"
  | preParamsMissing => "pre_params_missing"

def all : List EventKind :=
  [executionStarted, executionCompleted, executionFailed, executionTimeout, joinCompleted,
    joinTimeout, messageDropped, preParamsMissing]

def ofName? (name : String) : Option EventKind := all.find? (·.name = name)

/-- Failures are logged as warnings. -/
def isFailure : EventKind → Bool
  | executionStarted => false
  | executionCompleted => false
  | joinCompleted => false
  | _ => true

/-- The level at which an event is logged. -/
def level (k : EventKind) : String := if k.isFailure then "WARN" else "INFO"

theorem ofName?_name (k : EventKind) : ofName? k.name = some k := by cases k <;> decide

end EventKind

/-- Texts by name; each name occurs once. -/
structure Context where
  entries : List (String × String)
  nodup : (entries.map Prod.fst).Nodup
deriving DecidableEq

namespace Context

def empty : Context := ⟨[], List.nodup_nil⟩

/-- Puts the value in the place of an earlier one of that name, else last. -/
def put (name value : String) : List (String × String) → List (String × String)
  | [] => [(name, value)]
  | entry :: entries =>
    if entry.1 = name then (name, value) :: entries else entry :: put name value entries

theorem mem_names_put {name value other : String} {entries : List (String × String)} :
    other ∈ (put name value entries).map Prod.fst ↔
      other = name ∨ other ∈ entries.map Prod.fst := by
  induction entries with
  | nil => simp [put]
  | cons entry entries ih =>
    by_cases h : entry.1 = name
    · subst h
      simp [put]
    · rw [put, if_neg h, List.map_cons, List.mem_cons, ih, List.map_cons, List.mem_cons]
      constructor
      · rintro (rfl | rfl | mem) <;> simp_all
      · rintro (rfl | rfl | mem) <;> simp_all

theorem nodup_put {name value : String} {entries : List (String × String)}
    (h : (entries.map Prod.fst).Nodup) : ((put name value entries).map Prod.fst).Nodup := by
  induction entries with
  | nil => simp [put]
  | cons entry entries ih =>
    rw [List.map_cons, List.nodup_cons] at h
    by_cases same : entry.1 = name
    · subst same
      simpa [put] using h
    · rw [put, if_neg same, List.map_cons, List.nodup_cons, mem_names_put]
      exact ⟨fun mem => mem.elim same h.1, ih h.2⟩

def insert (c : Context) (name value : String) : Context :=
  ⟨put name value c.entries, nodup_put c.nodup⟩

def lookup? (c : Context) (name : String) : Option String := c.entries.lookup name

/-- Later entries override earlier ones of the same name. -/
def ofList (entries : List (String × String)) : Context :=
  entries.foldl (fun c entry => c.insert entry.1 entry.2) empty

end Context

/-- A structured record of something that happened in an execution. -/
structure Event where
  kind : EventKind
  /-- The id of the execution's group. -/
  correlationId : Option String := none
  /-- The member that reports, in hexadecimal digits. -/
  member : Option String := none
  protocol : Option String := none
  /-- In milliseconds. -/
  duration : Option UInt64 := none
  context : Context := .empty
  error : Option String := none
deriving DecidableEq

namespace Event

/-- Whole milliseconds, of which only the lowest 64 bits are kept. -/
def withDuration (e : Event) (d : Duration) : Event :=
  { e with duration := some (UInt64.ofNat d.millis) }

def withContext (e : Event) (name value : String) : Event :=
  { e with context := e.context.insert name value }

end Event

/-- An event with the moment at which it was made, in milliseconds of Unix time. -/
structure LogEntry where
  event : Event
  timestamp : UInt64
deriving DecidableEq

end ThresholdSigning
