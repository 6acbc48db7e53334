import ThresholdSigning.Event
import ThresholdSigning.Json.Reader
import ThresholdSigning.Json.Writer

namespace ThresholdSigning

namespace EventKind

/-- A name, or an object of one member that has the name and no value. -/
def ofJson? : Json → Option EventKind
  | .string (some name) => ofName? name
  | .object [(some name, .null)] => ofName? name
  | _ => none

end EventKind

namespace Context

def toJson (c : Context) : Json :=
  .object (c.entries.map fun entry => (some entry.1, .ofText entry.2))

def ofJson? : Json → Option Context
  | .object members => do
    let entries ← members.mapM fun member => do return (← member.1, ← member.2.text?)
    return ofList entries
  | _ => none

end Context

namespace LogEntry

/-- The names of the fields, in order. -/
def names : List String :=
  ["event_type", "timestamp_ms", "correlation_id", "member_id", "protocol", "duration_ms",
    "context", "error"]

def toJson (entry : LogEntry) : Json :=
  .object
    [(some "event_type", .ofText entry.event.kind.name),
      (some "timestamp_ms", .ofWord entry.timestamp),
      (some "correlation_id", .ofOption .ofText entry.event.correlationId),
      (some "member_id", .ofOption .ofText entry.event.member),
      (some "protocol", .ofOption .ofText entry.event.protocol),
      (some "duration_ms", .ofOption .ofWord entry.event.duration),
      (some "context", entry.event.context.toJson),
      (some "error", .ofOption .ofText entry.event.error)]

def text (entry : LogEntry) : String := entry.toJson.text

/-- A field that may be null or absent. -/
def optional {α : Type} (read : Json → Option α) : Option Json → Option (Option α)
  | none => some none
  | some j => j.option? read

/-- Kind and timestamp are required, of an array all its values. -/
def ofJson? : Json → Option LogEntry
  | .array items => read? (items.map some)
  | j => (j.record? names).bind read?
where
  read? : List (Option Json) → Option LogEntry
    | [some kind, some timestamp, correlationId, member, protocol, duration, context, error] => do
      let kind ← EventKind.ofJson? kind
      let timestamp ← timestamp.word?
      let correlationId ← optional Json.text? correlationId
      let member ← optional Json.text? member
      let protocol ← optional Json.text? protocol
      let duration ← optional Json.word? duration
      let context ← (context.map Context.ofJson?).getD (some .empty)
      let error ← optional Json.text? error
      return ⟨⟨kind, correlationId, member, protocol, duration, context, error⟩, timestamp⟩
    | _ => none

def parse? (s : String) : Option LogEntry := (Json.parse? s).bind ofJson?

end LogEntry

end ThresholdSigning
