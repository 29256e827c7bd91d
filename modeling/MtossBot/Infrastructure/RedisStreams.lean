import MtossBot.Infrastructure.OutboxRecord
import MtossBot.Library.Json

/-!
# Redis streams

`RedisStreamsPublisher.publish`: the entry it adds to a stream. The name that redis gives the entry is passed on.
-/

namespace MtossBot

/-- An entry of a stream. -/
structure StreamEntry where
  stream : String
  fields : Dict String String

namespace RedisStreamsPublisher

/-- `separators=(",", ":")` -/
def SEPARATORS : Json.Separators := ⟨[','], [':']⟩

def publish (topic key : String) (payload : Json) : StreamEntry where
  stream := topic
  fields := (Dict.empty.set "message_key" key).set "payload" (payload.dumps SEPARATORS true)

end RedisStreamsPublisher

/-- The entries of a dictionary, if all are texts. -/
def texts? : List (String × JsonValue) → Option (List (String × String))
  | [] => some []
  | (key, .str text) :: entries => (texts? entries).map ((key, text) :: ·)
  | (_, .other) :: _ => none

/-- A payload of texts as JSON. -/
def payloadJson (payload : Dict String JsonValue) : Option Json :=
  (texts? payload.entries).map fun texts => .obj (texts.map fun (key, text) => (key, .str text))

/-- What a reader of the stream loads. -/
def StreamEntry.payload (entry : StreamEntry) : Option Json := (entry.fields.get? "payload").bind Json.loads

end MtossBot
