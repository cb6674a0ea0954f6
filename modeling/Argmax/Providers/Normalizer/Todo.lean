import Argmax.Providers.Normalizer
import Argmax.Providers.Normalizer.Values

/-!
# Todo lists

The parts of `providers/normalizer/todo.rs` that Cursor's lines go through: which tools carry
a list, how a list is read, and the event that it becomes.
-/

namespace Argmax.Providers.Normalizer

inductive TodoStatus where
  | pending
  | active
  | done
  | cancelled
  | removed

def TodoStatus.asStr : TodoStatus → String
  | .pending => "pending"
  | .active => "active"
  | .done => "done"
  | .cancelled => "cancelled"
  | .removed => "removed"

/-- `strip_prefix`, or the whole text. -/
def withoutLead (lead text : String) : String :=
  if lead.toList <+: text.toList then String.ofList (text.toList.drop lead.length) else text

def TodoStatus.parse (raw : String) : Option TodoStatus :=
  let bare := withoutLead "todo_status_" (toAsciiLowercase raw)
  if ["pending", "not_started", "todo", "queued"].contains bare then some .pending
  else if ["in_progress", "inprogress", "active", "running"].contains bare then some .active
  else if ["completed", "complete", "done"].contains bare then some .done
  else if ["cancelled", "canceled", "skipped", "deferred"].contains bare then some .cancelled
  else if ["deleted", "removed"].contains bare then some .removed
  else none

structure TodoItem where
  id : Option String
  text : Option String
  status : TodoStatus

inductive TodoMode where
  | snapshot
  | merge

def TodoMode.asStr : TodoMode → String
  | .snapshot => "snapshot"
  | .merge => "merge"

structure TodoUpdate where
  mode : TodoMode
  items : List TodoItem

def isTodoTool (toolName : String) : Bool :=
  ["taskcreate", "taskupdate", "todo_write", "todowrite", "updatetodostoolcall",
    "updatetodos"].contains (toAsciiLowercase
      (String.ofList (toolName.toList.filter fun c => c.isAlphanum || c == '_')))

def stampTodoSurface (payload : Fields) : Fields := Json.insertField "surface" (.string "todo") payload

/-- A text, or `null`. -/
def optionalString (value : Option String) : Json := (value.map Json.string).getD .null

def todoEvent (event : ProviderOutputEvent) (update : TodoUpdate) (toolUseId : Option String) :
    PersistTimelineEventInput :=
  ⟨event.sessionId, "todo.updated", "todo", .object
    [("items", .array (update.items.map fun item => .object
        [("id", optionalString item.id), ("status", .string item.status.asStr),
          ("text", optionalString item.text)])),
      ("mode", .string update.mode.asStr), ("toolUseId", optionalString toolUseId)]⟩

/-- An entry of a list. -/
def todoItem (raw : Json) : Option TodoItem :=
  (objectValue (some raw)).map fun entry =>
    { id := stringValue (entry.field "id")
      text := ((stringValue (entry.field "content")).or (stringValue (entry.field "text"))).or
        (stringValue (entry.field "title"))
      status := ((stringValue (entry.field "status")).bind TodoStatus.parse).getD .pending }

def todosArrayUpdate (input : Fields) : Option TodoUpdate :=
  (arrayValue (input.field "todos")).bind fun rawItems =>
    if rawItems.isEmpty then none
    else
      (rawItems.mapM todoItem).map fun items =>
        { mode := if ((input.field "merge").bind Json.asBool).getD false then .merge else .snapshot
          items := items }

end Argmax.Providers.Normalizer
