import BroadcastRelay.Text.Blank
import BroadcastRelay.Text.Split
/-!
# Links of a viewer's session

The answer to a viewer carries two links: one to the events that list the layers, one to the
resource that selects a layer. `links` writes them below a base path, and `linkTarget?` finds the
target of a link by its relation.
-/

namespace BroadcastRelay.Link

/-- The relation of the link to the layer events. -/
def eventsRel : String := "urn:ietf:params:whep:ext:core:server-sent-events"

/-- The relation of the link to the layer resource. -/
def layerRel : String := "urn:ietf:params:whep:ext:core:layer"

/-- The path below which the resources of a session stand, given the path that viewers post to. -/
def base (path : String) : String :=
  match dropEnd? "whep".toList path.toList with
  | some front => String.ofList front
  | none => path

/-- The link to the layer events of a session. -/
def events (base sessionId : String) : String :=
  "<" ++ base ++ "sse/" ++ sessionId ++ ">; rel=\"" ++ eventsRel ++ "\"; events=\"layers\""

/-- The link to the layer resource of a session. -/
def layer (base sessionId : String) : String :=
  "<" ++ base ++ "layer/" ++ sessionId ++ ">; rel=\"" ++ layerRel ++ "\""

/-- The text between the first `<` and the next `>`. -/
def bracketed? (cs : List Char) : Option (List Char) :=
  match cs.dropWhile (· ≠ '<') with
  | [] => none
  | _ :: r => if r.contains '>' then some (r.takeWhile (· ≠ '>')) else none

/-- The target of a link, if it has the relation. -/
def target? (link rel : String) : Option String :=
  let wanted := ("rel=\"" ++ rel ++ "\"").toList
  if (split (· == ';') link.toList).any fun param => trim param == wanted then
    (bracketed? link.toList).map String.ofList
  else none

end BroadcastRelay.Link
