import BroadcastRelay.Text.Blank
import BroadcastRelay.Text.Split
/-!
# Flags and lists in settings

A setting that switches something on is off only for a few words (`readFlag`). A setting that lists
texts divides them by a bar or a comma (`readList`).
-/

namespace BroadcastRelay.Settings

/-- The words that switch something off. -/
def offWords : List String := ["", "0", "false", "no", "off"]

/-- Whether the text switches something on. -/
def readFlag (text : String) : Bool :=
  !offWords.contains (String.ofList ((trim text.toList).map Char.toLower))

/-- Whether the character divides the items of a list. -/
def isListSeparator (c : Char) : Bool := c == '|' || c == ','

/-- The items of a list, without white space around them; blank items are left out. -/
def readList (text : String) : List String :=
  (((split isListSeparator text.toList).map trim).filter (!·.isEmpty)).map String.ofList

end BroadcastRelay.Settings
