import BroadcastRelay.Http.Percent
import BroadcastRelay.Text.Split
/-!
# Queries of names and values

A query holds pairs divided by ampersands, each a name and a value divided by the first equals sign.
In both a plus sign stands for a space, and an escape for the byte it names.
-/

namespace BroadcastRelay.Http.Query

/-- What a name or a value stands for. -/
def decodePart (cs : List Char) : String :=
  let spaced := cs.map fun c => if c = '+' then ' ' else c
  Utf8.decodeLossy (percentDecode (Utf8.encode (String.ofList spaced)))

/-- The name and the value of a pair; a pair without an equals sign has an empty value. -/
def readPair (cs : List Char) : String × String :=
  (decodePart (cs.takeWhile (· ≠ '=')), decodePart ((cs.dropWhile (· ≠ '=')).drop 1))

/-- The pairs of a query, in order; empty ones are passed over. -/
def pairs (query : String) : List (String × String) :=
  ((split (· == '&') query.toList).filter (!·.isEmpty)).map readPair

end BroadcastRelay.Http.Query
