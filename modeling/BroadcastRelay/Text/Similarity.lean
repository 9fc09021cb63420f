/-!
# Similar words

Two words are the more alike the more of their characters match. A character matches an equal one of
the other word that stands not too far away; matches that stand in another order count for less.
`Similarity.ofWords` is the mean of three shares: of the characters of each word that match, and of
the matches that stand in order. It is a fraction, so that comparing is exact.
-/

namespace BroadcastRelay

/-- A fraction between zero and one. -/
structure Similarity where
  /-- The part. -/
  part : Nat
  /-- The whole. -/
  whole : Nat
deriving DecidableEq, Repr

namespace Similarity

/-- Whether one fraction is less than another. -/
def less (a b : Similarity) : Bool := a.part * b.whole < b.part * a.whole

/-- The place of the first character that equals `c`, is not taken yet and stands from `low` up to
`high`. -/
def findMatch (c : Char) (word : List Char) (taken : List Nat) (low high : Nat) : Option Nat :=
  (word.zipIdx.find? fun (d, j) => low ≤ j && j ≤ high && c == d && !taken.contains j).map (·.2)

/-- The matches of the characters of one word, each a character and its place in the other word. -/
def matchesOf (a b : List Char) : List (Char × Nat) :=
  let reach := max a.length b.length / 2 - 1
  a.zipIdx.foldl (fun found (c, i) =>
    match findMatch c b (found.map (·.2)) (i - reach) (i + reach) with
    | some j => found ++ [(c, j)]
    | none => found) []

/-- The matches that stand in another order, counted in pairs. -/
def swaps (b : List Char) (found : List (Char × Nat)) : Nat :=
  let places := found.map (·.2)
  let ordered := (b.zipIdx.filter fun (_, j) => places.contains j).map (·.1)
  ((found.map (·.1)).zip ordered).countP (fun (c, d) => c ≠ d) / 2

/-- How alike two words are. -/
def ofWords (a b : String) : Similarity :=
  let xs := a.toList
  let ys := b.toList
  if xs.isEmpty && ys.isEmpty then ⟨1, 1⟩
  else
    let found := matchesOf xs ys
    let m := found.length
    if m = 0 then ⟨0, 1⟩
    else
      ⟨m * m * ys.length + m * m * xs.length + (m - swaps ys found) * xs.length * ys.length,
        3 * xs.length * ys.length * m⟩

/-- The word most like a given one, if any is more like it than `least`; of two equals the later. -/
def mostAlike? (least : Similarity) (word : String) (words : List String) : Option String :=
  (words.foldl (fun best candidate =>
    let s := ofWords word candidate
    match best with
    | some (t, _) => if less s t then best else some (s, candidate)
    | none => if less least s then some (s, candidate) else none) none).map (·.2)

end Similarity

end BroadcastRelay
