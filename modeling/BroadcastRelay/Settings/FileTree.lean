import BroadcastRelay.Settings.Load
/-!
# Files in memory

A `FileTree` is a list of files and folders by their paths. `FileTree.read` gives what reading a path
gives on a disk that holds nothing else: a path may go through points and doubled slashes, a folder
has no content, and a file has nothing below it.
-/

namespace BroadcastRelay

/-- Files and folders by their paths; a folder has no content. -/
structure FileTree where
  /-- The entries. -/
  entries : List (String × Option Bytes)

namespace FileTree

/-- Adds a step to a path, last step first. -/
def walk (rev : List (List Char)) (step : List Char) : List (List Char) :=
  if step = [] ∨ step = ['.'] then rev
  else if step = ['.', '.'] ∧ rev ≠ [] ∧ rev.head? ≠ some ['.', '.'] then rev.tail
  else step :: rev

/-- The steps of a path. -/
def steps (path : String) : List (List Char) :=
  ((split (· == '/') path.toList).foldl walk []).reverse

/-- Whether the path can name nothing but a folder. -/
def namesFolder (path : String) : Bool :=
  match (split (· == '/') path.toList).getLast? with
  | some step => step.isEmpty || step == ['.'] || step == ['.', '.']
  | none => false

/-- What reading the path gives. -/
def read (t : FileTree) (path : String) : Except FileError Bytes :=
  let p := steps path
  let isBelow (above below : List (List Char)) : Bool :=
    above.length < below.length && below.take above.length == above
  if path = "" then .error .notFound
  else
    match t.entries.find? fun e => steps e.1 == p with
    | some (_, some content) => if namesFolder path then .error .notDirectory else .ok content
    | some (_, none) => .error .isDirectory
    | none =>
      if t.entries.any fun e => e.2.isSome && isBelow (steps e.1) p then .error .notDirectory
      else if p.all (· == ['.', '.']) || t.entries.any fun e => isBelow p (steps e.1) then
        .error .isDirectory
      else .error .notFound

end FileTree

end BroadcastRelay
