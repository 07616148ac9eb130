/-! # Paths

A path is a root and a list of parts. Empty parts and single dots mean nothing and are dropped; double
dots stay, since what they mean depends on the directories that exist.
-/

namespace TrainingCollar

/-- A path, relative to the working directory unless it has a root. -/
structure Path where
  root : String
  parts : List String
deriving DecidableEq, Repr

namespace Path

/-- The pieces of a text between slashes. -/
def splitSlash : List Char → List (List Char)
  | [] => [[]]
  | c :: rest =>
    if c = '/' then [] :: splitSlash rest
    else
      match splitSlash rest with
      | [] => [[c]]
      | piece :: pieces => (c :: piece) :: pieces

/-- The root that a text starts with: two slashes are a root of their own, any other number of them is
one slash. -/
def rootOf (s : List Char) : String :=
  match (s.takeWhile (· == '/')).length with
  | 0 => ""
  | 2 => "//"
  | _ => "/"

/-- The path that a text names. -/
def ofText (s : String) : Path where
  root := rootOf s.toList
  parts := ((splitSlash s.toList).filter fun piece => piece ≠ [] ∧ piece ≠ ['.']).map String.ofList

/-- The text of a path; the working directory is a dot. -/
def text (p : Path) : String :=
  if p.root = "" ∧ p.parts = [] then "." else p.root ++ "/".intercalate p.parts

/-- Whether the path does not depend on the working directory. -/
def isAbsolute (p : Path) : Bool := p.root != ""

/-- The path without its last part. -/
def parent (p : Path) : Path := { p with parts := p.parts.dropLast }

/-- The second path as seen from the first. -/
def join (p q : Path) : Path := if q.isAbsolute then q else { p with parts := p.parts ++ q.parts }

/-- The path with double dots cancelled against the part before them. -/
def collapsed (p : Path) : Path where
  root := p.root
  parts := p.parts.foldl (fun parts part =>
    if part = ".." then
      if parts.getLast?.isNone && p.isAbsolute then []
      else if parts.getLast?.isNone || parts.getLast? == some ".." then parts ++ [".."]
      else parts.dropLast
    else parts ++ [part]) []

end Path

end TrainingCollar
