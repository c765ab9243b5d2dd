/-!
# Paths

A path is a list of names with `::` between them. Joining skips an empty beginning, and splitting
cuts at the leftmost separators that do not overlap, so names with colons of their own may not come
back.
-/

namespace Statechart.Path

def separator : String := "::"

def join (base name : String) : String :=
  if base.isEmpty then name else base ++ separator ++ name

/-- The parts between separators, at least one. -/
def segments : List Char → List (List Char)
  | [] => [[]]
  | ':' :: ':' :: rest => [] :: segments rest
  | c :: rest =>
    match segments rest with
    | [] => [[c]]
    | s :: more => (c :: s) :: more

/-- The names of a path; the empty path has none. -/
def split (path : String) : List String :=
  if path.isEmpty then [] else (segments path.toList).map String.ofList

/-- The path of the names, joined from the left. -/
def ofNames (names : List String) : String := names.foldl join ""

end Statechart.Path
