/-! Cutting text at a character, and into lines. -/

namespace ToolBridge.Text

/-- What stands before the first `sep` and what follows it. -/
def cutChars (sep : Char) (s : List Char) : Option (List Char × List Char) :=
  match s.span (· != sep) with
  | (_, []) => none
  | (before, _ :: after) => some (before, after)

def cutAt (sep : Char) (s : String) : Option (String × String) :=
  (cutChars sep s.toList).map fun (before, after) => (.ofList before, .ofList after)

/-- The pieces between separators: always one more than there are separators. -/
def pieces (sep : Char) (s : List Char) : List (List Char) :=
  go [] s
where
  go (piece : List Char) : List Char → List (List Char)
    | [] => [piece.reverse]
    | c :: rest => if c == sep then piece.reverse :: go [] rest else go (c :: piece) rest

def split (sep : Char) (s : String) : List String :=
  (pieces sep s.toList).map String.ofList

/-- Pieces between carriage-return line-feed pairs; a lone one of the two is ordinary text. -/
def networkLines (s : String) : List String :=
  (go [] s.toList).map String.ofList
where
  go (line : List Char) : List Char → List (List Char)
    | [] => [line.reverse]
    | '\r' :: '\n' :: rest => line.reverse :: go [] rest
    | c :: rest => go (c :: line) rest

def dropEndCr (line : List Char) : List Char :=
  match line.reverse with
  | '\r' :: rest => rest.reverse
  | _ => line

/-- Lines end at a line feed; one carriage return right before it belongs to the ending. What
follows the last line feed is a line if it is not empty, with nothing taken off. -/
def lines (s : String) : List String :=
  (go (pieces '\n' s.toList)).map String.ofList
where
  go : List (List Char) → List (List Char)
    | [] => []
    | [last] => if last.isEmpty then [] else [last]
    | line :: rest => dropEndCr line :: go rest

/-- Whether `needle` occurs in the text; the empty needle occurs everywhere. -/
def occurs (needle : List Char) : List Char → Bool
  | [] => needle.isEmpty
  | c :: rest => needle.isPrefixOf (c :: rest) || occurs needle rest

def contains (needle s : String) : Bool := occurs needle.toList s.toList

end ToolBridge.Text
