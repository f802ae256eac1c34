/-!
# Pieces

A text is cut at each of its marks.  A piece may be empty, and a text without a
mark is all one piece.
-/

namespace ProbeLowering.Text

def pieces (mark : Char) (text : String) : List String :=
  (text.toList.splitOn mark).map String.ofList

end ProbeLowering.Text
