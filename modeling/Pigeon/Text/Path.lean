/-!
# File paths

A path is made absolute against the root directory `/` and normalised: empty and `.` segments
disappear, `..` takes the segment before it away, and two leading slashes stay two.
-/

namespace Pigeon.Text

/-- One more segment on a path that is kept innermost first. -/
def pushSegment (segments : List String) (segment : String) : List String :=
  if segment = "" || segment = "." then segments
  else if segment = ".." then segments.drop 1
  else segment :: segments

/-- Exactly two slashes begin the path. -/
def startsWithTwoSlashes : List Char → Bool
  | '/' :: '/' :: '/' :: _ => false
  | '/' :: '/' :: _ => true
  | _ => false

/-- The absolute, normalised form of a path in the root directory. -/
def absolutePath (path : String) : String :=
  let root := if startsWithTwoSlashes path.toList then "//" else "/"
  root ++ "/".intercalate ((path.splitOn "/").foldl pushSegment []).reverse

end Pigeon.Text
