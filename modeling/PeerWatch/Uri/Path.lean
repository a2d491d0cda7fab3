import PeerWatch.Text.Blank

/-!
# Leading directories of a path
-/

namespace PeerWatch.Uri

/-- The first `folders` directories of an absolute path, or as many as it has, closed by a slash. -/
def baseChars (path : List Char) (folders : Nat) : List Char :=
  let segments := Text.cut '/' path
  (segments.take (min folders (segments.length - 1) + 1)).flatMap (· ++ ['/'])

/-- The first `folders` directories of an absolute path, or as many as it has, closed by a slash. -/
def basePath (path : String) (folders : Nat) : String :=
  String.ofList (baseChars path.toList folders)

end PeerWatch.Uri
