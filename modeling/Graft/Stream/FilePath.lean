import Graft.Error

/-!
# File paths of streams

Which file of a directory keeps a stream. The name of a stream has to be the name of a file in
that very directory; the file adds an extension to it.
-/

namespace Graft.FilePath

/-- Whether a name is the name of a file in a directory: not empty, not a name of the directory
itself or the one above, and without separators. -/
def isFileName (name : String) : Bool :=
  name ≠ "" && name ≠ "." && name ≠ ".."
    && !name.toList.any fun c => c == '/' || c == '\\' || c == '\x00'

/-- The directory followed by a file name. -/
def join (directory fileName : String) : String :=
  if directory = "" || directory.endsWith "/" then directory ++ fileName
  else directory ++ "/" ++ fileName

/-- The extension of the files, unless another one is asked for. -/
def defaultExtension : String := "dll"

/-- The file that keeps the stream `name`; without an extension it has the stream's name. -/
def ofStream (directory extension name : String) : Except Error String :=
  if isFileName name then
    .ok (join directory name ++ (if extension = "" then "" else "." ++ extension))
  else .error (.refused (.invalidStreamName name))

end Graft.FilePath
