/-!
# Sessions.Files.Name

Names of files as texts. `clean` gives the shortest name that leads to the same place when no
link is on the way; `join`, `directory` and `base` take names apart and put them together.
-/

namespace Sessions.FileName

def isAbsolute (name : String) : Bool :=
  name.startsWith "/"

/-- The parts of a name between its slashes, empty ones included. -/
def parts (name : String) : List String :=
  (name.toList.splitOn '/').map String.ofList

/-- Adds a part to the parts of a clean name, which are given last part first. -/
def push (rooted : Bool) (stack : List String) (part : String) : List String :=
  if part = "" || part = "." then stack
  else if part = ".." then
    match stack with
    | [] => if rooted then [] else [".."]
    | top :: rest => if top = ".." then ".." :: top :: rest else rest
  else part :: stack

/-- The parts of the clean form of a name. -/
def cleanParts (name : String) : List String :=
  ((parts name).foldl (push (isAbsolute name)) []).reverse

/-- The clean form of a name. -/
def clean (name : String) : String :=
  let body := "/".intercalate (cleanParts name)
  if isAbsolute name then "/" ++ body else if body = "" then "." else body

/-- A name as seen from a directory; an empty name on either side is left out. -/
def join (dir name : String) : String :=
  if dir = "" && name = "" then ""
  else if dir = "" then clean name
  else if name = "" then clean dir
  else clean (dir ++ "/" ++ name)

/-- The characters up to and with the last slash, and those after it. -/
def splitLast (name : String) : List Char × List Char :=
  let last := (name.toList.reverse.takeWhile (· ≠ '/')).reverse
  (name.toList.take (name.length - last.length), last)

/-- The directory of a name. -/
def directory (name : String) : String :=
  clean (String.ofList (splitLast name).1)

/-- The last part of a name. -/
def base (name : String) : String :=
  if name = "" then "."
  else
    let stripped := String.ofList (name.toList.reverse.dropWhile (· = '/')).reverse
    if stripped = "" then "/" else String.ofList (splitLast stripped).2

/-- The ending of a name from its last point on; empty if its last part has none. -/
def ending (name : String) : String :=
  let last := (splitLast name).2
  if last.contains '.' then
    String.ofList ('.' :: (last.reverse.takeWhile (· ≠ '.')).reverse)
  else ""

end Sessions.FileName
