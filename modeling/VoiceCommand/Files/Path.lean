import VoiceCommand.Text.Blank

/-! Paths of files: names with slashes between them. Slashes at the end, and single points that stand
for a folder itself, do not change what the last name of a path is. -/
namespace VoiceCommand.Path

def isSlash (c : Char) : Bool := c == '/'

def pieces : List Char → List (List Char)
  | [] => [[]]
  | c :: cs =>
    match pieces cs with
    | [] => [[c]]
    | p :: ps => if isSlash c then [] :: p :: ps else (c :: p) :: ps

def isName (piece : List Char) : Bool := (String.ofList piece).utf8ByteSize ≤ 255

def isPath (path : String) : Bool := path.utf8ByteSize < 4096 && !path.toList.contains '\x00'

def trimBack : List Char → List Char
  | ['/'] => ['/']
  | '/' :: cs => trimBack cs
  | '.' :: '/' :: cs => trimBack ('/' :: cs)
  | cs => cs

def parent? (path : String) : Option String :=
  let back := trimBack path.toList.reverse
  if back = [] ∨ back = ['/'] then none
  else some (String.ofList (trimBack (back.dropWhile fun c => !isSlash c)).reverse)

def lastName? (cs : List Char) : Option (List Char × List Char) :=
  let back := trimBack cs.reverse
  let name := (back.takeWhile fun c => !isSlash c).reverse
  if name = [] ∨ name = ['.'] ∨ name = ['.','.'] then none
  else some ((back.dropWhile fun c => !isSlash c).reverse,name)

/-- A name in two parts: what precedes its last point, and the extension behind that. A point at the
beginning does not start one. -/
def stem (name : List Char) : List Char × Option (List Char) :=
  let upToPoint := Text.dropEnd (· != '.') name
  if upToPoint.length ≤ 1 then (name,none)
  else (upToPoint.dropLast,some (name.drop upToPoint.length))

/-- Gives a file another extension, or a first one. The old extension is cut off before; a path that
then ends in no name gets none. -/
def withExtension (path ext : String) : String :=
  let cs := path.toList
  let old := ((lastName? cs).bind fun (_,name) => (stem name).2).getD []
  let cut := cs.take (cs.length - old.length)
  match lastName? cut with
  | none => String.ofList cut
  | some (before,name) => String.ofList (before ++ (stem name).1 ++ '.' :: ext.toList)

def join (folder name : String) : String :=
  if folder = "" ∨ folder.toList.getLast? = some '/' then folder ++ name else folder ++ "/" ++ name

end VoiceCommand.Path
