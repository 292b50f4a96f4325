import Fable.Fault
import Fable.Text.Typed
import Fable.World.Problem
import Fable.World.Spec

namespace Fable.World

def pathParts (path : String) : List String :=
  (path.splitOn "/").filter fun p ↦ p != "" && p != "."

/-- Where a path starts: exactly two slashes are not the same as one. -/
def pathRoot (path : String) : String :=
  if !path.startsWith "/" then ""
  else if path.startsWith "//" && !path.startsWith "///" then "//"
  else "/"

def tidyPath (path : String) : String :=
  let root := pathRoot path
  let joined := root ++ "/".intercalate (pathParts path)
  if joined.isEmpty then "." else joined

def isPath (path : String) : Bool :=
  !path.toList.contains '\x00'

/-- The steps of a path; a slash at its end stays where one is. -/
def pathSteps (path : String) : List String :=
  (path.splitOn "/").filter (· != "") ++ if path.endsWith "/" then ["."] else []

/-- The bytes of the longest names, and of the longest paths. -/
def longestName : Nat := 255

def longestPath : Nat := 4095

abbrev Lookup := Except Refusal ByteArray

structure Folder where
  files : List (List String × ByteArray)

/-- A place that a path leads to: in the folder, from the root, or in one of the folders around. -/
inductive Place
  | inside (parts : List String)
  | root (parts : List String)
  | outside
  | nowhere

def rootFolders : List String :=
  ["bin", "dev", "etc", "home", "lib", "opt", "proc", "run", "sbin", "srv",
    "sys", "tmp", "usr", "var"]

def Place.step (name : String) : Place → Place
  | inside parts =>
    if name = "." then inside parts
    else if name = ".." then if parts.isEmpty then outside else inside parts.dropLast
    else inside (parts ++ [name])
  | root parts =>
    if name = "." then root parts
    else root (if name = ".." then parts.dropLast else parts ++ [name])
  | outside => if name = "." ∨ name = ".." then outside else nowhere
  | nowhere => nowhere

namespace Folder

def look (f : Folder) : Place → Lookup
  | .inside parts => match f.files.lookup parts with
    | some bytes => .ok bytes
    | none =>
      if parts.isEmpty || f.files.any fun e ↦
        parts.isPrefixOf e.1 then .error .folder else .error .missing
  | .root parts => match parts with
    | [] => .error .folder
    | [name] => .error (if rootFolders.contains name then .folder else .missing)
    | parts => if parts = ["dev", "null"] then .ok .empty else .error .missing
  | .outside => .error .folder
  | .nowhere => .error .missing

def follow (f : Folder) (place : Place) : List String → Lookup
  | [] => f.look place
  | name :: names => match f.look place with
    | .ok _ => .error .notFolder
    | .error .folder =>
      if longestName < name.utf8ByteSize then .error .tooLong else f.follow (place.step name) names
    | .error why => .error why

def find (f : Folder) (path : String) : Lookup :=
  if path.isEmpty then .error .missing
  else if longestPath < path.utf8ByteSize then .error .tooLong
  else f.follow (if path.startsWith "/" then .root [] else .inside []) (pathSteps path)

end Folder

def fileText? (bytes : ByteArray) : Option String :=
  (String.fromUTF8? bytes).map Text.unifyLineEnds

/-- Why a text from a file is not JSON; a number of too many digits is not even a complaint. -/
def notJson (path source : String) (t : Json.Trouble) : Fault :=
  match t.complaint with
  | .digits => .badValue
  | _ => .world (.notJson path (t.describe source))

def Spec.ofText (path source : String) : Except Fault Spec :=
  match Json.read .file 0 source with
  | .error t => .error (notJson path source t)
  | .ok (.dict es _) => (check .value (Json.settled (.dict es))).mapError .world
  | .ok _ => .error (.world (.notObject path))

def Spec.load (find : String → Lookup) (path : String) : Except Fault Spec :=
  let path := tidyPath path
  if !isPath path then .error .badValue
  else match find path with
    | .error why => .error (.world (.unreadable path why))
    | .ok bytes => match fileText? bytes with
      | none => .error .decoding
      | some source => Spec.ofText path source

end Fable.World
