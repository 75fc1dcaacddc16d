/-!
Paths with slashes: cleaning, joining, the parent and the extension.
-/

namespace Lineside.Path

def parts : List Char → List (List Char)
  | [] => [[]]
  | c :: rest =>
    match parts rest with
    | [] => [[c]]
    | first :: others => if c = '/' then [] :: first :: others else (c :: first) :: others

def split (path : String) : List String := (parts path.toList).map String.ofList

/-- Drops empty parts and dots, and lets `..` remove the part before it where there is one. -/
def cleanParts (rooted : Bool) : List String → List String → List String
  | done, [] => done.reverse
  | done, part :: rest =>
    if part = "" ∨ part = "." then cleanParts rooted done rest
    else if part = ".." then
      match done with
      | [] => cleanParts rooted (if rooted then [] else [".."]) rest
      | last :: before =>
        if last = ".." then cleanParts rooted (".." :: done) rest
        else cleanParts rooted before rest
    else cleanParts rooted (part :: done) rest

def clean (path : String) : String :=
  let rooted := path.toList.head? == some '/'
  let parts := "/".intercalate (cleanParts rooted [] (split path))
  if rooted then "/" ++ parts else if parts = "" then "." else parts

def join (directory name : String) : String :=
  if directory = "" then clean name else clean (directory ++ "/" ++ name)

def parent (path : String) : String :=
  clean (String.ofList (path.toList.reverse.dropWhile (· != '/')).reverse)

/-- The directories around what a path names, innermost first, each with the slash behind it. -/
def around (path : String) : List String :=
  let starts := (List.range path.length).map path.toList.take
  (starts.filter (·.getLast? == some '/')).reverse.map String.ofList

def extension (path : String) : String :=
  let name := (path.toList.reverse.takeWhile (· != '/'))
  match name.dropWhile (· != '.') with
  | [] => ""
  | _ => String.ofList ('.' :: (name.takeWhile (· != '.')).reverse)

end Lineside.Path
