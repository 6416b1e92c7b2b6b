namespace Crosscheck.Path

def splitAt (sep : Char) : List Char → List (List Char)
  | [] => [[]]
  | c :: rest =>
    if c = sep then [] :: splitAt sep rest
    else
      match splitAt sep rest with
      | part :: more => (c :: part) :: more
      | [] => [[c]]

def components (p : String) : List String :=
  ((splitAt '/' p.toList).map String.ofList).filter fun c => c != "" && c != "."

def isAbs (p : String) : Bool := p.toList.head? = some '/'

/-- One component after the stack `up`, innermost first. Two dots cancel a name before them; at
the root they are dropped, and at the start of a relative path they stay. -/
def step (rooted : Bool) (up : List String) (c : String) : List String :=
  if c = ".." then
    match up with
    | [] => if rooted then [] else [".."]
    | top :: rest => if top = ".." then ".." :: up else rest
  else c :: up

def reduce (rooted : Bool) (cs : List String) : List String :=
  (cs.foldl (step rooted) []).reverse

def ofComponents (rooted : Bool) (cs : List String) : String :=
  let body := "/".intercalate cs
  if rooted then "/" ++ body else if cs.isEmpty then "." else body

/-- The shortest path that means the same, read without looking at any file. -/
def clean (p : String) : String := ofComponents (isAbs p) (reduce (isAbs p) (components p))

def join (parts : List String) : String :=
  match parts.filter (· != "") with
  | [] => ""
  | ps => clean ("/".intercalate ps)

def dropEndSlashes (cs : List Char) : List Char := (cs.reverse.dropWhile (· == '/')).reverse

def lastPart (cs : List Char) : List Char := (cs.reverse.takeWhile (· != '/')).reverse

def base (p : String) : String :=
  if p = "" then "."
  else
    match lastPart (dropEndSlashes p.toList) with
    | [] => "/"
    | cs => String.ofList cs

def extOf (cs : List Char) : List Char :=
  if cs.contains '.' then '.' :: (cs.reverse.takeWhile (· != '.')).reverse else []

def ext (p : String) : String := String.ofList (extOf (lastPart p.toList))

def dir (p : String) : String :=
  clean (String.ofList ((p.toList.reverse.dropWhile (· != '/')).reverse))

def abs (cwd p : String) : String := if isAbs p then clean p else join [cwd, p]

def trimEnd (s suffix : String) : String :=
  if suffix.toList.isSuffixOf s.toList then
    String.ofList (s.toList.take (s.toList.length - suffix.toList.length))
  else s

def stem (p : String) : String := trimEnd (base p) (ext p)

end Crosscheck.Path
