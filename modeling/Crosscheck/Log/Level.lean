import Crosscheck.Text.Blank
import Crosscheck.Text.Digits
import Crosscheck.Text.Quoted
import Crosscheck.Text.UpperCase

namespace Crosscheck.Log

structure Level where
  value : Int64
  deriving DecidableEq, Repr

namespace Level

def debug : Level := ⟨-4⟩

def info : Level := ⟨0⟩

def warn : Level := ⟨4⟩

def error : Level := ⟨8⟩

def atLeast (l threshold : Level) : Bool := threshold.value ≤ l.value

def named (name : String) (offset : Int) : String :=
  if offset = 0 then name
  else name ++ (if 0 < offset then "+" else "") ++ String.ofList (Text.int offset)

/-- The level is named after the next lower of the four names, or the lowest. -/
def name (l : Level) : String :=
  let v := l.value.toInt
  if v < 0 then named "DEBUG" (v + 4)
  else if v < 4 then named "INFO" v
  else if v < 8 then named "WARN" (v - 4)
  else named "ERROR" (v - 8)

def ofName? (cs : List Char) : Option Level :=
  match String.ofList (cs.map Text.upper) with
  | "DEBUG" => some debug
  | "INFO" => some info
  | "WARN" => some warn
  | "ERROR" => some error
  | _ => none

def isSign (c : Char) : Bool := c = '+' || c = '-'

def offset? (cs : List Char) : Option Int64 :=
  if cs.isEmpty then some 0 else Text.int64? cs

def parseChars? (cs : List Char) : Option Level :=
  let cs := Text.trimBlanks cs
  match offset? (cs.dropWhile (!isSign ·)), ofName? (cs.takeWhile (!isSign ·)) with
  | some n, some l => some ⟨l.value + n⟩
  | _, _ => none

/-- Reads a name in any case, with an optional distance; distances add up in 64-bit words. -/
def parse? (s : String) : Option Level := parseChars? s.toList

def unknownMessage (s : String) : String := "unknown log level " ++ Text.quoted s

end Level

end Crosscheck.Log
