import Crosscheck.Duration
import Crosscheck.Log.Level
import Crosscheck.Text.Utf8

namespace Crosscheck.Log

inductive Value where
  | text (s : String)
  | raw (bytes : ByteArray)
  | number (i : Int64)
  | flag (b : Bool)
  | nothing
  | duration (d : Duration)
  | names (list : List String)
  | error (message : String)

structure Attr where
  key : String
  value : Value

structure Record where
  time : Option String := none
  level : Level
  message : String
  attrs : List Attr := []

def Value.isNothing : Value → Bool
  | .nothing => true
  | _ => false

/-- An attribute without key and value is left out. -/
def Attr.isShown (a : Attr) : Bool := a.key != "" || !a.value.isNothing

def isBare : Text.Piece → Bool
  | .char c =>
    if c.toNat < 0x80 then c = '\\' || (0x20 < c.toNat && c != '=' && c != '"')
    else c.toNat != 0xfffd && !Text.isBlank c && Text.isPrintable c
  | .stray _ => false

def bareOrQuoted (ps : List Text.Piece) : String :=
  if !ps.isEmpty && ps.all isBare then String.ofList (ps.map Text.Piece.toChar)
  else String.ofList (Text.quotedWith '"' false ps)

def bareText (s : String) : String := bareOrQuoted (Text.piecesOf s)

def decimal (i : Int) : String := String.ofList (Text.int i)

def Value.bare : Value → String
  | .text s => bareText s
  | .raw bytes => bareOrQuoted (Text.pieces bytes)
  | .number i => decimal i.toInt
  | .flag b => toString b
  | .nothing => "<nil>"
  | .duration d => d.render
  | .names list => bareText ("[" ++ " ".intercalate list ++ "]")
  | .error message => bareText message

def pairText (key value : String) : String := key ++ "=" ++ value

def Record.textLine (r : Record) : String :=
  let start := match r.time with
    | some t => [pairText "time" t]
    | none => []
  let own := [pairText "level" r.level.name, pairText "msg" (bareText r.message)]
  let rest := (r.attrs.filter Attr.isShown).map fun a => pairText (bareText a.key) a.value.bare
  " ".intercalate (start ++ own ++ rest)

/-- A character inside a JSON string. The two letters for backspace and form feed are only used
where `letters` allows them. -/
def jsonEscaped (letters : Bool) : Text.Piece → List Char
  | .stray _ => "\\ufffd".toList
  | .char c =>
    if c = '"' ∨ c = '\\' then ['\\', c]
    else if c = '\n' then ['\\', 'n']
    else if c = '\r' then ['\\', 'r']
    else if c = '\t' then ['\\', 't']
    else if letters ∧ c = '\x08' then ['\\', 'b']
    else if letters ∧ c = '\x0c' then ['\\', 'f']
    else if c.toNat < 0x20 ∨ c.toNat = 0x2028 ∨ c.toNat = 0x2029 then
      '\\' :: 'u' :: Text.hex 4 c.toNat
    else [c]

def jsonPieces (letters : Bool) (ps : List Text.Piece) : String :=
  String.ofList ('"' :: ps.flatMap (jsonEscaped letters) ++ ['"'])

def jsonText (s : String) : String := jsonPieces false (Text.piecesOf s)

def Value.json : Value → String
  | .text s => jsonText s
  | .raw bytes => jsonPieces false (Text.pieces bytes)
  | .number i => decimal i.toInt
  | .flag b => toString b
  | .nothing => "null"
  | .duration d => decimal d.toInt
  | .names list =>
    "[" ++ ",".intercalate (list.map fun s => jsonPieces true (Text.piecesOf s)) ++ "]"
  | .error message => jsonText message

def pairJson (key value : String) : String := jsonText key ++ ":" ++ value

def Record.jsonLine (r : Record) : String :=
  let start := match r.time with
    | some t => [pairJson "time" (jsonText t)]
    | none => []
  let own := [pairJson "level" (jsonText r.level.name), pairJson "msg" (jsonText r.message)]
  let rest := (r.attrs.filter Attr.isShown).map fun a => pairJson a.key a.value.json
  "\x7b" ++ ",".intercalate (start ++ own ++ rest) ++ "\x7d"

end Crosscheck.Log
