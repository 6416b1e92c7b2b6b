import Crosscheck.Json.Reader
import Crosscheck.Program.Script
import Crosscheck.Text.Utf8

/-!
Scripted tools as files: a JSON list of objects, each of which names in its field `do` what is done
and gives in others what it is done with.
-/

namespace Crosscheck.Program.Script

def textIn (fields : List (String × Json)) (key : String) : String :=
  match fields.lookup key with
  | some (.string s) => s
  | _ => ""

def numberIn (fields : List (String × Json)) (key : String) : Option Nat :=
  match fields.lookup key with
  | some (.number t) => Text.value? 10 t.toList
  | _ => none

def hexBytes : List Char → ByteArray → ByteArray
  | a :: b :: rest, bytes => hexBytes rest (bytes.push ((Text.value? 16 [a, b]).getD 0).toUInt8)
  | _, bytes => bytes

/-- Text, or bytes in hexadecimal, and as often as is asked for. -/
def contentIn (fields : List (String × Json)) : ByteArray :=
  let once :=
    if (fields.lookup "hex").isSome then hexBytes (textIn fields "hex").toList ByteArray.empty
    else (textIn fields "text").toUTF8
  (List.replicate ((numberIn fields "repeat").getD 1) once).foldl (· ++ ·) ByteArray.empty

def signalNamed? : String → Option Signal
  | "TERM" => some .terminate
  | "KILL" => some .kill
  | "HUP" => some .hangup
  | "INT" => some .interrupt
  | "USR1" => some .user1
  | "PIPE" => some .brokenPipe
  | "ALRM" => some .alarm
  | _ => none

def simpleAction? (fields : List (String × Json)) : Option Action :=
  let path := textIn fields "path"
  match textIn fields "do" with
  | "write" => some (.write path (contentIn fields))
  | "append" => some (.append path (contentIn fields))
  | "copy_input" => some (.copyInput path)
  | "stdout" => some (.stdout (contentIn fields))
  | "stderr" => some (.stderr (contentIn fields))
  | "args" => some .showArgs
  | "stdin" => some .copyStdin
  | "mkdir" => some (.mkdir path)
  | "link" => some (.link path (textIn fields "target"))
  | "remove" => some (.remove path)
  | "exit" => some (.exit ((numberIn fields "code").getD 0))
  | "signal" => (signalNamed? (textIn fields "signal")).map .raise
  | "hang" => some .hang
  | "wait_dismiss" => some .awaitDismissal
  | _ => none

mutual

def action? : Json → Option Action
  | .object fields =>
    if textIn fields "do" = "if_base" then (nested? fields).map (.ifBase (textIn fields "base"))
    else simpleAction? fields
  | _ => none

def actions? : List Json → Option (List Action)
  | [] => some []
  | j :: rest => do
    let a ← action? j
    let more ← actions? rest
    return a :: more

def nested? : List (String × Json) → Option (List Action)
  | [] => some []
  | (key, j) :: rest => if key = "actions" then script? j else nested? rest

def script? : Json → Option (List Action)
  | .array items => actions? items
  | _ => none

end

def read? (bytes : ByteArray) : Option (List Action) :=
  match Json.read ((Text.pieces bytes).map Text.Piece.toChar) with
  | .ok j => script? j
  | .error _ => none

end Crosscheck.Program.Script
