import Crosscheck.Message.Template
import Crosscheck.Text.Quoted

namespace Crosscheck.Message

/-- How an error came about: made from a text, wrapping one error, or wrapping several. -/
inductive Form where
  | plain
  | wrapping
  | joining
  deriving DecidableEq, Repr

inductive Operand where
  | text (s : String)
  | number (i : Int64)
  | flag (b : Bool)
  | error (form : Form) (message : String)
  | absent
  deriving DecidableEq, Repr

def Form.typeName : Form → String
  | .plain => "*errors.errorString"
  | .wrapping => "*fmt.wrapError"
  | .joining => "*fmt.wrapErrors"

def Operand.typeName : Operand → String
  | .text _ => "string"
  | .number _ => "int"
  | .flag _ => "bool"
  | .error form _ => form.typeName
  | .absent => "<nil>"

/-- The flags of a directive once its sizes are known. `sourceForm` asks for the value as it is
written in source code. -/
structure Style where
  sharp : Bool := false
  zero : Bool := false
  plus : Bool := false
  minus : Bool := false
  space : Bool := false
  sourceForm : Bool := false
  width : Option Nat := none
  precision : Option Nat := none
  deriving DecidableEq, Repr

namespace Style

def padding (st : Style) (n : Nat) : List Char :=
  List.replicate n (if st.zero && !st.minus then '0' else ' ')

def pad (st : Style) (cs : List Char) : List Char :=
  let fill := st.padding (st.width.getD 0 - cs.length)
  if st.minus then cs ++ fill else fill ++ cs

def padBlank (st : Style) (cs : List Char) : List Char := pad { st with zero := false } cs

def cut (st : Style) (cs : List Char) : List Char :=
  match st.precision with
  | some n => cs.take n
  | none => cs

def text (st : Style) (s : String) : List Char := st.pad (st.cut s.toList)

def quotedText (st : Style) (s : String) : List Char :=
  let cs := st.cut s.toList
  if st.sharp && Text.canBackquote (String.ofList cs) then st.pad ('\x60' :: cs ++ ['\x60'])
  else st.pad (Text.quotedWith '"' st.plus (cs.map .char))

def cased (upper : Bool) (cs : List Char) : List Char := if upper then cs.map Char.toUpper else cs

def hexText (st : Style) (upper : Bool) (s : String) : List Char :=
  let bytes := s.toUTF8.toList
  let bytes := match st.precision with
    | some n => bytes.take n
    | none => bytes
  let mark := if st.sharp then (if upper then ['0', 'X'] else ['0', 'x']) else []
  let one (b : UInt8) : List Char := cased upper (Text.hex 2 b.toNat)
  let body :=
    if st.space then [' '].intercalate (bytes.map fun b => mark ++ one b)
    else if bytes.isEmpty then []
    else mark ++ bytes.flatMap one
  st.pad body

/-- A whole number in the given base. Zeros fill up to the precision, or to the width if the
zero flag is set and there is no precision. -/
def integer (st : Style) (base : Nat) (upper octalMark : Bool) (i : Int) : List Char :=
  if st.precision = some 0 ∧ i = 0 then st.padBlank []
  else
    let signed := i < 0 || st.plus || st.space
    let least := match st.precision, st.width with
      | some n, _ => n
      | none, some w => if st.zero && !st.minus then (if signed then w - 1 else w) else 0
      | none, none => 0
    let digits := cased upper (Text.padded base least i.natAbs)
    let digits :=
      if !st.sharp then digits
      else if base = 2 then '0' :: 'b' :: digits
      else if base = 8 then (if digits.head? = some '0' then digits else '0' :: digits)
      else if base = 16 then '0' :: (if upper then 'X' else 'x') :: digits
      else digits
    let digits := if octalMark then '0' :: 'o' :: digits else digits
    st.padBlank <|
      if i < 0 then '-' :: digits
      else if st.plus then '+' :: digits
      else if st.space then ' ' :: digits
      else digits

/-- The character of a code point; numbers that are none give the replacement character. -/
def charOf (i : Int) : Char :=
  if 0 ≤ i ∧ i.toNat.isValidChar then Char.ofNat i.toNat else Char.ofNat 0xfffd

def codePoint (st : Style) (i : Int64) : List Char :=
  let n := i.toUInt64.toNat
  let digits := cased true (Text.padded 16 (max 4 (st.precision.getD 0)) n)
  let shown :=
    if st.sharp && n.isValidChar && Text.isPrintable (Char.ofNat n)
    then [' ', '\'', Char.ofNat n, '\''] else []
  st.padBlank ('U' :: '+' :: digits ++ shown)

end Style

def Style.textVerb? (st : Style) (s : String) (verb : Char) : Option (List Char) :=
  match verb with
  | 'v' => some (if st.sourceForm then st.quotedText s else st.text s)
  | 's' => some (st.text s)
  | 'x' => some (st.hexText false s)
  | 'X' => some (st.hexText true s)
  | 'q' => some (st.quotedText s)
  | _ => none

def Style.numberVerb? (st : Style) (i : Int64) (verb : Char) : Option (List Char) :=
  match verb with
  | 'v' => some (st.integer 10 false false i.toInt)
  | 'd' => some (st.integer 10 false false i.toInt)
  | 'b' => some (st.integer 2 false false i.toInt)
  | 'o' => some (st.integer 8 false false i.toInt)
  | 'O' => some (st.integer 8 false true i.toInt)
  | 'x' => some (st.integer 16 false false i.toInt)
  | 'X' => some (st.integer 16 true false i.toInt)
  | 'c' => some (st.pad [Style.charOf i.toInt])
  | 'q' => some (st.pad (Text.quotedWith '\'' st.plus [.char (Style.charOf i.toInt)]))
  | 'U' => some (st.codePoint i)
  | _ => none

def Style.flagVerb? (st : Style) (b : Bool) (verb : Char) : Option (List Char) :=
  if verb = 't' ∨ verb = 'v' then some (st.pad (toString b).toList) else none

/-- The complaint about a verb that the operand does not have, with the operand as shown by the
verb `v`. -/
def complaint (verb : Char) (typeName : String) (shown : List Char) : List Char :=
  '%' :: '!' :: verb :: '(' :: typeName.toList ++ '=' :: shown ++ [')']

def Style.inner (st : Style) (s : String) (verb : Char) : List Char :=
  (st.textVerb? s verb).getD (complaint verb "string" ((st.textVerb? s 'v').getD []))

def Style.record (st : Style) (message : String) (verb : Char) : List Char :=
  if st.sourceForm then
    "&errors.errorString".toList ++ '\x7b' :: 's' :: ':' :: st.inner message verb ++ ['\x7d']
  else '&' :: '\x7b' :: st.inner message verb ++ ['\x7d']

def Operand.show (st : Style) (verb : Char) : Operand → List Char
  | .absent =>
    if verb = 'v' ∨ verb = 'T' then st.pad "<nil>".toList
    else '%' :: '!' :: verb :: "(<nil>)".toList
  | o =>
    if verb = 'T' then st.text o.typeName
    else
      match o with
      | .text s =>
        (st.textVerb? s verb).getD (complaint verb o.typeName ((st.textVerb? s 'v').getD []))
      | .number i =>
        (st.numberVerb? i verb).getD (complaint verb o.typeName ((st.numberVerb? i 'v').getD []))
      | .flag b =>
        (st.flagVerb? b verb).getD (complaint verb o.typeName ((st.flagVerb? b 'v').getD []))
      | .error _ message =>
        let asText := if verb = 'w' then 'v' else verb
        if st.sourceForm then st.record message verb
        else (st.textVerb? message asText).getD (st.record message verb)
      | .absent => []

end Crosscheck.Message
