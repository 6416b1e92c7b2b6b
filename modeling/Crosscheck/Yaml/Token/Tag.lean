import Crosscheck.Text.Digits
import Crosscheck.Text.Utf8
import Crosscheck.Yaml.Token.Basic

namespace Crosscheck.Yaml

def isUriChar (c : Char) : Bool := isWordChar c || ";/?:@&=+$,.!~*'()[]%".toList.contains c

def hexOctet? : List Char → Option UInt8
  | '%' :: a :: b :: _ => (Text.value? 16 [a, b]).map (·.toUInt8)
  | _ => none

def uriEscape (start : Mark) : Nat → List UInt8 → Step (List UInt8)
  | 0, acc, c => .ok (acc, c)
  | left + 1, acc, c =>
    match hexOctet? c.rest with
    | none => .error (.inToken start c.mark .noUriOctet)
    | some b =>
      if b &&& 0xc0 ≠ 0x80 then .error (.inToken start c.mark .uriTrailingOctet)
      else uriEscape start left (acc ++ [b]) (c.skip 3)

def uriFrom (start : Mark) : Nat → List UInt8 → Step (List UInt8)
  | 0, acc, c => .ok (acc, c)
  | fuel + 1, acc, c =>
    match c.peek 0 with
    | none => .ok (acc, c)
    | some x =>
      if x = '%' then
        match hexOctet? c.rest with
        | none => .error (.inToken start c.mark .noUriOctet)
        | some b =>
          if octetCount b = 0 then .error (.inToken start c.mark .uriLeadingOctet)
          else
            match uriEscape start (octetCount b - 1) (acc ++ [b]) (c.skip 3) with
            | .error f => .error f
            | .ok (acc, next) => uriFrom start fuel acc next
      else if isUriChar x then
        uriFrom start fuel (acc ++ (String.singleton x).toUTF8.toList) (c.skip 1)
      else .ok (acc, c)

def tagUri (head : Option String) (start : Mark) : Step String := fun c =>
  let before := ((head.getD "").drop 1).toString
  if head.isNone ∧ (c.peek 0).all (fun x => !isUriChar x) then
    .error (.inToken start c.mark .noTagUri)
  else
    match uriFrom start (c.rest.length + 1) before.toUTF8.toList c with
    | .error f => .error f
    | .ok (octets, next) =>
      let chars := (Text.pieces (ByteArray.mk octets.toArray)).map Text.Piece.toChar
      .ok (String.ofList chars, next)

def tagHandle (directive : Bool) (start : Mark) : Step String := fun c =>
  if !c.sees 0 '!' then .error (.inToken start c.mark .noTagHandle)
  else
    let (word, here) := (c.skip 1).span isWordChar
    if here.sees 0 '!' then .ok (String.ofList ('!' :: word ++ ['!']), here.skip 1)
    else if directive ∧ word ≠ [] then .error (.inToken start here.mark .noTagHandle)
    else .ok (String.ofList ('!' :: word), here)

def tagParts (start : Mark) : Step TokenKind := fun c =>
  if c.sees 1 '<' then
    match tagUri none start (c.skip 2) with
    | .error f => .error f
    | .ok (suffix, here) =>
      if here.sees 0 '>' then .ok (.tag "" suffix, here.skip 1)
      else .error (.inToken start here.mark .noTagClose)
  else
    match tagHandle false start c with
    | .error f => .error f
    | .ok (handle, here) =>
      if 1 < handle.length ∧ handle.endsWith "!" then
        match tagUri none start here with
        | .error f => .error f
        | .ok (suffix, next) => .ok (.tag handle suffix, next)
      else
        match tagUri (some handle) start here with
        | .error f => .error f
        | .ok (suffix, next) =>
          if suffix = "" then .ok (.tag "" "!", next) else .ok (.tag "!" suffix, next)

def tagToken : Step TokenKind := fun c =>
  match tagParts c.mark c with
  | .error f => .error f
  | .ok (kind, next) =>
    if next.gapAt 0 then .ok (kind, next) else .error (.inToken c.mark next.mark .noBlankOrBreak)

def endsAnchor (c : Cursor) : Bool :=
  c.gapAt 0 || (c.peek 0).any fun x => "?:,]\x7d%@\x60".toList.contains x

def anchorName : Step String := fun c =>
  let (name, next) := (c.skip 1).span isWordChar
  if name.isEmpty || !endsAnchor next then .error (.inToken c.mark next.mark .anchorName)
  else .ok (String.ofList name, next)

def versionNumber (start : Mark) : Step Nat := fun c =>
  let (digits, next) := c.span Char.isDigit
  if 2 < digits.length then .error (.inToken start (c.skip 2).mark .longVersion)
  else
    match Text.value? 10 digits with
    | some n => .ok (n, next)
    | none => .error (.inToken start c.mark .noVersion)

def versionDirective (start : Mark) : Step TokenKind := fun c =>
  match versionNumber start (c.skipWhile isBlank) with
  | .error f => .error f
  | .ok (major, here) =>
    if !here.sees 0 '.' then .error (.inToken start here.mark .noVersionPoint)
    else
      match versionNumber start (here.skip 1) with
      | .error f => .error f
      | .ok (minor, next) => .ok (.version major minor, next)

def tagDirective (start : Mark) : Step TokenKind := fun c =>
  match tagHandle true start (c.skipWhile isBlank) with
  | .error f => .error f
  | .ok (handle, here) =>
    if !here.blankAt 0 then .error (.inToken start here.mark .noBlank)
    else
      match tagUri none start (here.skipWhile isBlank) with
      | .error f => .error f
      | .ok (uri, next) =>
        if next.gapAt 0 then .ok (.tagHandle handle uri, next)
        else .error (.inToken start next.mark .noBlankOrBreak)

def directiveValue (start : Mark) : Step TokenKind := fun c =>
  let (name, here) := (c.skip 1).span isWordChar
  if name.isEmpty then .error (.inToken start here.mark .noDirectiveName)
  else if !here.gapAt 0 then .error (.inToken start here.mark .directiveNameEnd)
  else if name = "YAML".toList then versionDirective start here
  else if name = "TAG".toList then tagDirective start here
  else .error (.inToken start here.mark .unknownDirective)

def directive : Step TokenKind := fun c =>
  match directiveValue c.mark c with
  | .error f => .error f
  | .ok (kind, here) =>
    let here := here.skipWhile isBlank
    let here := if here.sees 0 '#' then here.skipWhile fun x => !isBreak x else here
    if here.lineEndAt 0 then .ok (kind, here.skipLine)
    else .error (.inToken c.mark here.mark .noCommentOrBreak)

end Crosscheck.Yaml
