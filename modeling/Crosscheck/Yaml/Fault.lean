import Crosscheck.Text.Quoted

namespace Crosscheck.Yaml

structure Mark where
  index : Nat := 0
  line : Nat := 0
  column : Nat := 0
  deriving DecidableEq, Repr, Inhabited

inductive Problem where
  | controlCharacter
  | leadingOctet
  | trailingOctet
  | incompleteOctets
  | overlongOctets
  | badCharacter
  | tooDeep
  | noColon
  | entryNotAllowed
  | keyNotAllowed
  | valueNotAllowed
  | noToken
  | noDirectiveName
  | directiveNameEnd
  | unknownDirective
  | noVersionPoint
  | longVersion
  | noVersion
  | noBlank
  | noBlankOrBreak
  | noCommentOrBreak
  | anchorName
  | noTagClose
  | noTagHandle
  | noTagUri
  | noUriOctet
  | uriLeadingOctet
  | uriTrailingOctet
  | zeroIndent
  | tabInIndent
  | documentInQuotes
  | endInQuotes
  | unknownEscape
  | noHexDigit
  | badCodePoint
  | tabInPlain
  | noDocumentStart
  | duplicateVersion
  | incompatibleVersion
  | duplicateTagHandle
  | undefinedTagHandle
  | noNode
  | noEntry
  | noKey
  | openFlowSequence
  | openFlowMapping
  | unknown
  deriving DecidableEq, Repr

def Problem.text : Problem → String
  | controlCharacter => "control characters are not allowed"
  | leadingOctet => "invalid leading UTF-8 octet"
  | trailingOctet => "invalid trailing UTF-8 octet"
  | incompleteOctets => "incomplete UTF-8 octet sequence"
  | overlongOctets => "invalid length of a UTF-8 sequence"
  | badCharacter => "invalid Unicode character"
  | tooDeep => "exceeded max depth of 10000"
  | noColon => "could not find expected ':'"
  | entryNotAllowed => "block sequence entries are not allowed in this context"
  | keyNotAllowed => "mapping keys are not allowed in this context"
  | valueNotAllowed => "mapping values are not allowed in this context"
  | noToken => "found character that cannot start any token"
  | noDirectiveName => "could not find expected directive name"
  | directiveNameEnd => "found unexpected non-alphabetical character"
  | unknownDirective => "found unknown directive name"
  | noVersionPoint => "did not find expected digit or '.' character"
  | longVersion => "found extremely long version number"
  | noVersion => "did not find expected version number"
  | noBlank => "did not find expected whitespace"
  | noBlankOrBreak => "did not find expected whitespace or line break"
  | noCommentOrBreak => "did not find expected comment or line break"
  | anchorName => "did not find expected alphabetic or numeric character"
  | noTagClose => "did not find the expected '>'"
  | noTagHandle => "did not find expected '!'"
  | noTagUri => "did not find expected tag URI"
  | noUriOctet => "did not find URI escaped octet"
  | uriLeadingOctet => "found an incorrect leading UTF-8 octet"
  | uriTrailingOctet => "found an incorrect trailing UTF-8 octet"
  | zeroIndent => "found an indentation indicator equal to 0"
  | tabInIndent => "found a tab character where an indentation space is expected"
  | documentInQuotes => "found unexpected document indicator"
  | endInQuotes => "found unexpected end of stream"
  | unknownEscape => "found unknown escape character"
  | noHexDigit => "did not find expected hexdecimal number"
  | badCodePoint => "found invalid Unicode character escape code"
  | tabInPlain => "found a tab character that violates indentation"
  | noDocumentStart => "did not find expected <document start>"
  | duplicateVersion => "found duplicate %YAML directive"
  | incompatibleVersion => "found incompatible YAML document"
  | duplicateTagHandle => "found duplicate %TAG directive"
  | undefinedTagHandle => "found undefined tag handle"
  | noNode => "did not find expected node content"
  | noEntry => "did not find expected '-' indicator"
  | noKey => "did not find expected key"
  | openFlowSequence => "did not find expected ',' or ']'"
  | openFlowMapping => "did not find expected ',' or '\x7d'"
  | unknown => "unknown problem parsing YAML content"

inductive Mismatch where
  | duplicateKey (line : Nat) (key : String) (firstLine : Nat)
  | wrongType (line : Nat) (tag shown wanted : String)
  deriving DecidableEq, Repr

def Mismatch.text : Mismatch → String
  | duplicateKey line key firstLine =>
    "line " ++ toString line ++ ": mapping key " ++ Text.quoted key ++
      " already defined at line " ++ toString firstLine
  | wrongType line tag shown wanted =>
    "line " ++ toString line ++ ": cannot unmarshal " ++ tag ++ shown ++ " into " ++ wanted

inductive Fault where
  | malformed (line : Option Nat) (problem : Problem)
  | unknownAnchor (name : String)
  | selfContained (name : String)
  | mergeOfNoMap
  | notOfTag (actual value wanted : String)
  | badBinary
  | badKey (shown : String)
  | mismatched (mismatches : List Mismatch)
  deriving DecidableEq, Repr

def Fault.text : Fault → String
  | malformed (some line) p => "line " ++ toString line ++ ": " ++ p.text
  | malformed none p => p.text
  | unknownAnchor name => "unknown anchor '" ++ name ++ "' referenced"
  | selfContained name => "anchor '" ++ name ++ "' value contains itself"
  | mergeOfNoMap => "map merge requires map or sequence of maps as the value"
  | notOfTag actual value wanted =>
    "cannot decode " ++ actual ++ " \x60" ++ value ++ "\x60 as a " ++ wanted
  | badBinary => "!!binary value contains invalid base64 data"
  | badKey shown => "invalid map key: " ++ shown
  | mismatched ms => "unmarshal errors:\n" ++ "\n".intercalate (ms.map fun m => "  " ++ m.text)

def Fault.message (f : Fault) : String := "yaml: " ++ f.text

def lineOf? (start here : Mark) : Option Nat :=
  if start.line ≠ 0 then some start.line
  else if here.line ≠ 0 then some here.line
  else none

/-- Something wrong inside a token. A fault on the first line of the text has no number. -/
def Fault.inToken (start here : Mark) (p : Problem) : Fault :=
  malformed ((lineOf? start here).map (· + 1)) p

/-- Something wrong between tokens, by the number of the line before. -/
def Fault.atToken (start here : Mark) (p : Problem) : Fault := malformed (lineOf? start here) p

end Crosscheck.Yaml
