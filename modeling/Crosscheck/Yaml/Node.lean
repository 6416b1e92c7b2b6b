import Crosscheck.Yaml.Scalar
import Crosscheck.Yaml.Token.Stream

namespace Crosscheck.Yaml

/-- A document as a tree. An alias holds the node it stands for, unless it stands inside it. -/
inductive Node where
  | scalar (line : Nat) (tag text : String)
  | sequence (line : Nat) (tag : String) (items : List Node)
  | mapping (line : Nat) (tag : String) (pairs : List (Node × Node))
  | shared (line : Nat) (name : String) (target : Node)
  | within (line : Nat) (name : String)
  deriving Inhabited

namespace Node

def line : Node → Nat
  | scalar line _ _ => line
  | sequence line _ _ => line
  | mapping line _ _ => line
  | shared line _ _ => line
  | within line _ => line

def tag : Node → String
  | scalar _ tag _ => tag
  | sequence _ tag _ => tag
  | mapping _ tag _ => tag
  | shared _ _ target => target.tag
  | within _ _ => Tag.map

/-- What tells two keys apart: the kind of node, and its text or name. -/
def keyMark : Node → Nat × String
  | scalar _ _ text => (0, text)
  | sequence _ _ _ => (1, "")
  | mapping _ _ _ => (2, "")
  | shared _ name _ => (3, name)
  | within _ name => (3, name)

def isMapping : Node → Bool
  | mapping _ _ _ => true
  | shared _ _ (mapping _ _ _) => true
  | within _ _ => true
  | _ => false

def isMergeKey : Node → Bool
  | scalar _ tag text => text = "<<" && tag = Tag.merge
  | _ => false

def empty (m : Mark) : Node := scalar (m.line + 1) Tag.null ""

end Node

structure Anchor where
  id : Nat
  name : String
  node : Option Node

structure Composer where
  tokens : Tokens
  handles : List (String × String) := []
  anchors : List Anchor := []
  nextId : Nat := 0

abbrev Compose := StateT Composer (Except Fault)

namespace Compose

def peek : Compose Token := do
  let s ← get
  let tokens ← (Tokens.fill (s.tokens.cursor.rest.length + 8) s.tokens : Except Fault Tokens)
  set { s with tokens }
  match tokens.queue with
  | t :: _ => return t
  | [] => throw (.malformed none .unknown)

def skip : Compose Unit :=
  modify fun s =>
    { s with tokens := { s.tokens with queue := s.tokens.queue.tail, taken := s.tokens.taken + 1 } }

def next : Compose Token := do
  skip
  peek

def defaultHandles : List (String × String) := [("!", "!"), ("!!", Tag.longStart)]

def directives : Nat → Bool → Compose Unit
  | 0, _ => throw (.malformed none .unknown)
  | fuel + 1, seenVersion => do
    let t ← peek
    match t.kind with
    | .version major minor =>
      if seenVersion then throw (.atToken {} t.start .duplicateVersion)
      if major ≠ 1 ∨ minor ≠ 1 then throw (.atToken {} t.start .incompatibleVersion)
      skip
      directives fuel true
    | .tagHandle handle start =>
      let s ← get
      if s.handles.any (·.1 = handle) then throw (.atToken {} t.start .duplicateTagHandle)
      set { s with handles := s.handles ++ [(handle, start)] }
      skip
      directives fuel seenVersion
    | _ => modify fun s => { s with handles := s.handles ++ defaultHandles }

structure Properties where
  start : Mark
  anchor : Option String := none
  tag : String := ""

def fullTag (start here : Mark) (handle suffix : String) : Compose String := do
  if handle = "" then return suffix
  match (← get).handles.find? (·.1 = handle) with
  | some (_, uri) =>
    if uri ++ suffix = "" then throw (.atToken start here .undefinedTagHandle)
    return uri ++ suffix
  | none => throw (.atToken start here .undefinedTagHandle)

def properties : Compose (Properties × Token) := do
  let t ← peek
  let start := t.start
  match t.kind with
  | .anchor name =>
    let t ← next
    match t.kind with
    | .tag handle suffix =>
      let after ← next
      return ({ start, anchor := some name, tag := ← fullTag start t.start handle suffix }, after)
    | _ => return ({ start, anchor := some name }, t)
  | .tag handle suffix =>
    let after ← next
    match after.kind with
    | .anchor name =>
      let last ← next
      return ({ start, anchor := some name, tag := ← fullTag start t.start handle suffix }, last)
    | _ => return ({ start, tag := ← fullTag start t.start handle suffix }, after)
  | _ => return ({ start }, t)

/-- Makes an anchor known. While its node is read, it stands for a node that is not complete. -/
def openAnchor (name : Option String) : Compose Nat := do
  let s ← get
  match name with
  | none => return s.nextId
  | some name =>
    set { s with anchors := ⟨s.nextId, name, none⟩ :: s.anchors, nextId := s.nextId + 1 }
    return s.nextId

def closeAnchor (name : Option String) (id : Nat) (n : Node) : Compose Node := do
  if name.isSome then
    modify fun s =>
      { s with anchors := s.anchors.map fun a => if a.id = id then { a with node := some n } else a }
  return n

def aliasNode (m : Mark) (name : String) : Compose Node := do
  match (← get).anchors.find? (·.name = name) with
  | none => throw (.unknownAnchor name)
  | some a =>
    match a.node with
    | some n => return .shared (m.line + 1) name n
    | none => return .within (m.line + 1) name

def scalarTag (tag text : String) (style : ScalarStyle) : String :=
  if tag ≠ "" ∧ tag ≠ "!" then Tag.short tag
  else if style ≠ .plain then Tag.str
  else if text = "<<" then Tag.merge
  else (resolve true text).1

def collectionTag (tag default : String) : String :=
  if tag ≠ "" ∧ tag ≠ "!" then Tag.short tag else default

def startsValue (stops : List TokenKind) (t : Token) : Bool := !stops.contains t.kind

mutual

/-- Reads a node. Between brackets no block may start; after a key of a block mapping, a sequence
needs no indentation of its own. -/
def node : Nat → Bool → Bool → Compose Node
  | 0, _, _ => throw (.malformed none .unknown)
  | fuel + 1, block, indentless => do
    let first ← peek
    match first.kind with
    | .shared name =>
      skip
      aliasNode first.start name
    | _ =>
      let (p, t) ← properties
      let line := p.start.line + 1
      let id ← openAnchor p.anchor
      let done (n : Node) : Compose Node := closeAnchor p.anchor id n
      match t.kind with
      | .scalar text style =>
        skip
        done (.scalar line (scalarTag p.tag text style) text)
      | .flowSequenceStart =>
        skip
        done (.sequence line (collectionTag p.tag Tag.seq) (← flowItems fuel t.start true []))
      | .flowMappingStart =>
        skip
        done (.mapping line (collectionTag p.tag Tag.map) (← flowPairs fuel t.start true []))
      | kind =>
        if indentless && kind = .blockEntry then
          done (.sequence line (collectionTag p.tag Tag.seq) (← indentlessItems fuel []))
        else if block && kind = .blockSequenceStart then
          skip
          done (.sequence line (collectionTag p.tag Tag.seq) (← blockItems fuel t.start []))
        else if block && kind = .blockMappingStart then
          skip
          done (.mapping line (collectionTag p.tag Tag.map) (← blockPairs fuel t.start []))
        else if p.anchor.isSome || p.tag ≠ "" then
          done (.scalar line (scalarTag p.tag "" .plain) "")
        else throw (.atToken p.start t.start .noNode)

def blockItems : Nat → Mark → List Node → Compose (List Node)
  | 0, _, _ => throw (.malformed none .unknown)
  | fuel + 1, start, acc => do
    let t ← peek
    match t.kind with
    | .blockEntry =>
      let after ← next
      let n ← if startsValue [.blockEntry, .blockEnd] after then node fuel true false
        else pure (Node.empty t.start)
      blockItems fuel start (n :: acc)
    | .blockEnd =>
      skip
      return acc.reverse
    | _ => throw (.atToken start t.start .noEntry)

def indentlessItems : Nat → List Node → Compose (List Node)
  | 0, _ => throw (.malformed none .unknown)
  | fuel + 1, acc => do
    let t ← peek
    match t.kind with
    | .blockEntry =>
      let after ← next
      let n ← if startsValue [.blockEntry, .key, .value, .blockEnd] after then node fuel true false
        else pure (Node.empty t.start)
      indentlessItems fuel (n :: acc)
    | _ => return acc.reverse

def blockPairs : Nat → Mark → List (Node × Node) → Compose (List (Node × Node))
  | 0, _, _ => throw (.malformed none .unknown)
  | fuel + 1, start, acc => do
    let t ← peek
    match t.kind with
    | .key =>
      let after ← next
      let k ← if startsValue [.key, .value, .blockEnd] after then node fuel true true
        else pure (Node.empty t.start)
      let colon ← peek
      let v ← if colon.kind = .value then do
          let after ← next
          if startsValue [.key, .value, .blockEnd] after then node fuel true true
          else pure (Node.empty colon.start)
        else pure (Node.empty colon.start)
      blockPairs fuel start ((k, v) :: acc)
    | .blockEnd =>
      skip
      return acc.reverse
    | _ => throw (.atToken start t.start .noKey)

/-- Reads the items between square brackets. A key among them makes a mapping of one pair. -/
def flowItems : Nat → Mark → Bool → List Node → Compose (List Node)
  | 0, _, _, _ => throw (.malformed none .unknown)
  | fuel + 1, start, first, acc => do
    let t ← peek
    if t.kind = .flowSequenceEnd then
      skip
      return acc.reverse
    if !first && t.kind ≠ .flowEntry then throw (.atToken start t.start .openFlowSequence)
    let t ← if first then pure t else next
    match t.kind with
    | .flowSequenceEnd =>
      skip
      return acc.reverse
    | .key =>
      let after ← next
      let k ← if startsValue [.value, .flowEntry, .flowSequenceEnd] after then node fuel false false
        else do
          skip
          pure (Node.empty after.start)
      let v ← flowValue fuel .flowSequenceEnd
      flowItems fuel start false (.mapping (t.start.line + 1) Tag.map [(k, v)] :: acc)
    | _ =>
      let n ← node fuel false false
      flowItems fuel start false (n :: acc)

def flowValue : Nat → TokenKind → Compose Node
  | 0, _ => throw (.malformed none .unknown)
  | fuel + 1, close => do
    let t ← peek
    if t.kind = .value then
      let after ← next
      if startsValue [.flowEntry, close] after then node fuel false false
      else return Node.empty after.start
    else return Node.empty t.start

def flowPairs : Nat → Mark → Bool → List (Node × Node) → Compose (List (Node × Node))
  | 0, _, _, _ => throw (.malformed none .unknown)
  | fuel + 1, start, first, acc => do
    let t ← peek
    if t.kind = .flowMappingEnd then
      skip
      return acc.reverse
    if !first && t.kind ≠ .flowEntry then throw (.atToken start t.start .openFlowMapping)
    let t ← if first then pure t else next
    match t.kind with
    | .flowMappingEnd =>
      skip
      return acc.reverse
    | .key =>
      let after ← next
      let k ← if startsValue [.value, .flowEntry, .flowMappingEnd] after then node fuel false false
        else pure (Node.empty after.start)
      let v ← flowValue fuel .flowMappingEnd
      flowPairs fuel start false ((k, v) :: acc)
    | _ =>
      let k ← node fuel false false
      let after ← peek
      flowPairs fuel start false ((k, Node.empty after.start) :: acc)

end

def document (fuel : Nat) : Compose (Option Node) := do
  let _ ← peek
  let t ← next
  match t.kind with
  | .streamEnd => return none
  | kind =>
    let explicit := match kind with
      | .version _ _ => true
      | .tagHandle _ _ => true
      | .documentStart => true
      | _ => false
    directives fuel false
    let here ← peek
    let root ←
      if explicit then do
        if here.kind ≠ .documentStart then throw (.atToken {} here.start .noDocumentStart)
        let after ← next
        match after.kind with
        | .version _ _ => pure (Node.empty after.start)
        | .tagHandle _ _ => pure (Node.empty after.start)
        | kind =>
          if startsValue [.documentStart, .documentEnd, .streamEnd] ⟨kind, after.start⟩ then
            node fuel true false
          else pure (Node.empty after.start)
      else node fuel true false
    let _ ← peek
    return some root

end Compose

def Node.read (cs : List Char) : Except Fault (Option Node) :=
  match (Compose.document (16 * cs.length + 64)).run { tokens := { cursor := { rest := cs } } } with
  | .ok (n, _) => .ok n
  | .error f => .error f

end Crosscheck.Yaml
