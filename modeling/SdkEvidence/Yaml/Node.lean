import SdkEvidence.Yaml.Token

/-!
# YAML nodes

The tokens of a text form one document, whose content is a node. An alias names an anchored node
by a number; the nodes that the numbers stand for are kept beside the document, since an alias may
stand inside the very node that it names.
-/
namespace SdkEvidence.Yaml

/-- A node of a document. -/
inductive Node where
  | alias (anchor : Nat)
  | scalar (tag : Option String) (text : String) (plain : Bool)
  | sequence (tag : Option String) (items : List Node)
  | mapping (tag : Option String) (entries : List (Node × Node))
  deriving Repr, Inhabited

/-- A node that has an anchor: the number of the anchor, and the place of the node among all
anchored ones in the order in which they start. -/
structure Anchored where
  anchor : Nat
  place : Nat
  node : Node
  deriving Repr

/-- The content of a document with its anchored nodes; nothing where the text is empty. -/
structure Document where
  content : Option Node
  anchored : List Anchored
  deriving Repr

/-- The state between tokens: the meaning of tag handles, and the anchors met so far. -/
structure NodeReader where
  tokens : List Token
  handles : List (String × String)
  names : List (String × Nat)
  places : Nat
  anchored : List Anchored

/-- Reading takes tokens or fails. -/
abbrev Reading := StateT NodeReader Option

namespace Reading

/-- The next token. -/
def peek : Reading Token := do
  pure ((← get).tokens.head?.getD .streamEnd)

/-- Takes the next token. -/
def advance : Reading Unit :=
  modify fun s => { s with tokens := s.tokens.drop 1 }

/-- Takes a token that must stand next. -/
def expect (token : Token) : Reading Unit := do
  if (← peek) = token then advance else failure

/-- A node without any text. -/
def empty : Node :=
  .scalar none "" true

/-- The number of an anchor: how many names are known. A name that is given again changes its
number. -/
def nameAnchor (name : String) : Reading Nat := do
  let s ← get
  let number := s.names.length
  set { s with names := (name, number) :: s.names.filter fun known => known.1 != name }
  pure number

/-- The tag that a handle and a suffix stand for. -/
def expandTag (handle suffix : String) : Reading String := do
  if handle = "" then pure suffix
  else
    match (← get).handles.lookup handle with
    | some lead => pure (lead ++ suffix)
    | none => failure

/-- Reads the anchor and the tag before a node, in either order. -/
def properties : Reading (Option String × Option String) := do
  match ← peek with
  | .anchor name =>
      advance
      match ← peek with
      | .tag handle suffix => advance; pure (some name, some (← expandTag handle suffix))
      | _ => pure (some name, none)
  | .tag handle suffix =>
      advance
      match ← peek with
      | .anchor name => advance; pure (some name, some (← expandTag handle suffix))
      | _ => pure (none, some (← expandTag handle suffix))
  | _ => pure (none, none)

/-- Keeps the node that an anchor names, where there is one. -/
def keep (anchor : Option (Nat × Nat)) (node : Node) : Reading Node := do
  match anchor with
  | some (anchor, place) =>
      modify fun s => { s with anchored := { anchor, place, node } :: s.anchored }
  | none => pure ()
  pure node

/-- Gives the node that starts now its anchor and place. -/
def announce (name : Option String) : Reading (Option (Nat × Nat)) := do
  match name with
  | none => pure none
  | some name =>
      let number ← nameAnchor name
      let place := (← get).places
      modify fun s => { s with places := place + 1 }
      pure (some (number, place))

/-- Whether the next token is one of some. -/
def nextIn (tokens : List Token) : Reading Bool := do
  pure (tokens.contains (← peek))

mutual

/-- Reads a node. Block collections may start only where `block` holds, and a sequence without
indentation of its own only where `flat` holds. -/
def node : Nat → Bool → Bool → Reading Node
  | 0, _, _ => failure
  | fuel + 1, block, flat => do
      match ← peek with
      | .alias name =>
          advance
          match (← get).names.lookup name with
          | some number => pure (.alias number)
          | none => failure
      | _ =>
          let (name, tag) ← properties
          let anchor ← announce name
          match ← peek with
          | .scalar text plain =>
              advance
              keep anchor (.scalar (if tag = some "!" then none else tag) text plain)
          | .flowSequence => advance; keep anchor (.sequence tag (← flowItems fuel []))
          | .flowMapping => advance; keep anchor (.mapping tag (← flowEntries fuel []))
          | .blockSequence =>
              if block then
                advance
                keep anchor (.sequence tag (← blockItems fuel []))
              else if name.isSome || tag.isSome then keep anchor (.scalar tag "" true)
              else failure
          | .blockMapping =>
              if block then
                advance
                keep anchor (.mapping tag (← blockEntries fuel []))
              else if name.isSome || tag.isSome then keep anchor (.scalar tag "" true)
              else failure
          | .blockEntry =>
              if flat then keep anchor (.sequence tag (← flatItems fuel []))
              else if name.isSome || tag.isSome then keep anchor (.scalar tag "" true)
              else failure
          | _ => if name.isSome || tag.isSome then keep anchor (.scalar tag "" true) else failure

/-- Reads the items of a block sequence and its end. -/
def blockItems : Nat → List Node → Reading (List Node)
  | 0, _ => failure
  | fuel + 1, done => do
      match ← peek with
      | .blockEntry =>
          advance
          let item ← if ← nextIn [.blockEntry, .blockEnd] then pure empty else node fuel true false
          blockItems fuel (item :: done)
      | .blockEnd => advance; pure done.reverse
      | _ => failure

/-- Reads the items of a block sequence that stands at the indentation of its key. -/
def flatItems : Nat → List Node → Reading (List Node)
  | 0, _ => failure
  | fuel + 1, done => do
      match ← peek with
      | .blockEntry =>
          advance
          let item ← if ← nextIn [.blockEntry, .key, .value, .blockEnd] then pure empty
            else node fuel true false
          flatItems fuel (item :: done)
      | _ => pure done.reverse

/-- Reads the entries of a block mapping and its end. -/
def blockEntries : Nat → List (Node × Node) → Reading (List (Node × Node))
  | 0, _ => failure
  | fuel + 1, done => do
      match ← peek with
      | .key =>
          advance
          let key ← if ← nextIn [.key, .value, .blockEnd] then pure empty else node fuel true true
          let value ←
            if ← nextIn [.value] then do
              advance
              if ← nextIn [.key, .value, .blockEnd] then pure empty else node fuel true true
            else pure empty
          blockEntries fuel ((key, value) :: done)
      | .blockEnd => advance; pure done.reverse
      | _ => failure

/-- Reads the items of a flow sequence and its end. A key makes a mapping of one entry. -/
def flowItems : Nat → List Node → Reading (List Node)
  | 0, _ => failure
  | fuel + 1, done => do
      if ← nextIn [.flowSequenceEnd] then
        advance
        pure done.reverse
      else
        if !done.isEmpty then expect .flowEntry
        match ← peek with
        | .flowSequenceEnd => advance; pure done.reverse
        | .key =>
            advance
            let entry ← pair fuel
            flowItems fuel (.mapping none [entry] :: done)
        | _ =>
            let item ← node fuel false false
            flowItems fuel (item :: done)

/-- Reads the only entry of a mapping inside a flow sequence. Where the key is empty the token
after it is passed over. -/
def pair : Nat → Reading (Node × Node)
  | 0 => failure
  | fuel + 1 => do
      let key ←
        if ← nextIn [.value, .flowEntry, .flowSequenceEnd] then do
          advance
          pure empty
        else node fuel false false
      let value ←
        if ← nextIn [.value] then do
          advance
          if ← nextIn [.flowEntry, .flowSequenceEnd] then pure empty else node fuel false false
        else pure empty
      pure (key, value)

/-- Reads the entries of a flow mapping and its end. -/
def flowEntries : Nat → List (Node × Node) → Reading (List (Node × Node))
  | 0, _ => failure
  | fuel + 1, done => do
      if ← nextIn [.flowMappingEnd] then
        advance
        pure done.reverse
      else
        if !done.isEmpty then expect .flowEntry
        match ← peek with
        | .flowMappingEnd => advance; pure done.reverse
        | .key =>
            advance
            let key ← if ← nextIn [.value, .flowEntry, .flowMappingEnd] then pure empty
              else node fuel false false
            let value ←
              if ← nextIn [.value] then do
                advance
                if ← nextIn [.flowEntry, .flowMappingEnd] then pure empty else node fuel false false
              else pure empty
            flowEntries fuel ((key, value) :: done)
        | _ =>
            let key ← node fuel false false
            flowEntries fuel ((key, empty) :: done)

end

/-- Reads the directives before a document. Each handle may be given a meaning once. -/
def directives : Nat → Bool → Reading Unit
  | 0, _ => failure
  | fuel + 1, versionSeen => do
      match ← peek with
      | .version major minor =>
          advance
          if versionSeen || major != 1 || !(minor == 1 || minor == 2) then failure
          directives fuel true
      | .tagPrefix handle lead =>
          advance
          if ((← get).handles.lookup handle).isSome then failure
          modify fun s => { s with handles := (handle, lead) :: s.handles }
          directives fuel versionSeen
      | _ => pure ()

/-- Adds the meaning of the handles that directives left open. -/
def defaultHandles : Reading Unit :=
  modify fun s => { s with handles := s.handles ++ [("!", "!"), ("!!", "tag:yaml.org,2002:")] }

/-- Reads the content of a document that a mark opened. -/
def openedContent (fuel : Nat) : Reading Node := do
  match ← peek with
  | .version _ _ | .tagPrefix _ _ | .documentStart | .documentEnd | .streamEnd => pure empty
  | _ => node fuel true false

/-- Reads the end of the text, before which only end marks of documents may stand. -/
def finish : Nat → Reading Unit
  | 0 => failure
  | fuel + 1 => do
      match ← peek with
      | .documentEnd => advance; finish fuel
      | .streamEnd => pure ()
      | _ => failure

/-- Reads the only document of a text. -/
def document (fuel : Nat) : Reading (Option Node) := do
  match ← peek with
  | .streamEnd => pure none
  | .version _ _ | .tagPrefix _ _ | .documentStart =>
      directives fuel false
      defaultHandles
      expect .documentStart
      let content ← openedContent fuel
      finish fuel
      pure (some content)
  | _ =>
      defaultHandles
      let content ← node fuel true false
      finish fuel
      pure (some content)

end Reading

/-- The document that a text holds. Every token is passed at most twice on the way down to it. -/
def Document.read? (text : List Char) : Option Document := do
  let tokens ← tokens? text
  let start : NodeReader := { tokens, handles := [], names := [], places := 0, anchored := [] }
  let (content, s) ← (Reading.document (2 * tokens.length + 4)).run start
  some { content, anchored := s.anchored }

/-- The node that an anchor stands for in the end: the last one to start. -/
def Document.target? (document : Document) (anchor : Nat) : Option Node :=
  let later (best : Option Anchored) (a : Anchored) : Option Anchored :=
    if a.anchor ≠ anchor then best
    else
      match best with
      | some b => if b.place < a.place then some a else some b
      | none => some a
  (document.anchored.foldl later none).map Anchored.node

end SdkEvidence.Yaml
