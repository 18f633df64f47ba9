import SdkEvidence.Decimal.Binary64
import SdkEvidence.Yaml.Node

/-!
# YAML values

What nodes stand for. A plain scalar is null, a truth value, a number or a text, whichever it
reads as first; a quoted one is a text. Aliases are followed, with a bound on how often.
-/
namespace SdkEvidence.Yaml

/-- A number. A float keeps the text it is shown with. -/
inductive Number where
  | integer (n : Int)
  | float (text : String)
  deriving DecidableEq, Repr

/-- The text of a number. -/
def Number.text : Number → String
  | .integer n => toString n
  | .float text => text

/-- A value. -/
inductive Value where
  | null
  | bool (b : Bool)
  | number (n : Number)
  | string (s : String)
  | sequence (items : List Value)
  | mapping (entries : List (Value × Value))
  | tagged (tag : String) (value : Value)
  deriving Repr, Inhabited

/-- Whether a text is null. -/
def isNullText (s : String) : Bool :=
  ["null", "Null", "NULL", "~"].contains s

/-- The truth value of a text. -/
def boolOfText? (s : String) : Option Bool :=
  if ["true", "True", "TRUE"].contains s then some true
  else if ["false", "False", "FALSE"].contains s then some false
  else none

/-- The number of digits in a base; a sign is not read here. -/
def naturalIn? (base : Nat) (ds : List Char) : Option Nat :=
  if ds.isEmpty then none
  else
    ds.foldlM (fun n c =>
      (Hex.digitValue? c).bind fun d => if d < base then some (n * base + d) else none) 0

/-- Whether the digits have a zero in front, which makes them a text. -/
def hasLeadingZero (cs : List Char) : Bool :=
  let ds := match cs with
    | '-' :: rest => rest
    | '+' :: rest => rest
    | rest => rest
  ds.head? == some '0' && 1 < ds.length && ds.all Char.isDigit

/-- A number in one of the bases that a mark announces. -/
def marked? : List Char → Option Nat
  | '0' :: 'x' :: ds => naturalIn? 16 ds
  | '0' :: 'o' :: ds => naturalIn? 8 ds
  | '0' :: 'b' :: ds => naturalIn? 2 ds
  | _ => none

/-- The integer that a text stands for, of any size. -/
def integerOfText? (cs : List Char) : Option Int :=
  match cs with
  | '-' :: rest =>
      let decimal := if hasLeadingZero cs then none else naturalIn? 10 rest
      ((marked? rest).orElse fun _ => decimal).map fun n => -(n : Int)
  | '+' :: rest =>
      let decimal := if hasLeadingZero cs then none else naturalIn? 10 rest
      ((marked? rest).orElse fun _ => decimal).map Int.ofNat
  | _ =>
      let decimal := if hasLeadingZero cs then none else naturalIn? 10 cs
      ((marked? cs).orElse fun _ => decimal).map Int.ofNat

/-- How an integer counts by its size: as a number, as an error, or not at all. -/
inductive Extent where
  | fits
  | tooWide
  | absent
  deriving DecidableEq, Repr

/-- Numbers of sixty-four bits are kept; wider ones of up to a hundred and twenty-eight bits are
refused, and what is wider still is no integer. -/
def extent (n : Int) : Extent :=
  if -0x8000000000000000 ≤ n ∧ n < 0x10000000000000000 then .fits
  else if -0x80000000000000000000000000000000 ≤ n
      ∧ n < 0x100000000000000000000000000000000 then .tooWide
  else .absent

/-- The digits after the point, if there is one, and what follows them. -/
def fraction : List Char → List Char × List Char
  | '.' :: rest => (rest.takeWhile Char.isDigit, rest.dropWhile Char.isDigit)
  | rest => ([], rest)

/-- The power of ten that stands at the end of a decimal. -/
def power? : List Char → Option Int
  | [] => some 0
  | c :: rest =>
      if c = 'e' ∨ c = 'E' then
        match rest with
        | '-' :: ds => (naturalIn? 10 ds).map fun n => -(n : Int)
        | '+' :: ds => (naturalIn? 10 ds).map Int.ofNat
        | ds => (naturalIn? 10 ds).map Int.ofNat
      else none

/-- The text of the finite float that an unsigned decimal stands for. Digits may be missing on one
side of the point. -/
def decimalText? (cs : List Char) : Option String := do
  let whole := cs.takeWhile Char.isDigit
  let (fraction, rest) := fraction (cs.dropWhile Char.isDigit)
  if whole.isEmpty && fraction.isEmpty then none
  else
    let power ← power? rest
    let digits ← naturalIn? 10 (whole ++ fraction)
    (Decimal.Binary64.ofDecimal? digits (power - fraction.length)).map Decimal.Binary64.text

/-- The text of the float that a text stands for. -/
def floatText? (s : String) : Option String :=
  if [".inf", ".Inf", ".INF", "+.inf", "+.Inf", "+.INF"].contains s then some ".inf"
  else if ["-.inf", "-.Inf", "-.INF"].contains s then some "-.inf"
  else if [".nan", ".NaN", ".NAN"].contains s then some ".nan"
  else
    match s.toList with
    | '-' :: rest => (decimalText? rest).map ("-" ++ ·)
    | '+' :: rest => decimalText? rest
    | rest => decimalText? rest

/-- What a plain scalar without a tag stands for; none where a number is too wide. -/
def plainValue? (s : String) : Option Value :=
  if s = "" ∨ isNullText s then some .null
  else
    match boolOfText? s with
    | some b => some (.bool b)
    | none =>
        let otherwise :=
          if hasLeadingZero s.toList then Value.string s
          else
            match floatText? s with
            | some text => .number (.float text)
            | none => .string s
        match integerOfText? s.toList with
        | none => some otherwise
        | some n =>
            match extent n with
            | .fits => some (.number (.integer n))
            | .tooWide => none
            | .absent => some otherwise

/-- The tags of the kinds that a scalar can be held to. -/
def coreTag (kind : String) : String :=
  "tag:yaml.org,2002:" ++ kind

/-- What a scalar with a tag of a kind stands for; any other tag makes it a text. -/
def heldTo? (tag s : String) : Option Value :=
  if tag = coreTag "bool" then (boolOfText? s).map .bool
  else if tag = coreTag "int" then
    (integerOfText? s.toList).bind fun n =>
      if extent n = .fits then some (.number (.integer n)) else none
  else if tag = coreTag "float" then (floatText? s).map fun text => .number (.float text)
  else if tag = coreTag "null" then (if isNullText s then some .null else none)
  else some (.string s)

/-- A tag that is local to the document, without its exclamation mark. -/
def localTag? (tag : Option String) : Option String :=
  tag.bind fun tag =>
    match tag.toList with
    | ['!'] => some tag
    | '!' :: rest => some (String.ofList rest)
    | _ => none

/-- The sign of a zero does not tell keys apart. -/
def Number.sameKey (a b : Number) : Bool :=
  let unsigned (n : Number) : Number := if n = .float "-0.0" then .float "0.0" else n
  unsigned a == unsigned b

mutual

/-- Whether two keys are the same. The entries of mappings may stand in any order. -/
def Value.sameKey : Nat → Value → Value → Bool
  | 0, _, _ => false
  | _ + 1, .null, .null => true
  | _ + 1, .bool a, .bool b => a == b
  | _ + 1, .number a, .number b => a.sameKey b
  | _ + 1, .string a, .string b => a == b
  | fuel + 1, .sequence a, .sequence b => sameItems fuel a b
  | fuel + 1, .mapping a, .mapping b =>
      a.length == b.length
        && a.all fun (key, value) => b.any fun (key', value') =>
            Value.sameKey fuel key key' && Value.sameKey fuel value value'
  | fuel + 1, .tagged a x, .tagged b y => a == b && Value.sameKey fuel x y
  | _ + 1, _, _ => false

/-- Whether two lists hold the same keys in order. -/
def sameItems : Nat → List Value → List Value → Bool
  | 0, _, _ => false
  | _ + 1, [], [] => true
  | fuel + 1, a :: s, b :: t => Value.sameKey fuel a b && sameItems fuel s t
  | _ + 1, _, _ => false

end

/-- Whether no two entries have the same key. -/
def keysDiffer (entries : List (Value × Value)) : Bool :=
  decide (entries.Pairwise fun a b => Value.sameKey (entries.length + 256) a.1 b.1 = false)

mutual

/-- How many marks a node takes: collections have two of their own. -/
def Node.weight : Node → Nat
  | .alias _ => 1
  | .scalar _ _ _ => 1
  | .sequence _ items => Node.weightItems items + 2
  | .mapping _ entries => Node.weightEntries entries + 2

/-- The marks of a list of nodes. -/
def Node.weightItems : List Node → Nat
  | [] => 0
  | item :: rest => item.weight + weightItems rest

/-- The marks of a list of entries. -/
def Node.weightEntries : List (Node × Node) → Nat
  | [] => 0
  | (key, value) :: rest => key.weight + value.weight + weightEntries rest

end

/-- Following aliases counts them and may fail. -/
abbrev Following := StateT Nat Option

namespace Document

/-- How deep the collections of a document may be nested. -/
def depthLimit : Nat := 128

/-- How often the aliases of a document may be followed. -/
def aliasLimit (document : Document) : Nat :=
  100 * (document.content.map Node.weight).getD 1

/-- The node itself, or the one that an alias stands for. -/
def follow (document : Document) : Node → Following Node
  | .alias anchor => do
      let used := (← get) + 1
      if document.aliasLimit < used then failure
      set used
      match document.target? anchor with
      | some node => pure node
      | none => failure
  | node => pure node

/-- A scalar as a value. -/
def scalarValue? (tag : Option String) (text : String) (plain : Bool) : Option Value :=
  match localTag? tag, tag with
  | some name, _ =>
      if plain then (plainValue? text).map (.tagged name) else some (.tagged name (.string text))
  | none, some tag => heldTo? tag text
  | none, none => if plain then plainValue? text else some (.string text)

/-- The value of a collection with its tag. -/
def withTag (tag : Option String) (value : Value) : Value :=
  match localTag? tag with
  | some name => .tagged name value
  | none => value

/-- What a node stands for, with collections nested to a depth. -/
def value (document : Document) : Nat → Node → Following Value
  | 0, node => do
      match ← document.follow node with
      | .scalar tag text plain => StateT.lift (scalarValue? tag text plain)
      | _ => failure
  | depth + 1, node => do
      match ← document.follow node with
      | .scalar tag text plain => StateT.lift (scalarValue? tag text plain)
      | .sequence tag items =>
          let values ← items.mapM (document.value depth)
          pure (withTag tag (.sequence values))
      | .mapping tag entries =>
          let values ← entries.mapM fun (key, content) => do
            pure (← document.value depth key, ← document.value depth content)
          if keysDiffer values then pure (withTag tag (.mapping values)) else failure
      | .alias _ => failure

/-- Whether a node stands for the absence of a value. A null tag holds the text to be null. -/
def isAbsent? : Node → Option Bool
  | .scalar tag text true =>
      if tag = some (coreTag "null") then (if isNullText text then some true else none)
      else if tag.isSome then some false
      else some (text = "" || isNullText text)
  | _ => some false

/-- The text of a key: any scalar, as it is written. -/
def keyText (document : Document) (node : Node) : Following String := do
  match ← document.follow node with
  | .scalar _ text _ => pure text
  | _ => failure

/-- The nodes of the fields that a record has. It is a mapping, in which fields may be missing
and unknown ones are passed over, or the list of all its fields, or nothing. -/
def fields (document : Document) (names : List String) (node : Node) :
    Following (List (Option Node)) := do
  match ← document.follow node with
  | .mapping _ entries =>
      let found ← entries.mapM fun (key, content) => do pure (← document.keyText key, content)
      let known := found.filter fun field => names.contains field.1
      if (known.map Prod.fst).Nodup then pure (names.map fun name => known.lookup name)
      else failure
  | .sequence _ items => if items.length = names.length then pure (items.map some) else failure
  | .scalar _ text plain =>
      if text = "" && plain then pure (names.map fun _ => none) else failure
  | .alias _ => failure

/-- Decodes the node of a field, if the field is there and holds a value. -/
def field? {α : Type} (document : Document) (decode : Node → Following α) :
    Option Node → Following (Option α)
  | none => pure none
  | some node => do
      let node ← document.follow node
      if ← StateT.lift (isAbsent? node) then pure none else some <$> decode node

end Document
end SdkEvidence.Yaml
