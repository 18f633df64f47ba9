import SdkEvidence.Toml.Scalar

/-!
# TOML documents

A document is read line by line. Header lines close the table that is being filled and open the
next one; all other lines add a member to it.
-/
namespace SdkEvidence.Toml

/-- How deep arrays and inline tables may be nested. -/
def depthLimit : Nat := 79

/-- Adds a value under a dotted key. The table that takes it was made by dotted keys, or is made
now; the way there may also lead through tables that headers only imply. -/
def addDotted (members : TomlMembers) : List String → Toml → Option TomlMembers
  | [], _ => none
  | [key], value => if (members.get? key).isSome then none else some (members.set key value)
  | key :: rest, value =>
      match members.get? key with
      | none => (addDotted [] rest value).map fun inner => members.set key (.table .dotted inner)
      | some (.table .dotted inner) =>
          (addDotted inner rest value).map fun inner => members.set key (.table .dotted inner)
      | some (.table .implied inner) =>
          if rest.length < 2 then none
          else (addDotted inner rest value).map fun inner => members.set key (.table .implied inner)
      | some _ => none

mutual

/-- Reads a value with containers nested to `depth`. Every step takes at least one character. -/
def readValue : Nat → Nat → List Char → Option (Toml × List Char)
  | 0, _, _ => none
  | fuel + 1, depth, text =>
      match text with
      | '"' :: _ | '\'' :: _ => (readString text).map fun (s, rest) => (.string s, rest)
      | '[' :: rest => if depth = 0 then none else readItems fuel (depth - 1) [] rest
      | '\x7b' :: rest =>
          if depth = 0 then none
          else
            match skipInline rest with
            | '\x7d' :: rest => some (.table .inline [], rest)
            | rest => readInline fuel (depth - 1) [] rest
      | _ => readPlain text

/-- Reads items up to the end of an array, onto those read before, which stand backwards. -/
def readItems : Nat → Nat → List Toml → List Char → Option (Toml × List Char)
  | 0, _, _, _ => none
  | fuel + 1, depth, done, text =>
      match skipLines (text.length + 1) text with
      | ']' :: rest => some (.array done.reverse, rest)
      | rest =>
          match readValue fuel depth rest with
          | none => none
          | some (item, rest) =>
              match skipLines (rest.length + 1) rest with
              | ',' :: rest => readItems fuel depth (item :: done) rest
              | ']' :: rest => some (.array (item :: done).reverse, rest)
              | _ => none

/-- Reads members up to the end of an inline table. -/
def readInline : Nat → Nat → TomlMembers → List Char → Option (Toml × List Char)
  | 0, _, _, _ => none
  | fuel + 1, depth, done, text =>
      match readKey (text.length + 1) text with
      | none => none
      | some (key, rest) =>
          match rest with
          | '=' :: rest =>
              match readValue fuel depth (skipInline rest) with
              | none => none
              | some (value, rest) =>
                  match addDotted done key value with
                  | none => none
                  | some done =>
                      match skipInline rest with
                      | ',' :: rest => readInline fuel depth done rest
                      | '\x7d' :: rest => some (.table .inline done, rest)
                      | _ => none
          | _ => none

end

/-- Changes the table that a header's path leads to from `members`. Tables on the way are made
where they are missing; an array of tables stands for its last one. -/
def changeAt (members : TomlMembers) (change : TomlMembers → Option TomlMembers) :
    List String → Option TomlMembers
  | [] => change members
  | key :: rest =>
      match members.get? key with
      | none => (changeAt [] change rest).map fun inner => members.set key (.table .implied inner)
      | some (.table .inline _) => none
      | some (.table origin inner) =>
          (changeAt inner change rest).map fun inner => members.set key (.table origin inner)
      | some (.tables items) =>
          match items.reverse with
          | [] => none
          | last :: before =>
              (changeAt last change rest).map fun inner =>
                members.set key (.tables (inner :: before).reverse)
      | some _ => none

/-- The table that is being filled: where it goes, and whether it is one of an array. -/
structure Section where
  path : List String
  key : String
  inArray : Bool

/-- A document on the way: what is finished, and the section being filled. -/
structure Draft where
  root : TomlMembers
  current : Option Section
  filling : TomlMembers

/-- Puts the filled section into its place. -/
def Draft.close (draft : Draft) : Option TomlMembers :=
  match draft.current with
  | none => some draft.filling
  | some s =>
      changeAt draft.root (fun members =>
        if s.inArray then
          match members.get? s.key with
          | none => some (members.set s.key (.tables [draft.filling]))
          | some (.tables items) => some (members.set s.key (.tables (items ++ [draft.filling])))
          | some _ => none
        else
          match members.get? s.key with
          | none => some (members.set s.key (.table .header draft.filling))
          | some (.table .implied _) => some (members.set s.key (.table .header draft.filling))
          | some _ => none) s.path

/-- What a table header finds in its place: the members to go on from. -/
def openTable (members : TomlMembers) (key : String) : Option TomlMembers :=
  match members.get? key with
  | none => some []
  | some (.table .implied inner) => some inner
  | some _ => none

/-- The members of the table that a header's path leads to, as far as it exists. -/
def lookAt (members : TomlMembers) : List String → Option TomlMembers
  | [] => some members
  | key :: rest =>
      match members.get? key with
      | none => some []
      | some (.table .inline _) => none
      | some (.table _ inner) => lookAt inner rest
      | some (.tables items) =>
          match items.getLast? with
          | some last => lookAt last rest
          | none => none
      | some _ => none

/-- Closes the section and opens the one of a header. A table that was only implied is taken up
again with its members. -/
def Draft.header (draft : Draft) (inArray : Bool) (parts : List String) : Option Draft := do
  let root ← draft.close
  let key ← parts.getLast?
  let path := parts.dropLast
  let parent ← lookAt root path
  let opened : Section := { path, key, inArray }
  if inArray then
    match parent.get? key with
    | none | some (.tables _) => some { root, current := some opened, filling := [] }
    | some _ => none
  else
    let filling ← openTable parent key
    let root ←
      if (parent.get? key).isSome then changeAt root (fun m => some (m.erase key)) path
      else some root
    some { root, current := some opened, filling }

/-- What follows the end of a line's content: a comment and a line end, or the end of the text. -/
def endLine (text : List Char) : Option (List Char) :=
  match skipComment (skipInline text) with
  | [] => some []
  | rest => lineEnd? rest

/-- Reads one line that is not empty. -/
def Draft.line (draft : Draft) (text : List Char) : Option (Draft × List Char) :=
  match text with
  | '[' :: '[' :: rest => do
      let (parts, rest) ← readKey (rest.length + 1) rest
      let rest ← dropChar ']' rest
      let rest ← dropChar ']' rest
      let rest ← endLine rest
      let draft ← draft.header true parts
      some (draft, rest)
  | '[' :: rest => do
      let (parts, rest) ← readKey (rest.length + 1) rest
      let rest ← dropChar ']' rest
      let rest ← endLine rest
      let draft ← draft.header false parts
      some (draft, rest)
  | _ => do
      let (parts, rest) ← readKey (text.length + 1) text
      let rest ← dropChar '=' rest
      let (value, rest) ← readValue (rest.length + 1) depthLimit (skipInline rest)
      let rest ← endLine rest
      let filling ← addDotted draft.filling parts value
      some ({ draft with filling }, rest)

/-- Reads lines to the end of the text. Every line takes at least one character. -/
def readLines : Nat → Draft → List Char → Option TomlMembers
  | 0, _, _ => none
  | fuel + 1, draft, text =>
      match skipLines (text.length + 1) text with
      | [] => draft.close
      | rest =>
          match draft.line rest with
          | some (draft, rest) => readLines fuel draft rest
          | none => none

/-- The table that a document stands for. -/
def read? (text : String) : Option TomlMembers :=
  let chars := match text.toList with
    | '\uFEFF' :: rest => rest
    | chars => chars
  readLines (chars.length + 1) { root := [], current := none, filling := [] } chars

end SdkEvidence.Toml
