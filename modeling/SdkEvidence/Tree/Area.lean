import SdkEvidence.FileSystem.Basic
import SdkEvidence.Package.Input
import SdkEvidence.Text.Lower
import SdkEvidence.Text.Search

/-!
# Areas of a package

Every file of a package lies in one area, told by the way to it from the top of its tree. The
decompiled tree has the manifest, the resources and the code; the raw tree has native libraries,
assets and library metadata. A decompiler may keep a copy of the metadata, which counts only where
the raw tree has none.
-/
namespace SdkEvidence

/-- Where in a package a file lies. -/
inductive TreeArea where
  | manifest
  | resourceXml
  | resource
  | code
  | nativeLibrary
  | asset
  | libraryMetadata
  | other
  deriving DecidableEq, Repr

namespace TreeArea

/-- All areas. -/
def all : List TreeArea :=
  [.manifest, .resourceXml, .resource, .code, .nativeLibrary, .asset, .libraryMetadata, .other]

/-- Names of directories at the top of a tree. -/
def resourceDirectory : String := "res"
def libraryDirectory : String := "lib"
def assetDirectory : String := "assets"
def metadataDirectory : String := "META-INF"
def keptDirectory : String := "original"

/-- Whether a directory of this name at the top of a decompiled tree holds code. -/
def isCodeRoot (name : String) : Bool :=
  "smali".toList.isPrefixOf name.toList || name == "sources"

/-- Whether a file is an XML file by its name, in any case. -/
def isXml (way : Location) : Bool :=
  Text.endsWith ".xml".toList (Text.lower ("/".intercalate way).toList)

/-- The area of a file in a decompiled tree. -/
def ofDecompiled (rawHasMetadata : Bool) (way : Location) : TreeArea :=
  if way = [manifestName] then .manifest
  else
    match way with
    | [] => .other
    | top :: below =>
        if top = resourceDirectory then (if isXml way then .resourceXml else .resource)
        else if isCodeRoot top && !below.isEmpty then .code
        else if top = keptDirectory && !rawHasMetadata && below.head? == some metadataDirectory then
          .libraryMetadata
        else .other

/-- The area of a file in a raw tree. -/
def ofRaw (way : Location) : TreeArea :=
  match way with
  | top :: _ :: _ =>
      if top = libraryDirectory then .nativeLibrary
      else if top = assetDirectory then .asset
      else if top = metadataDirectory then .libraryMetadata
      else .other
  | _ => .other

/-- The area of a file in a tree that is decompiled and raw at once. -/
def ofBoth (rawHasMetadata : Bool) (way : Location) : TreeArea :=
  match ofDecompiled rawHasMetadata way with
  | .other => ofRaw way
  | area => area

end TreeArea
end SdkEvidence
