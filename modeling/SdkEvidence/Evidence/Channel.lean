import SdkEvidence.Tree.Area

/-!
# Channels

Six independent ways to search a package for a keyword. Each reads one area.
-/
namespace SdkEvidence

/-- A way to search. -/
inductive EvidenceChannel where
  | manifest
  | resourceXml
  | code
  | nativeLibraryName
  | assets
  | libraryMetadata
  deriving DecidableEq, Repr

namespace EvidenceChannel

/-- The channels in their fixed order. -/
def all : List EvidenceChannel :=
  [.manifest, .resourceXml, .code, .nativeLibraryName, .assets, .libraryMetadata]

/-- How a channel is called in reports. -/
def label : EvidenceChannel → String
  | .manifest => "AndroidManifest.xml"
  | .resourceXml => "Resource XML"
  | .code => "Decompiled code"
  | .nativeLibraryName => "Native libraries"
  | .assets => "Assets"
  | .libraryMetadata => "Library metadata (META-INF)"

/-- How a channel searches. -/
def method : EvidenceChannel → String
  | .manifest => "Case-insensitive search of AndroidManifest.xml (matching lines)"
  | .resourceXml => "Case-insensitive search of every XML file under res/ (total matches)"
  | .code => "Decompiled code: file-name match plus bounded content search of likely SDK paths"
  | .nativeLibraryName => "Native library file names under lib/<abi>/"
  | .assets => "File names under assets/"
  | .libraryMetadata => "File names under META-INF/ (version stamps, module files)"

/-- What a channel counts. -/
def countedUnit : EvidenceChannel → String
  | .manifest => "line"
  | .resourceXml => "match"
  | _ => "file"

/-- The area that a channel reads. -/
def area : EvidenceChannel → TreeArea
  | .manifest => .manifest
  | .resourceXml => .resourceXml
  | .code => .code
  | .nativeLibraryName => .nativeLibrary
  | .assets => .asset
  | .libraryMetadata => .libraryMetadata

end EvidenceChannel
end SdkEvidence
