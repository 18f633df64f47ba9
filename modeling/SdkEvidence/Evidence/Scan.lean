import SdkEvidence.Evidence.Keyword
import SdkEvidence.Evidence.Record
import SdkEvidence.Text.Line
import SdkEvidence.Tree.Index

/-!
# Scanning a package

Each channel searches the files of its area. The code channel reads only some files: those whose
path contains the keyword or a token of the configuration, and of those at most as many as the cap
allows. What other files contain is missed.
-/
namespace SdkEvidence

/-- How far the code channel goes. -/
structure ScanLimits where
  cap : Nat
  tokens : List String
  deriving DecidableEq, Repr

namespace Scan

/-- Whether the keyword stands in the name of a file. -/
def inName (keyword : Keyword) (file : IndexedFile) : Bool :=
  keyword.isIn file.name.toList

/-- One hit for each file with the keyword in its name. -/
def byName (keyword : Keyword) (files : List IndexedFile) : ChannelHits :=
  ChannelHits.none.addFiles ((files.filter (inName keyword)).map fun file => (file.relative, 1))

/-- The number of lines with the keyword. -/
def matchingLines (keyword : Keyword) (text : List Char) : Nat :=
  ((Text.lines text).filter keyword.isIn).length

/-- The hits in the lines of the manifest. -/
def byLines (keyword : Keyword) (files : List IndexedFile) : ChannelHits :=
  ChannelHits.none.addFiles (files.map fun file => (file.relative, matchingLines keyword file.text))

/-- All occurrences in the texts of files. -/
def byOccurrences (keyword : Keyword) (files : List IndexedFile) : ChannelHits :=
  ChannelHits.none.addFiles (files.map fun file => (file.relative, keyword.occurrences file.text))

/-- The tokens in lower case, without empty ones. -/
def ScanLimits.needles (limits : ScanLimits) : List (List Char) :=
  (limits.tokens.map fun token => Text.lower token.toList).filter fun token => !token.isEmpty

/-- Whether the code channel may read a file. -/
def isCandidate (needles : List (List Char)) (keyword : Keyword) (file : IndexedFile) : Bool :=
  let path := Text.lower file.relative.toList
  Text.contains keyword.needle path || needles.any fun needle => Text.contains needle path

/-- The files that the code channel reads. -/
def candidates (limits : ScanLimits) (keyword : Keyword) (files : List IndexedFile) :
    List IndexedFile :=
  (files.filter (isCandidate (ScanLimits.needles limits) keyword)).take limits.cap

/-- Hits by name, and one more for each file read with the keyword in its text. -/
def byNameAndContent (limits : ScanLimits) (keyword : Keyword) (files : List IndexedFile) :
    ChannelHits :=
  let read := (candidates limits keyword files).filter fun file => keyword.isIn file.text
  (byName keyword files).addFiles (read.map fun file => (file.relative, 1))

/-- The hits of a channel in the files of its area. -/
def hits (limits : ScanLimits) (keyword : Keyword) (files : List IndexedFile) :
    EvidenceChannel → ChannelHits
  | .manifest => byLines keyword files
  | .resourceXml => byOccurrences keyword files
  | .code => byNameAndContent limits keyword files
  | .nativeLibraryName | .assets | .libraryMetadata => byName keyword files

/-- Records a channel, or passes over it if what its area needs is not there. -/
def scanChannel (limits : ScanLimits) (index : PackageIndex) (draft : EvidenceDraft)
    (channel : EvidenceChannel) : EvidenceDraft :=
  if index.hasArea channel.area then
    draft.record channel
      (hits limits { text := draft.keyword } (index.filesIn channel.area) channel)
  else draft.skip channel

end Scan

/-- The evidence for a keyword in an indexed package. -/
def scan (limits : ScanLimits) (index : PackageIndex) (keyword : String) : EvidenceRecord :=
  (EvidenceChannel.all.foldl (Scan.scanChannel limits index) (EvidenceDraft.start keyword)).finish

end SdkEvidence
