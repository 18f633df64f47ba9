import SdkEvidence.FileSystem.Content
import SdkEvidence.FileSystem.Walk
import SdkEvidence.Total
import SdkEvidence.Tree.Area

/-!
# The index of a package

Both trees of a package are walked once. The index lists their files with their areas, those of
the decompiled tree first, each tree in walk order. Two paths with the same components are one
tree.
-/
namespace SdkEvidence

/-- A file of a tree. -/
structure IndexedFile where
  way : Location
  name : String
  extension : String
  content : ByteArray
  area : TreeArea
  deriving DecidableEq

namespace IndexedFile

/-- The way to the file as text, with slashes. -/
def relative (file : IndexedFile) : String :=
  "/".intercalate file.way

/-- The number of bytes of the file. -/
def size (file : IndexedFile) : Nat :=
  file.content.size

/-- The text of the file, with a replacement for every byte sequence that is no character. -/
def text (file : IndexedFile) : List Char :=
  (Utf8.decodeLossy file.content).toList

end IndexedFile

/-- The files of a package and where its parts are. -/
structure PackageIndex where
  decompiled : PathText
  raw : PathText
  files : List IndexedFile
  present : List TreeArea
  metadata : Option PathText
  codeRoots : List PathText
  deriving DecidableEq

namespace PackageIndex

/-- A walked file with its area. The top of a walk has the name that its path ends with. -/
def indexed (root : PathText) (area : Location → TreeArea) (file : WalkedFile) : IndexedFile :=
  let name := (file.way.getLast?).getD ((Path.fileName? root).getD root)
  { way := file.way
    name
    extension := Text.lowered (((Path.splitName name).2).getD "")
    content := file.content
    area := area file.way }

/-- The files of a tree. -/
def treeFiles (fs : FileSystem) (root : PathText) (area : Location → TreeArea) :
    List IndexedFile :=
  (fs.walkPath root).map (indexed root area)

/-- The code directories at the top of a decompiled tree, in the order of their names. -/
def findCodeRoots (fs : FileSystem) (decompiled : PathText) : List PathText :=
  let names := (fs.entriesAt decompiled).filterMap fun (name, node) =>
    if node = .directory ∧ TreeArea.isCodeRoot name then some name else none
  (names.mergeSort fun a b => decide (a ≤ b)).map (Path.join decompiled)

/-- The directory of the library metadata: that of the raw tree, or else the copy that the
decompiler kept. -/
def findMetadata (fs : FileSystem) (decompiled raw : PathText) : Option PathText :=
  let shipped := Path.join raw TreeArea.metadataDirectory
  let kept := Path.join (Path.join decompiled TreeArea.keptDirectory) TreeArea.metadataDirectory
  if fs.isDirectory shipped then some shipped
  else if fs.isDirectory kept then some kept
  else none

/-- Whether the file or directory that an area needs is there. -/
def isPresent (fs : FileSystem) (decompiled raw : PathText) : TreeArea → Bool
  | .manifest => fs.isFile (Path.join decompiled manifestName)
  | .resourceXml | .resource => fs.isDirectory (Path.join decompiled TreeArea.resourceDirectory)
  | .code => !(findCodeRoots fs decompiled).isEmpty
  | .nativeLibrary => fs.isDirectory (Path.join raw TreeArea.libraryDirectory)
  | .asset => fs.isDirectory (Path.join raw TreeArea.assetDirectory)
  | .libraryMetadata => (findMetadata fs decompiled raw).isSome
  | .other => false

/-- Indexes two trees, or one that is both. -/
def build (fs : FileSystem) (decompiled raw : PathText) : PackageIndex :=
  let rawHasMetadata := fs.isDirectory (Path.join raw TreeArea.metadataDirectory)
  let files :=
    if Path.same decompiled raw then treeFiles fs decompiled (TreeArea.ofBoth rawHasMetadata)
    else
      treeFiles fs decompiled (TreeArea.ofDecompiled rawHasMetadata)
        ++ treeFiles fs raw TreeArea.ofRaw
  { decompiled
    raw
    files
    present := TreeArea.all.filter (isPresent fs decompiled raw)
    metadata := findMetadata fs decompiled raw
    codeRoots := findCodeRoots fs decompiled }

/-- Puts a position at the end of the list of an area. -/
def pushPosition (lists : TreeArea → List Nat) (area : TreeArea) (n : Nat) : TreeArea → List Nat :=
  fun another => if another = area then lists another ++ [n] else lists another

/-- The positions of the files of each area, file after file. -/
def positions (index : PackageIndex) : TreeArea → List Nat :=
  index.files.zipIdx.foldl (fun lists (file, n) => pushPosition lists file.area n) fun _ => []

/-- The files of an area, in index order. -/
def filesIn (index : PackageIndex) (area : TreeArea) : List IndexedFile :=
  index.files.filter fun file => file.area == area

/-- Whether what an area needs is there. -/
def hasArea (index : PackageIndex) (area : TreeArea) : Bool :=
  index.present.contains area

/-- The number of files. -/
def totalFiles (index : PackageIndex) : Nat :=
  index.files.length

/-- The number of bytes of all files. -/
def totalBytes (index : PackageIndex) : Nat :=
  total (index.files.map IndexedFile.size)

/-- The path of the manifest. -/
def manifestPath (index : PackageIndex) : PathText :=
  Path.join index.decompiled manifestName

end PackageIndex
end SdkEvidence
