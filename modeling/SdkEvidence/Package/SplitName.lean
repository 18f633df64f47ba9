import SdkEvidence.Text.Fold
import SdkEvidence.Text.Lower
import SdkEvidence.Text.Search

/-!
# Names of sub-packages

The name of a sub-package tells its role in a split container. A configuration split ends with
`config.`, a qualifier and `.apk`, where the mark starts the name or follows a dot or an
underscore. It is an architecture split when its name mentions an architecture.
-/
namespace SdkEvidence

/-- The role of a sub-package. -/
inductive SplitRole where
  | base
  | architecture
  | configuration
  deriving DecidableEq, Repr

namespace SplitName

/-- The end of every package name. -/
def packageEnd : List Char := ".apk".toList

/-- Whether a name, in any case, is that of a package. -/
def isPackage (name : String) : Bool :=
  Text.endsWith packageEnd (Text.lower name.toList)

/-- Whether a folded text is the mark, a qualifier without slashes, and the end of a package
name. -/
def isQualified (text : List Nat) : Bool :=
  let mark := Text.folded "config.".toList
  let tail := Text.folded packageEnd
  let rest := text.drop mark.length
  let qualifier := rest.take (rest.length - tail.length)
  mark.isPrefixOf text && tail.isSuffixOf rest && !qualifier.isEmpty
    && !qualifier.contains '/'.toNat && !qualifier.contains '\\'.toNat

/-- Whether a qualified rest starts here or after a later dot or underscore. -/
def hasQualified (atStart : Bool) : List Nat → Bool
  | [] => false
  | n :: rest =>
      (atStart && isQualified (n :: rest))
        || hasQualified (n == '.'.toNat || n == '_'.toNat) rest

/-- Whether a name is that of a configuration split. -/
def isConfiguration (name : String) : Bool :=
  hasQualified true (Text.folded name.toList)

/-- The architectures that a name may mention. Longer spellings contain one of these. -/
def architectures : List String :=
  ["arm64-v8a", "arm64_v8a", "armeabi", "x86", "mips"]

/-- Whether one folded text stands in another. -/
def mentions (needle : List Nat) : List Nat → Bool
  | [] => needle.isEmpty
  | n :: rest => needle.isPrefixOf (n :: rest) || mentions needle rest

/-- Whether a name mentions an architecture. -/
def hasArchitecture (name : String) : Bool :=
  architectures.any fun a => mentions (Text.folded a.toList) (Text.folded name.toList)

/-- The role of a sub-package by its name; none if it is no package. -/
def role? (name : String) : Option SplitRole :=
  if !isPackage name then none
  else if !isConfiguration name then some .base
  else if hasArchitecture name then some .architecture
  else some .configuration

end SplitName
end SdkEvidence
