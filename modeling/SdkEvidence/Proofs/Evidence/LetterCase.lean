import SdkEvidence.Analysis.Findings
import SdkEvidence.Proofs.Evidence.Scan
import SdkEvidence.Proofs.Tree.Contents

/-!
# The case of letters does not matter

Every channel compares lower-case forms, which do not depend on the case of ASCII letters. So
neither the case of the letters of a keyword nor that of the letters in the files changes what a
scan finds (`scan_sameLetters`).
-/
namespace SdkEvidence

open Text PackageIndex

namespace Scan

/-- What is searched for is all that a channel takes from a keyword. -/
theorem hits_congr_needle {keyword other : Keyword} (h : other.needle = keyword.needle)
    (limits : ScanLimits) (files : List IndexedFile) (channel : EvidenceChannel) :
    hits limits other files channel = hits limits keyword files channel := by
  have hisIn : other.isIn = keyword.isIn := by
    funext haystack
    rw [Keyword.isIn, Keyword.isIn, h]
  have hoccurrences : other.occurrences = keyword.occurrences := by
    funext haystack
    rw [Keyword.occurrences, Keyword.occurrences, h]
  have hinName : inName other = inName keyword := by
    funext file
    rw [inName, inName, hisIn]
  have hcandidate (needles : List (List Char)) :
      isCandidate needles other = isCandidate needles keyword := by
    funext file
    rw [isCandidate, isCandidate, h]
  cases channel with
  | manifest => simp only [hits, byLines, matchingLines, hisIn]
  | resourceXml => simp only [hits, byOccurrences, hoccurrences]
  | code => simp only [hits, byNameAndContent, candidates, byName, hinName, hisIn, hcandidate]
  | nativeLibraryName | assets | libraryMetadata => simp only [hits, byName, hinName]

theorem isIn_sameLetters (keyword : Keyword) {text other : List Char}
    (h : SameLetters text other) : keyword.isIn other = keyword.isIn text := by
  rw [Keyword.isIn, Keyword.isIn, h.lower_eq]

theorem matchingLines_sameLetters (keyword : Keyword) {text other : List Char}
    (h : SameLetters text other) : matchingLines keyword other = matchingLines keyword text := by
  have hsmall (text : List Char) :
      matchingLines keyword (text.map Char.toLower) = matchingLines keyword text := by
    have hisIn : keyword.isIn ∘ List.map Char.toLower = keyword.isIn := by
      funext line
      rw [Function.comp_apply, Keyword.isIn, Keyword.isIn, lower_map_toLower]
    rw [matchingLines, matchingLines, lines_map_toLower, List.filter_map, hisIn, List.length_map]
  rw [← hsmall text, ← hsmall other, h]

variable {file changed : IndexedFile}

theorem text_sameLetters (h : SameFile Utf8.SameLetters file changed) :
    SameLetters file.text changed.text :=
  Utf8.decodeLossy_sameLetters h.content

theorem relative_sameFile {related : ByteArray → ByteArray → Prop}
    (h : SameFile related file changed) : changed.relative = file.relative := by
  rw [h.same]
  rfl

theorem inName_sameFile {related : ByteArray → ByteArray → Prop}
    (h : SameFile related file changed) (keyword : Keyword) :
    inName keyword changed = inName keyword file := by
  rw [h.same]
  rfl

/-- What is computed alike from two files is computed alike from lists of such files. -/
theorem map_eq_of_forall₂ {related : IndexedFile → IndexedFile → Prop} {α : Type}
    {f : IndexedFile → α} {files others : List IndexedFile}
    (hf : ∀ file changed, related file changed → f changed = f file)
    (h : List.Forall₂ related files others) : others.map f = files.map f := by
  induction h with
  | nil => rfl
  | cons hfile _ ih => rw [List.map_cons, List.map_cons, hf _ _ hfile, ih]

/-- A test that comes out alike on two files keeps lists of such files in step. -/
theorem filter_forall₂ {related : IndexedFile → IndexedFile → Prop} {test : IndexedFile → Bool}
    {files others : List IndexedFile}
    (htest : ∀ file changed, related file changed → test changed = test file)
    (h : List.Forall₂ related files others) :
    List.Forall₂ related (files.filter test) (others.filter test) := by
  refine List.rel_filter (fun file changed hfile => ?_) h
  show test file = true ↔ test changed = true
  rw [htest file changed hfile]

theorem byName_sameFiles {related : ByteArray → ByteArray → Prop} (keyword : Keyword)
    {files others : List IndexedFile} (h : List.Forall₂ (SameFile related) files others) :
    byName keyword others = byName keyword files := by
  have hname (file changed : IndexedFile) (h : SameFile related file changed) :
      inName keyword changed = inName keyword file := inName_sameFile h keyword
  have hfilter := filter_forall₂ hname h
  unfold byName
  rw [map_eq_of_forall₂ (fun file changed h => by rw [relative_sameFile h]) hfilter]

theorem candidates_sameFiles {related : ByteArray → ByteArray → Prop} (limits : ScanLimits)
    (keyword : Keyword) {files others : List IndexedFile}
    (h : List.Forall₂ (SameFile related) files others) :
    List.Forall₂ (SameFile related) (candidates limits keyword files)
      (candidates limits keyword others) := by
  refine List.forall₂_take _ (filter_forall₂ (fun file changed h => ?_) h)
  unfold isCandidate
  rw [relative_sameFile h]

/-- Files whose contents differ in the case of letters only have the same hits in every channel. -/
theorem hits_sameLetters (limits : ScanLimits) (keyword : Keyword)
    {files others : List IndexedFile}
    (h : List.Forall₂ (SameFile Utf8.SameLetters) files others) (channel : EvidenceChannel) :
    hits limits keyword others channel = hits limits keyword files channel := by
  cases channel with
  | manifest =>
    unfold hits byLines
    rw [map_eq_of_forall₂ (fun file changed h => ?_) h]
    rw [relative_sameFile h, matchingLines_sameLetters keyword (text_sameLetters h)]
  | resourceXml =>
    unfold hits byOccurrences
    rw [map_eq_of_forall₂ (fun file changed h => ?_) h]
    rw [relative_sameFile h, Keyword.occurrences, Keyword.occurrences,
      (text_sameLetters h).lower_eq]
  | code =>
    have hisIn (file changed : IndexedFile) (h : SameFile Utf8.SameLetters file changed) :
        keyword.isIn changed.text = keyword.isIn file.text :=
      isIn_sameLetters keyword (text_sameLetters h)
    have hread := filter_forall₂ hisIn (candidates_sameFiles limits keyword h)
    unfold hits byNameAndContent
    rw [byName_sameFiles keyword h]
    dsimp only
    rw [map_eq_of_forall₂ (fun file changed h => by rw [relative_sameFile h]) hread]
  | nativeLibraryName | assets | libraryMetadata => exact byName_sameFiles keyword h

end Scan

/-- Keywords that differ in the case of ASCII letters only have the same evidence in every pair of
trees, and a keyword has the same evidence when the case of ASCII letters is changed anywhere in the
contents of the files, whatever bytes stand between the letters. -/
theorem scan_sameLetters (fs : FileSystem) (decompiled raw : PathText) (c : Configuration) :
    (∀ keyword other : String, SameLetters keyword.toList other.toList →
      scan c.limits (.build fs decompiled raw) other
        = { scan c.limits (.build fs decompiled raw) keyword with keyword := other }) ∧
    (∀ (keyword : String) (change : Location → ByteArray → ByteArray),
      (∀ loc content, Utf8.SameLetters content (change loc content)) →
      scan c.limits (.build (fs.withContents change) decompiled raw) keyword
        = scan c.limits (.build fs decompiled raw) keyword) := by
  constructor
  · intro keyword other hletters
    refine scan_congr (List.map_congr_left fun channel _ => ?_)
    have hneedle : ({ text := other } : Keyword).needle = ({ text := keyword } : Keyword).needle :=
      hletters.lower_eq.symm
    simp only [Scan.step, Scan.hits_congr_needle hneedle]
  · intro keyword change hchange
    have hsteps : Scan.steps c.limits (build (fs.withContents change) decompiled raw) keyword
        = Scan.steps c.limits (build fs decompiled raw) keyword := by
      refine List.map_congr_left fun channel _ => ?_
      simp only [Scan.step, hasArea_withContents,
        Scan.hits_sameLetters c.limits _ (filesIn_withContents fs decompiled raw hchange _)]
    rw [scan_eq_run, scan_eq_run, hsteps]

/-- A tree with a manifest that names a library. -/
def NamedLibrary.files : FileSystem :=
  { nodes :=
      [(["t"], .directory),
       (["t", "AndroidManifest.xml"], .file "<a n=\"PSPDFKit\"/>".toUTF8 false)]
    current := []
    temporary := "/" }

/-- Writes the name of the library in small letters. -/
def NamedLibrary.inSmallLetters (_ : Location) (content : ByteArray) : ByteArray :=
  if content = "<a n=\"PSPDFKit\"/>".toUTF8 then "<a n=\"pspdfkit\"/>".toUTF8 else content

/-- The library is found under either spelling, whatever the spelling in the manifest. -/
theorem scan_sameLetters_named :
    SameLetters "PSPDFKit".toList "pspdfkit".toList ∧
    scan Configuration.default.limits (.build NamedLibrary.files "/t" "/t") "pspdfkit"
      = { scan Configuration.default.limits (.build NamedLibrary.files "/t" "/t") "PSPDFKit" with
          keyword := "pspdfkit" } ∧
    (∀ loc content, Utf8.SameLetters content (NamedLibrary.inSmallLetters loc content)) ∧
    scan Configuration.default.limits
        (.build (NamedLibrary.files.withContents NamedLibrary.inSmallLetters) "/t" "/t") "PSPDFKit"
      = scan Configuration.default.limits (.build NamedLibrary.files "/t" "/t") "PSPDFKit" := by
  have hkeyword : SameLetters "PSPDFKit".toList "pspdfkit".toList := by
    unfold SameLetters
    decide
  have hchange (loc : Location) (content : ByteArray) :
      Utf8.SameLetters content (NamedLibrary.inSmallLetters loc content) := by
    unfold NamedLibrary.inSmallLetters
    split
    next hcontent =>
      rw [hcontent]
      unfold Utf8.SameLetters
      decide +kernel
    next => rfl
  have hscan := scan_sameLetters NamedLibrary.files "/t" "/t" .default
  exact ⟨hkeyword, hscan.1 _ _ hkeyword, hchange, hscan.2 _ _ hchange⟩

end SdkEvidence
