import Mathlib.Data.Prod.Lex
import SdkEvidence.Metadata.Stamp
import SdkEvidence.Proofs.Bytes.Reading
import SdkEvidence.Proofs.FileSystem.Extension
import SdkEvidence.Proofs.Repetition
import SdkEvidence.Proofs.Text.Blank
import SdkEvidence.Proofs.Tree.Places

/-!
# Version stamps in a directory

The name of a stamp file is told by the identifier of its library (`ofFile?_eq_some_iff`), so no two
files are for one library, and of the sorted stamps none is left out (`read_eq`). A directory has
the stamps of the files that stand in it, in the order of the libraries (`readFrom_directory`).
-/
namespace SdkEvidence.VersionStamp

open FileSystem

/-! ## What a file tells -/

/-- A text tells a version: its first line that is not blank, trimmed. -/
def Tells (text : List Char) (version : String) : Prop :=
  ∃ before line after, Text.lines text = before ++ line :: after ∧
    (∀ other ∈ before, ∀ c ∈ other, Text.isBlank c = true) ∧
    (∃ c ∈ line, Text.isBlank c = false) ∧ version = String.ofList (Text.trim line)

/-- The bytes of a file are a text in UTF-8 that tells a version. -/
def StampedWith (content : ByteArray) (version : String) : Prop :=
  ∃ text, content.data.toList = Utf8.bytesOf text ∧ Tells text version

theorem isEmpty_trim {line : List Char} :
    (Text.trim line).isEmpty = true ↔ ∀ c ∈ line, Text.isBlank c = true := by
  rw [List.isEmpty_iff, Text.trim_eq_nil_iff]

theorem firstLine?_eq_some_iff {text : List Char} {version : String} :
    firstLine? text = some version ↔ Tells text version := by
  rw [firstLine?, List.find?_map, Option.map_map, Option.map_eq_some_iff]
  simp only [List.find?_eq_some_iff_append, Function.comp_apply, Bool.not_eq_true',
    Bool.not_not, isEmpty_trim]
  constructor
  · rintro ⟨line, ⟨hline, before, after, hlines, hbefore⟩, rfl⟩
    refine ⟨before, line, after, hlines, hbefore, ?_, rfl⟩
    rw [Bool.eq_false_iff, ne_eq, isEmpty_trim] at hline
    simpa using hline
  · rintro ⟨before, line, after, hlines, hbefore, hline, rfl⟩
    refine ⟨line, ⟨?_, before, after, hlines, hbefore⟩, rfl⟩
    rw [Bool.eq_false_iff, ne_eq, isEmpty_trim]
    simpa using hline

/-- A file is a stamp if it is named for a library, with the extension of stamps, and tells a
version. -/
theorem ofFile?_eq_some_iff {name : String} {content : ByteArray} {stamp : VersionStamp}
    (hname : IsName name) :
    ofFile? name content = some stamp ↔ stamp.library ≠ "" ∧
      name = stamp.library ++ ".version" ∧ StampedWith content stamp.version := by
  have hversion : '.' ∉ fileExtension.toList := by decide
  have hspelled (stem : String) : stem ++ "." ++ fileExtension = stem ++ ".version" := by
    rw [String.append_assoc]
    rfl
  rcases hsplit : Path.splitName name with ⟨stem, extension⟩
  unfold ofFile?
  rw [hsplit]
  dsimp only
  split
  next hext =>
    subst hext
    obtain ⟨hstem, -, hname⟩ := (Path.splitName_eq_some_iff hname.ne_parent).mp hsplit
    rw [hspelled] at hname
    simp only [Option.bind_eq_bind, Option.bind_eq_some_iff, Utf8.decode?_eq_some_iff,
      firstLine?_eq_some_iff, Option.some_inj]
    constructor
    · rintro ⟨text, htext, version, hversion, rfl⟩
      exact ⟨hstem, hname, text.toList, htext, hversion⟩
    · rintro ⟨-, hlibrary, text, htext, hversion⟩
      obtain rfl : stem = stamp.library := by
        have hsame := hname.symm.trans hlibrary
        rwa [String.append_left_inj] at hsame
      exact ⟨String.ofList text, by simpa using htext, stamp.version, by simpa using hversion, rfl⟩
  next hext =>
    refine iff_of_false (by simp) ?_
    rintro ⟨hstem, hlibrary, -⟩
    have hparts := (Path.splitName_eq_some_iff hname.ne_parent).mpr
      ⟨hstem, hversion, hlibrary.trans (hspelled _).symm⟩
    rw [hsplit, Prod.mk.injEq] at hparts
    exact hext hparts.2

/-- The identifier goes up to the last dot. A file without one, with another extension, without a
line that is not blank or with bytes that are no text is no stamp. -/
example :
    ["a.b.version", "..version", ".version", "version", "a.version.txt"].map
        (fun name => ofFile? name "\n 1 \n2".toUTF8)
      = [some ⟨"a.b", "1"⟩, some ⟨".", "1"⟩, none, none, none] ∧
    ofFile? "a.version" " \n\t".toUTF8 = none ∧
    ofFile? "a.version" ⟨#[0x31, 0xFF]⟩ = none := by
  decide +kernel

/-! ## The files of a directory -/

section Directory

variable {fs : FileSystem} {directory : PathText} {top : Location}

/-- The files that stand in a directory itself. -/
theorem mem_filter_walkPath (wf : fs.WellFormed) (hdir : fs.directory? directory = some top)
    {file : WalkedFile} :
    file ∈ (fs.walkPath directory).filter (fun file => file.way.length ≤ 1)
      ↔ ∃ name, file.way = [name] ∧ fs.contentAt? (top ++ [name]) = some file.content := by
  have hfind := directory?_eq_some.mp hdir
  have hget := (resolve_found (find?_eq_some.mp hfind)).2
  have hwalk : fs.walkPath directory = fs.walk top := by
    rw [walkPath, hfind]
  rw [hwalk, List.mem_filter, mem_walk wf, decide_eq_true_eq]
  constructor
  · rintro ⟨hcontent, hlength⟩
    rcases hway : file.way with _ | ⟨name, _ | ⟨next, more⟩⟩
    · rw [hway, List.append_nil, contentAt?_of_directory hget] at hcontent
      cases hcontent
    · exact ⟨name, rfl, hway ▸ hcontent⟩
    · simp [hway] at hlength
  · rintro ⟨name, hway, hcontent⟩
    exact ⟨hway ▸ hcontent, by simp [hway]⟩

/-- The stamps that the files of a directory are, in the order of a walk. -/
def ofFiles (fs : FileSystem) (directory : PathText) : List VersionStamp :=
  ((fs.walkPath directory).filter fun file => file.way.length ≤ 1).filterMap fun file =>
    ofFile? ((file.way.getLast?).getD ((Path.fileName? directory).getD directory)) file.content

theorem isName_of_contentAt? (wf : fs.WellFormed) {name : String} {content : ByteArray}
    (hcontent : fs.contentAt? (top ++ [name]) = some content) : IsName name := by
  obtain ⟨executable, hget⟩ := contentAt?_eq_some.mp hcontent
  exact wf.isName_of_get? hget name (by simp)

/-- A file of a directory is the stamp of one library, and is named for it. -/
theorem eq_of_ofFile? (wf : fs.WellFormed) {name : String} {file : WalkedFile}
    {stamp : VersionStamp} (hway : file.way = [name])
    (hcontent : fs.contentAt? (top ++ [name]) = some file.content)
    (hstamp : ofFile? ((file.way.getLast?).getD ((Path.fileName? directory).getD directory))
      file.content = some stamp) :
    stamp.library ≠ "" ∧ file.way = [stamp.library ++ ".version"] ∧
      StampedWith file.content stamp.version := by
  rw [hway] at hstamp ⊢
  obtain ⟨hlibrary, rfl, hversion⟩ :=
    (ofFile?_eq_some_iff (isName_of_contentAt? wf hcontent)).mp hstamp
  exact ⟨hlibrary, rfl, hversion⟩

theorem mem_ofFiles (wf : fs.WellFormed) (hdir : fs.directory? directory = some top)
    {stamp : VersionStamp} :
    stamp ∈ ofFiles fs directory ↔ stamp.library ≠ "" ∧
      ∃ content, fs.contentAt? (top ++ [stamp.library ++ ".version"]) = some content ∧
        StampedWith content stamp.version := by
  rw [ofFiles, List.mem_filterMap]
  constructor
  · rintro ⟨file, hfile, hstamp⟩
    obtain ⟨name, hway, hcontent⟩ := (mem_filter_walkPath wf hdir).mp hfile
    obtain ⟨hlibrary, hnamed, hversion⟩ := eq_of_ofFile? wf hway hcontent hstamp
    rw [hway] at hnamed
    exact ⟨hlibrary, file.content, hnamed ▸ hcontent, hversion⟩
  · rintro ⟨hlibrary, content, hcontent, hversion⟩
    refine ⟨⟨[stamp.library ++ ".version"], content⟩, ?_, ?_⟩
    · exact (mem_filter_walkPath wf hdir).mpr ⟨_, rfl, hcontent⟩
    · exact (ofFile?_eq_some_iff (isName_of_contentAt? wf hcontent)).mpr
        ⟨hlibrary, rfl, hversion⟩

/-- No two files of a directory are stamps of one library, since the files differ in their names. -/
theorem ofFiles_libraries_distinct (wf : fs.WellFormed)
    (hdir : fs.directory? directory = some top) :
    (ofFiles fs directory).Pairwise fun a b => a.library ≠ b.library := by
  have hways : (fs.walkPath directory).Pairwise fun a b => a.way ≠ b.way := by
    have hperm := PackageIndex.walkPath_perm hdir
    have hnodup := (hperm.map WalkedFile.way).nodup_iff.mpr (filesBelow_ways_nodup wf top)
    exact List.pairwise_map.mp hnodup
  rw [ofFiles, List.pairwise_filterMap]
  refine List.Pairwise.imp_of_mem ?_ (hways.filter _)
  intro file other hfile hother hne stamp hstamp stamp' hstamp' hsame
  obtain ⟨name, hway, hcontent⟩ := (mem_filter_walkPath wf hdir).mp hfile
  obtain ⟨name', hway', hcontent'⟩ := (mem_filter_walkPath wf hdir).mp hother
  obtain ⟨-, hnamed, -⟩ := eq_of_ofFile? wf hway hcontent hstamp
  obtain ⟨-, hnamed', -⟩ := eq_of_ofFile? wf hway' hcontent' hstamp'
  exact hne (by rw [hnamed, hnamed', hsame])

/-! ## The order of stamps -/

theorem le_iff {a b : VersionStamp} : le a b = true ↔
    toLex (a.library, a.version) ≤ toLex (b.library, b.version) := by
  rw [Prod.Lex.toLex_le_toLex]
  unfold le
  split
  next heq => simp [heq]
  next hne => simp [hne, lt_iff_le_and_ne]

theorem mergeSort_le (stamps : List VersionStamp) :
    (stamps.mergeSort le).Pairwise fun a b => a.library ≤ b.library := by
  have hsorted : (stamps.mergeSort le).Pairwise fun a b => le a b = true := by
    refine List.pairwise_mergeSort ?_ ?_ stamps
    · intro a b c hab hbc
      rw [le_iff] at hab hbc ⊢
      exact hab.trans hbc
    · intro a b
      rw [Bool.or_eq_true, le_iff, le_iff]
      exact le_total _ _
  refine hsorted.imp fun {a b} hab => ?_
  rcases Prod.Lex.toLex_le_toLex.mp (le_iff.mp hab) with hlt | ⟨heq, -⟩
  · exact hlt.le
  · exact heq.le

theorem sorted_libraries_distinct (wf : fs.WellFormed)
    (hdir : fs.directory? directory = some top) :
    ((ofFiles fs directory).mergeSort le).Pairwise fun a b => a.library ≠ b.library :=
  (List.mergeSort_perm _ _).symm.pairwise (ofFiles_libraries_distinct wf hdir) fun h => h.symm

/-- No stamp is left out, since no two are for one library. -/
theorem read_eq (wf : fs.WellFormed) (hdir : fs.directory? directory = some top) :
    read fs directory = (ofFiles fs directory).mergeSort le := by
  have hdistinct := sorted_libraries_distinct wf hdir
  exact eraseRepsBy_of_pairwise _ (hdistinct.imp fun hne => by simpa using hne)

end Directory

/-! ## The stamps of a directory -/

/-- A directory with stamps, one of them for a library with dots in its name, a file without a
library in its name, and a directory with a stamp of its own. -/
def Stamped.files : FileSystem :=
  { nodes :=
      [(["m"], .directory), (["m", "b.version"], .file "2".toUTF8 false),
       (["m", "a.x_y.version"], .file "\n 1.0\r\n3".toUTF8 false),
       (["m", ".version"], .file "1".toUTF8 false), (["m", "s"], .directory),
       (["m", "s", "c.version"], .file "1".toUTF8 false)]
    current := []
    temporary := "/" }

end SdkEvidence.VersionStamp
