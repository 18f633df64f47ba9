import SdkEvidence.Proofs.FileSystem.Copies
import SdkEvidence.Proofs.Package.Laying
import SdkEvidence.Proofs.Zip.Archive

/-!
# Packing a tree and unpacking it

A tree that is packed and unpacked in a fresh directory has the same files again, and is packed to
the same archive again (`compress_extract`). Every tree that an archive leaves in a fresh directory
can be packed so, whatever the archive is (`packable_of_extractInto`).
-/
namespace SdkEvidence

open FileSystem

/-- All files at or below a path can be packed. -/
def Packable (fs : FileSystem) (p : PathText) : Prop :=
  ∀ file ∈ fs.walkPath p, file.Packable

/-- A directory without entries is at a path or can be made there. -/
def Fresh (fs : FileSystem) (dest : PathText) : Prop :=
  dest ≠ "" ∧ ∃ made, fs.createDirectories dest = (made, .ok ()) ∧
    ∀ name, made.get? (fs.locate dest ++ [name]) = none

namespace Fresh

variable {fs : FileSystem} {dest : PathText}

/-- Nothing stands below a fresh directory before it is made. -/
theorem get?_below (h : Fresh fs dest) (wf : fs.WellFormed) {way : Location} (hway : way ≠ []) :
    fs.get? (fs.locate dest ++ way) = none := by
  obtain ⟨-, made, hmade, habsent⟩ := h
  have hgrown := createDirectories_grown hmade
  obtain ⟨name, more, rfl⟩ := List.exists_cons_of_ne_nil hway
  have hbelow := (hgrown.wellFormed wf).get?_below_absent (habsent name) more
  rw [List.append_assoc] at hbelow
  cases hget : fs.get? (fs.locate dest ++ name :: more) with
  | none => rfl
  | some node =>
    rw [show [name] ++ more = name :: more from rfl, hgrown.keeps hget] at hbelow
    cases hbelow

/-- A fresh directory is made with nothing laid over it. -/
theorem laid (h : Fresh fs dest) (wf : fs.WellFormed) :
    ∃ made, fs.createDirectories dest = (made, .ok ()) ∧ Laid dest [] made := by
  obtain ⟨hne, made, hmade, habsent⟩ := h
  have hgrown := createDirectories_grown hmade
  have hlocate := locate_congr hgrown.current dest
  have hnone {way : Location} (hway : way ≠ []) : made.get? (made.locate dest ++ way) = none := by
    obtain ⟨name, more, rfl⟩ := List.exists_cons_of_ne_nil hway
    have hbelow := (hgrown.wellFormed wf).get?_below_absent (habsent name) more
    rwa [List.append_assoc, ← hlocate] at hbelow
  have hfind := createDirectories_ok hmade hne
  rw [← hlocate] at hfind
  refine ⟨made, hmade, hfind, fun way content hfile => ?_, fun way hdir => ?_⟩
  · by_cases hway : way = []
    · have hdir := (resolve_found (find?_eq_some.mp hfind)).2
      rw [hway, List.append_nil, contentAt?_of_directory hdir] at hfile
      cases hfile
    · rw [contentAt?_of_absent (hnone hway)] at hfile
      cases hfile
  · by_cases hway : way = []
    · exact Or.inl hway
    · rw [hnone hway] at hdir
      cases hdir

/-- No file is where a fresh directory is made, and none below. -/
theorem contentAt? (h : Fresh fs dest) (wf : fs.WellFormed) (way : Location) :
    fs.contentAt? (fs.locate dest ++ way) = none := by
  obtain ⟨made, hmade, hlaid⟩ := h.laid wf
  have hgrown := createDirectories_grown hmade
  rw [← hgrown.contentAt?, ← locate_congr hgrown.current dest]
  cases hcontent : made.contentAt? (made.locate dest ++ way) with
  | none => rfl
  | some content =>
    obtain ⟨file, hfile, -⟩ := hlaid.files way content hcontent
    cases hfile

end Fresh

theorem extractInto_wellFormed {fs : FileSystem} (wf : fs.WellFormed) (archive dest : PathText) :
    (extractInto archive dest fs).1.WellFormed := by
  unfold extractInto
  split
  next => exact wf
  next members _ =>
    unfold Extraction.layMembers
    split
    next h => exact (createDirectories_grown h).wellFormed wf
    next made h =>
      exact (Extraction.extractMembers_within (Anchored.of_createDirectories h) rfl).wellFormed
        ((createDirectories_grown h).wellFormed wf)

/-- The destination of an extraction is no file if a directory can be made there. -/
theorem contentAt?_dest_of_extractInto {fs : FileSystem} {dest : PathText} (hfresh : Fresh fs dest)
    (archive : PathText) : (extractInto archive dest fs).1.contentAt? (fs.locate dest) = none := by
  obtain ⟨hne, made, hmade, -⟩ := hfresh
  have hgrown := createDirectories_grown hmade
  have hdir : made.get? (fs.locate dest) = some .directory :=
    (resolve_found (find?_eq_some.mp (createDirectories_ok hmade hne))).2
  unfold extractInto
  split
  next =>
    rw [← hgrown.contentAt?]
    exact contentAt?_of_directory hdir
  next members _ =>
    unfold Extraction.layMembers
    rw [hmade]
    exact contentAt?_of_directory
      ((Extraction.extractMembers_within (Anchored.of_createDirectories hmade) rfl).directories
        _ hdir)

/-- A tree that an archive leaves in a fresh directory can be packed, whatever the archive is and
however the extraction ends. -/
theorem packable_of_extractInto {fs : FileSystem} (wf : fs.WellFormed) {dest : PathText}
    (hfresh : Fresh fs dest) (archive : PathText) :
    Packable (extractInto archive dest fs).1 dest := by
  have hstoring := extractInto_storing archive dest fs
  have wf' := extractInto_wellFormed wf archive dest
  have hdest := contentAt?_dest_of_extractInto hfresh archive
  have hcurrent := (confined_extractInto archive dest fs).current
  generalize (extractInto archive dest fs).1 = after at hstoring wf' hdest hcurrent ⊢
  intro file hfile
  have hfound : after.contentAt? (fs.locate dest ++ file.way) = some file.content := by
    unfold walkPath at hfile
    split at hfile
    next loc node hfind =>
      obtain ⟨rfl, -⟩ := resolve_found (find?_eq_some.mp hfind)
      rwa [mem_walk wf', locate_congr hcurrent] at hfile
    next => cases hfile
  have hnonempty : file.way ≠ [] := by
    intro hnil
    rw [hnil, List.append_nil, hdest] at hfound
    cases hfound
  refine ⟨hnonempty, fun name hname => ?_, fun name hlast => ?_⟩
  · obtain ⟨front, back, hway⟩ := List.append_of_mem hname
    have hthere : (after.get? (fs.locate dest ++ (front ++ [name]))).isSome = true := by
      obtain ⟨executable, hget⟩ := contentAt?_eq_some.mp hfound
      rw [hway, List.append_cons, ← List.append_assoc] at hget
      by_cases hback : back = []
      · rw [hback, List.append_nil] at hget
        rw [hget]
        rfl
      · rw [wf'.directory_of_below hback (by rw [hget]; rfl)]
        rfl
    rcases hstoring.names _ hthere with hbefore | ⟨dir, name', hloc, hstorable⟩
    · rw [hfresh.get?_below wf (by simp)] at hbefore
      cases hbefore
    · rw [← List.append_assoc] at hloc
      rw [(List.append_inj' hloc rfl).2 |> List.cons.inj |>.1]
      exact hstorable
  · rcases hstoring.files _ (by rw [hfound]; rfl) with hbefore | ⟨dir, name', hloc, hending⟩
    · rw [hfresh.contentAt? wf] at hbefore
      cases hbefore
    · have hlasts := congrArg List.getLast? hloc
      rw [List.getLast?_append, hlast, List.getLast?_append, List.getLast?_singleton] at hlasts
      rw [Option.some.inj hlasts]
      exact hending

theorem WalkedFile.Packable.member_write? {file : WalkedFile} (h : file.Packable) :
    file.member.write? = some (file.way, file.content) := by
  have hopened : file.member.opened
      = .ok { method := Recompression.method (file.way.getLast?.getD ""),
              content := .ok file.content } := rfl
  have hname : file.member.name = file.relative := rfl
  have hkept : ¬(Zip.Escapes file.relative ∨ Zip.isDirectoryName file.relative = true) := by
    simp [(Zip.isEnclosed_iff _).mp h.isEnclosed, h.isFileName]
  rw [Zip.Member.write?, hname, if_neg hkept, hopened,
    (WalkedFile.steps_relative h.nonempty h.isName).2, Location.reach_of_names h.isName]
  rfl

/-- The entries of a tree's files write these files. -/
theorem writes_members {files : List WalkedFile} (h : ∀ file ∈ files, file.Packable) :
    Zip.writes (files.map WalkedFile.member)
      = files.map fun file => (file.way, file.content) := by
  rw [Zip.writes, List.filterMap_map, ← List.filterMap_eq_map]
  exact List.filterMap_congr fun file hfile => (h file hfile).member_write?

/-- Where each way is written to once, that write is the last one. -/
theorem Zip.lastWrite_eq_some {log : List (Location × ByteArray)}
    (hnodup : (log.map Prod.fst).Nodup) {way : Location} {content : ByteArray} :
    lastWrite log way = some content ↔ (way, content) ∈ log :=
  lookup_reverse_eq_some_iff_mem hnodup

theorem walk_ways_nodup {fs : FileSystem} (wf : fs.WellFormed) (top : Location) :
    ((fs.walk top).map WalkedFile.way).Nodup := by
  refine List.pairwise_map.mpr ((walk_increasing wf top).imp fun hlt heq => ?_)
  exact List.lt_irrefl _ (heq ▸ hlt)

/-- No file of a tree stands on the way to another one. -/
theorem walk_apart {fs : FileSystem} (wf : fs.WellFormed) (top : Location) :
    (fs.walk top).Pairwise WalkedFile.Apart := by
  have hincreasing := walk_increasing wf top
  refine hincreasing.imp_of_mem fun {a b} ha hb hlt => ?_
  have hne : a.way ≠ b.way := fun heq => List.lt_irrefl _ (heq ▸ hlt)
  rw [mem_walk wf] at ha hb
  have habove {a b : WalkedFile} (ha : fs.contentAt? (top ++ a.way) = some a.content)
      (hb : fs.contentAt? (top ++ b.way) = some b.content) (hne : a.way ≠ b.way) :
      ¬a.way <+: b.way := by
    rintro ⟨more, hmore⟩
    have hmore' : more ≠ [] := by
      rintro rfl
      exact hne (by simpa using hmore)
    obtain ⟨executable, hget⟩ := contentAt?_eq_some.mp hb
    rw [← hmore, ← List.append_assoc] at hget
    rw [contentAt?_of_directory (wf.directory_of_below hmore' (by rw [hget]; rfl))] at ha
    cases ha
  exact ⟨habove ha hb hne, habove hb ha hne.symm⟩

/-- An archive of a tree lays the tree again in a fresh directory. -/
theorem layMembers_walkPath {fs packed : FileSystem} (wf : fs.WellFormed)
    (wf' : packed.WellFormed) {source dest : PathText} (hsource : fs.isDirectory source = true)
    (hpackable : Packable fs source) (hfresh : Fresh packed dest) :
    ∃ after, Extraction.layMembers dest packed ((fs.walkPath source).map WalkedFile.member)
        = (after, .ok
            { written := (fs.walkPath source).length
              bytes := total ((fs.walkPath source).map fun file => file.content.size)
              overwritten := [], rejected := [] }) ∧
      after.isDirectory dest = true ∧ after.WellFormed ∧
      after.walkPath dest = fs.walkPath source := by
  have hfind := isDirectory_eq_true.mp hsource
  have hwalk : fs.walkPath source = fs.walk (fs.locate source) := by rw [walkPath, hfind]
  obtain ⟨made, hmade, hlaid⟩ := hfresh.laid wf'
  have hapart := walk_apart wf (fs.locate source)
  rw [← hwalk] at hapart
  obtain ⟨after, hrun⟩ := extractMembers_of_laid hlaid hpackable hapart 0 .empty
  have hlay : Extraction.layMembers dest packed ((fs.walkPath source).map WalkedFile.member)
      = (after, .ok
          { written := (fs.walkPath source).length
            bytes := total ((fs.walkPath source).map fun file => file.content.size)
            overwritten := [], rejected := [] }) := by
    rw [Extraction.layMembers, hmade]
    simpa [Extraction.empty] using hrun
  have hanchored := Anchored.of_createDirectories hmade
  have hwithin := Extraction.extractMembers_within hanchored hrun
  have hmadeWf := (createDirectories_grown hmade).wellFormed wf'
  have hdest := find?_directory_of_stays hwithin.current hwithin.directories hlaid.find
  have hlocate := locate_congr (createDirectories_grown hmade).current dest
  refine ⟨after, hlay, ?_, hwithin.wellFormed hmadeWf, ?_⟩
  · rw [isDirectory_eq_true, hdest, locate_congr hwithin.current]
  have hcontent (way : Location) : after.contentAt? (packed.locate dest ++ way)
      = Zip.lastWrite ((fs.walkPath source).map fun file => (file.way, file.content)) way := by
    rw [Extraction.layMembers_contentAt? hlay, hfresh.contentAt? wf', Option.or_none,
      writes_members hpackable]
  have htree := walkPath_isTreeOf (hwithin.wellFormed hmadeWf) (hlocate ▸ hdest) hcontent
  have hnodup := walk_ways_nodup wf (fs.locate source)
  have hincreasing := walk_increasing wf (fs.locate source)
  rw [← hwalk] at hnodup hincreasing
  refine eq_of_increasing htree.increasing hincreasing fun file => ?_
  obtain ⟨way, content⟩ := file
  rw [htree.mem_iff, Zip.lastWrite_eq_some (by simpa [Function.comp_def] using hnodup)]
  constructor
  · intro hmem
    obtain ⟨file, hfile, heq⟩ := List.mem_map.mp hmem
    cases heq
    exact hfile
  · intro hfile
    exact List.mem_map.mpr ⟨_, hfile, rfl⟩

/-- Every archive leaves a tree in a fresh directory that can be packed. A tree that can be packed
is packed to an archive outside of it as soon as that can be written there. If the archive's reader
gives the entries back, the archive is unpacked in every fresh directory without complaint: the
directory has the same files, and is packed to the same archive again. -/
theorem compress_extract {fs : FileSystem} (wf : fs.WellFormed) :
    (∀ archive dest, Fresh fs dest → Packable (extractInto archive dest fs).1 dest) ∧
      ∀ source output opened, fs.isDirectory source = true → Packable fs source →
        ¬fs.locate source <+: fs.locate output → fs.writeFile output .empty = .ok opened →
        Zip.read (Zip.write ((fs.walkPath source).map Recompression.entry))
          = .ok ((fs.walkPath source).map WalkedFile.member) →
        ∃ packed, compressDirectory source output fs
            = (packed, .ok (fs.walkPath source).length) ∧
          ∀ dest, Fresh packed dest →
            ∃ after, extractInto output dest packed = (after, .ok
                { written := (fs.walkPath source).length
                  bytes := total ((fs.walkPath source).map fun file => file.content.size)
                  overwritten := []
                  rejected := [] }) ∧
              after.walkPath dest = fs.walkPath source ∧
              ∀ again reopened, ¬after.locate dest <+: after.locate again →
                after.writeFile again .empty = .ok reopened →
                ∃ repacked, compressDirectory dest again after
                    = (repacked, .ok (fs.walkPath source).length) ∧
                  repacked.readFile again = packed.readFile output := by
  refine ⟨fun archive dest hfresh => packable_of_extractInto wf hfresh archive, ?_⟩
  intro source output opened hsource hpackable hout hopen hread
  obtain ⟨packed, hpack, harchive, wf'⟩ := compressDirectory_of_writable wf hsource hout hopen
  refine ⟨packed, hpack, fun dest hfresh => ?_⟩
  obtain ⟨after, hlay, hdir, hafter, hwalk⟩ :=
    layMembers_walkPath wf wf' hsource hpackable hfresh
  obtain ⟨loc, executable, hresolve⟩ := readFile_eq_ok.mp harchive
  refine ⟨after, ?_, hwalk, fun again reopened hout' hopen' => ?_⟩
  · rw [extractInto, Extraction.readArchive_of_resolve hresolve hread]
    exact hlay
  · obtain ⟨repacked, hrepack, hagain, -⟩ :=
      compressDirectory_of_writable hafter hdir hout' hopen'
    rw [hwalk] at hrepack hagain
    exact ⟨repacked, hrepack, hagain.trans harchive.symm⟩

namespace SmallTree

def image : WalkedFile := { way := ["a.png"], content := "1".toUTF8 }

def native : WalkedFile := { way := ["d", "b.so"], content := "23".toUTF8 }

/-- A tree of two files that are both stored. -/
def before : FileSystem :=
  { nodes := [(["src"], .directory), (["src", "a.png"], .file image.content false),
      (["src", "d"], .directory), (["src", "d", "b.so"], .file native.content true)]
    current := [], temporary := "/" }

def archive : ByteArray := Zip.write ([image, native].map Recompression.entry)

def packed : FileSystem := before.put ["out.zip"] (.file archive false)

def after : FileSystem :=
  (((packed.put ["new"] .directory).put ["new", "a.png"] (.file image.content false)).put
    ["new", "d"] .directory).put ["new", "d", "b.so"] (.file native.content false)

set_option maxRecDepth 10000

theorem wellFormed : before.WellFormed := by
  decide +kernel

theorem walk : before.walkPath "/src" = [image, native] := by
  have hfind : before.find? "/src" = some (["src"], .directory) := by rfl
  rw [walkPath_of_sorted hfind (by decide +kernel)]
  rfl

theorem packable : Packable before "/src" := by
  have hnames : ∀ file ∈ [image, native], file.way ≠ [] ∧ ∀ name ∈ file.way, Storable name := by
    decide +kernel
  have hending : ∀ file ∈ [image, native],
      (file.way.getLast?.getD "").toList.getLast? ≠ some '\\' := by decide +kernel
  intro file hfile
  rw [walk] at hfile
  refine ⟨(hnames file hfile).1, (hnames file hfile).2, fun name hlast => ?_⟩
  simpa [hlast] using hending file hfile

theorem read : Zip.read archive = .ok ([image, native].map WalkedFile.member) := by
  have hsmall : ∀ file ∈ [image, native].map Recompression.entry, file.method = .stored ∧
      (Utf8.encode file.name).size < 65536 ∧ file.content.size < 4294967296 ∧
      file.nameRead = file.name := by decide +kernel
  rw [show [image, native].map WalkedFile.member
      = ([image, native].map Recompression.entry).map Zip.NewFile.toMember from rfl]
  refine Zip.read_write (fun file hfile => ?_) ?_ ?_ ?_
  · obtain ⟨hstored, hname, hcontent, hnamed⟩ := hsmall file hfile
    exact Zip.NewFile.readable_of_stored hstored hname hcontent hnamed
  all_goals decide +kernel

theorem fresh : Fresh packed "/new" := by
  refine ⟨by decide, packed.put ["new"] .directory, by rfl, fun name => ?_⟩
  have hway : ["new", name] ≠ [] := by simp
  change (packed.put ["new"] .directory).get? ["new", name] = none
  rw [get?_put_of_ne _ (by simp), packed, get?_put_of_ne _ (by simp)]
  simp [before, get?, List.lookup_cons]

theorem packs : compressDirectory "/src" "/out.zip" before = (packed, .ok 2) := by
  have hopen : before.writeFile "/out.zip" .empty
      = .ok (before.put ["out.zip"] (.file .empty false)) := by rfl
  have hfind : (before.put ["out.zip"] (.file .empty false)).find? "/src"
      = some (["src"], .directory) := by rfl
  unfold compressDirectory
  rw [hopen]
  dsimp only
  rw [walkPath_of_sorted hfind (by decide +kernel)]
  rfl

theorem unpacks : extractInto "/out.zip" "/new" packed
    = (after, .ok { written := 2, bytes := 3, overwritten := [], rejected := [] }) := by
  have hresolve : packed.resolve "/out.zip" = .ok (.found ["out.zip"] (.file archive false)) := by
    rfl
  unfold extractInto
  rw [Extraction.readArchive_of_resolve hresolve read]
  rfl

end SmallTree

theorem compress_extract_small : ∃ repacked,
    compressDirectory "/src" "/out.zip" SmallTree.before = (SmallTree.packed, .ok 2) ∧
    extractInto "/out.zip" "/new" SmallTree.packed
      = (SmallTree.after, .ok { written := 2, bytes := 3, overwritten := [], rejected := [] }) ∧
    SmallTree.after.walkPath "/new" = SmallTree.before.walkPath "/src" ∧
    compressDirectory "/new" "/again.zip" SmallTree.after = (repacked, .ok 2) ∧
    repacked.readFile "/again.zip" = SmallTree.packed.readFile "/out.zip" := by
  have hread : Zip.read (Zip.write ((SmallTree.before.walkPath "/src").map Recompression.entry))
      = .ok ((SmallTree.before.walkPath "/src").map WalkedFile.member) := by
    rw [SmallTree.walk]
    exact SmallTree.read
  obtain ⟨packed, hpack, hunpack⟩ := (compress_extract SmallTree.wellFormed).2 "/src" "/out.zip"
    (SmallTree.before.put ["out.zip"] (.file .empty false)) (by rfl) SmallTree.packable
    (by decide +kernel) (by rfl) hread
  rw [SmallTree.packs] at hpack
  obtain rfl : SmallTree.packed = packed := congrArg Prod.fst hpack
  obtain ⟨after, hextract, hwalk, hagain⟩ := hunpack "/new" SmallTree.fresh
  rw [SmallTree.unpacks] at hextract
  obtain rfl : SmallTree.after = after := congrArg Prod.fst hextract
  obtain ⟨repacked, hrepack, hsame⟩ := hagain "/again.zip"
    (SmallTree.after.put ["again.zip"] (.file .empty false)) (by decide +kernel) (by rfl)
  rw [SmallTree.walk] at hrepack
  exact ⟨repacked, SmallTree.packs, SmallTree.unpacks, hwalk, hrepack, hsame⟩

end SdkEvidence
