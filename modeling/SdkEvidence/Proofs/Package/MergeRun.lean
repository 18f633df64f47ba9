import SdkEvidence.Proofs.Package.Assembly
import SdkEvidence.Proofs.Package.Publishing
import SdkEvidence.Proofs.Zip.Archive

/-!
# Runs of a merge

A merge makes a scratch directory, assembles the package in it, publishes the package and removes
the directory. Here are the parts that a run passes through.
-/
namespace SdkEvidence

open FileSystem

namespace Merge

/-- An overlay of one sub-package is its extraction. -/
theorem overlay_singleton {unpacked staging : PathText} {fs after : FileSystem}
    {file : WalkedFile} {done : Extraction}
    (h : extractInto (Path.join unpacked file.relative) staging fs = (after, .ok done)) :
    (overlay unpacked staging [file]).runIn fs
      = (.ok (collisionsOf file.name done ++ [], done.rejected ++ []), after) := by
  rw [overlay, Action.runIn_bind, Action.runIn_step, h]
  rfl

/-- A package that is missing or empty is not published. -/
def emptyFailure (scratch : PathText) : Failure :=
  .repackaging ("Merged package " ++ assembledIn scratch ++ " is missing or empty")

theorem runIn_mergeIn (scratch container output : PathText) (fs : FileSystem) :
    (mergeIn scratch container output).runIn fs
      = match (assemble scratch container).runIn fs with
        | (.error e, packed) => (.error e, packed)
        | (.ok assembly, packed) =>
            if sizeAt packed (assembledIn scratch) = 0 then (.error (emptyFailure scratch), packed)
            else
              match (publish (assembledIn scratch) output).runIn packed with
              | (.error e, after) => (.error e, after)
              | (.ok _, after) =>
                  (.ok (assembly.outcome output (sizeAt packed (assembledIn scratch))), after) := by
  unfold mergeIn
  rw [Action.runIn_bind]
  rcases (assemble scratch container).runIn fs with ⟨assembled, packed⟩
  cases assembled with
  | error e => rfl
  | ok assembly =>
    dsimp only
    rw [Action.runIn_bind, Action.runIn_ask]
    dsimp only
    split
    next hzero => rfl
    next hsize =>
      rw [Action.runIn_bind]
      rcases (publish (assembledIn scratch) output).runIn packed with ⟨published, after⟩
      cases published <;> rfl

theorem runIn_mergeIn_of_error {scratch container output : PathText} {fs packed : FileSystem}
    {e : Failure} (hassemble : (assemble scratch container).runIn fs = (.error e, packed)) :
    (mergeIn scratch container output).runIn fs = (.error e, packed) := by
  rw [runIn_mergeIn, hassemble]

/-- A package that was put together is published, and how that ends is how the merge ends. -/
theorem runIn_mergeIn_of_steps {scratch container output : PathText} {fs packed after : FileSystem}
    {assembly : Assembly} {published : Except Failure Unit}
    (hassemble : (assemble scratch container).runIn fs = (.ok assembly, packed))
    (hsize : sizeAt packed (assembledIn scratch) ≠ 0)
    (hpublish : (publish (assembledIn scratch) output).runIn packed = (published, after)) :
    (mergeIn scratch container output).runIn fs
      = (published.map fun _ => assembly.outcome output (sizeAt packed (assembledIn scratch)),
          after) := by
  rw [runIn_mergeIn, hassemble]
  dsimp only
  rw [if_neg hsize, hpublish]
  cases published <;> rfl

end Merge

theorem runIn_mergeContainer (scratch : Option PathText) (container output : PathText)
    (fs : FileSystem) :
    (mergeContainer scratch container output).runIn fs
      = if fs.isFile container = false then
          (.error (.invalidInput ("Split container not found: " ++ container)), fs)
        else
          match fs.makeTemporary (scratch.getD fs.temporary) Merge.scratchLead .directory with
          | .error e => (.error (.ofOsError e), fs)
          | .ok (made, mid) =>
              match (Merge.mergeIn made.path container output).runIn mid with
              | (outcome, after) => (outcome, after.removeTree made.location) := by
  unfold mergeContainer
  rw [Action.runIn_bind, Action.runIn_ask]
  cases hfile : fs.isFile container with
  | false => simp
  | true =>
    simp only [Bool.not_true, Bool.false_eq_true, if_false, Action.runIn_bind, Action.runIn_ask,
      Action.runIn_withTemporary]
    cases fs.makeTemporary (scratch.getD fs.temporary) Merge.scratchLead .directory <;> rfl

/-- A merge of a file that is there ends as the work in its scratch directory does, and the
directory is removed. -/
theorem runIn_mergeContainer_of_steps {scratch : Option PathText} {container output : PathText}
    {fs mid after : FileSystem} {made : Temporary} {outcome : Except Failure MergeOutcome}
    (hfile : fs.isFile container = true)
    (hmade : fs.makeTemporary (scratch.getD fs.temporary) Merge.scratchLead .directory
      = .ok (made, mid))
    (hrun : (Merge.mergeIn made.path container output).runIn mid = (outcome, after)) :
    (mergeContainer scratch container output).runIn fs
      = (outcome, after.removeTree made.location) := by
  rw [runIn_mergeContainer, if_neg (by simp [hfile]), hmade]
  dsimp only
  rw [hrun]

/-!
## Two names for one file

The split of this container writes to the file of the base by a name that passes through a directory
which is not there.
-/

namespace Merge.TwoNames

def plain : Zip.NewFile := { name := "p.so", method := .stored, content := "1".toUTF8 }

def dotted : Zip.NewFile := { name := "d/../p.so", method := .stored, content := "2".toUTF8 }

def base : Zip.NewFile := { name := "a.apk", method := .stored, content := Zip.write [plain] }

def split : Zip.NewFile := { name := "b.apk", method := .stored, content := Zip.write [dotted] }

def container : ByteArray := Zip.write [base, split]

def merged : ByteArray := Zip.write [{ dotted with name := "p.so" }]

/-- The container is the only file. -/
def before : FileSystem :=
  { nodes := [(["in.apks"], .file container false)], current := [], temporary := "/" }

def made : Temporary :=
  { path := "/sdkprobe-merge-000000", location := ["sdkprobe-merge-000000"] }

def scratched : FileSystem := before.put made.location .directory

def unpacked : FileSystem :=
  ((scratched.put (made.location ++ ["container"]) .directory).put
    (made.location ++ ["container", "a.apk"]) (.file base.content false)).put
    (made.location ++ ["container", "b.apk"]) (.file split.content false)

def based : FileSystem :=
  (unpacked.put (made.location ++ ["staging"]) .directory).put
    (made.location ++ ["staging", "p.so"]) (.file plain.content false)

def laid : FileSystem :=
  (based.put (made.location ++ ["staging", "d"]) .directory).put
    (made.location ++ ["staging", "p.so"]) (.file dotted.content false)

def packed : FileSystem := laid.put (made.location ++ ["merged.apk"]) (.file merged false)

def baseFile : WalkedFile := { way := ["a.apk"], content := base.content }

def splitFile : WalkedFile := { way := ["b.apk"], content := split.content }

def plan : SplitPlan := { base := baseFile, architecture := [], others := [splitFile] }

def assembly : Assembly := { plan, entriesWritten := 1, collisions := [], rejected := [] }

theorem wellFormed : before.WellFormed := by
  have hempty : FileSystem.empty.WellFormed :=
    { distinct := List.nodup_nil
      named := by simp [FileSystem.empty]
      inDirectory := by simp [FileSystem.empty, get?] }
  have hname : IsName "in.apks" := by constructor <;> decide
  have hroot : FileSystem.empty.get? [] = some .directory := rfl
  have habsent : FileSystem.empty.get? ([] ++ ["in.apks"]) ≠ some .directory := by
    simp [FileSystem.empty, get?]
  exact hempty.put hroot hname (Or.inr habsent)

set_option maxRecDepth 10000

theorem readable : ∀ file ∈ [plain, dotted, base, split], file.Readable := by
  have hsmall : ∀ file ∈ [plain, dotted, base, split], (Utf8.encode file.name).size < 65536 ∧
      file.content.size < 4294967296 ∧ file.nameRead = file.name := by decide +kernel
  have hstored : ∀ file ∈ [plain, dotted, base, split], file.method = .stored := by decide
  intro file hfile
  obtain ⟨hname, hcontent, hnamed⟩ := hsmall file hfile
  exact Zip.NewFile.readable_of_stored (hstored file hfile) hname hcontent hnamed

theorem read_container : Zip.read container = .ok [base.toMember, split.toMember] := by
  show Zip.read (Zip.write [base, split]) = .ok ([base, split].map Zip.NewFile.toMember)
  refine Zip.read_write (fun file hfile => readable file ?_) ?_ ?_ ?_
  · simp only [List.mem_cons] at hfile ⊢
    tauto
  all_goals decide +kernel

theorem read_base : Zip.read base.content = .ok [plain.toMember] := by
  show Zip.read (Zip.write [plain]) = .ok ([plain].map Zip.NewFile.toMember)
  refine Zip.read_write (fun file hfile => readable file ?_) ?_ ?_ ?_
  · simp only [List.mem_cons] at hfile ⊢
    tauto
  all_goals decide +kernel

theorem read_split : Zip.read split.content = .ok [dotted.toMember] := by
  show Zip.read (Zip.write [dotted]) = .ok ([dotted].map Zip.NewFile.toMember)
  refine Zip.read_write (fun file hfile => readable file ?_) ?_ ?_ ?_
  · simp only [List.mem_cons] at hfile ⊢
    tauto
  all_goals decide +kernel

theorem scratch : before.makeTemporary "/" scratchLead .directory = .ok (made, scratched) := by
  rfl

theorem unpack : extractInto "/in.apks" (unpackedIn made.path) scratched
    = (unpacked, .ok { written := 2, bytes := 0 + base.content.size + split.content.size,
                       overwritten := [], rejected := [] }) := by
  have hresolve : scratched.resolve "/in.apks"
      = .ok (.found ["in.apks"] (.file container false)) := by rfl
  unfold extractInto
  rw [Extraction.readArchive_of_resolve hresolve read_container]
  rfl

theorem planned : SplitPlan.ofFiles? (unpacked.walkPath (unpackedIn made.path)) = some plan := by
  have hfind : unpacked.find? (unpackedIn made.path)
      = some (made.location ++ ["container"], .directory) := by rfl
  rw [walkPath_of_sorted hfind (by decide +kernel)]
  rfl

theorem layBase : extractInto (Path.join (unpackedIn made.path) baseFile.relative)
      (stagingIn made.path) unpacked
    = (based, .ok { written := 1, bytes := 1, overwritten := [], rejected := [] }) := by
  have hresolve : unpacked.resolve (Path.join (unpackedIn made.path) baseFile.relative)
      = .ok (.found (made.location ++ ["container", "a.apk"]) (.file base.content false)) := by rfl
  unfold extractInto
  rw [Extraction.readArchive_of_resolve hresolve read_base]
  rfl

theorem readSplit : Extraction.readArchive based
      (Path.join (unpackedIn made.path) splitFile.relative) = .ok [dotted.toMember] := by
  have hresolve : based.resolve (Path.join (unpackedIn made.path) splitFile.relative)
      = .ok (.found (made.location ++ ["container", "b.apk"]) (.file split.content false)) := by rfl
  exact Extraction.readArchive_of_resolve hresolve read_split

theorem laySplit : extractInto (Path.join (unpackedIn made.path) splitFile.relative)
      (stagingIn made.path) based
    = (laid, .ok { written := 1, bytes := 1, overwritten := [], rejected := [] }) := by
  unfold extractInto
  rw [readSplit]
  decide +kernel

theorem compress : compressDirectory (stagingIn made.path) (assembledIn made.path) laid
    = (packed, .ok 1) := by
  have hopen : laid.writeFile (assembledIn made.path) .empty
      = .ok (laid.put (made.location ++ ["merged.apk"]) (.file .empty false)) := by rfl
  have hfind : (laid.put (made.location ++ ["merged.apk"]) (.file .empty false)).find?
      (stagingIn made.path) = some (made.location ++ ["staging"], .directory) := by rfl
  unfold compressDirectory
  rw [hopen]
  dsimp only
  rw [walkPath_of_sorted hfind (by decide +kernel)]
  rfl

theorem assembled : (assemble made.path "/in.apks").runIn scratched
    = (.ok assembly, packed) := by
  have hoverlay : (overlay (unpackedIn made.path) (stagingIn made.path) plan.overlays).runIn based
      = (.ok ([], []), laid) := overlay_singleton laySplit
  exact runIn_assemble_ok.mpr
    ⟨_, unpacked, _, based, _, laid, unpack, planned, layBase, hoverlay, compress, rfl⟩

theorem removed {name : String} (h : name ∈ ["out.apk", "new"]) (node : Node) :
    (packed.put [name] node).removeTree made.location = before.put [name] node := by
  simp only [List.mem_cons, List.not_mem_nil, or_false] at h
  rcases h with rfl | rfl <;> rfl

theorem published : (publish (assembledIn made.path) "/out.apk").runIn packed
    = (.ok (), packed.put ["out.apk"] (.file merged false)) := by
  rfl

theorem unpublished : (publish (assembledIn made.path) "/new/out.apk/").runIn packed
    = (.error (publishingFailure "/new/out.apk/" .notADirectory),
        packed.put ["new"] .directory) := by
  rfl

theorem size : sizeAt packed (assembledIn made.path) ≠ 0 := by
  decide +kernel

/-- The merge succeeds. -/
theorem merges : (mergeContainer none "/in.apks" "/out.apk").runIn before
    = (.ok (assembly.outcome "/out.apk" (sizeAt packed (assembledIn made.path))),
        before.put ["out.apk"] (.file merged false)) := by
  have hrun := runIn_mergeIn_of_steps assembled size published
  rw [← removed (by simp)]
  exact runIn_mergeContainer_of_steps rfl scratch hrun

/-- The merge fails when its package is published, after a directory was made for it. -/
theorem fails : (mergeContainer none "/in.apks" "/new/out.apk/").runIn before
    = (.error (publishingFailure "/new/out.apk/" .notADirectory),
        before.put ["new"] .directory) := by
  have hrun := runIn_mergeIn_of_steps assembled size unpublished
  rw [← removed (by simp)]
  exact runIn_mergeContainer_of_steps rfl scratch hrun

end Merge.TwoNames
end SdkEvidence
