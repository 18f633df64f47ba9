import SdkEvidence.Package.Recompression
import SdkEvidence.Proofs.FileSystem.Temporary
import SdkEvidence.Proofs.FileSystem.Walk
import SdkEvidence.Proofs.Package.Layers

/-!
# What recompression writes

A tree that was left by a list of writes is walked as one file for each way that was written to
(`walkPath_isTreeOf`), and recompression that succeeds leaves the archive of these files
(`compressDirectory_ok`).
-/
namespace SdkEvidence

open FileSystem

/-- The files of a tree that a list of writes leaves: one for each way that is written to, with the
content of the last write, in the order of the bytes of the ways. -/
structure IsTreeOf (log : List (Location × ByteArray)) (files : List WalkedFile) : Prop where
  increasing : files.Pairwise fun a b => a.way.bytes < b.way.bytes
  mem_iff : ∀ way content,
    (⟨way, content⟩ : WalkedFile) ∈ files ↔ Zip.lastWrite log way = some content
  named : ∀ file ∈ files, file.way ≠ [] ∧ ∀ name ∈ file.way, IsName name

theorem walkPath_isTreeOf {fs : FileSystem} (wf : fs.WellFormed) {p : PathText} {top : Location}
    {log : List (Location × ByteArray)} (hfind : fs.find? p = some (top, .directory))
    (hcontent : ∀ way, fs.contentAt? (top ++ way) = Zip.lastWrite log way) :
    IsTreeOf log (fs.walkPath p) := by
  rw [walkPath, hfind]
  refine ⟨walk_increasing wf top, fun way content => ?_, fun file hfile => ?_⟩
  · rw [← hcontent, mem_walk wf]
  · obtain ⟨executable, hget⟩ := contentAt?_eq_some.mp ((mem_walk wf).mp hfile)
    refine ⟨fun hnil => ?_, fun name hname => wf.isName_of_get? hget name (by simp [hname])⟩
    obtain ⟨htop, hdir⟩ := find?_directory_trail hfind
    rw [hnil, List.append_nil, htop, hdir _ (locate_mem_trail fs p)] at hget
    cases hget

/-- The text of a way leads along the way. -/
theorem WalkedFile.steps_relative {file : WalkedFile} (hne : file.way ≠ [])
    (hnames : ∀ name ∈ file.way, IsName name) :
    Path.isAbsolute file.relative = false ∧ Path.steps file.relative = file.way := by
  have hsegments : Path.segments file.relative = file.way :=
    Path.segments_intercalate hne fun name hname => (hnames name hname).no_slash
  have hsteps : Path.steps file.relative = file.way := by
    rw [Path.steps, hsegments, List.filter_eq_self]
    intro name hname
    simp [Path.isFiller, (hnames name hname).nonempty, (hnames name hname).ne_dot]
  refine ⟨?_, hsteps⟩
  cases habs : Path.isAbsolute file.relative with
  | false => rfl
  | true =>
    obtain ⟨q, hq⟩ := Path.eq_slash_append_of_absolute habs
    rw [hq, Path.segments_slash_append] at hsegments
    have hempty : "" ∈ file.way := by simp [← hsegments]
    exact absurd rfl (hnames "" hempty).nonempty

theorem Location.reach_of_names {way : Location} (hnames : ∀ name ∈ way, IsName name)
    (top : Location) : Location.reach top way = top ++ way := by
  induction way generalizing top with
  | nil => simp
  | cons name rest ih =>
    rw [Location.reach_cons, Location.step, if_neg (hnames name (by simp)).ne_parent,
      ih fun n hn => hnames n (by simp [hn])]
    simp

/-- A walked file is found again below the path that was walked. -/
theorem locate_join_relative {fs : FileSystem} {p : PathText} {file : WalkedFile}
    (hne : file.way ≠ []) (hnames : ∀ name ∈ file.way, IsName name) :
    fs.locate (Path.join p file.relative) = fs.locate p ++ file.way := by
  obtain ⟨hrel, hsteps⟩ := WalkedFile.steps_relative hne hnames
  rw [locate_join fs hrel, hsteps, Location.reach_of_names hnames]

namespace Recompression

/-- An archive outside of the tree is not met in it. -/
theorem entries_none (done : List Zip.NewFile) (files : List WalkedFile) :
    entries none done files = done ++ files.map entry := by
  induction files generalizing done with
  | nil => simp [entries]
  | cons file rest ih =>
    rw [entries, ih]
    simp [entry]

end Recompression

/-- Recompression into a directory that is there works inside of it. -/
theorem compressDirectory_within {source scratch : PathText} {name : String}
    {fs after : FileSystem} {outcome : Except OsError Nat}
    (henclosed : Zip.isEnclosed name = true)
    (h : compressDirectory source (Path.join scratch name) fs = (after, outcome)) :
    Within (fs.locate scratch) fs after := by
  have written {fs after : FileSystem} {content : ByteArray}
      (h : fs.writeFile (Path.join scratch name) content = .ok after) :
      Within (fs.locate scratch) fs after := by
    obtain ⟨executable, rfl, hnot, -, hwf⟩ := writeFile_ok h
    exact Within.put fs (Extraction.prefix_locate_join henclosed) _ hnot hwf
  unfold compressDirectory at h
  split at h
  next =>
    cases h
    exact Within.refl _ _
  next mid hfirst =>
    have hmid := written hfirst
    dsimp only at h
    generalize Recompression.entries _ [] (mid.walkPath source) = files at h
    split at h
    next hsecond =>
      cases h
      have hlast := written hsecond
      rw [locate_congr hmid.current] at hlast
      exact hmid.trans hlast
    next =>
      cases h
      exact hmid

/-- Recompression that succeeds leaves the archive of the tree. -/
theorem compressDirectory_ok {source output : PathText} {fs after : FileSystem} {count : Nat}
    {top : Location} {log : List (Location × ByteArray)} (wf : fs.WellFormed)
    (hsource : fs.find? source = some (top, .directory)) (hout : ¬top <+: fs.locate output)
    (hcontent : ∀ way, fs.contentAt? (top ++ way) = Zip.lastWrite log way)
    (h : compressDirectory source output fs = (after, .ok count)) :
    ∃ tree, IsTreeOf log tree ∧ count = tree.length ∧
      after.readFile output = .ok (Zip.write (tree.map Recompression.entry)) := by
  unfold compressDirectory at h
  split at h
  next => cases h
  next mid hfirst =>
    obtain ⟨executable, hput, hnot, hresolve, hwf⟩ := writeFile_ok hfirst
    have hwithin : Within (fs.locate output) fs mid := by
      subst hput
      exact Within.put fs (List.prefix_refl _) _ hnot hwf
    have hsource' : mid.find? source = some (top, .directory) :=
      find?_directory_of_stays hwithin.current hwithin.directories hsource
    have houtput' : mid.find? output = some (fs.locate output, .file ByteArray.empty executable) :=
      find?_eq_some.mpr hresolve
    have hitself : Location.below? top (fs.locate output) = none := by
      rw [← Option.isNone_iff_eq_none, Location.below?_isNone]
      exact hout
    have hcontent' (way : Location) : mid.contentAt? (top ++ way) = Zip.lastWrite log way := by
      rw [← hcontent]
      by_cases hsame : top ++ way = fs.locate output
      · exact absurd (hsame ▸ List.prefix_append top way) hout
      · rw [hput]
        exact contentAt?_congr (get?_put_of_ne fs hsame _)
    have htree := walkPath_isTreeOf (hwithin.wellFormed wf) hsource' hcontent'
    simp only [hsource', houtput', hitself, Recompression.entries_none, List.nil_append] at h
    split at h
    next hsecond =>
      cases h
      obtain ⟨executable', -, -, hfound, -⟩ := writeFile_ok hsecond
      exact ⟨_, htree, by simp, readFile_eq_ok.mpr ⟨_, _, hfound⟩⟩
    next => cases h

/-- A walk is the same as long as each file below its top is. -/
theorem FileSystem.walkPath_congr {fs after : FileSystem} (wf : fs.WellFormed)
    (wf' : after.WellFormed) {p : PathText} {top : Location}
    (hfind : fs.find? p = some (top, .directory)) (hfind' : after.find? p = some (top, .directory))
    (hcontent : ∀ way, after.contentAt? (top ++ way) = fs.contentAt? (top ++ way)) :
    after.walkPath p = fs.walkPath p := by
  rw [walkPath, walkPath, hfind, hfind']
  refine eq_of_increasing (walk_increasing wf' _) (walk_increasing wf _) fun file => ?_
  rw [mem_walk wf', mem_walk wf, hcontent]

/-- Recompression succeeds if the archive's file can be written outside of the tree. -/
theorem compressDirectory_of_writable {source output : PathText} {fs opened : FileSystem}
    (wf : fs.WellFormed) (hsource : fs.isDirectory source = true)
    (hout : ¬fs.locate source <+: fs.locate output)
    (hopen : fs.writeFile output .empty = .ok opened) :
    ∃ packed, compressDirectory source output fs = (packed, .ok (fs.walkPath source).length) ∧
      packed.readFile output = .ok (Zip.write ((fs.walkPath source).map Recompression.entry)) ∧
      packed.WellFormed := by
  have hfind := isDirectory_eq_true.mp hsource
  obtain ⟨executable, hput, hnot, hresolve, hwf⟩ := writeFile_ok hopen
  have hwithin : Within (fs.locate output) fs opened := by
    subst hput
    exact Within.put fs (List.prefix_refl _) _ hnot hwf
  have hfind' := find?_directory_of_stays hwithin.current hwithin.directories hfind
  have houtput := find?_eq_some.mpr hresolve
  have hitself : Location.below? (fs.locate source) (fs.locate output) = none := by
    rw [← Option.isNone_iff_eq_none, Location.below?_isNone]
    exact hout
  have hwalk : opened.walkPath source = fs.walkPath source := by
    refine walkPath_congr wf (hwf wf) hfind hfind' fun way => ?_
    have hne : fs.locate source ++ way ≠ fs.locate output :=
      fun heq => hout (heq ▸ List.prefix_append _ way)
    rw [hput]
    exact contentAt?_congr (get?_put_of_ne fs hne _)
  let archive := Zip.write ((fs.walkPath source).map Recompression.entry)
  have hwrite : opened.writeFile output archive
      = .ok (opened.put (fs.locate output) (.file archive executable)) := by
    rw [writeFile, hresolve]
  obtain ⟨_, -, -, hfound, hwf'⟩ := writeFile_ok hwrite
  refine ⟨_, ?_, readFile_eq_ok.mpr ⟨_, _, hfound⟩, hwf' (hwf wf)⟩
  simp only [compressDirectory, hopen, hfind', houtput, hitself, Recompression.entries_none,
    List.nil_append, hwalk, List.length_map]
  rw [show Zip.write ((fs.walkPath source).map Recompression.entry) = archive from rfl, hwrite]

end SdkEvidence
