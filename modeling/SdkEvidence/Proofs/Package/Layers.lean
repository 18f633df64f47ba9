import SdkEvidence.Proofs.Package.Confinement

/-!
# What an extraction writes

The entries of an archive write a list of files, told by their names and contents alone (`writes`).
After an extraction that succeeds, each location below the destination has the content of the last
write to it, and what no entry writes is as it was (`extractInto_layer`).
-/
namespace SdkEvidence

open FileSystem

namespace Zip

/-- The file that an entry writes: the way to it below the destination, where its name leads, and
its content. Directories and escaping names write none. -/
def Member.write? (member : Member) : Option (Location × ByteArray) :=
  if Escapes member.name ∨ isDirectoryName member.name = true then none
  else
    match member.opened with
    | .ok { content := .ok content, .. } =>
        some (Location.reach [] (Path.steps member.name), content)
    | _ => none

/-- The files that entries write, in entry order. -/
def writes (members : List Member) : List (Location × ByteArray) :=
  members.filterMap Member.write?

/-- An entry that is to be laid as a file: its name stays below the destination and is not that of a
directory. -/
def Member.IsFile (member : Member) : Prop :=
  ¬Escapes member.name ∧ isDirectoryName member.name = false

instance : DecidablePred Member.IsFile :=
  fun _ => inferInstanceAs (Decidable (_ ∧ _))

variable {member : Member}

theorem Member.write?_of_not_isFile (h : ¬member.IsFile) : member.write? = none := by
  have hnone : Escapes member.name ∨ isDirectoryName member.name = true := by
    simpa [IsFile, or_iff_not_imp_left] using h
  rw [write?, if_pos hnone]

theorem Member.write?_of_isFile (h : member.IsFile) {opened : Opened} {content : ByteArray}
    (hopened : member.opened = .ok opened) (hcontent : opened.content = .ok content) :
    member.write? = some (Location.reach [] (Path.steps member.name), content) := by
  obtain ⟨method, read⟩ := opened
  cases hcontent
  rw [write?, if_neg (by simp [h.1, h.2]), hopened]

theorem writes_cons (member : Member) (rest : List Member) :
    writes (member :: rest) = member.write?.toList ++ writes rest := by
  cases hwrite : member.write? <;> simp [writes, hwrite]

theorem writes_append (members more : List Member) :
    writes (members ++ more) = writes members ++ writes more :=
  List.filterMap_append

/-- The content of the last write to a way. -/
def lastWrite (log : List (Location × ByteArray)) (way : Location) : Option ByteArray :=
  log.reverse.lookup way

@[simp] theorem lastWrite_nil (way : Location) : lastWrite [] way = none := rfl

/-- Later writes come before earlier ones. -/
theorem lastWrite_append (earlier later : List (Location × ByteArray)) (way : Location) :
    lastWrite (earlier ++ later) way = (lastWrite later way).or (lastWrite earlier way) := by
  simp [lastWrite, List.lookup_append]

theorem lastWrite_singleton (at_ way : Location) (content : ByteArray) :
    lastWrite [(at_, content)] way = if way = at_ then some content else none := by
  by_cases h : way = at_
  · simp [lastWrite, h]
  · simp [lastWrite, h]

end Zip

theorem Confined.contentAt? {dest : PathText} {fs after : FileSystem} (h : Confined dest fs after)
    {loc : Location} (hout : ¬fs.locate dest <+: loc) :
    after.contentAt? loc = fs.contentAt? loc := by
  rcases h.node loc with hbelow | hgrown
  · exact absurd hbelow hout
  · exact hgrown.contentAt?

namespace Extraction

variable {fs after : FileSystem} {dest : PathText}

/-- A file that is placed is the only content that changes. -/
theorem placeFile_contentAt? {target : PathText} {content : ByteArray}
    (h : placeFile fs target content = (after, .ok ())) (loc : Location) :
    after.contentAt? loc = if loc = fs.locate target then some content else fs.contentAt? loc := by
  obtain ⟨mid, executable, hgrown, rfl, hnot, -⟩ := placeFile_ok h
  have hne : fs.locate target ≠ [] := by
    intro hnil
    rw [hnil] at hnot
    exact hnot (get?_nil mid)
  rw [contentAt?_put_file mid hne, hgrown.contentAt?]

/-- One entry changes the content that it writes and no other. -/
theorem extractOpened_contentAt? {member : Zip.Member} {opened : Zip.Opened}
    {done next : Extraction} (hopened : member.opened = .ok opened)
    (h : extractOpened fs dest done member.name opened = (after, .ok next)) (way : Location) :
    after.contentAt? (fs.locate dest ++ way)
      = (Zip.lastWrite member.write?.toList way).or (fs.contentAt? (fs.locate dest ++ way)) := by
  rcases extractOpened_ok h with ⟨hescapes, rfl, -⟩ | ⟨-, hdirectory, hmade, -⟩ |
    ⟨hnot, hfile, content, hcontent, hplace, -⟩
  · simp [Zip.Member.write?, hescapes]
  · simpa [Zip.Member.write?, hdirectory] using (createDirectories_grown hmade).contentAt? _
  · have henclosed : Zip.isEnclosed member.name = true := (Zip.isEnclosed_iff _).mpr hnot
    rw [placeFile_contentAt? hplace, Zip.Member.write?_of_isFile ⟨hnot, hfile⟩ hopened hcontent,
      locate_join fs (Zip.depthAfter_of_enclosed henclosed).1,
      Zip.reach_of_enclosed henclosed, Option.toList_some, Zip.lastWrite_singleton]
    simp only [List.append_cancel_left_eq]
    split <;> simp

/-- All entries together leave the last write to each way. -/
theorem extractMembers_contentAt? {members : List Zip.Member} {index : Nat}
    {done result : Extraction}
    (hanchored : Anchored fs dest)
    (h : extractMembers dest index done fs members = (after, .ok result)) (way : Location) :
    after.contentAt? (fs.locate dest ++ way)
      = (Zip.lastWrite (Zip.writes members) way).or (fs.contentAt? (fs.locate dest ++ way)) := by
  induction members generalizing index done fs with
  | nil =>
    cases h
    simp [Zip.writes]
  | cons member rest ih =>
    unfold extractMembers at h
    split at h
    next => cases h
    next opened hopened =>
      split at h
      next mid next hstep =>
        have hwithin := extractOpened_within hanchored hstep
        have hrest := ih (hanchored.of_within hwithin) h
        rw [locate_congr hwithin.current] at hrest
        rw [hrest, extractOpened_contentAt? hopened hstep, Zip.writes_cons, Zip.lastWrite_append,
          Option.or_assoc]
      next => cases h

theorem layMembers_contentAt? {members : List Zip.Member} {result : Extraction}
    (h : layMembers dest fs members = (after, .ok result)) (way : Location) :
    after.contentAt? (fs.locate dest ++ way)
      = (Zip.lastWrite (Zip.writes members) way).or (fs.contentAt? (fs.locate dest ++ way)) := by
  unfold layMembers at h
  split at h
  next => cases h
  next made hmade =>
    have hgrown := createDirectories_grown hmade
    have hlayer := extractMembers_contentAt? (Anchored.of_createDirectories hmade) h way
    rwa [locate_congr hgrown.current, hgrown.contentAt?] at hlayer

theorem readArchive_of_resolve {archive : PathText} {loc : Location} {content : ByteArray}
    {executable : Bool} {members : List Zip.Member}
    (hresolve : fs.resolve archive = .ok (.found loc (.file content executable)))
    (hread : Zip.read content = .ok members) : readArchive fs archive = .ok members := by
  simp [readArchive, hresolve, hread]

theorem readArchive_ok {archive : PathText} {members : List Zip.Member}
    (h : readArchive fs archive = .ok members) :
    ∃ content, fs.contentAt? (fs.locate archive) = some content ∧
      Zip.read content = .ok members := by
  unfold readArchive at h
  split at h
  next => cases h
  next => cases h
  next => cases h
  next loc content executable hresolve =>
    obtain ⟨rfl, hget⟩ := resolve_found hresolve
    split at h
    next read hread =>
      cases h
      exact ⟨content, contentAt?_eq_some.mpr ⟨executable, hget⟩, hread⟩
    next => cases h

end Extraction

/-- What an extraction that succeeds leaves: the last write to each way below the destination, or
what was there. -/
theorem extractInto_layer {archive dest : PathText} {fs after : FileSystem} {done : Extraction}
    (h : extractInto archive dest fs = (after, .ok done)) :
    ∃ content members, fs.contentAt? (fs.locate archive) = some content ∧
      Zip.read content = .ok members ∧
      ∀ way, after.contentAt? (fs.locate dest ++ way)
        = (Zip.lastWrite (Zip.writes members) way).or
            (fs.contentAt? (fs.locate dest ++ way)) := by
  unfold extractInto at h
  split at h
  next => cases h
  next members hread =>
    obtain ⟨content, hcontent, hzip⟩ := Extraction.readArchive_ok hread
    exact ⟨content, members, hcontent, hzip, Extraction.layMembers_contentAt? h⟩

/-- An extraction that succeeds leaves its destination a directory. -/
theorem extractInto_find? {archive dest : PathText} {fs after : FileSystem} {done : Extraction}
    (hdest : dest ≠ "") (h : extractInto archive dest fs = (after, .ok done)) :
    after.find? dest = some (fs.locate dest, .directory) := by
  unfold extractInto at h
  split at h
  next => cases h
  next =>
    unfold Extraction.layMembers at h
    split at h
    next => cases h
    next made hmade =>
      have hwithin := Extraction.extractMembers_within (Anchored.of_createDirectories hmade) h
      exact find?_directory_of_stays hwithin.current hwithin.directories
        (createDirectories_ok hmade hdest)

end SdkEvidence
