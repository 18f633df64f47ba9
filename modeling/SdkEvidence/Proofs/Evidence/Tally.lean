import SdkEvidence.Proofs.Evidence.Scan

/-!
# Hits by file

Hits that are added file by file count what all files have, and list those that have any
(`count_addFiles`, `mem_files_addFiles`). So what a channel records tells of the files that it read,
each once (`Scan.Reads.tallies`).
-/
namespace SdkEvidence

namespace ChannelHits

theorem count_addFile (hits : ChannelHits) (file : String) (n : Nat) :
    (hits.addFile file n).count = hits.count + n := by
  unfold addFile
  split
  next hn => rw [hn, Nat.add_zero]
  next => rfl

theorem mem_files_addFile (hits : ChannelHits) (file : String) (n : Nat) (other : String) :
    other ∈ (hits.addFile file n).files ↔ other ∈ hits.files ∨ other = file ∧ 0 < n := by
  unfold addFile
  split
  next hn => simp [hn]
  next hn =>
    have hpos : 0 < n := Nat.pos_of_ne_zero hn
    rw [and_iff_left hpos]
    exact ChannelEvidence.mem_listOne

theorem nodup_files_addFile {hits : ChannelHits} (h : hits.files.Nodup) (file : String) (n : Nat) :
    (hits.addFile file n).files.Nodup := by
  unfold addFile
  split
  next => exact h
  next => exact ChannelEvidence.nodup_listOne h file

theorem addFiles_append (hits : ChannelHits) (files more : List (String × Nat)) :
    hits.addFiles (files ++ more) = (hits.addFiles files).addFiles more :=
  List.foldl_append

theorem nodup_files_addFiles {hits : ChannelHits} (h : hits.files.Nodup)
    (files : List (String × Nat)) : (hits.addFiles files).files.Nodup := by
  induction files generalizing hits with
  | nil => exact h
  | cons file rest ih => exact ih (nodup_files_addFile h file.1 file.2)

theorem count_addFiles (hits : ChannelHits) (files : List (String × Nat)) :
    (hits.addFiles files).count = hits.count + total (files.map Prod.snd) := by
  induction files generalizing hits with
  | nil => simp [addFiles, total]
  | cons file rest ih =>
    rw [addFiles, List.foldl_cons, ← addFiles, ih, count_addFile, List.map_cons, total]
    omega

theorem mem_files_addFiles (hits : ChannelHits) (files : List (String × Nat)) (other : String) :
    other ∈ (hits.addFiles files).files
      ↔ other ∈ hits.files ∨ ∃ n, (other, n) ∈ files ∧ 0 < n := by
  induction files generalizing hits with
  | nil => simp [addFiles]
  | cons file rest ih =>
    obtain ⟨name, n⟩ := file
    rw [addFiles, List.foldl_cons, ← addFiles, ih, mem_files_addFile]
    simp only [List.mem_cons, Prod.mk.injEq, or_and_right, exists_or, or_assoc]
    refine or_congr_right (or_congr_left ?_)
    constructor
    · rintro ⟨rfl, hn⟩
      exact ⟨n, ⟨rfl, rfl⟩, hn⟩
    · rintro ⟨_, ⟨rfl, rfl⟩, hn⟩
      exact ⟨rfl, hn⟩

end ChannelHits

namespace ChannelEvidence

/-- What the evidence of a channel tells of the files at a place, each with the number of its hits:
whether the place was there, the sum of the hits up to the greatest count, and the files that have
any, in order. -/
structure Tallies (evidence : ChannelEvidence) (channel : EvidenceChannel) (there : Prop)
    (hits : List (String × Nat)) : Prop where
  channel : evidence.channel = channel
  scanned : evidence.scanned = true ↔ there
  distinct : (hits.map Prod.fst).Nodup
  count : evidence.count = min (2 ^ 64 - 1) (total (hits.map Prod.snd))
  increasing : evidence.files.Pairwise (· < ·)
  files : ∀ file, file ∈ evidence.files ↔ ∃ n, (file, n) ∈ hits ∧ 0 < n
  empty : evidence.files = [] ↔ evidence.count = 0

end ChannelEvidence

open Scan ChannelEvidence

theorem Scan.scanned_recorded? (limits : ScanLimits) (index : PackageIndex) (keyword : String)
    (channel : EvidenceChannel) :
    (ofHits channel (recorded? limits index keyword channel).toList).sorted.scanned = true
      ↔ index.hasArea channel.area = true := by
  refine (scanned_ofHits channel _).trans ?_
  unfold recorded?
  split
  next hthere => simp [hthere]
  next hthere => simp [hthere]

/-- A channel reads the files at a place, if it is there, in some order. -/
structure Scan.Reads (limits : ScanLimits) (index : PackageIndex) (keyword : String)
    (channel : EvidenceChannel) (there : Prop) (hits : List (String × Nat)) : Prop where
  scanned : index.hasArea channel.area = true ↔ there
  absent : ¬there → hits = []
  recorded : there → ∃ listed, listed.Perm hits ∧
    Scan.hits limits { text := keyword } (index.filesIn channel.area) channel
      = ChannelHits.none.addFiles listed

namespace Scan.Reads

variable {limits : ScanLimits} {index : PackageIndex} {keyword : String}
  {channel : EvidenceChannel} {there : Prop} {hits : List (String × Nat)}

theorem total_recorded? (h : Reads limits index keyword channel there hits) :
    total ((recorded? limits index keyword channel).toList.map ChannelHits.count)
      = total (hits.map Prod.snd) := by
  unfold recorded?
  by_cases hthere : there
  · obtain ⟨listed, hperm, hlisted⟩ := h.recorded hthere
    rw [if_pos (h.scanned.mpr hthere), hlisted, ← total_perm (hperm.map Prod.snd)]
    simp [ChannelHits.count_addFiles, ChannelHits.none, total]
  · rw [if_neg (h.scanned.not.mpr hthere), h.absent hthere]
    rfl

theorem mem_recorded? (h : Reads limits index keyword channel there hits) (file : String) :
    (∃ found ∈ (recorded? limits index keyword channel).toList, file ∈ found.files)
      ↔ ∃ n, (file, n) ∈ hits ∧ 0 < n := by
  unfold recorded?
  by_cases hthere : there
  · obtain ⟨listed, hperm, hlisted⟩ := h.recorded hthere
    rw [if_pos (h.scanned.mpr hthere), hlisted]
    simp [ChannelHits.mem_files_addFiles, ChannelHits.none, hperm.mem_iff]
  · rw [if_neg (h.scanned.not.mpr hthere), h.absent hthere]
    simp

/-- The evidence of a channel tells of all files that the channel reads. -/
theorem tallies (h : Reads limits index keyword channel there hits)
    (hdistinct : (hits.map Prod.fst).Nodup) :
    (ofHits channel (recorded? limits index keyword channel).toList).sorted.Tallies channel there
      hits := by
  have hcount : (ofHits channel (recorded? limits index keyword channel).toList).sorted.count
      = min (2 ^ 64 - 1) (total (hits.map Prod.snd)) := by
    rw [← h.total_recorded?]
    exact count_ofHits channel _
  have hfiles (file : String) :
      file ∈ (ofHits channel (recorded? limits index keyword channel).toList).sorted.files
        ↔ ∃ n, (file, n) ∈ hits ∧ 0 < n := by
    rw [mem_files_sorted, mem_files_ofHits]
    exact h.mem_recorded? file
  refine ⟨channel_ofHits _ _, (scanned_recorded? _ _ _ _).trans h.scanned, hdistinct, hcount,
    files_sorted_increasing (nodup_files_ofHits _ _), hfiles, ?_⟩
  have hzero : min (2 ^ 64 - 1) (total (hits.map Prod.snd)) = 0
      ↔ ¬0 < total (hits.map Prod.snd) := by
    omega
  rw [hcount, hzero, total_pos_iff, List.eq_nil_iff_forall_not_mem]
  simpa [hfiles] using forall_comm

end Scan.Reads
end SdkEvidence
