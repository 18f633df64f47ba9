import SdkEvidence.Evidence.Scan
import SdkEvidence.Proofs.Evidence.Accumulation

/-!
# A scan, channel by channel

A scan takes one step for each channel (`scan_eq_run`). So its record depends on those steps alone
(`scan_congr`), and each channel has the hits of its own step (`channels_scan`).
-/
namespace SdkEvidence

namespace Scan

/-- The step that a channel takes: its hits, or none where what it reads is not there. -/
def step (limits : ScanLimits) (index : PackageIndex) (keyword : String)
    (channel : EvidenceChannel) : EvidenceStep :=
  if index.hasArea channel.area then
    .record channel (hits limits { text := keyword } (index.filesIn channel.area) channel)
  else .skip channel

/-- The steps of a scan. -/
def steps (limits : ScanLimits) (index : PackageIndex) (keyword : String) : List EvidenceStep :=
  EvidenceChannel.all.map (step limits index keyword)

theorem scanChannel_eq_take (limits : ScanLimits) (index : PackageIndex) (draft : EvidenceDraft)
    (channel : EvidenceChannel) :
    scanChannel limits index draft channel
      = draft.take (step limits index draft.keyword channel) := by
  unfold scanChannel step
  split <;> rfl

theorem keyword_take (draft : EvidenceDraft) (step : EvidenceStep) :
    (draft.take step).keyword = draft.keyword := by
  cases step <;> rfl

theorem foldl_scanChannel (limits : ScanLimits) (index : PackageIndex) (draft : EvidenceDraft)
    (channels : List EvidenceChannel) :
    channels.foldl (scanChannel limits index) draft
      = (channels.map (step limits index draft.keyword)).foldl EvidenceDraft.take draft := by
  induction channels generalizing draft with
  | nil => rfl
  | cons channel rest ih =>
    rw [List.foldl_cons, ih, scanChannel_eq_take, keyword_take, List.map_cons, List.foldl_cons]

end Scan

open Scan EvidenceStep ChannelEvidence

theorem scan_eq_run (limits : ScanLimits) (index : PackageIndex) (keyword : String) :
    scan limits index keyword
      = (EvidenceDraft.run keyword (steps limits index keyword)).finish := by
  unfold scan
  rw [foldl_scanChannel]
  rfl

/-- Scans that take the same steps give the same record, but for the keyword that it names. -/
theorem scan_congr {limits limits' : ScanLimits} {index index' : PackageIndex}
    {keyword keyword' : String}
    (h : steps limits' index' keyword' = steps limits index keyword) :
    scan limits' index' keyword' = { scan limits index keyword with keyword := keyword' } := by
  rw [scan_eq_run, scan_eq_run, h]
  simp only [EvidenceDraft.finish, EvidenceDraft.channels_run, EvidenceDraft.keyword_run]

/-- What a channel records: the hits in its area, if what it reads is there. -/
def Scan.recorded? (limits : ScanLimits) (index : PackageIndex) (keyword : String)
    (channel : EvidenceChannel) : Option ChannelHits :=
  if index.hasArea channel.area then
    some (hits limits { text := keyword } (index.filesIn channel.area) channel)
  else none

theorem hitsFor?_step (limits : ScanLimits) (index : PackageIndex) (keyword : String)
    (channel other : EvidenceChannel) :
    hitsFor? channel (step limits index keyword other)
      = if other = channel then recorded? limits index keyword channel else none := by
  unfold step recorded?
  by_cases hother : other = channel
  · subst hother
    split <;> simp [hitsFor?]
  · split <;> simp [hitsFor?, hother]

theorem hitsFor_steps (limits : ScanLimits) (index : PackageIndex) (keyword : String)
    (channel : EvidenceChannel) :
    hitsFor channel (steps limits index keyword)
      = (recorded? limits index keyword channel).toList := by
  unfold hitsFor steps
  rw [List.filterMap_map]
  simp only [Function.comp_def, hitsFor?_step]
  -- each channel has one step
  generalize recorded? limits index keyword channel = recorded
  cases recorded <;> cases channel <;> rfl

theorem channels_scan (limits : ScanLimits) (index : PackageIndex) (keyword : String) :
    (scan limits index keyword).channels = EvidenceChannel.all.map fun channel =>
      (ofHits channel (recorded? limits index keyword channel).toList).sorted := by
  rw [scan_eq_run, EvidenceDraft.channels_finish_run]
  simp only [hitsFor_steps]

end SdkEvidence
