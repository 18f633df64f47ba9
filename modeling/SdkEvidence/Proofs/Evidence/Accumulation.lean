import Mathlib.Algebra.BigOperators.Group.List.Basic
import Mathlib.Data.List.Forall2
import Mathlib.Data.List.Induction
import Mathlib.Data.List.Sort
import Mathlib.Data.String.Basic
import SdkEvidence.Evidence.Record

/-!
# Evidence adds up

A record depends on what was recorded for each channel, and not on the order or the grouping: a
channel of the draft is the sum of its recorded hits (`channels_run`). So the finished record says
exactly what was recorded, later steps only add to it, and steps in another order give the same
record (`finish_run`).
-/
namespace SdkEvidence

theorem total_append (counts more : List Nat) :
    total (counts ++ more) = total counts + total more := by
  induction counts with
  | nil => simp [total]
  | cons n rest ih => rw [List.cons_append, total, ih, total, Nat.add_assoc]

theorem total_perm {counts other : List Nat} (h : counts.Perm other) :
    total counts = total other := by
  induction h with
  | nil => rfl
  | cons n _ ih => rw [total, ih, total]
  | swap n k rest => rw [total, total, total, total, Nat.add_left_comm]
  | trans _ _ ih ih' => rw [ih, ih']

theorem total_pos_iff {counts : List Nat} : 0 < total counts ↔ ∃ n ∈ counts, 0 < n := by
  induction counts with
  | nil => simp [total]
  | cons n rest ih =>
    rw [total, List.exists_mem_cons_iff, ← ih]
    omega

/-- A step in which a draft is filled. -/
inductive EvidenceStep where
  | record (channel : EvidenceChannel) (hits : ChannelHits)
  | skip (channel : EvidenceChannel)
  deriving DecidableEq, Repr

namespace EvidenceStep

/-- The hits that a step records for a channel. -/
def hitsFor? (channel : EvidenceChannel) : EvidenceStep → Option ChannelHits
  | .record recorded hits => if recorded = channel then some hits else none
  | .skip _ => none

/-- All hits that steps record for a channel, in order. -/
def hitsFor (channel : EvidenceChannel) (steps : List EvidenceStep) : List ChannelHits :=
  steps.filterMap (hitsFor? channel)

theorem mem_hitsFor {channel : EvidenceChannel} {steps : List EvidenceStep} {hits : ChannelHits} :
    hits ∈ hitsFor channel steps ↔ .record channel hits ∈ steps := by
  unfold hitsFor
  rw [List.mem_filterMap]
  constructor
  · rintro ⟨step, hstep, hhits⟩
    cases step with
    | record recorded found =>
      by_cases h : recorded = channel
      · simp only [hitsFor?, h, if_true, Option.some.injEq] at hhits
        rw [← hhits, ← h]
        exact hstep
      · simp [hitsFor?, h] at hhits
    | skip => simp [hitsFor?] at hhits
  · intro hmem
    exact ⟨_, hmem, by simp [hitsFor?]⟩

theorem hitsFor_append (channel : EvidenceChannel) (steps more : List EvidenceStep) :
    hitsFor channel (steps ++ more) = hitsFor channel steps ++ hitsFor channel more := by
  simp [hitsFor]

theorem hitsFor_perm {channel : EvidenceChannel} {steps other : List EvidenceStep}
    (h : steps.Perm other) : (hitsFor channel steps).Perm (hitsFor channel other) :=
  h.filterMap _

end EvidenceStep

namespace ChannelEvidence

theorem mem_listOne {files : List String} {file other : String} :
    other ∈ (if files.contains file then files else files ++ [file])
      ↔ other ∈ files ∨ other = file := by
  split
  next hknown =>
    refine (or_iff_left_of_imp ?_).symm
    rintro rfl
    exact List.contains_iff_mem.mp hknown
  next => rw [List.mem_append, List.mem_singleton]

theorem nodup_listOne {files : List String} (h : files.Nodup) (file : String) :
    (if files.contains file then files else files ++ [file]).Nodup := by
  split
  next => exact h
  next hnew => simpa using h.concat (by simpa using hnew)

theorem mem_listNew {files more : List String} {file : String} :
    file ∈ listNew files more ↔ file ∈ files ∨ file ∈ more := by
  induction more generalizing files with
  | nil => simp [listNew]
  | cons first rest ih => rw [listNew, ih, mem_listOne, List.mem_cons, or_assoc]

theorem listNew_nodup {files : List String} (h : files.Nodup) (more : List String) :
    (listNew files more).Nodup := by
  induction more generalizing files with
  | nil => exact h
  | cons first rest ih => exact ih (nodup_listOne h first)

/-- What several hits add up to. -/
def ofHits (channel : EvidenceChannel) (hits : List ChannelHits) : ChannelEvidence :=
  hits.foldl add (empty channel)

theorem ofHits_concat (channel : EvidenceChannel) (hits : List ChannelHits) (last : ChannelHits) :
    ofHits channel (hits ++ [last]) = (ofHits channel hits).add last := by
  simp [ofHits]

@[simp] theorem channel_ofHits (channel : EvidenceChannel) (hits : List ChannelHits) :
    (ofHits channel hits).channel = channel := by
  induction hits using List.reverseRecOn with
  | nil => rfl
  | append_singleton front last ih => rw [ofHits_concat, add, ih]

theorem scanned_ofHits (channel : EvidenceChannel) (hits : List ChannelHits) :
    (ofHits channel hits).scanned = true ↔ hits ≠ [] := by
  induction hits using List.reverseRecOn with
  | nil => simp [ofHits, empty]
  | append_singleton front last ih => simp [ofHits_concat, add]

/-- A count that has stopped at its limit stays there, so the sum may be cut once, at the end. -/
theorem count_ofHits (channel : EvidenceChannel) (hits : List ChannelHits) :
    (ofHits channel hits).count = min countLimit (total (hits.map ChannelHits.count)) := by
  induction hits using List.reverseRecOn with
  | nil => simp [ofHits, empty, total]
  | append_singleton front last ih =>
    rw [ofHits_concat, add, ih, List.map_append, total_append, List.map_singleton, total, total]
    dsimp only
    omega

theorem mem_files_ofHits {channel : EvidenceChannel} {hits : List ChannelHits} {file : String} :
    file ∈ (ofHits channel hits).files ↔ ∃ found ∈ hits, file ∈ found.files := by
  induction hits using List.reverseRecOn with
  | nil => simp [ofHits, empty]
  | append_singleton front last ih =>
    rw [ofHits_concat, add, mem_listNew, ih]
    simp [or_and_right, exists_or]

theorem nodup_files_ofHits (channel : EvidenceChannel) (hits : List ChannelHits) :
    (ofHits channel hits).files.Nodup := by
  induction hits using List.reverseRecOn with
  | nil => exact List.nodup_nil
  | append_singleton front last ih =>
    rw [ofHits_concat]
    exact listNew_nodup ih _

theorem mem_files_sorted {evidence : ChannelEvidence} {file : String} :
    file ∈ evidence.sorted.files ↔ file ∈ evidence.files :=
  List.mem_mergeSort

/-- Files that are listed once each are sorted strictly. -/
theorem files_sorted_increasing {evidence : ChannelEvidence} (h : evidence.files.Nodup) :
    evidence.sorted.files.Pairwise (· < ·) := by
  have hle : evidence.sorted.files.Pairwise (· ≤ ·) := List.pairwise_mergeSort' (· ≤ ·) _
  have hnodup : evidence.sorted.files.Nodup := (List.mergeSort_perm _ _).nodup_iff.mpr h
  exact (hle.and hnodup).imp fun ⟨hab, hne⟩ => lt_of_le_of_ne hab hne

/-- The order in which hits are added is forgotten once the files are sorted. -/
theorem sorted_ofHits_perm {channel : EvidenceChannel} {hits other : List ChannelHits}
    (h : hits.Perm other) : (ofHits channel hits).sorted = (ofHits channel other).sorted := by
  have hscanned : (ofHits channel hits).scanned = (ofHits channel other).scanned := by
    rw [Bool.eq_iff_iff, scanned_ofHits, scanned_ofHits, ← List.length_pos_iff,
      ← List.length_pos_iff, h.length_eq]
  have hcount : (ofHits channel hits).count = (ofHits channel other).count := by
    rw [count_ofHits, count_ofHits, total_perm (h.map _)]
  have hfiles : (ofHits channel hits).sorted.files = (ofHits channel other).sorted.files := by
    refine (files_sorted_increasing (nodup_files_ofHits _ _)).eq_of_mem_iff
      (files_sorted_increasing (nodup_files_ofHits _ _)) fun file => ?_
    rw [mem_files_sorted, mem_files_sorted, mem_files_ofHits, mem_files_ofHits]
    exact exists_congr fun found => and_congr_left fun _ => h.mem_iff
  unfold sorted at hfiles ⊢
  dsimp only at hfiles
  rw [channel_ofHits, channel_ofHits, hscanned, hcount, hfiles]

end ChannelEvidence

namespace EvidenceDraft

open EvidenceStep ChannelEvidence

/-- A draft after one more step. -/
def take (draft : EvidenceDraft) : EvidenceStep → EvidenceDraft
  | .record channel hits => draft.record channel hits
  | .skip channel => draft.skip channel

/-- The draft for a keyword after steps. -/
def run (keyword : String) (steps : List EvidenceStep) : EvidenceDraft :=
  steps.foldl take (start keyword)

theorem run_concat (keyword : String) (steps : List EvidenceStep) (step : EvidenceStep) :
    run keyword (steps ++ [step]) = (run keyword steps).take step := by
  simp [run]

theorem keyword_run (keyword : String) (steps : List EvidenceStep) :
    (run keyword steps).keyword = keyword := by
  induction steps using List.reverseRecOn with
  | nil => rfl
  | append_singleton front step ih =>
    rw [run_concat]
    cases step <;> exact ih

/-- One step adds its hits to the channel that it is for. -/
theorem channels_take {draft : EvidenceDraft} {hits : EvidenceChannel → List ChannelHits}
    (h : draft.channels = EvidenceChannel.all.map fun channel => ofHits channel (hits channel))
    (step : EvidenceStep) :
    (draft.take step).channels = EvidenceChannel.all.map fun channel =>
      ofHits channel (hits channel ++ (step.hitsFor? channel).toList) := by
  cases step with
  | skip channel => simpa [take, skip, hitsFor?] using h
  | record recorded found =>
    rw [take, record, h, List.map_map]
    refine List.map_congr_left fun channel _ => ?_
    by_cases hchannel : channel = recorded
    · simp [hitsFor?, hchannel, ofHits_concat]
    · simp [hitsFor?, hchannel, Ne.symm hchannel]

/-- Each channel of a draft is the sum of the hits recorded for it. -/
theorem channels_run (keyword : String) (steps : List EvidenceStep) :
    (run keyword steps).channels
      = EvidenceChannel.all.map fun channel => ofHits channel (hitsFor channel steps) := by
  induction steps using List.reverseRecOn with
  | nil => rfl
  | append_singleton front step ih =>
    rw [run_concat, channels_take ih]
    refine List.map_congr_left fun channel _ => ?_
    rw [hitsFor_append]
    cases hstep : step.hitsFor? channel <;> simp [hitsFor, hstep]

/-- The channels of a finished record. -/
theorem channels_finish_run (keyword : String) (steps : List EvidenceStep) :
    (run keyword steps).finish.channels
      = EvidenceChannel.all.map fun channel => (ofHits channel (hitsFor channel steps)).sorted := by
  rw [finish, channels_run, List.map_map]
  rfl

theorem mem_all (channel : EvidenceChannel) : channel ∈ EvidenceChannel.all := by
  cases channel <;> decide

/-- A summary that tells of hits is not the wording for none. -/
theorem summarize_eq_noMatches {channels : List ChannelEvidence} :
    summarize channels = noMatches ↔ ∀ evidence ∈ channels, evidence.count = 0 := by
  have htold : ∀ text : String, "Found in: " ++ text ≠ noMatches := by
    intro text heq
    have hfirst := congrArg (fun s => s.toList.head?) heq
    simp [noMatches] at hfirst
  unfold summarize
  dsimp only
  split
  next hnone =>
    have hempty : ∀ evidence ∈ channels, evidence.count = 0 := by simpa using hnone
    simp only [true_iff]
    exact hempty
  next hsome =>
    have hnot : ¬∀ evidence ∈ channels, evidence.count = 0 := by simpa using hsome
    simp only [htold, hnot]

theorem found_finish (draft : EvidenceDraft) :
    draft.finish.found = true ↔ ∃ evidence ∈ draft.finish.channels, 0 < evidence.count := by
  simp [finish]

/-- What one channel of a finished record says: exactly what was recorded for it. -/
structure Accounts (steps : List EvidenceStep) (evidence : ChannelEvidence) : Prop where
  count : evidence.count
    = min (2 ^ 64 - 1) (total ((hitsFor evidence.channel steps).map ChannelHits.count))
  scanned : evidence.scanned = true ↔ ∃ hits, .record evidence.channel hits ∈ steps
  increasing : evidence.files.Pairwise (· < ·)
  files : ∀ file, file ∈ evidence.files
    ↔ ∃ hits, .record evidence.channel hits ∈ steps ∧ file ∈ hits.files

/-- Whether the evidence of a channel has become no less. -/
structure Extends (earlier later : ChannelEvidence) : Prop where
  channel : later.channel = earlier.channel
  count : earlier.count ≤ later.count
  scanned : earlier.scanned = true → later.scanned = true

theorem accounts_ofHits (channel : EvidenceChannel) (steps : List EvidenceStep) :
    Accounts steps (ofHits channel (hitsFor channel steps)).sorted := by
  have hchannel : (ofHits channel (hitsFor channel steps)).sorted.channel = channel :=
    channel_ofHits _ _
  refine ⟨?_, ?_, files_sorted_increasing (nodup_files_ofHits _ _), fun file => ?_⟩
  · rw [hchannel]
    exact count_ofHits channel _
  · rw [hchannel]
    refine (scanned_ofHits channel _).trans ⟨fun hne => ?_, fun ⟨hits, hmem⟩ => ?_⟩
    · obtain ⟨hits, hmem⟩ := List.exists_mem_of_ne_nil _ hne
      exact ⟨hits, mem_hitsFor.mp hmem⟩
    · exact List.ne_nil_of_mem (mem_hitsFor.mpr hmem)
  · rw [hchannel, mem_files_sorted, mem_files_ofHits]
    exact exists_congr fun hits => and_congr_left fun _ => mem_hitsFor

theorem extends_ofHits (channel : EvidenceChannel) (steps more : List EvidenceStep) :
    Extends (ofHits channel (hitsFor channel steps)).sorted
      (ofHits channel (hitsFor channel (steps ++ more))).sorted := by
  refine ⟨?_, ?_, fun hscanned => ?_⟩
  · exact (channel_ofHits _ _).trans (channel_ofHits _ _).symm
  · show (ofHits channel _).count ≤ (ofHits channel _).count
    rw [count_ofHits, count_ofHits, hitsFor_append, List.map_append, total_append]
    omega
  · have hsome := (scanned_ofHits channel (hitsFor channel steps)).mp hscanned
    refine (scanned_ofHits channel _).mpr ?_
    rw [hitsFor_append]
    exact List.append_ne_nil_of_left_ne_nil hsome _

/-- A count is positive exactly when one of the counts that it adds up is. -/
theorem exists_count_pos {steps : List EvidenceStep} :
    (∃ evidence ∈ EvidenceChannel.all.map fun channel =>
          (ofHits channel (hitsFor channel steps)).sorted, 0 < evidence.count)
      ↔ ∃ channel hits, .record channel hits ∈ steps ∧ 0 < hits.count := by
  have hpos (channel : EvidenceChannel) :
      0 < (ofHits channel (hitsFor channel steps)).sorted.count
        ↔ ∃ hits, .record channel hits ∈ steps ∧ 0 < hits.count := by
    have hlimit : 0 < countLimit := by decide
    show 0 < (ofHits channel _).count ↔ _
    rw [count_ofHits, Nat.lt_min, and_iff_right hlimit, total_pos_iff]
    simp [mem_hitsFor]
  constructor
  · rintro ⟨evidence, hmem, hcount⟩
    obtain ⟨channel, -, rfl⟩ := List.mem_map.mp hmem
    exact ⟨channel, (hpos channel).mp hcount⟩
  · rintro ⟨channel, hhits⟩
    exact ⟨_, List.mem_map.mpr ⟨channel, mem_all channel, rfl⟩, (hpos channel).mpr hhits⟩

theorem found_run (keyword : String) (steps : List EvidenceStep) :
    (run keyword steps).finish.found = true
      ↔ ∃ channel hits, .record channel hits ∈ steps ∧ 0 < hits.count := by
  rw [found_finish, channels_finish_run]
  exact exists_count_pos

theorem finish_run_perm (keyword : String) {steps other : List EvidenceStep}
    (h : steps.Perm other) : (run keyword steps).finish = (run keyword other).finish := by
  have hchannels : (run keyword steps).finish.channels = (run keyword other).finish.channels := by
    rw [channels_finish_run, channels_finish_run]
    exact List.map_congr_left fun channel _ => sorted_ofHits_perm (hitsFor_perm h)
  unfold finish at hchannels ⊢
  dsimp only at hchannels
  rw [keyword_run, keyword_run, hchannels]

end EvidenceDraft

open EvidenceDraft in
/-- However a record is filled, it says for each channel, in the fixed order, exactly what was
recorded: the sum of the counts up to the greatest one, whether the channel was named, and the
distinct files in order. It tells of a find exactly when some recorded count was positive, and its
summary agrees. One more step takes nothing back, and the order of the steps does not matter. -/
theorem finish_run_accounts (keyword : String) (steps : List EvidenceStep) :
    (run keyword steps).finish.keyword = keyword ∧
    (run keyword steps).finish.channels.map ChannelEvidence.channel = EvidenceChannel.all ∧
    (∀ evidence ∈ (run keyword steps).finish.channels, Accounts steps evidence) ∧
    ((run keyword steps).finish.found = true
      ↔ ∃ channel hits, .record channel hits ∈ steps ∧ 0 < hits.count) ∧
    ((run keyword steps).finish.found = true ↔ (run keyword steps).finish.summary ≠ noMatches) ∧
    (∀ step, List.Forall₂ Extends (run keyword steps).finish.channels
        (run keyword (steps ++ [step])).finish.channels ∧
      ((run keyword steps).finish.found = true →
        (run keyword (steps ++ [step])).finish.found = true)) ∧
    ∀ other, other.Perm steps → (run keyword other).finish = (run keyword steps).finish := by
  refine ⟨keyword_run keyword steps, ?_, fun evidence hmem => ?_, found_run keyword steps, ?_,
    fun step => ⟨?_, fun hfound => ?_⟩, fun other h => finish_run_perm keyword h⟩
  · rw [channels_finish_run, List.map_map]
    exact List.map_id'' (fun channel => ChannelEvidence.channel_ofHits _ _) _
  · rw [channels_finish_run] at hmem
    obtain ⟨channel, -, rfl⟩ := List.mem_map.mp hmem
    exact accounts_ofHits channel steps
  · rw [found_finish, ne_eq]
    show _ ↔ ¬summarize (run keyword steps).finish.channels = noMatches
    rw [summarize_eq_noMatches]
    simp [Nat.pos_iff_ne_zero]
  · rw [channels_finish_run, channels_finish_run, List.forall₂_map_left_iff,
      List.forall₂_map_right_iff]
    exact List.forall₂_same.mpr fun channel _ => extends_ofHits channel steps [step]
  · rw [found_run] at hfound ⊢
    obtain ⟨channel, hits, hmem, hpos⟩ := hfound
    exact ⟨channel, hits, List.mem_append_left _ hmem, hpos⟩

end SdkEvidence
