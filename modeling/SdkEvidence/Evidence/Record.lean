import SdkEvidence.Dictionary
import SdkEvidence.Evidence.Channel
import SdkEvidence.Text.Search
import SdkEvidence.Total

/-!
# Evidence records

What the channels found for one keyword. Hits only add up, whatever their order; the verdict and
the summary are derived once, at the end.
-/
namespace SdkEvidence

/-- The greatest count. -/
def countLimit : Nat := Nat.pow 2 64 - 1

/-- What one channel found. A channel that had nothing to read was not scanned. -/
structure ChannelEvidence where
  channel : EvidenceChannel
  scanned : Bool
  count : Nat
  files : List String
  deriving DecidableEq, Repr

/-- Hits to be recorded. -/
structure ChannelHits where
  count : Nat
  files : List String
  deriving DecidableEq, Repr

namespace ChannelHits

/-- No hits. -/
def none : ChannelHits :=
  { count := 0, files := [] }

/-- Adds the hits in a file, which is listed once, and only if it has any. -/
def addFile (hits : ChannelHits) (file : String) (count : Nat) : ChannelHits :=
  if count = 0 then hits
  else
    { count := hits.count + count
      files := if hits.files.contains file then hits.files else hits.files ++ [file] }

/-- Adds the hits of several files. -/
def addFiles (hits : ChannelHits) (files : List (String × Nat)) : ChannelHits :=
  files.foldl (fun hits (file, count) => hits.addFile file count) hits

end ChannelHits

/-- The evidence for one keyword. -/
structure EvidenceRecord where
  keyword : String
  found : Bool
  channels : List ChannelEvidence
  summary : String
  deriving DecidableEq, Repr

/-- A record while hits are still added. -/
structure EvidenceDraft where
  keyword : String
  channels : List ChannelEvidence
  deriving DecidableEq, Repr

namespace ChannelEvidence

/-- Nothing scanned. -/
def empty (channel : EvidenceChannel) : ChannelEvidence :=
  { channel, scanned := false, count := 0, files := [] }

/-- Adds texts that are not listed yet. -/
def listNew (files : List String) : List String → List String
  | [] => files
  | file :: rest => listNew (if files.contains file then files else files ++ [file]) rest

/-- Adds hits. Counts stop at their limit. -/
def add (evidence : ChannelEvidence) (hits : ChannelHits) : ChannelEvidence :=
  { evidence with
    scanned := true
    count := min (evidence.count + hits.count) countLimit
    files := listNew evidence.files hits.files }

/-- The evidence with its files in order. -/
def sorted (evidence : ChannelEvidence) : ChannelEvidence :=
  { evidence with files := evidence.files.mergeSort fun a b => decide (a ≤ b) }

/-- How many files a summary quotes for a channel. -/
def quotedFiles : Nat := 5

/-- The files in a summary, with the number of those left out. The manifest is one file and is not
quoted. -/
def quoted (evidence : ChannelEvidence) : String :=
  if evidence.files.isEmpty ∨ evidence.channel = .manifest then ""
  else
    ": " ++ Text.joined ", " (evidence.files.take quotedFiles)
      ++ (if quotedFiles < evidence.files.length then
          ", +" ++ toString (evidence.files.length - quotedFiles) ++ " more"
        else "")

/-- The part of a summary for a channel. -/
def told (evidence : ChannelEvidence) : String :=
  let counted := evidence.channel.countedUnit ++ (if evidence.count = 1 then "" else "s")
  evidence.channel.label ++ " (" ++ toString evidence.count ++ " " ++ counted ++ evidence.quoted
    ++ ")"

end ChannelEvidence

namespace EvidenceDraft

/-- A draft for a keyword. -/
def start (keyword : String) : EvidenceDraft :=
  { keyword, channels := EvidenceChannel.all.map ChannelEvidence.empty }

/-- Records the hits of a channel. -/
def record (draft : EvidenceDraft) (channel : EvidenceChannel) (hits : ChannelHits) :
    EvidenceDraft :=
  { draft with
    channels := draft.channels.map fun e => if e.channel = channel then e.add hits else e }

/-- Passes over a channel that has nothing to read; the draft stays as it is. -/
def skip (draft : EvidenceDraft) (_channel : EvidenceChannel) : EvidenceDraft :=
  draft

/-- The wording for a record without hits. -/
def noMatches : String := "No matches in any detection channel"

/-- Where the hits are. -/
def summarize (channels : List ChannelEvidence) : String :=
  let told := (channels.filter fun e => 0 < e.count).map ChannelEvidence.told
  if told.isEmpty then noMatches else "Found in: " ++ Text.joined "; " told

/-- The finished record. -/
def finish (draft : EvidenceDraft) : EvidenceRecord :=
  let channels := draft.channels.map ChannelEvidence.sorted
  { keyword := draft.keyword
    found := channels.any fun e => 0 < e.count
    channels
    summary := summarize channels }

end EvidenceDraft

namespace EvidenceRecord

/-- The number of hits of a channel. -/
def count (record : EvidenceRecord) (channel : EvidenceChannel) : Nat :=
  ((record.channels.find? fun e => e.channel == channel).map ChannelEvidence.count).getD 0

/-- The number of all hits. -/
def totalHits (record : EvidenceRecord) : Nat :=
  total (record.channels.map ChannelEvidence.count)

/-- The channels with hits. -/
def hitChannels (record : EvidenceRecord) : List ChannelEvidence :=
  record.channels.filter fun e => 0 < e.count

end EvidenceRecord
end SdkEvidence
