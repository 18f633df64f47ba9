import SdkEvidence.Proofs.Evidence.Channels

/-!
# The search of code

The code channel counts the files that a keyword names and, among the first candidates, those whose
text tells of it. A named file is a candidate, since a slash keeps what stands before a name from
its lower-case form (`IsNamed.isCandidate`). So a file counts at most twice (`hits_code`), and a
greater cap adds at most one hit for each further candidate (`code_bounded`).
-/
namespace SdkEvidence

open FileSystem PackageIndex

/-- Whether a way goes on from a directory at the top whose name begins with `smali` or is
`sources`. -/
def Location.isCode : Location → Bool
  | top :: _ :: _ => decide ("smali".toList <+: top.toList ∨ top = "sources")
  | _ => false

/-- The code files of a decompiled tree, in walk order. -/
def FileSystem.codeFiles (fs : FileSystem) (decompiled : PathText) : List WalkedFile :=
  (fs.walkPath decompiled).filter fun file => Location.isCode file.way

namespace CodeSearch

/-- A keyword stands in the name of a file, both in lower case. -/
def IsNamed (keyword : String) (file : WalkedFile) : Prop :=
  Text.lower keyword.toList <:+: Text.lower ((file.way.getLast?).getD "").toList

instance (keyword : String) : DecidablePred (IsNamed keyword) :=
  fun _ => inferInstanceAs (Decidable (_ <:+: _))

/-- A keyword or a token stands in the path of a file, in lower case. Empty tokens do not count. -/
def IsCandidate (tokens : List String) (keyword : String) (file : WalkedFile) : Prop :=
  Text.lower keyword.toList <:+: Text.lower file.relative.toList ∨
    ∃ token ∈ tokens, token ≠ "" ∧ Text.lower token.toList <:+: Text.lower file.relative.toList

instance (tokens : List String) (keyword : String) : DecidablePred (IsCandidate tokens keyword) :=
  fun _ => inferInstanceAs (Decidable (_ ∨ _))

/-- A keyword stands in the text of a file, both in lower case. -/
def IsTold (keyword : String) (file : WalkedFile) : Prop :=
  Text.lower keyword.toList <:+: Text.lower (Utf8.decodeLossy file.content).toList

instance (keyword : String) : DecidablePred (IsTold keyword) :=
  fun _ => inferInstanceAs (Decidable (_ <:+: _))

/-- What is found in code files of which some are read: a hit for each file that the keyword names,
and one for each file read whose text tells of it. The files with a hit are listed once each. -/
structure Finds (keyword : String) (code read : List WalkedFile) (hits : ChannelHits) : Prop where
  count : hits.count
    = (code.filter (IsNamed keyword)).length + (read.filter (IsTold keyword)).length
  distinct : hits.files.Nodup
  files : ∀ path, path ∈ hits.files ↔ ∃ file ∈ code, file.relative = path ∧
    (IsNamed keyword file ∨ file ∈ read ∧ IsTold keyword file)
  files_le : hits.files.length ≤ hits.count
  le_twice : hits.count ≤ 2 * hits.files.length

variable {tokens : List String} {keyword : String}

/-- The lower-case form of a path ends with that of its last name: no character before the slash
changes a sigma behind it. -/
theorem lower_name_suffix (front : Location) (name : String) :
    Text.lower name.toList <:+ Text.lower ("/".intercalate (front ++ [name])).toList := by
  by_cases hfront : front = []
  · simp [hfront]
  · rw [String.intercalate_append_of_ne_nil hfront (by simp), String.intercalate_singleton,
      String.toList_append, String.toList_append, List.append_assoc]
    exact Text.lower_suffix_append_break (by decide) (by decide) _ _

theorem IsNamed.isCandidate {file : WalkedFile} (hway : file.way ≠ [])
    (h : IsNamed keyword file) : IsCandidate tokens keyword file := by
  obtain ⟨front, name, hsplit⟩ : ∃ front name, file.way = front ++ [name] :=
    ⟨_, _, (List.dropLast_append_getLast hway).symm⟩
  have hsuffix := lower_name_suffix front name
  unfold IsNamed at h
  rw [hsplit, List.getLast?_concat, Option.getD_some] at h
  rw [← hsplit] at hsuffix
  exact Or.inl (h.trans hsuffix.isInfix)

/-- One hit for each file, once more for a file that is listed again. -/
def oneEach (files : List WalkedFile) : ChannelHits :=
  ChannelHits.none.addFiles (files.map fun file => (file.relative, 1))

theorem count_oneEach (files : List WalkedFile) : (oneEach files).count = files.length := by
  have htotal : total ((files.map fun file => (file.relative, 1)).map Prod.snd)
      = files.length := by
    induction files with
    | nil => rfl
    | cons file rest ih =>
      rw [List.map_cons, List.map_cons, total, ih, List.length_cons, Nat.add_comm]
  rw [oneEach, ChannelHits.count_addFiles, htotal]
  exact Nat.zero_add _

theorem mem_files_oneEach {files : List WalkedFile} {path : String} :
    path ∈ (oneEach files).files ↔ path ∈ files.map WalkedFile.relative := by
  simp [oneEach, ChannelHits.mem_files_addFiles, ChannelHits.none]

theorem nodup_files_oneEach (files : List WalkedFile) : (oneEach files).files.Nodup :=
  ChannelHits.nodup_files_addFiles List.nodup_nil _

theorem length_files_oneEach_le (files : List WalkedFile) :
    (oneEach files).files.length ≤ (oneEach files).count := by
  rw [count_oneEach, ← List.length_map WalkedFile.relative]
  refine (List.subperm_of_subset (nodup_files_oneEach files) fun path hpath => ?_).length_le
  exact mem_files_oneEach.mp hpath

/-- A part of the files in which no path is repeated has at most as many as are listed. -/
theorem length_le_files_oneEach {part files : List WalkedFile} (hsub : part ⊆ files)
    (hdistinct : (part.map WalkedFile.relative).Nodup) :
    part.length ≤ (oneEach files).files.length := by
  rw [← List.length_map WalkedFile.relative]
  refine (List.subperm_of_subset hdistinct fun path hpath => ?_).length_le
  exact mem_files_oneEach.mpr (List.map_subset _ hsub hpath)

/-- Files of which each is found by its name or by its text, or by both. -/
theorem finds_oneEach {code read : List WalkedFile} (hread : read.Sublist code)
    (hdistinct : (code.map WalkedFile.relative).Nodup) :
    Finds keyword code read
      (oneEach (code.filter (IsNamed keyword) ++ read.filter (IsTold keyword))) := by
  have hcount := count_oneEach (code.filter (IsNamed keyword) ++ read.filter (IsTold keyword))
  rw [List.length_append] at hcount
  refine ⟨hcount, nodup_files_oneEach _, fun path => ?_, length_files_oneEach_le _, ?_⟩
  · simp only [mem_files_oneEach, List.map_append, List.mem_append, List.mem_map, List.mem_filter,
      decide_eq_true_eq]
    constructor
    · rintro (⟨file, ⟨hfile, hnamed⟩, hpath⟩ | ⟨file, ⟨hfile, htold⟩, hpath⟩)
      · exact ⟨file, hfile, hpath, Or.inl hnamed⟩
      · exact ⟨file, hread.subset hfile, hpath, Or.inr ⟨hfile, htold⟩⟩
    · rintro ⟨file, hfile, hpath, hnamed | ⟨hmet, htold⟩⟩
      · exact Or.inl ⟨file, ⟨hfile, hnamed⟩, hpath⟩
      · exact Or.inr ⟨file, ⟨hmet, htold⟩, hpath⟩
  · -- each of the two lists repeats no path, so the files that are listed are as many
    have hpart {part : List WalkedFile} (h : part.Sublist code) :
        (part.map WalkedFile.relative).Nodup := hdistinct.sublist (h.map _)
    have hnamed := length_le_files_oneEach
      (List.subset_append_left (code.filter (IsNamed keyword)) (read.filter (IsTold keyword)))
      (hpart List.filter_sublist)
    have htold := length_le_files_oneEach
      (List.subset_append_right (code.filter (IsNamed keyword)) (read.filter (IsTold keyword)))
      (hpart (List.filter_sublist.trans hread))
    omega

end CodeSearch

open CodeSearch

namespace Scan

variable {keyword : String}

theorem isCandidate_eq (tokens : List String) (file : IndexedFile) (cap : ℕ) :
    isCandidate (ScanLimits.needles { cap, tokens }) { text := keyword } file
      = decide (IsCandidate tokens keyword file.walked) := by
  rw [Bool.eq_iff_iff, decide_eq_true_eq, isCandidate, Bool.or_eq_true, Text.contains_iff_isInfix,
    List.any_eq_true]
  refine or_congr Iff.rfl ?_
  simp only [ScanLimits.needles, List.mem_filter, List.mem_map, Text.contains_iff_isInfix]
  constructor
  · rintro ⟨needle, ⟨⟨token, htoken, rfl⟩, hneedle⟩, hpath⟩
    refine ⟨token, htoken, ?_, hpath⟩
    rintro rfl
    cases hneedle
  · rintro ⟨token, htoken, hne, hpath⟩
    refine ⟨_, ⟨⟨token, htoken, rfl⟩, ?_⟩, hpath⟩
    have hlower := Text.lower_eq_nil_iff.not.mpr (by simpa using hne : token.toList ≠ [])
    simpa using hlower

/-- The code channel adds the files that the keyword names, and then those that tell of it among
the candidates up to the cap. -/
theorem byNameAndContent_eq (cap : ℕ) (tokens : List String) {files : List IndexedFile}
    (hnames : ∀ file ∈ files, file.way.getLast? = some file.name) :
    byNameAndContent { cap, tokens } { text := keyword } files
      = oneEach ((files.map IndexedFile.walked).filter (IsNamed keyword)
          ++ (((files.map IndexedFile.walked).filter (IsCandidate tokens keyword)).take
            cap).filter (IsTold keyword)) := by
  have hcandidates : (files.map IndexedFile.walked).filter (IsCandidate tokens keyword)
      = (files.filter (isCandidate (ScanLimits.needles { cap, tokens })
          { text := keyword })).map IndexedFile.walked := by
    rw [List.filter_map, List.filter_congr fun file _ => isCandidate_eq tokens file cap]
    rfl
  have htold (read : List IndexedFile) : (read.map IndexedFile.walked).filter (IsTold keyword)
      = (read.filter fun file =>
          ({ text := keyword } : Keyword).isIn file.text).map IndexedFile.walked := by
    rw [List.filter_map]
    exact congrArg _ (List.filter_congr fun file _ => (isIn_eq keyword file.text).symm)
  unfold byNameAndContent candidates
  rw [byName_eq hnames, ← ChannelHits.addFiles_append, oneEach, List.map_append, hcandidates,
    ← List.map_take, htold, List.map_map]
  rfl

end Scan

namespace PackageIndex

variable {fs : FileSystem} {decompiled raw : PathText}

/-- The ways of code are those that a decompiled tree gives the code area. -/
theorem isCode_iff (rawHasMetadata : Bool) (way : Location) :
    Location.isCode way = true ↔ TreeArea.ofDecompiled rawHasMetadata way = .code := by
  rw [TreeArea.ofDecompiled_eq_code_iff]
  rcases way with _ | ⟨top, _ | ⟨name, more⟩⟩
  · simp [Location.isCode]
  · simp [Location.isCode]
  · have hroot : TreeArea.isCodeRoot top = true
        ↔ "smali".toList <+: top.toList ∨ top = "sources" := by
      rw [TreeArea.isCodeRoot, Bool.or_eq_true, List.isPrefixOf_iff_prefix, beq_iff_eq]
    rw [Location.isCode, decide_eq_true_eq, ← hroot]
    constructor
    · intro h
      exact ⟨top, name, more, rfl, h⟩
    · rintro ⟨_, _, _, hway, h⟩
      cases hway
      exact h

theorem exists_of_mem_codeFiles {file : WalkedFile} (hfile : file ∈ fs.codeFiles decompiled) :
    ∃ top name more, file.way = top :: name :: more ∧ TreeArea.isCodeRoot top = true := by
  have hcode := (List.mem_filter.mp hfile).2
  exact (TreeArea.ofDecompiled_eq_code_iff false file.way).mp ((isCode_iff false file.way).mp hcode)

/-- The files of the code area are the code files of the decompiled tree, also where one tree is
both. -/
theorem filesIn_code (fs : FileSystem) (decompiled raw : PathText) :
    (build fs decompiled raw).filesIn .code
      = (fs.codeFiles decompiled).map (indexed decompiled fun _ => .code) := by
  have htree {classify : Location → TreeArea}
      (hcode : ∀ way, Location.isCode way = true ↔ classify way = .code) :
      (treeFiles fs decompiled classify).filter (fun file => file.area == .code)
        = (fs.codeFiles decompiled).map (indexed decompiled fun _ => .code) := by
    have hfiles : ((fs.walkPath decompiled).filter fun file => classify file.way == .code)
        = fs.codeFiles decompiled := by
      refine List.filter_congr fun file _ => ?_
      rw [Bool.eq_iff_iff, beq_iff_eq, hcode]
    rw [filter_treeFiles, hfiles]
    refine List.map_congr_left fun file hfile => ?_
    have hclaims := (hcode file.way).mp (List.mem_filter.mp hfile).2
    simp only [indexed, hclaims]
  have hraw (way : Location) : TreeArea.ofRaw way ≠ .code :=
    TreeArea.ofRaw_ne (by decide) rfl way
  unfold filesIn build
  dsimp only
  split
  next =>
    refine htree fun way => ?_
    rw [TreeArea.ofBoth_eq_iff (by decide), or_iff_left (hraw way)]
    exact isCode_iff _ way
  next =>
    rw [List.filter_append, htree (isCode_iff _), filter_treeFiles,
      filter_eq_nil fun file _ => hraw file.way, List.map_nil, List.append_nil]

theorem map_walked_code (fs : FileSystem) (decompiled raw : PathText) :
    ((build fs decompiled raw).filesIn .code).map IndexedFile.walked
      = fs.codeFiles decompiled := by
  rw [filesIn_code, List.map_map]
  exact List.map_id'' (fun file => rfl) _

theorem getLast?_way_of_code {file : IndexedFile}
    (hfile : file ∈ (build fs decompiled raw).filesIn .code) :
    file.way.getLast? = some file.name := by
  rw [filesIn_code] at hfile
  obtain ⟨met, hmet, rfl⟩ := List.mem_map.mp hfile
  obtain ⟨top, name, more, hway, -⟩ := exists_of_mem_codeFiles hmet
  simp [indexed, hway, List.getLast?_cons]

/-- A code file stands below a directory at the top of the decompiled tree. -/
theorem contentAt?_of_code (wf : fs.WellFormed) {file : WalkedFile}
    (hfile : file ∈ fs.codeFiles decompiled) :
    ∃ unpacked, fs.directory? decompiled = some unpacked ∧
      fs.contentAt? (unpacked ++ file.way) = some file.content := by
  obtain ⟨top, name, more, hway, -⟩ := exists_of_mem_codeFiles hfile
  have hmet := (List.mem_filter.mp hfile).1
  unfold walkPath at hmet
  split at hmet
  next loc node hfind =>
    rw [mem_walk wf] at hmet
    obtain ⟨executable, hget⟩ := contentAt?_eq_some.mp hmet
    have hdir := wf.directory_of_below (by simp [hway]) (Option.isSome_of_eq_some hget)
    obtain ⟨-, hnode⟩ := resolve_found (find?_eq_some.mp hfind)
    rw [hdir] at hnode
    cases hnode
    exact ⟨loc, directory?_eq_some.mpr hfind, hmet⟩
  next => cases hmet

theorem relatives_nodup_code (wf : fs.WellFormed) (decompiled : PathText) :
    ((fs.codeFiles decompiled).map WalkedFile.relative).Nodup := by
  cases hdecompiled : fs.directory? decompiled with
  | none =>
    have hnone : fs.codeFiles decompiled = [] := by
      rw [List.eq_nil_iff_forall_not_mem]
      intro file hfile
      obtain ⟨unpacked, hsome, -⟩ := contentAt?_of_code wf hfile
      rw [hdecompiled] at hsome
      cases hsome
    simp [hnone]
  | some unpacked =>
    refine relatives_nodup_of_ways wf unpacked ?_ fun file hfile => ?_
    · have hways := ((walkPath_perm hdecompiled).map WalkedFile.way).nodup_iff.mpr
        (filesBelow_ways_nodup wf unpacked)
      exact hways.sublist (List.filter_sublist.map _)
    · obtain ⟨top, name, more, hway, -⟩ := exists_of_mem_codeFiles hfile
      obtain ⟨found, hsome, hcontent⟩ := contentAt?_of_code wf hfile
      rw [hdecompiled] at hsome
      cases hsome
      exact ⟨by simp [hway], hcontent⟩

/-- Where there is a code file, there is code. -/
theorem hasArea_of_code (wf : fs.WellFormed) {file : WalkedFile}
    (hfile : file ∈ fs.codeFiles decompiled) :
    (build fs decompiled raw).hasArea .code = true := by
  obtain ⟨unpacked, hdecompiled, hcontent⟩ := contentAt?_of_code wf hfile
  obtain ⟨top, name, more, hway, hroot⟩ := exists_of_mem_codeFiles hfile
  obtain ⟨executable, hget⟩ := contentAt?_eq_some.mp hcontent
  rw [hway, ← List.singleton_append, ← List.append_assoc] at hget
  rw [hasArea_build, isPresent_code wf hdecompiled]
  exact ⟨top, hroot, wf.directory_of_below (by simp) (Option.isSome_of_eq_some hget)⟩

end PackageIndex

namespace Scan

variable {fs : FileSystem}

/-- What the code channel finds when it reads as many candidates as the cap allows. -/
theorem hits_code (wf : fs.WellFormed) (decompiled raw : PathText) (tokens : List String)
    (keyword : String) (cap : ℕ) :
    Finds keyword (fs.codeFiles decompiled)
      (((fs.codeFiles decompiled).filter (IsCandidate tokens keyword)).take cap)
      (hits { cap, tokens } { text := keyword } ((build fs decompiled raw).filesIn .code)
        .code) := by
  have hhits : hits { cap, tokens } { text := keyword } ((build fs decompiled raw).filesIn .code)
      .code = _ :=
    byNameAndContent_eq cap tokens fun file hfile => getLast?_way_of_code hfile
  rw [hhits, map_walked_code]
  exact finds_oneEach ((List.take_sublist _ _).trans List.filter_sublist)
    (relatives_nodup_code wf decompiled)

/-- The record of the code channel has what the channel finds, also where there is no code. -/
theorem recorded_code (wf : fs.WellFormed) (decompiled raw : PathText) (limits : ScanLimits)
    (keyword : String) :
    ∃ evidence ∈ (scan limits (build fs decompiled raw) keyword).channels,
      evidence.channel = .code ∧
      evidence.count = min (2 ^ 64 - 1) (hits limits { text := keyword }
        ((build fs decompiled raw).filesIn .code) .code).count ∧
      evidence.files.Perm (hits limits { text := keyword }
        ((build fs decompiled raw).filesIn .code) .code).files := by
  have hfinds := hits_code wf decompiled raw limits.tokens keyword limits.cap
  generalize hfound : hits limits { text := keyword } ((build fs decompiled raw).filesIn .code)
    .code = found at hfinds ⊢
  have hevidence : (ChannelEvidence.ofHits .code (recorded? limits (build fs decompiled raw) keyword
      .code).toList).sorted ∈ (scan limits (build fs decompiled raw) keyword).channels := by
    rw [channels_scan]
    exact List.mem_map_of_mem (by decide)
  have hrecorded : total ((recorded? limits (build fs decompiled raw) keyword
        .code).toList.map ChannelHits.count) = found.count ∧
      ∀ path, (∃ met ∈ (recorded? limits (build fs decompiled raw) keyword .code).toList,
        path ∈ met.files) ↔ path ∈ found.files := by
    unfold recorded?
    split
    next =>
      rw [show EvidenceChannel.code.area = .code from rfl, hfound]
      simp [total]
    next habsent =>
      have hnone : fs.codeFiles decompiled = [] := by
        rw [List.eq_nil_iff_forall_not_mem]
        exact fun file hfile => habsent (hasArea_of_code wf hfile)
      have hcount : found.count = 0 := by
        have hcount := hfinds.count
        rw [hnone] at hcount
        simpa using hcount
      have hfiles : found.files = [] :=
        List.length_eq_zero_iff.mp (Nat.le_zero.mp (hcount ▸ hfinds.files_le))
      simp [total, hcount, hfiles]
  refine ⟨_, hevidence, ChannelEvidence.channel_ofHits _ _, ?_, ?_⟩
  · rw [← hrecorded.1]
    exact ChannelEvidence.count_ofHits _ _
  · refine (List.mergeSort_perm _ _).trans ?_
    refine (List.perm_ext_iff_of_nodup (ChannelEvidence.nodup_files_ofHits _ _)
      hfinds.distinct).mpr fun path => ?_
    rw [ChannelEvidence.mem_files_ofHits, hrecorded.2]

/-- A greater cap adds at most one hit for each further candidate. -/
theorem length_filter_take_bounds (files : List WalkedFile) (test : WalkedFile → Bool)
    {cap more : ℕ} (h : cap ≤ more) :
    ((files.take cap).filter test).length ≤ ((files.take more).filter test).length ∧
      ((files.take more).filter test).length
        ≤ ((files.take cap).filter test).length + (more - cap) := by
  have hsplit : files.take more = files.take cap ++ (files.drop cap).take (more - cap) := by
    rw [← List.take_add, Nat.add_sub_cancel' h]
  have hfurther : (((files.drop cap).take (more - cap)).filter test).length ≤ more - cap :=
    (List.length_filter_le _ _).trans (List.length_take_le _ _)
  rw [hsplit, List.filter_append, List.length_append]
  omega

/-- A tree with code of a library: one file is named after it, and all three tell of it. -/
def LibraryCode.files : FileSystem :=
  { nodes :=
      [(["t"], .directory), (["t", "smali"], .directory),
       (["t", "smali", "Main.smali"], .file "acme".toUTF8 false),
       (["t", "smali", "acme"], .directory),
       (["t", "smali", "acme", "Acme.smali"], .file "ACME".toUTF8 false),
       (["t", "smali", "sdk"], .directory),
       (["t", "smali", "sdk", "Load.smali"], .file "acme".toUTF8 false)]
    current := []
    temporary := "/" }

theorem LibraryCode.codeFiles_eq :
    LibraryCode.files.codeFiles "/t"
      = [{ way := ["smali", "Main.smali"], content := "acme".toUTF8 },
         { way := ["smali", "acme", "Acme.smali"], content := "ACME".toUTF8 },
         { way := ["smali", "sdk", "Load.smali"], content := "acme".toUTF8 }] := by
  have hfind : LibraryCode.files.find? "/t" = some (["t"], .directory) := by decide
  rw [codeFiles, walkPath_of_sorted hfind (by decide)]
  decide

end Scan
end SdkEvidence
