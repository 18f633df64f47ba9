import SdkEvidence.Zip.Archive

/-!
# Reading what was written

A written archive gives its files back, in order and with their contents (`read_write`). The names
and sizes have to fit the headers, and packing must lose nothing.
-/
namespace SdkEvidence.Zip

open LittleEndian

/-- The bytes stand in the data at an offset. -/
def Holds (data : ByteArray) (offset : Nat) (part : ByteArray) : Prop :=
  ∃ front back, data = front ++ part ++ back ∧ front.size = offset

theorem toList_loop (data : ByteArray) (i : Nat) (done : List UInt8) :
    ByteArray.toList.loop data i done = done.reverse ++ data.data.toList.drop i := by
  fun_induction ByteArray.toList.loop data i done with
  | case1 i done hlt ih =>
    have hlt' : i < data.data.toList.length := hlt
    have hget : data.get! i = data.data.toList[i] := by
      show data.data[i]! = _
      rw [getElem!_pos data.data i hlt, Array.getElem_toList]
    rw [ih, hget, List.drop_eq_getElem_cons hlt']
    simp
  | case2 i done hge =>
    have hge' : data.data.toList.length ≤ i := Nat.le_of_not_lt hge
    simp [List.drop_eq_nil_of_le hge']

theorem toList_toByteArray (l : List UInt8) : l.toByteArray.toList = l := by
  rw [ByteArray.toList, toList_loop]
  simp

namespace Holds

variable {data part first second : ByteArray} {offset : Nat}

theorem size_le (h : Holds data offset part) : offset + part.size ≤ data.size := by
  obtain ⟨front, back, rfl, rfl⟩ := h
  simp only [ByteArray.size_append]
  omega

theorem extract (h : Holds data offset part) :
    data.extract offset (offset + part.size) = part := by
  obtain ⟨front, back, rfl, rfl⟩ := h
  rw [ByteArray.append_assoc]
  have hshift := ByteArray.extract_append_size_add (a := front) (b := part ++ back) (i := 0)
    (j := part.size)
  rw [Nat.add_zero] at hshift
  rw [hshift, ByteArray.extract_append_eq_left rfl]

theorem left (h : Holds data offset (first ++ second)) : Holds data offset first := by
  obtain ⟨front, back, rfl, rfl⟩ := h
  exact ⟨front, second ++ back, by simp only [ByteArray.append_assoc], rfl⟩

theorem right (h : Holds data offset (first ++ second)) :
    Holds data (offset + first.size) second := by
  obtain ⟨front, back, rfl, rfl⟩ := h
  exact ⟨front ++ first, back, by simp only [ByteArray.append_assoc], ByteArray.size_append⟩

theorem range (h : Holds data offset part) : range data offset part.size = .ok part := by
  rw [Zip.range, if_pos h.size_le, h.extract]

/-- A number stands where its bytes do; what follows it stands after it. -/
theorem number {width n : Nat} {rest : List UInt8}
    (h : Holds data offset (bytes width n ++ rest).toByteArray) (hn : n < Nat.pow 256 width) :
    field data offset width = .ok n ∧ Holds data (offset + width) rest.toByteArray := by
  rw [List.toByteArray_append] at h
  have hsize : (bytes width n).toByteArray.size = width := by
    rw [List.size_toByteArray, length_bytes]
  have hleft := h.left
  have hright := h.right
  have hle := hleft.size_le
  have hextract := hleft.extract
  rw [hsize] at hright hle hextract
  refine ⟨?_, hright⟩
  rw [field, numberAt?, if_pos hle, hextract, toList_toByteArray, number_bytes width n hn]

end Holds

/-- The name that a reader makes of the name of a written file. -/
def NewFile.nameRead (file : NewFile) : String :=
  if file.flags / 2048 % 2 = 1 then Utf8.decodeLossy (Utf8.encode file.name)
  else decodeCodePage437 (Utf8.encode file.name).toList

/-- A file that the headers have room for, and whose name and content come back. -/
structure NewFile.Readable (file : NewFile) : Prop where
  nameFits : (Utf8.encode file.name).size < 65536
  contentFits : file.content.size < 4294967296
  named : file.nameRead = file.name
  unpacked : unpack file.method file.packed (Crc32.checksum file.content).toNat = .ok file.content

/-- Content that is stored comes back. -/
theorem NewFile.readable_of_stored {file : NewFile} (hmethod : file.method = .stored)
    (hname : (Utf8.encode file.name).size < 65536) (hcontent : file.content.size < 4294967296)
    (hnamed : file.nameRead = file.name) : file.Readable := by
  refine ⟨hname, hcontent, hnamed, ?_⟩
  simp [unpack, packed, hmethod]

/-- What the directory says about a file whose local header stands at an offset. -/
def NewFile.entry (file : NewFile) (offset : Nat) : Entry :=
  { name := file.name
    isEncrypted := false
    method := file.method.code
    checksum := (Crc32.checksum file.content).toNat
    packedSize := file.packed.size
    size := file.content.size
    offset }

theorem NewFile.flags_lt (file : NewFile) : file.flags < Nat.pow 256 2 := by
  unfold flags
  split <;> decide

theorem NewFile.isEncrypted_flags (file : NewFile) : (file.flags % 2 == 1) = false := by
  unfold flags
  split <;> rfl

theorem Method.code_lt (m : Method) : m.code < Nat.pow 256 2 := by
  cases m <;> decide

theorem NewFile.checksum_lt (file : NewFile) :
    (Crc32.checksum file.content).toNat < Nat.pow 256 4 :=
  UInt32.toNat_lt _

/-- The fields that both headers of a file share stand in the data. -/
structure NewFile.FieldsAt (file : NewFile) (data : ByteArray) (offset : Nat) : Prop where
  flags : field data (offset + 2) 2 = .ok file.flags
  method : field data (offset + 4) 2 = .ok file.method.code
  checksum : field data (offset + 10) 4 = .ok (Crc32.checksum file.content).toNat
  packedSize : field data (offset + 14) 4 = .ok file.packed.size
  size : field data (offset + 18) 4 = .ok file.content.size
  nameSize : field data (offset + 22) 2 = .ok (Utf8.encode file.name).size
  extraSize : field data (offset + 24) 2 = .ok 0

theorem NewFile.fieldsAt_of_holds {file : NewFile} {data : ByteArray} {offset : Nat}
    {rest : List UInt8} (hfile : file.Readable) (hpacked : file.packed.size < 4294967296)
    (h : Holds data offset (file.sharedFields file.packed ++ rest).toByteArray) :
    file.FieldsAt data offset ∧ Holds data (offset + 26) rest.toByteArray := by
  unfold sharedFields at h
  simp only [List.append_assoc] at h
  obtain ⟨-, h⟩ := h.number (by decide)
  obtain ⟨hflags, h⟩ := h.number file.flags_lt
  obtain ⟨hmethod, h⟩ := h.number file.method.code_lt
  obtain ⟨-, h⟩ := h.number (by decide)
  obtain ⟨-, h⟩ := h.number (by decide)
  obtain ⟨hchecksum, h⟩ := h.number file.checksum_lt
  obtain ⟨hpackedSize, h⟩ := h.number hpacked
  obtain ⟨hsize, h⟩ := h.number hfile.contentFits
  obtain ⟨hnameSize, h⟩ := h.number hfile.nameFits
  obtain ⟨hextraSize, h⟩ := h.number (by decide)
  exact ⟨⟨hflags, hmethod, hchecksum, hpackedSize, hsize, hnameSize, hextraSize⟩, h⟩

theorem NewFile.length_sharedFields (file : NewFile) (packed : ByteArray) :
    (file.sharedFields packed).length = 26 := by
  simp [sharedFields, length_bytes]

/-- The directory header of a file is read as its entry. -/
theorem Entry.read_directoryRecord {data : ByteArray} {file : NewFile} {position offset : Nat}
    (hfile : file.Readable) (hpacked : file.packed.size < 4294967296)
    (hoffset : offset < 4294967296) (h : Holds data position (file.directoryRecord offset)) :
    Entry.read data 0 position
      = .ok (file.entry offset, position + (file.directoryRecord offset).size) := by
  have hsize : (file.directoryRecord offset).size = 46 + (Utf8.encode file.name).size := by
    simp [NewFile.directoryRecord, length_bytes, NewFile.length_sharedFields]
  have hend := h.size_le
  have hname := h.right.range
  unfold NewFile.directoryRecord at h
  have h := h.left
  simp only [List.append_assoc] at h
  obtain ⟨hmark, h⟩ := h.number (by decide)
  obtain ⟨-, h⟩ := h.number (by decide)
  obtain ⟨hfields, h⟩ := NewFile.fieldsAt_of_holds hfile hpacked h
  obtain ⟨hcomment, h⟩ := h.number (by decide)
  obtain ⟨-, h⟩ := h.number (by decide)
  obtain ⟨-, h⟩ := h.number (by decide)
  obtain ⟨-, h⟩ := h.number (by decide)
  rw [← List.append_nil (bytes 4 offset)] at h
  obtain ⟨hstart, -⟩ := h.number hoffset
  have hflags : field data (position + 8) 2 = .ok file.flags := hfields.flags
  have hmethod : field data (position + 10) 2 = .ok file.method.code := hfields.method
  have hchecksum : field data (position + 16) 4 = .ok (Crc32.checksum file.content).toNat :=
    hfields.checksum
  have hpackedSize : field data (position + 20) 4 = .ok file.packed.size := hfields.packedSize
  have hcontentSize : field data (position + 24) 4 = .ok file.content.size := hfields.size
  have hnameSize : field data (position + 28) 2 = .ok (Utf8.encode file.name).size :=
    hfields.nameSize
  have hextraSize : field data (position + 30) 2 = .ok 0 := hfields.extraSize
  have hcomment : field data (position + 32) 2 = .ok 0 := hcomment
  have hstart : field data (position + 42) 4 = .ok offset := hstart
  have hname : range data (position + 46) (Utf8.encode file.name).size
      = .ok (Utf8.encode file.name) := by
    simpa [length_bytes, NewFile.length_sharedFields] using hname
  have hrest : range data (position + 46 + (Utf8.encode file.name).size) 0
      = .ok ByteArray.empty := by
    rw [range, if_pos (by omega)]
    simp only [Nat.add_zero, ByteArray.extract_same]
  have hplain (entry : Entry) :
      entry.withExtra ByteArray.empty (ByteArray.empty.size + 1) 0 = .ok entry := rfl
  have hmethodPlain : file.method.code ≠ 99 := by cases file.method <;> decide
  have hoffsetSmall : ¬Nat.pow 2 64 ≤ offset := by
    rw [Nat.not_le]
    exact Nat.lt_trans hoffset (by decide)
  simp only [Entry.read, hmark, hflags, hmethod, hchecksum, hpackedSize, hcontentSize, hnameSize,
    hextraSize, hcomment, hstart, hname, hrest, bind, Except.bind, pure, Except.pure, Nat.add_zero,
    ne_eq, not_true_eq_false, if_false, hsize, hplain, hmethodPlain, hoffsetSmall]
  rw [show (if file.flags / 2048 % 2 = 1 then Utf8.decodeLossy (Utf8.encode file.name)
    else decodeCodePage437 (Utf8.encode file.name).toList) = file.name from hfile.named,
    file.isEncrypted_flags, Nat.add_assoc]
  rfl

/-- The entry of a file is opened where its local record stands. -/
theorem Entry.openIn_localRecord {data : ByteArray} {file : NewFile} {offset : Nat}
    (hfile : file.Readable) (hpacked : file.packed.size < 4294967296)
    (h : Holds data offset file.localRecord) :
    (file.entry offset).openIn data
      = .ok { method := file.method, content := .ok file.content } := by
  unfold NewFile.localRecord at h
  have hcontent := h.right.extract
  have h := h.left.left
  rw [← List.append_nil (file.sharedFields file.packed)] at h
  obtain ⟨hmark, h⟩ := h.number (by decide)
  obtain ⟨hfields, -⟩ := NewFile.fieldsAt_of_holds hfile hpacked h
  have hnameSize : field data (offset + 26) 2 = .ok (Utf8.encode file.name).size :=
    hfields.nameSize
  have hextraSize : field data (offset + 28) 2 = .ok 0 := hfields.extraSize
  have hstart : (file.entry offset).contentStart data
      = .ok (offset + 30 + (Utf8.encode file.name).size) := by
    simp [contentStart, NewFile.entry, hmark, hnameSize, hextraSize, bind, Except.bind, pure,
      Except.pure]
  have hcontent : data.extract (offset + 30 + (Utf8.encode file.name).size)
      (offset + 30 + (Utf8.encode file.name).size + file.packed.size) = file.packed := by
    simpa [length_bytes, NewFile.length_sharedFields, Nat.add_assoc] using hcontent
  have hmethod : Method.ofCode? (file.entry offset).method = some file.method :=
    Method.ofCode?_code file.method
  have hplain : (file.entry offset).isEncrypted = false := rfl
  simp only [openIn, hplain, hstart, hmethod, bind, Except.bind, pure, Except.pure]
  simp [NewFile.entry, hcontent, hfile.unpacked]

/-- The local records of files in order. -/
def localRecords : List NewFile → ByteArray
  | [] => ByteArray.empty
  | file :: rest => file.localRecord ++ localRecords rest

/-- The directory headers of files in order, the local records of which start at an offset. -/
def directoryRecords : Nat → List NewFile → ByteArray
  | _, [] => ByteArray.empty
  | offset, file :: rest =>
      file.directoryRecord offset ++ directoryRecords (offset + file.localRecord.size) rest

/-- The entries of files in order, the local records of which start at an offset. -/
def entriesFrom : Nat → List NewFile → List Entry
  | _, [] => []
  | offset, file :: rest => file.entry offset :: entriesFrom (offset + file.localRecord.size) rest

theorem writeOnto_eq (body directory : ByteArray) (files : List NewFile) :
    writeOnto body directory files
      = (body ++ localRecords files, directory ++ directoryRecords body.size files) := by
  induction files generalizing body directory with
  | nil => simp [writeOnto, localRecords, directoryRecords]
  | cons file rest ih =>
    rw [writeOnto, ih, localRecords, directoryRecords]
    simp only [ByteArray.append_assoc, ByteArray.size_append]

theorem packed_size_le (file : NewFile) : file.packed.size ≤ file.localRecord.size := by
  simp [NewFile.localRecord]

theorem readEntries_directoryRecords {data : ByteArray} {files : List NewFile}
    (hfiles : ∀ file ∈ files, file.Readable) {offset position : Nat} (done : List Entry)
    (hfits : offset + (localRecords files).size < 4294967296)
    (h : Holds data position (directoryRecords offset files)) :
    readEntries data 0 files.length position done
      = .ok (done.reverse ++ entriesFrom offset files) := by
  induction files generalizing offset position done with
  | nil => simp [readEntries, entriesFrom]
  | cons file rest ih =>
    rw [localRecords, ByteArray.size_append] at hfits
    have hpacked := packed_size_le file
    rw [directoryRecords] at h
    have hread := Entry.read_directoryRecord (hfiles file List.mem_cons_self) (by omega)
      (by omega) h.left
    rw [List.length_cons, readEntries, hread]
    dsimp only
    rw [ih (fun f hf => hfiles f (List.mem_cons_of_mem _ hf)) _ (by omega) h.right, entriesFrom]
    simp

theorem open_entriesFrom {data : ByteArray} {files : List NewFile}
    (hfiles : ∀ file ∈ files, file.Readable) {offset : Nat}
    (hfits : offset + (localRecords files).size < 4294967296)
    (h : Holds data offset (localRecords files)) :
    (entriesFrom offset files).map
        (fun entry => ({ name := entry.name, opened := entry.openIn data } : Member))
      = files.map NewFile.toMember := by
  induction files generalizing offset with
  | nil => rfl
  | cons file rest ih =>
    rw [localRecords, ByteArray.size_append] at hfits
    have hpacked := packed_size_le file
    rw [localRecords] at h
    rw [entriesFrom, List.map_cons, List.map_cons,
      ih (fun f hf => hfiles f (List.mem_cons_of_mem _ hf)) (by omega) h.right,
      Entry.openIn_localRecord (hfiles file List.mem_cons_self) (by omega) h.left]
    rfl

theorem write_eq (files : List NewFile) :
    write files = localRecords files ++ directoryRecords 0 files
      ++ (bytes 4 endMark ++ bytes 2 0 ++ bytes 2 0 ++ bytes 2 files.length
        ++ bytes 2 files.length ++ bytes 4 (directoryRecords 0 files).size
        ++ bytes 4 (localRecords files).size ++ bytes 2 0).toByteArray := by
  simp [write, writeOnto_eq]

theorem size_write (files : List NewFile) :
    (write files).size = (localRecords files).size + (directoryRecords 0 files).size + 22 := by
  simp [write_eq, length_bytes]

/-- The end record of a written archive stands at its end, and is read from there. -/
theorem EndRecord.read_write {files : List NewFile} (hcount : files.length < 65535)
    (hsize : (write files).size < 4294967295) {position : Nat}
    (hposition : position = (localRecords files).size + (directoryRecords 0 files).size) :
    field (write files) position 4 = .ok endMark ∧
      EndRecord.read (write files) position
        = .ok { position, disk := 0, directoryDisk := 0, countHere := files.length,
                count := files.length, directorySize := (directoryRecords 0 files).size,
                directoryOffset := (localRecords files).size, commentLength := 0 } := by
  have htotal := size_write files
  have h : Holds (write files) position _ :=
    ⟨_, ByteArray.empty, (write_eq files).trans ByteArray.append_empty.symm, by
      rw [hposition, ByteArray.size_append]⟩
  simp only [List.append_assoc] at h
  obtain ⟨hend, h⟩ := h.number (by decide)
  obtain ⟨hdisk, h⟩ := h.number (by decide)
  obtain ⟨hdirectoryDisk, h⟩ := h.number (by decide)
  obtain ⟨hcountHere, h⟩ := h.number (Nat.lt_trans hcount (by decide))
  obtain ⟨hcountAll, h⟩ := h.number (Nat.lt_trans hcount (by decide))
  obtain ⟨hdirectorySize, h⟩ :=
    h.number (show (directoryRecords 0 files).size < 4294967296 by omega)
  obtain ⟨hdirectoryOffset, h⟩ := h.number (show (localRecords files).size < 4294967296 by omega)
  rw [← List.append_nil (bytes 2 0)] at h
  obtain ⟨hcomment, -⟩ := h.number (by decide)
  have hdirectoryDisk : field (write files) (position + 6) 2 = .ok 0 := hdirectoryDisk
  have hcountHere : field (write files) (position + 8) 2 = .ok files.length := hcountHere
  have hcountAll : field (write files) (position + 10) 2 = .ok files.length := hcountAll
  have hdirectorySize : field (write files) (position + 12) 4
      = .ok (directoryRecords 0 files).size := hdirectorySize
  have hdirectoryOffset : field (write files) (position + 16) 4 = .ok (localRecords files).size :=
    hdirectoryOffset
  have hcomment : field (write files) (position + 20) 2 = .ok 0 := hcomment
  have hnone : range (write files) (position + 22) 0 = .ok ByteArray.empty := by
    rw [range, if_pos (by omega)]
    simp only [Nat.add_zero, ByteArray.extract_same]
  refine ⟨hend, ?_⟩
  simp only [EndRecord.read, hdisk, hdirectoryDisk, hcountHere, hcountAll, hdirectorySize,
    hdirectoryOffset, hcomment, hnone, bind, Except.bind, pure, Except.pure]

/-- The end record of a written archive is found at once, and the directory stands where it says,
unless the bytes in front of it are taken for the mark of a wide end record. -/
theorem Layout.read_write {files : List NewFile} (hcount : files.length < 65535)
    (hsize : (write files).size < 4294967295)
    (hmark : numberAt? (write files) ((write files).size - 42) 4 ≠ some wideLocatorMark) :
    Layout.read (write files)
      = .ok { start := (localRecords files).size, count := files.length, shift := 0 } := by
  have htotal := size_write files
  generalize hposition : (write files).size - 22 = position
  have hplace : position = (localRecords files).size + (directoryRecords 0 files).size := by omega
  obtain ⟨hend, hrecord⟩ := EndRecord.read_write hcount hsize hplace
  have hfound : findEnd (write files) 0xFFFF position = some position := by
    unfold field at hend
    unfold findEnd
    split at hend
    next n hn =>
      cases hend
      rw [if_pos hn]
    next => cases hend
  have hlarge : ¬(write files).size < 22 := by omega
  have hbounds : ¬position < (directoryRecords 0 files).size + (localRecords files).size := by
    omega
  have hshift : position - (directoryRecords 0 files).size - (localRecords files).size = 0 := by
    omega
  simp only [Layout.read, if_neg hlarge, hposition, hfound, hrecord, bind, Except.bind, pure,
    Except.pure]
  simp [hmark, hbounds, hshift]

/-- What was written is read back. -/
theorem read_write {files : List NewFile} (hfiles : ∀ file ∈ files, file.Readable)
    (hcount : files.length < 65535) (hsize : (write files).size < 4294967295)
    (hmark : numberAt? (write files) ((write files).size - 42) 4 ≠ some wideLocatorMark) :
    read (write files) = .ok (files.map NewFile.toMember) := by
  have hlocal : Holds (write files) 0 (localRecords files) :=
    ⟨ByteArray.empty, _, by rw [write_eq, ByteArray.empty_append, ByteArray.append_assoc], rfl⟩
  have hdirectory : Holds (write files) (localRecords files).size (directoryRecords 0 files) :=
    ⟨localRecords files, _, write_eq files, rfl⟩
  have hfits : 0 + (localRecords files).size < 4294967296 := by
    have hle := hlocal.size_le
    omega
  rw [read, readDirectory, Layout.read_write hcount hsize hmark]
  simp only [bind, Except.bind, readEntries_directoryRecords hfiles [] hfits hdirectory,
    List.reverse_nil, List.nil_append, open_entriesFrom hfiles hfits hlocal, pure, Except.pure]

end SdkEvidence.Zip
