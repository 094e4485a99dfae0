import Mathlib.Algebra.Ring.Nat
import IndexKeeper.Archive.Packing
import IndexKeeper.Proofs.DecodedTexts

set_option autoImplicit false

namespace IndexKeeper.Archive

section Fields

theorem fields_append (front back : List (Nat × Nat)) : fields (front ++ back) = fields front ++ fields back :=
  List.flatMap_append

theorem fields_nil : fields [] = [] := rfl

theorem fields_cons (width value : Nat) (rest : List (Nat × Nat)) :
    fields ((width, value) :: rest) = numberBytes width value ++ fields rest := rfl

theorem fields_length (values : List (Nat × Nat)) : (fields values).length = (values.map Prod.fst).sum := by
  induction values with
  | nil => rfl
  | cons field rest ih =>
      obtain ⟨width, value⟩ := field
      rw [fields_cons, List.length_append, number_bytes_length, ih, List.map_cons, List.sum_cons]

theorem number_at_skip (before bytes : Bytes) (offset width : Nat) :
    numberAt (before ++ bytes) (before.length + offset) width = numberAt bytes offset width := by
  rw [numberAt, numberAt, List.drop_append, List.drop_eq_nil_of_le (Nat.le_add_right _ _), List.nil_append,
    Nat.add_sub_cancel_left]

theorem number_at_start (after : Bytes) (width value : Nat) (fits : value < Nat.pow 256 width) :
    numberAt (numberBytes width value ++ after) 0 width = value := by
  rw [numberAt, List.drop_zero, List.take_left' (number_bytes_length width value), number_number_bytes width value fits]

theorem number_at_field (signature after : Bytes) (values : List (Nat × Nat)) (widths : List Nat)
    (wide : values.map Prod.fst = widths) (n place : Nat) {width value : Nat}
    (listed : values[n]? = some (width, value)) (fits : value < Nat.pow 256 width)
    (here : place = signature.length + (widths.take n).sum) :
    numberAt (signature ++ (fields values ++ after)) place width = value := by
  obtain ⟨within, same⟩ := List.getElem?_eq_some_iff.mp listed
  have split : fields values = fields (values.take n) ++ (numberBytes width value ++ fields (values.drop (n + 1))) := by
    rw [← fields_cons, ← fields_append, ← same, List.getElem_cons_drop, List.take_append_drop]
  rw [here, ← wide, ← List.map_take, number_at_skip, split, List.append_assoc, ← fields_length,
    ← Nat.add_zero (fields _).length, number_at_skip, List.append_assoc, number_at_start _ _ _ fits]

theorem take_number (width value : Nat) (rest : Bytes) (fits : value < Nat.pow 256 width) :
    takeNumber? width (numberBytes width value ++ rest) = some (value, rest) := by
  have length := number_bytes_length width value
  simp [takeNumber?, split?, length, List.take_left' length, List.drop_left' length, number_number_bytes width value fits]

theorem take_last_number (width value : Nat) (fits : value < Nat.pow 256 width) :
    takeNumber? width (numberBytes width value) = some (value, []) := by
  simpa using take_number width value [] fits

theorem split_append (front rest : Bytes) : split? front.length (front ++ rest) = some (front, rest) := by
  simp [split?]

end Fields

section Records

structure Member.Packable (m : Member) : Prop where
  name : m.nameBytes.length < 65536
  method : m.method < 65536
  readable : m.method ≠ 99

def Member.entry (m : Member) (offset : Nat) : Record where
  name := m.name
  rawName := m.nameBytes
  comment := ""
  encrypted := m.encrypted
  sealed := false
  method := m.method
  checksum := Crc32.checksum m.data
  size := m.data.length
  packedSize := m.data.length
  offset := offset

def listing (offset : Nat) : List Member → List Record
  | [] => []
  | m :: rest => m.entry offset :: listing (offset + m.localRecord.length) rest

theorem extra_end (fuel : Nat) (r : Record) : extraFields fuel r [] = some r := by
  cases fuel <;> rfl

theorem wide_sizes_read (r : Record) (size packedSize offset : Nat) (fits : size < Nat.pow 256 8)
    (packedFits : packedSize < Nat.pow 256 8) (offsetFits : offset < Nat.pow 256 8)
    (narrow : r.size = Nat.min size thresholdOfSize) (packedNarrow : r.packedSize = Nat.min packedSize thresholdOfSize)
    (offsetNarrow : r.offset = Nat.min offset thresholdOfSize) :
    let wide := [size, packedSize, offset].filter fun value => decide (thresholdOfSize ≤ value)
    wideSizes r (8 * wide.length) (fields (wide.map fun value => (8, value))) =
      .next { r with size := size, packedSize := packedSize, offset := offset } [] := by
  have exact (value : Nat) (small : ¬ thresholdOfSize ≤ value) : Nat.min value thresholdOfSize = value :=
    Nat.min_eq_left (by omega)
  have other (value : Nat) (small : ¬ thresholdOfSize ≤ value) : value ≠ thresholdOfSize := by omega
  obtain ⟨name, rawName, comment, encrypted, sealed, method, checksum, _, _, _⟩ := r
  dsimp only at narrow packedNarrow offsetNarrow
  subst narrow packedNarrow offsetNarrow
  by_cases first : thresholdOfSize ≤ size <;> by_cases second : thresholdOfSize ≤ packedSize <;>
    by_cases third : thresholdOfSize ≤ offset <;>
    simp [first, second, third, exact, other, wideSizes, fields_cons, fields_nil, take_number,
      take_last_number, fits, packedFits, offsetFits, split?]

theorem extra_read (r : Record) (size packedSize offset : Nat) (fits : size < Nat.pow 256 8)
    (packedFits : packedSize < Nat.pow 256 8) (offsetFits : offset < Nat.pow 256 8)
    (narrow : r.size = Nat.min size thresholdOfSize) (packedNarrow : r.packedSize = Nat.min packedSize thresholdOfSize)
    (offsetNarrow : r.offset = Nat.min offset thresholdOfSize) :
    extraFields (wideField [size, packedSize, offset]).length r (wideField [size, packedSize, offset]) =
      some { r with size := size, packedSize := packedSize, offset := offset } := by
  have wide := wide_sizes_read r size packedSize offset fits packedFits offsetFits narrow packedNarrow offsetNarrow
  have few := List.length_filter_le (fun value => decide (thresholdOfSize ≤ value)) [size, packedSize, offset]
  rw [wideField]
  cases values : [size, packedSize, offset].filter (fun value => decide (thresholdOfSize ≤ value)) with
  | nil =>
      have exact (value : Nat) (listed : value ∈ [size, packedSize, offset]) : Nat.min value thresholdOfSize = value := by
        have small := List.filter_eq_nil_iff.mp values value listed
        exact Nat.min_eq_left (by simpa using Nat.le_of_lt (by simpa using small))
      rw [exact _ (by simp)] at narrow packedNarrow offsetNarrow
      rw [← narrow, ← packedNarrow, ← offsetNarrow]
      rfl
  | cons value rest =>
      rw [values] at wide few
      have length : 8 * (value :: rest).length < Nat.pow 256 2 :=
        Nat.lt_of_le_of_lt (Nat.mul_le_mul_left 8 few) (by simp)
      have step : extraField r (fields ((2, 1) :: (2, 8 * (value :: rest).length) ::
          (value :: rest).map fun value => (8, value))) =
          .next { r with size := size, packedSize := packedSize, offset := offset } [] := by
        rw [fields_cons, fields_cons, extraField, take_number _ _ _ (by decide)]
        dsimp only
        rw [take_number _ _ _ length]
        exact wide
      rw [if_neg (by simp), fields_length, List.map_cons, List.sum_cons, Nat.add_comm 2, extraFields, step,
        if_neg (by simp [fields_cons, numberBytes])]
      exact extra_end _ _

theorem central_signature_length : centralSignature.length = 4 := rfl

def Member.centralFields (m : Member) (offset : Nat) : List (Nat × Nat) :=
  let version := versionFor (m.centralExtra offset)
  (2, version) :: (2, version) :: m.description (m.centralExtra offset) ++
    [(2, 0), (2, 0), (2, 0), (4, 0), (4, Nat.min offset thresholdOfSize)]

theorem central_record_fields (m : Member) (offset : Nat) (rest : Bytes) :
    m.centralRecord offset ++ rest = centralSignature ++ (fields (m.centralFields offset) ++
      (m.nameBytes ++ (m.centralExtra offset ++ rest))) := by
  simp [Member.centralRecord, Member.centralFields]

theorem narrow_fits (value : Nat) : Nat.min value thresholdOfSize < Nat.pow 256 4 :=
  Nat.lt_of_le_of_lt (Nat.min_le_right _ _) (by decide)

theorem wide_field_length (values : List Nat) : (wideField values).length ≤ 4 + 8 * values.length := by
  have few := List.length_filter_le (fun value => decide (thresholdOfSize ≤ value)) values
  have widths (wide : List Nat) : ((wide.map fun value => (8, value)).map Prod.fst).sum = 8 * wide.length := by
    simp [Function.comp_def, Nat.mul_comm]
  rw [wideField]
  split
  · exact Nat.zero_le _
  · rw [fields_length, List.map_cons, List.map_cons, List.sum_cons, List.sum_cons, widths]
    omega

theorem checksum_fits (data : Bytes) : (Crc32.checksum data).toNat < Nat.pow 256 4 :=
  Nat.lt_of_lt_of_eq (UInt32.toNat_lt _) (by decide)

theorem flags_fit (m : Member) : m.flags < Nat.pow 256 2 := by
  unfold Member.flags
  split <;> decide

theorem flags_utf8 (m : Member) : m.flags.testBit 11 = true := by
  unfold Member.flags
  split <;> decide

theorem flags_encrypted (m : Member) : m.flags.testBit 0 = m.encrypted := by
  unfold Member.flags
  cases m.encrypted <;> decide

def centralWidths : List Nat := [2, 2, 2, 2, 2, 2, 4, 4, 4, 2, 2, 2, 2, 2, 4, 4]

theorem central_widths (m : Member) (offset : Nat) : (m.centralFields offset).map Prod.fst = centralWidths := rfl

theorem record_read (m : Member) (packable : m.Packable) (offset start : Nat) (rest : Bytes) (before : offset < start)
    (fits : m.data.length < Nat.pow 256 8) (offsetFits : offset < Nat.pow 256 8) :
    record? 0 start (m.centralRecord offset ++ rest) = some (m.entry offset, rest) := by
  rw [central_record_fields]
  have number (n place : Nat) {width value : Nat} (listed : (m.centralFields offset)[n]? = some (width, value))
      (fits : value < Nat.pow 256 width) (here : place = centralSignature.length + (centralWidths.take n).sum) :=
    number_at_field centralSignature (m.nameBytes ++ (m.centralExtra offset ++ rest)) (m.centralFields offset)
      centralWidths (central_widths m offset) n place listed fits here
  have extraFits : (m.centralExtra offset).length < Nat.pow 256 2 :=
    Nat.lt_of_le_of_lt (wide_field_length _) (by simp)
  have flags := number 2 8 rfl (flags_fit m) (by decide)
  have method := number 3 10 rfl packable.method (by decide)
  have checksum := number 6 16 rfl (checksum_fits m.data) (by decide)
  have packedSize := number 7 20 rfl (narrow_fits _) (by decide)
  have size := number 8 24 rfl (narrow_fits _) (by decide)
  have nameLength := number 9 28 rfl packable.name (by decide)
  have extraLength := number 10 30 rfl extraFits (by decide)
  have commentLength := number 11 32 rfl (by simp) (by decide)
  have place := number 15 42 rfl (narrow_fits _) (by decide)
  have front : (centralSignature ++ fields (m.centralFields offset)).length = 46 := by
    rw [List.length_append, fields_length, central_widths]
    decide
  have behind : (centralSignature ++ (fields (m.centralFields offset) ++
      (m.nameBytes ++ (m.centralExtra offset ++ rest)))).drop 46 = m.nameBytes ++ (m.centralExtra offset ++ rest) := by
    rw [← List.append_assoc, List.drop_left' front]
  have long : ¬ (centralSignature ++ (fields (m.centralFields offset) ++
      (m.nameBytes ++ (m.centralExtra offset ++ rest)))).length < 46 := by
    rw [← List.append_assoc, List.length_append, front]
    omega
  have signed : (centralSignature ++ (fields (m.centralFields offset) ++
      (m.nameBytes ++ (m.centralExtra offset ++ rest)))).take 4 = centralSignature :=
    List.take_left' central_signature_length
  generalize centralSignature ++ (fields (m.centralFields offset) ++ (m.nameBytes ++ (m.centralExtra offset ++ rest))) =
    bytes at *
  clear number front
  have extra := extra_read ⟨m.name, m.nameBytes, "", m.encrypted, false, m.method, Crc32.checksum m.data,
    Nat.min m.data.length thresholdOfSize, Nat.min m.data.length thresholdOfSize, Nat.min offset thresholdOfSize⟩
    m.data.length m.data.length offset fits fits offsetFits rfl rfl rfl
  have nothing : Utf8.decodeLossy [] = "" := rfl
  have known : Utf8.decodeLossy m.nameBytes = m.name := Utf8.decode_of_text m.name
  have first (bytes : Bytes) : split? 0 bytes = some ([], bytes) := by simp [split?]
  unfold record?
  simp only [flags, method, checksum, packedSize, size, nameLength, extraLength, commentLength, place, long, signed,
    flags_utf8, flags_encrypted, behind, split_append, first, nothing, known, UInt32.ofNat_toNat, if_true, ne_eq,
    not_true_eq_false, or_self, if_false, Option.bind_eq_bind, Option.bind_some]
  rw [Member.centralExtra, extra]
  simp only [Option.bind_some, packable.readable, false_and, if_false, Nat.add_zero, Nat.not_le.mpr before]
  rfl

def Member.header (m : Member) : Bytes :=
  localSignature ++ (fields ((2, versionFor m.localExtra) :: m.description m.localExtra) ++
    (m.nameBytes ++ m.localExtra))

theorem local_record_header (m : Member) : m.localRecord = m.header ++ m.data := by
  simp [Member.localRecord, Member.header]

def localWidths : List Nat := [2, 2, 2, 2, 2, 4, 4, 4, 2, 2]

theorem local_widths (m : Member) :
    ((2, versionFor m.localExtra) :: m.description m.localExtra).map Prod.fst = localWidths := rfl

theorem header_length (m : Member) : m.header.length = 30 + m.nameBytes.length + m.localExtra.length := by
  have front : localSignature.length + localWidths.sum = 30 := by decide
  rw [Member.header, List.length_append, List.length_append, List.length_append, fields_length, local_widths]
  omega

theorem local_record_length (m : Member) : 30 + m.data.length ≤ m.localRecord.length := by
  rw [local_record_header, List.length_append, header_length]
  omega

theorem central_record_length (m : Member) (offset : Nat) : 46 ≤ (m.centralRecord offset).length := by
  have record := central_record_fields m offset []
  rw [List.append_nil] at record
  rw [record, List.length_append, List.length_append, fields_length, central_widths]
  exact Nat.le_trans (by decide) (Nat.add_le_add_left (Nat.le_add_right _ _) _)

theorem records_read (members : List Member) (packable : ∀ m ∈ members, m.Packable) (offset start : Nat) (rest : Bytes)
    (within : offset + (localRecords members).length ≤ start) (fits : start < Nat.pow 256 8) :
    records? 0 start members.length (centralRecords offset members ++ rest) = some (listing offset members) := by
  -- Each header stands before the directory, so the offsets only grow.
  induction members generalizing offset with
  | nil => rfl
  | cons m members ih =>
      have sum : (localRecords (m :: members)).length = m.localRecord.length + (localRecords members).length := by
        simp [localRecords]
      have least := local_record_length m
      rw [sum] at within
      have first := record_read m (packable m List.mem_cons_self) offset start
        (centralRecords (offset + m.localRecord.length) members ++ rest) (by omega) (by omega) (by omega)
      have others := ih (fun e member => packable e (List.mem_cons_of_mem _ member)) (offset + m.localRecord.length)
        (by omega)
      rw [centralRecords, List.append_assoc, List.length_cons, records?, first]
      dsimp only
      rw [others]
      rfl

theorem listing_names (offset : Nat) (members : List Member) :
    (listing offset members).map Record.name = members.map Member.name := by
  induction members generalizing offset with
  | nil => rfl
  | cons m members ih => rw [listing, List.map_cons, List.map_cons, ih]; rfl

theorem placed_distinct (before records : List Record) (distinct : ((before ++ records).map Record.name).Nodup) :
    records.foldl place before = before ++ records := by
  induction records generalizing before with
  | nil => simp
  | cons r records ih =>
      have fresh : (before.any fun e => e.name == r.name) = false := by
        rw [List.any_eq_false]
        intro e member
        rw [List.map_append, List.nodup_append] at distinct
        have other := distinct.2.2 _ (List.mem_map_of_mem member) _ (List.mem_map_of_mem List.mem_cons_self)
        simpa using other
      have added : place before r = before ++ [r] := by rw [place, fresh]; rfl
      rw [List.foldl_cons, added, ih _ (by simpa using distinct), List.append_assoc, List.singleton_append]

end Records

section Locating

variable (signature : Bytes) (stop : Nat)

theorem go_after (offset : Nat) (bytes : Bytes) : ∀ n ∈ occurrences.go signature stop offset bytes, offset ≤ n := by
  induction bytes generalizing offset with
  | nil => simp [occurrences.go]
  | cons b rest ih =>
      intro n member
      rw [occurrences.go] at member
      split at member
      · rcases List.mem_cons.mp member with rfl | later
        · exact Nat.le_refl _
        · exact Nat.le_of_succ_le (ih (offset + 1) n later)
      · exact Nat.le_of_succ_le (ih (offset + 1) n member)

theorem go_here (offset : Nat) (bytes : Bytes) (filled : signature ≠ []) (signed : signature <+: bytes)
    (within : offset + signature.length ≤ stop) :
    occurrences.go signature stop offset bytes = offset :: occurrences.go signature stop (offset + 1) bytes.tail := by
  cases bytes with
  | nil => exact absurd (List.prefix_nil.mp signed) filled
  | cons b rest =>
      rw [occurrences.go, if_pos]
      · rfl
      · rw [List.isPrefixOf_iff_prefix.mpr signed, decide_eq_true within]
        rfl

theorem go_behind (offset : Nat) (front back : Bytes) :
    ∃ earlier, occurrences.go signature stop offset (front ++ back) =
      earlier ++ occurrences.go signature stop (offset + front.length) back := by
  induction front generalizing offset with
  | nil => exact ⟨[], rfl⟩
  | cons b front ih =>
      obtain ⟨earlier, split⟩ := ih (offset + 1)
      rw [List.length_cons, Nat.add_comm front.length 1, ← Nat.add_assoc, List.cons_append, occurrences.go, split]
      split
      · exact ⟨offset :: earlier, rfl⟩
      · exact ⟨earlier, rfl⟩

theorem first_occurrence (front back : Bytes) (filled : signature ≠ []) (signed : signature <+: back)
    (within : front.length + signature.length ≤ stop) :
    ∃ later, occurrences signature (front ++ back) front.length stop = front.length :: later := by
  rw [occurrences, List.drop_left]
  exact ⟨_, go_here signature stop front.length back filled signed within⟩

theorem large_end_length (count size offset : Nat) : (largeEndRecord count size offset).length = 56 := by
  simp [largeEndRecord, largeEndSignature, fields_length]

theorem large_locator_length (offset : Nat) : (largeLocator offset).length = 20 := by
  simp [largeLocator, largeLocatorSignature, fields_length]

theorem end_record_length (count size offset : Nat) : (endRecord count size offset).length = 22 := by
  simp [endRecord, endSignature, fields_length]

def largeWidths : List Nat := [8, 2, 2, 4, 4, 8, 8, 8, 8]

theorem large_located (body rest : Bytes) (count size offset : Nat) (room : count * 46 + offset ≤ body.length)
    (fits : body.length < Nat.pow 256 8) :
    locateLarge? (body ++ (largeEndRecord count size offset ++ (largeLocator body.length ++ rest)))
      (body.length + 56 + 20) = some (some ⟨0, offset, count, 0, 0⟩) := by
  have large (n place : Nat) {width value : Nat} (listed : ([(8, 44), (2, 45), (2, 45), (4, 0), (4, 0), (8, count),
      (8, count), (8, size), (8, offset)] : List (Nat × Nat))[n]? = some (width, value))
      (fits : value < Nat.pow 256 width) (here : place = largeEndSignature.length + (largeWidths.take n).sum) :
      numberAt (body ++ (largeEndRecord count size offset ++ (largeLocator body.length ++ rest))) (body.length + place)
        width = value := by
    rw [number_at_skip, largeEndRecord, List.append_assoc]
    exact number_at_field _ _ _ largeWidths rfl n place listed fits here
  have front : (body ++ largeEndRecord count size offset).length = body.length + 56 := by
    rw [List.length_append, large_end_length]
  have locator (n place : Nat) {width value : Nat}
      (listed : ([(4, 0), (8, body.length), (4, 1)] : List (Nat × Nat))[n]? = some (width, value))
      (fits : value < Nat.pow 256 width) (here : place = largeLocatorSignature.length + (([4, 8, 4] : List Nat).take n).sum) :
      numberAt (body ++ (largeEndRecord count size offset ++ (largeLocator body.length ++ rest)))
        (body.length + 56 + place) width = value := by
    rw [← List.append_assoc, ← front, number_at_skip, largeLocator, List.append_assoc]
    exact number_at_field _ _ _ [4, 8, 4] rfl n place listed fits here
  have zero (width : Nat) : 0 < Nat.pow 256 width := Nat.pow_pos (by decide)
  have recordSize := large 0 4 rfl (by simp) (by decide)
  have made := large 1 12 rfl (by simp) (by decide)
  have needed := large 2 14 rfl (by simp) (by decide)
  have disk := large 3 16 rfl (zero 4) (by decide)
  have directoryDisk := large 4 20 rfl (zero 4) (by decide)
  have countHere := large 5 24 rfl (by omega) (by decide)
  have total := large 6 32 rfl (by omega) (by decide)
  have start := large 8 48 rfl (by omega) (by decide)
  have locatorDisk := locator 0 4 rfl (zero 4) (by decide)
  have relative := locator 1 8 rfl fits (by decide)
  have disks := locator 2 16 rfl (by simp) (by decide)
  have signed : ((body ++ (largeEndRecord count size offset ++ (largeLocator body.length ++ rest))).drop
      (body.length + 56)).take 4 = largeLocatorSignature := by
    rw [← List.append_assoc, List.drop_left' front, largeLocator, List.append_assoc]
    rfl
  have long : body.length + 56 ≤
      (body ++ (largeEndRecord count size offset ++ (largeLocator body.length ++ rest))).length := by
    rw [← List.append_assoc, List.length_append, front]
    omega
  obtain ⟨later, found⟩ := first_occurrence largeEndSignature (body.length + 56) body
    (largeEndRecord count size offset ++ (largeLocator body.length ++ rest)) (by decide)
    ⟨_, (List.append_assoc _ _ _).symm⟩ (by simp [largeEndSignature])
  generalize body ++ (largeEndRecord count size offset ++ (largeLocator body.length ++ rest)) = bytes at *
  clear large locator
  unfold locateLarge?
  simp only [Nat.add_sub_cancel, signed, relative, disks, found, List.findSome?_cons, recordSize, made, needed, disk,
    directoryDisk, countHere, total, start, locatorDisk]
  rw [if_neg (by simp), if_neg (by omega), if_neg (by omega), Nat.sub_self, Nat.add_zero]

def endWidths : List Nat := [2, 2, 2, 2, 4, 4, 2]

section Closed

variable (count : Nat) (files directory : Bytes)

def endOffset : Nat := (files ++ directory ++ largeEnding count directory.length files.length).length

theorem end_number (n place : Nat) {width value : Nat} (listed : ([(2, 0), (2, 0), (2, Nat.min count thresholdOfEntries),
    (2, Nat.min count thresholdOfEntries), (4, Nat.min directory.length thresholdOfSize),
    (4, Nat.min files.length thresholdOfSize), (2, 0)] : List (Nat × Nat))[n]? = some (width, value))
    (fits : value < Nat.pow 256 width) (here : place = endSignature.length + (endWidths.take n).sum) :
    numberAt (closed count files directory) (endOffset count files directory + place) width = value := by
  rw [endOffset, closed, number_at_skip, endRecord, ← List.append_nil (fields _)]
  exact number_at_field _ _ _ endWidths rfl n place listed fits here

theorem closed_length : (closed count files directory).length = endOffset count files directory + 22 := by
  rw [closed, endOffset, List.length_append, end_record_length]

theorem located (room : count * 46 ≤ directory.length) (signed : 0 < count → centralSignature <+: directory)
    (empty : count = 0 → files = [] ∧ directory = []) (fits : files.length + directory.length < Nat.pow 256 8) :
    locate? (closed count files directory) (endOffset count files directory) = some ⟨0, files.length, count, 0, 0⟩ := by
  have few : Nat.min count thresholdOfEntries < Nat.pow 256 2 := Nat.lt_of_le_of_lt (Nat.min_le_right _ _) (by decide)
  have disk := end_number count files directory 0 4 rfl (by simp) (by decide)
  have directoryDisk := end_number count files directory 1 6 rfl (by simp) (by decide)
  have countHere := end_number count files directory 2 8 rfl few (by decide)
  have total := end_number count files directory 3 10 rfl few (by decide)
  have relative := end_number count files directory 5 16 rfl (narrow_fits _) (by decide)
  have comment := end_number count files directory 6 20 rfl (by simp) (by decide)
  have sum : (files ++ directory).length = files.length + directory.length := List.length_append
  unfold locate?
  simp only [disk, directoryDisk, countHere, total, relative, comment, closed_length, Nat.add_zero, Nat.lt_irrefl,
    if_false]
  by_cases wide : thresholdOfEntries ≤ count ∨ thresholdOfSize ≤ files.length
  · have shape : largeEnding count directory.length files.length = largeEndRecord count directory.length files.length ++
        largeLocator (files ++ directory).length := by
      rw [largeEnding, if_pos (wide.imp_right .inr), sum]
    have saturated : Nat.min count thresholdOfEntries = thresholdOfEntries ∨
        Nat.min files.length thresholdOfSize = thresholdOfSize := wide.imp Nat.min_eq_right Nat.min_eq_right
    have place : endOffset count files directory = (files ++ directory).length + 56 + 20 := by
      simp only [endOffset, shape, List.length_append, large_end_length, large_locator_length]
    have whole : closed count files directory = files ++ directory ++ (largeEndRecord count directory.length files.length ++
        (largeLocator (files ++ directory).length ++ endRecord count directory.length files.length)) := by
      rw [closed, shape]
      simp only [List.append_assoc]
    have large := large_located (files ++ directory) (endRecord count directory.length files.length) count
      directory.length files.length (by omega) (by rwa [sum])
    rw [if_pos saturated, place, whole, large]
  · obtain ⟨small, near⟩ := not_or.mp wide
    have countSame : Nat.min count thresholdOfEntries = count := Nat.min_eq_left (by omega)
    have startSame : Nat.min files.length thresholdOfSize = files.length := Nat.min_eq_left (by omega)
    have behind : files.length + directory.length ≤ endOffset count files directory := by
      rw [endOffset, List.length_append, sum]
      exact Nat.le_add_right _ _
    rw [countSame, startSame, if_neg (by omega)]
    dsimp only
    by_cases none : count = 0
    · obtain ⟨rfl, rfl⟩ := empty none
      have start : endOffset count [] [] = 0 := by rw [none]; rfl
      rw [if_pos none, start]
      rfl
    · have filled : 0 < count := Nat.pos_of_ne_zero none
      have whole : closed count files directory = files ++ (directory ++
          (largeEnding count directory.length files.length ++ endRecord count directory.length files.length)) := by
        rw [closed]
        simp only [List.append_assoc]
      obtain ⟨later, found⟩ := first_occurrence centralSignature (endOffset count files directory) files _ (by decide)
        ((signed filled).trans (List.prefix_append directory _)) (by rw [central_signature_length]; omega)
      rw [if_neg none, if_neg (by omega), whole, found]
      simp

-- Behind the end record there is no room for another one, whatever looks like its signature.
theorem no_end_after (offset : Nat) (behind : endOffset count files directory < offset) :
    entriesAt? (closed count files directory) offset = none := by
  have short : (closed count files directory).length < offset + 22 := by
    rw [closed_length]
    omega
  have nowhere : locate? (closed count files directory) offset = none := by
    unfold locate?
    dsimp only
    rw [if_pos (by omega)]
  rw [entriesAt?, nowhere]
  rfl

theorem entries_of_end (entries : List Record)
    (leads : entriesAt? (closed count files directory) (endOffset count files directory) = some entries) :
    entries? (closed count files directory) = some entries := by
  obtain ⟨earlier, split⟩ := go_behind endSignature (closed count files directory).length 0
    (files ++ directory ++ largeEnding count directory.length files.length)
    (endRecord count directory.length files.length)
  have here := go_here endSignature (closed count files directory).length (endOffset count files directory)
    (endRecord count directory.length files.length) (by decide) (List.prefix_append _ _) (by
      rw [closed_length]
      exact Nat.add_le_add_left (by decide) _)
  rw [Nat.zero_add, ← closed, ← endOffset, here] at split
  have after (n : Nat) (member : n ∈ occurrences.go endSignature (closed count files directory).length
      (endOffset count files directory + 1) (endRecord count directory.length files.length).tail) :
      entriesAt? (closed count files directory) n = none :=
    no_end_after count files directory n (go_after _ _ _ _ n member)
  rw [entries?, occurrences, List.drop_zero, split, List.reverse_append, List.reverse_cons, List.findSome?_append,
    List.findSome?_append, List.findSome?_eq_none_iff.mpr fun n member => after n (List.mem_reverse.mp member)]
  simp [leads]

end Closed

end Locating

theorem central_records_length (offset : Nat) (members : List Member) :
    members.length * 46 ≤ (centralRecords offset members).length := by
  induction members generalizing offset with
  | nil => exact Nat.le_refl _
  | cons m members ih =>
      have first := central_record_length m offset
      have others := ih (offset + m.localRecord.length)
      rw [centralRecords, List.length_append, List.length_cons]
      omega

theorem central_records_signed (offset : Nat) (members : List Member) (filled : 0 < members.length) :
    centralSignature <+: centralRecords offset members := by
  cases members with
  | nil => cases filled
  | cons m members =>
      rw [centralRecords, central_record_fields]
      exact List.prefix_append _ _

theorem packed_entries (members : List Member) (distinct : (members.map Member.name).Nodup)
    (packable : ∀ m ∈ members, m.Packable) (fits : (pack members).length < Nat.pow 256 8) :
    entries? (pack members) = some (listing 0 members) := by
  have whole : (pack members).length = endOffset members.length (localRecords members) (centralRecords 0 members) + 22 :=
    closed_length _ _ _
  have within : (localRecords members).length + (centralRecords 0 members).length ≤
      endOffset members.length (localRecords members) (centralRecords 0 members) := by
    rw [endOffset, List.length_append, List.length_append]
    exact Nat.le_add_right _ _
  apply entries_of_end
  have place := located members.length (localRecords members) (centralRecords 0 members) (central_records_length 0 members)
    (central_records_signed 0 members) (fun none => by rw [List.length_eq_zero_iff.mp none]; exact ⟨rfl, rfl⟩) (by omega)
  have records := records_read members packable 0 (localRecords members).length
    (largeEnding members.length (centralRecords 0 members).length (localRecords members).length ++
      endRecord members.length (centralRecords 0 members).length (localRecords members).length)
    (Nat.le_of_eq (Nat.zero_add _)) (by omega)
  have behind : (closed members.length (localRecords members) (centralRecords 0 members)).drop
      (localRecords members).length = centralRecords 0 members ++
        (largeEnding members.length (centralRecords 0 members).length (localRecords members).length ++
          endRecord members.length (centralRecords 0 members).length (localRecords members).length) := by
    simp only [closed, List.append_assoc, List.drop_left]
  have kept := placed_distinct [] (listing 0 members) (by rwa [List.nil_append, listing_names])
  simp [entriesAt?, place, behind, records, kept]

end IndexKeeper.Archive
