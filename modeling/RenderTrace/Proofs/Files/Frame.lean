import Mathlib.Algebra.Group.Nat.Defs
import Mathlib.Data.List.Basic
import RenderTrace.Files.Zstd.Reader

/-!
# Compressed frames read back

The codec of raw and repeated blocks is a lawful one (`codec_lawful`). A frame that gives its size is
read at once. One that gives a window is read block by block, and the invariant of that reading is that
there is always room for one more block.
-/

namespace RenderTrace.Zstd.Blocks

/-! ## Headers -/

theorem ofLittleEndian_toLittleEndian (width : Nat) {n : Nat} (h : n < 256 ^ width) :
    ofLittleEndian (toLittleEndian width n) = n := by
  induction width generalizing n with
  | zero =>
    rw [Nat.pow_zero] at h
    exact (Nat.lt_one_iff.mp h).symm
  | succ width ih =>
    have hdiv : n / 256 < 256 ^ width := by
      rw [Nat.div_lt_iff_lt_mul (by decide), ← Nat.pow_succ]
      exact h
    have hbyte : (UInt8.ofNat (n % 256)).toNat = n % 256 := by
      rw [UInt8.toNat_ofNat', Nat.mod_mod]
    rw [toLittleEndian, ofLittleEndian, List.foldr_cons, ← ofLittleEndian, ih hdiv, hbyte]
    omega

/-- The header of the frames that are written. -/
def writtenHeader : Header := ⟨none, maxBlock, false⟩

theorem readHeader?_written (rest : List UInt8) :
    readHeader? (windowedDescriptor :: blockWindow :: rest) = some (.ok (writtenHeader, rest)) := by
  have hdescriptor : windowedDescriptor.toNat = 0 := rfl
  have hwindow : windowOf (ofLittleEndian [blockWindow]) = maxBlock := rfl
  simp [readHeader?, hdescriptor, hwindow, sizeWidth, dictionaryWidth, writtenHeader]

/-! ## Blocks -/

def rawBlock (last : Bool) (content : List UInt8) : Block := ⟨.raw, last, content.length, content⟩

theorem readBlock?_rawHeader (last : Bool) {content : List UInt8} (rest : List UInt8)
    (h : content.length ≤ maxBlock) :
    readBlock? (rawHeader last content.length ++ (content ++ rest)) =
      some (rawBlock last content, rest) := by
  have hmax : maxBlock = 131072 := rfl
  have hnumber := ofLittleEndian_toLittleEndian 3
    (n := content.length * 8 + if last then 1 else 0) (by split <;> omega)
  rw [rawHeader]
  generalize hn : (content.length * 8 + if last then 1 else 0) = n at hnumber ⊢
  have hkind : n / 2 % 4 = 0 := by split at hn <;> omega
  have hsize : n / 8 = content.length := by split at hn <;> omega
  have hlast : decide (n % 2 = 1) = last := by cases last <;> simp_all <;> omega
  simp only [toLittleEndian, List.cons_append, List.nil_append, readBlock?] at hnumber ⊢
  rw [hnumber, hkind, hsize, hlast]
  simp [BlockKind.ofBits, BlockKind.width, rawBlock]

theorem content_ofBlock_le {place : Nat} {b : Block} {p : Piece} (h : p ∈ Piece.ofBlock place b) :
    p.content.length ≤ b.content.length := by
  rw [← Piece.flatMap_ofBlock place b]
  exact (List.sublist_flatten_of_mem (List.mem_map_of_mem h)).length_le

/-- There is room for one more block behind whatever has been put. -/
theorem exists_place {room place : Nat} {ps : List Piece} (hplace : place + maxBlock ≤ room)
    (hps : ∀ p ∈ ps, p.content.length ≤ maxBlock) :
    ∃ place', writtenHeader.place room place ps = .ok place' ∧ place' + maxBlock ≤ room := by
  induction ps generalizing place with
  | nil => exact ⟨place, rfl, hplace⟩
  | cons p ps ih =>
    have hp := hps p List.mem_cons_self
    have hlimit : writtenHeader.blockLimit = maxBlock := rfl
    have hsize : writtenHeader.size = none := rfl
    have hadvance : writtenHeader.advance room (place + p.content.length) + maxBlock ≤ room := by
      simp only [Header.advance, hlimit, hsize, Option.all_none, true_and]
      split <;> omega
    rw [Header.place, if_neg (by omega), hlimit, if_neg (by omega)]
    exact ih hadvance fun q hq => hps q (List.mem_cons_of_mem p hq)

theorem readBlocks_rawHeader {room place : Nat} (fuel start count : Nat) (last : Bool)
    {content : List UInt8} (rest : List UInt8) (hplace : place + maxBlock ≤ room)
    (hcontent : content.length ≤ maxBlock) :
    ∃ pieces place', pieces.flatMap Piece.content = content ∧ place' + maxBlock ≤ room ∧
      readBlocks writtenHeader room (fuel + 1) start place count
          (rawHeader last content.length ++ (content ++ rest)) =
        if last then .ok (pieces, some rest)
        else do
          let (more, rest) ← readBlocks writtenHeader room fuel
            (start + blockHeaderWidth + content.length) place' (count + content.length) rest
          return (pieces ++ more, rest) := by
  have hfit : ∀ p ∈ Piece.ofBlock (start + blockHeaderWidth) (rawBlock last content),
      p.content.length ≤ maxBlock := fun p hp => Nat.le_trans (content_ofBlock_le hp) hcontent
  obtain ⟨place', hput, hplace'⟩ := exists_place hplace hfit
  have hheld : (Piece.ofBlock (start + blockHeaderWidth) (rawBlock last content)).flatMap
      Piece.content = content := Piece.flatMap_ofBlock _ _
  have hwidth : ¬ writtenHeader.blockLimit < (rawBlock last content).width := Nat.not_lt.mpr hcontent
  have hwhole : (rawBlock last content).isWhole = true := decide_eq_true rfl
  refine ⟨_, place', hheld, hplace', ?_⟩
  rw [readBlocks, readBlock?_rawHeader last rest hcontent]
  dsimp only
  rw [if_neg (not_or.mpr ⟨nofun, hwidth⟩), hput, hwhole]
  cases last with
  | false => rfl
  | true => exact if_neg fun hsize => nomatch hsize.2

theorem readBlocks_rawBlocks {room bound fuel place : Nat} (start count : Nat) {bytes : List UInt8}
    (hplace : place + maxBlock ≤ room) (hbound : bytes.length ≤ (bound + 1) * maxBlock)
    (hfuel : bound < fuel) :
    ∃ pieces, pieces.flatMap Piece.content = bytes ∧
      readBlocks writtenHeader room fuel start place count (rawBlocks bound bytes) =
        .ok (pieces, some []) := by
  have readLast : ∀ {fuel place start count : Nat} {bytes : List UInt8},
      place + maxBlock ≤ room → bytes.length ≤ maxBlock →
      ∃ pieces, pieces.flatMap Piece.content = bytes ∧
        readBlocks writtenHeader room (fuel + 1) start place count
          (rawHeader true bytes.length ++ bytes) = .ok (pieces, some []) := by
    intro fuel place start count bytes hplace hbytes
    obtain ⟨pieces, place', hheld, -, hread⟩ :=
      readBlocks_rawHeader fuel start count true [] hplace hbytes
    rw [List.append_nil] at hread
    exact ⟨pieces, hheld, hread⟩
  induction bound generalizing fuel place start count bytes with
  | zero =>
    obtain ⟨fuel, rfl⟩ := Nat.exists_eq_succ_of_ne_zero (Nat.ne_of_gt hfuel)
    exact readLast hplace (by omega)
  | succ bound ih =>
    obtain ⟨fuel, rfl⟩ := Nat.exists_eq_succ_of_ne_zero (Nat.ne_of_gt (Nat.zero_lt_of_lt hfuel))
    rw [rawBlocks]
    split
    · next hshort => exact readLast hplace hshort
    · next hlong =>
      have htake : (bytes.take maxBlock).length = maxBlock := by
        rw [List.length_take]
        omega
      obtain ⟨first, place', hheld, hplace', hread⟩ := readBlocks_rawHeader fuel start count false
        (rawBlocks bound (bytes.drop maxBlock)) hplace (Nat.le_of_eq htake)
      have hdrop : (bytes.drop maxBlock).length ≤ (bound + 1) * maxBlock := by
        rw [Nat.succ_mul] at hbound
        rw [List.length_drop]
        omega
      obtain ⟨more, hmore, hrest⟩ := ih (start + blockHeaderWidth + maxBlock) (count + maxBlock)
        hplace' hdrop (Nat.lt_of_succ_lt_succ hfuel)
      rw [htake, if_neg Bool.false_ne_true, hrest] at hread
      refine ⟨first ++ more, ?_, ?_⟩
      · rw [List.flatMap_append, hheld, hmore, List.take_append_drop]
      · rw [List.append_assoc]
        exact hread

/-! ## Frames -/

theorem length_rawHeader (last : Bool) (size : Nat) : (rawHeader last size).length = 3 := rfl

theorem length_rawBlocks (bound : Nat) (bytes : List UInt8) :
    bytes.length + 3 ≤ (rawBlocks bound bytes).length := by
  induction bound generalizing bytes with
  | zero =>
    rw [rawBlocks, List.length_append, length_rawHeader]
    omega
  | succ bound ih =>
    have hdrop := ih (bytes.drop maxBlock)
    rw [List.length_drop] at hdrop
    rw [rawBlocks]
    split <;> simp only [List.length_append, length_rawHeader, List.length_take] <;> omega

theorem readFrame_rawBlocks (total available : Nat) (bytes : List UInt8) :
    ∃ room, readFrame writtenHeader total available .empty
      (rawBlocks (bytes.length / maxBlock) bytes) = .ok (bytes, room, []) := by
  have hlength := length_rawBlocks (bytes.length / maxBlock) bytes
  have hbound : bytes.length ≤ (bytes.length / maxBlock + 1) * maxBlock := by
    rw [Nat.mul_comm]
    exact Nat.le_of_lt (Nat.lt_mul_div_succ _ (by decide))
  have hfuel : bytes.length / maxBlock < (rawBlocks (bytes.length / maxBlock) bytes).length := by
    have hblocks : bytes.length / maxBlock ≤ bytes.length := Nat.div_le_self _ _
    omega
  have hroom : 0 + maxBlock ≤ (Room.empty.provide writtenHeader).content := by decide
  obtain ⟨pieces, hheld, hread⟩ := readBlocks_rawBlocks
    (total - (rawBlocks (bytes.length / maxBlock) bytes).length) 0 hroom hbound hfuel
  refine ⟨Room.empty.provide writtenHeader, ?_⟩
  have hwindow : ¬ maxWindow < writtenHeader.window := by decide
  rw [readFrame, show atOnce? writtenHeader available _ = none from rfl]
  dsimp only
  rw [if_neg hwindow, hread, ← hheld]
  rfl

def segmentHeader (size : Nat) : Header := ⟨some size, size, false⟩

theorem readHeader?_segment {size : Nat} (hsize : size < 256) (rest : List UInt8) :
    readHeader? (segmentDescriptor :: UInt8.ofNat size :: rest) =
      some (.ok (segmentHeader size, rest)) := by
  have hdescriptor : segmentDescriptor.toNat = 32 := rfl
  have hbyte : ofLittleEndian [UInt8.ofNat size] = size := by
    have hmod : size % 256 = size := Nat.mod_eq_of_lt hsize
    simp [ofLittleEndian, UInt8.toNat_ofNat', hmod]
  simp [readHeader?, hdescriptor, sizeWidth, dictionaryWidth, hbyte, segmentHeader]

theorem wholeBlocks?_rawHeader (fuel : Nat) {content : List UInt8} (h : content.length ≤ maxBlock) :
    wholeBlocks? (fuel + 1) (rawHeader true content.length ++ content) =
      some ([rawBlock true content], []) := by
  have hread := readBlock?_rawHeader true [] h
  have hwhole : (rawBlock true content).isWhole = true := decide_eq_true rfl
  rw [List.append_nil] at hread
  rw [wholeBlocks?, hread]
  dsimp only
  rw [hwhole, if_neg (by simp [rawBlock])]
  rfl

theorem readFrame_segment {total available : Nat} {bytes : List UInt8} (hsize : bytes.length < 256)
    (havailable : bytes.length + 3 ≤ available) :
    ∃ room, readFrame (segmentHeader bytes.length) total available .empty
      (rawHeader true bytes.length ++ bytes) = .ok (bytes, room, []) := by
  have hmax : maxBlock = 131072 := rfl
  have hportion : outputPortion = 1048576 := rfl
  have hlength : (rawHeader true bytes.length ++ bytes).length = bytes.length + 2 + 1 := by
    rw [List.length_append, length_rawHeader, Nat.add_comm]
  have hblocks := @wholeBlocks?_rawHeader (bytes.length + 2) bytes (by omega)
  have honce : atOnce? (segmentHeader bytes.length) available (rawHeader true bytes.length ++ bytes) =
      some (bytes.length, [rawBlock true bytes], []) := by
    rw [← hlength] at hblocks
    have hfits : bytes.length ≤ outputPortion ∧
        (rawHeader true bytes.length ++ bytes).length - ([] : List UInt8).length ≤ available := by
      rw [hlength, List.length_nil]
      omega
    simp only [atOnce?, segmentHeader, hblocks, afterChecksum?, bind, Option.bind]
    exact if_pos hfits
  have hjoin : joinBlocks outputPortion [rawBlock true bytes] = .ok bytes := by
    have hroom : ¬ outputPortion < (rawBlock true bytes).content.length := by
      change ¬ outputPortion < bytes.length
      omega
    rw [joinBlocks, if_neg hroom, joinBlocks]
    exact congrArg Except.ok (List.append_nil bytes)
  have hread : readAtOnce bytes.length [rawBlock true bytes] = .ok bytes := by
    rw [readAtOnce, hjoin]
    exact if_pos rfl
  refine ⟨.empty, ?_⟩
  rw [readFrame, honce]
  dsimp only
  rw [hread]
  rfl

theorem readFrames_nil (total bound : Nat) (room : Room) : readFrames total bound room [] = .ok [] := by
  cases bound <;> rfl

theorem decompress_frame {h : Header} {a b : UInt8} {stored content : List UInt8}
    (hheader : readHeader? (a :: b :: stored) = some (.ok (h, stored)))
    (hframe : ∃ room, readFrame h (stored.length + 6) (inputPortion - 6) .empty stored =
      .ok (content, room, [])) :
    decompress (magic ++ a :: b :: stored) = .ok content := by
  obtain ⟨room, hread⟩ := hframe
  have hlength : (magic ++ a :: b :: stored).length = stored.length + 5 + 1 := by
    rw [List.length_append, Nat.add_comm]
    rfl
  have hstart : ¬ (!(startsFrame (magic ++ a :: b :: stored) ||
      startsSkipped (magic ++ a :: b :: stored))) = true := nofun
  have hlong : ¬ stored.length + 5 + 1 < minHeader := by
    have hmin : minHeader = 5 := rfl
    omega
  have hcontent : ¬ startsSkipped (magic ++ a :: b :: stored) = true := nofun
  have hportion : inputPortion - (stored.length + 5 + 1 - (stored.length + 5 + 1)) % inputPortion -
      (stored.length + 5 + 1 - stored.length) = inputPortion - 6 := by
    rw [Nat.sub_self, Nat.zero_mod, Nat.sub_zero, Nat.add_assoc, Nat.add_sub_cancel_left]
  rw [decompress, hlength, readFrames, if_neg hstart, hlength, if_neg hlong, if_neg hcontent]
  rw [show (magic ++ a :: b :: stored).drop magic.length = a :: b :: stored from rfl, hheader]
  dsimp only
  rw [hportion, hread]
  change (do return content ++
    (← readFrames (stored.length + 5 + 1) (stored.length + 5) room [])) = _
  rw [readFrames_nil]
  exact congrArg Except.ok (List.append_nil content)

theorem decompress_compress (bytes : List UInt8) : decompress (compress bytes) = .ok bytes := by
  have hportion : inputPortion = 131075 := rfl
  rw [compress]
  split
  · next hsize =>
    exact decompress_frame (readHeader?_segment hsize _) (readFrame_segment hsize (by omega))
  · exact decompress_frame (readHeader?_written _) (readFrame_rawBlocks _ _ bytes)

theorem isFrame_compress (bytes : List UInt8) : isFrame (compress bytes) = true := by
  rw [compress]
  split <;> rfl

theorem codec_lawful : @LawfulCodec codec :=
  letI := codec
  { isFrame_compress
    decompress_compress := fun bytes => by
      change (Blocks.decompress (Blocks.compress bytes)).mapError _ = _
      rw [decompress_compress]
      rfl }

end RenderTrace.Zstd.Blocks
