import RenderTrace.Files.TextFile
import RenderTrace.Proofs.Files.Frame
import RenderTrace.Proofs.Files.Tree
import RenderTrace.Proofs.Text.Newline
import RenderTrace.Proofs.Text.Utf8

/-!
# Text files read back

The octets of a plain text are never taken for a compressed frame (`isFrame_encode`): the second octet
of the magic number is a trailing one, and no character of a text starts with such an octet. So with a
lawful codec both ways to store a text read back with line feeds only, and which of them it was is told
rightly (`reads_back_unified`). What is read of a file without writing it holds of every codec.
-/

namespace RenderTrace
open Text

theorem magic_notPrefix_encode (cs : List Char) : ¬ Zstd.magic <+: Utf8.encode cs := by
  rintro ⟨rest, hprefix⟩
  cases cs with
  | nil => exact nomatch hprefix
  | cons c cs =>
    obtain ⟨b, bs, hc, hb⟩ := Utf8.exists_encodeChar_eq c
    simp only [Zstd.magic, Utf8.encode_cons, hc, List.cons_append, List.cons.injEq] at hprefix
    obtain ⟨rfl, htail⟩ := hprefix
    rcases hb with ⟨-, -, rfl⟩ | hlead
    · have hsecond := Utf8.not_trailing_of_encode htail.symm
      exact absurd hsecond (by decide)
    · exact absurd hlead (by decide)

namespace TextFile

theorem isFrame_encode (cs : List Char) : Zstd.isFrame (Utf8.encode cs) = false := by
  rw [Zstd.isFrame, Bool.eq_false_iff]
  intro h
  exact magic_notPrefix_encode cs (List.isPrefixOf_iff_prefix.mp h)

theorem bytes_eq {t : FileTree} {p : Path} {bytes : List UInt8} (hthere : t.contains p = .ok true)
    (hread : t.read p = .ok bytes) : TextFile.bytes t p = .ok bytes := by
  unfold TextFile.bytes require
  rw [hthere, hread]
  rfl

section Reading

variable [Zstd.Codec] {t t' : FileTree} {p : Path}

theorem decode_eq_compression_iff {bytes : List UInt8} {e : Zstd.Error} :
    decode bytes = .error (.compression e) ↔
      compressionOf bytes = .zstd ∧ Zstd.decompress bytes = .error e := by
  have hencoding : ∀ content, ((Utf8.decode content).mapError TextFileError.encoding >>= fun cs =>
      .ok (unifyNewlines cs)) ≠ .error (.compression e) := by
    intro content h
    cases hcontent : Utf8.decode content <;> rw [hcontent] at h <;> exact nomatch h
  unfold decode
  cases compressionOf bytes with
  | none => exact iff_of_false (hencoding bytes) fun h => nomatch h.1
  | zstd =>
    cases hcontent : Zstd.decompress bytes with
    | error e' => simp [bind, Except.bind, Except.mapError]
    | ok content => exact iff_of_false (hencoding content) fun h => nomatch h.2

theorem decode_utf8Encode (cs : List Char) :
    decode (Utf8.encode cs) = .ok (unifyNewlines cs) := by
  have hplain : compressionOf (Utf8.encode cs) = .none := if_neg (by simp [isFrame_encode])
  unfold decode
  rw [hplain]
  change ((Utf8.decode (Utf8.encode cs)).mapError TextFileError.encoding >>= fun cs =>
    .ok (unifyNewlines cs)) = _
  rw [Utf8.decode_encode]
  rfl

theorem read_of_bytes {bytes : List UInt8} (h : TextFile.bytes t p = .ok bytes) :
    read t p = decode bytes := by
  rw [read, h]
  rfl

theorem bytes_of_write {text : String} {compress : Bool}
    (h : write t p text compress = .ok t') : bytes t' p = .ok (encode compress text.toList) := by
  obtain ⟨hthere, hread⟩ := FileTree.read_of_write h
  exact bytes_eq hthere hread

end Reading

section Writing

variable [Zstd.Codec] [Zstd.LawfulCodec] {t t' : FileTree} {p : Path}

theorem compressionOf_encode (compress : Bool) (cs : List Char) :
    compressionOf (encode compress cs) = if compress then .zstd else .none := by
  cases compress with
  | false => rw [compressionOf, encode, if_neg Bool.false_ne_true, isFrame_encode]
  | true => rw [compressionOf, encode, if_pos rfl, Zstd.isFrame_compress]

theorem decode_encode (compress : Bool) (cs : List Char) :
    decode (encode compress cs) = .ok (unifyNewlines cs) := by
  cases compress with
  | false => exact decode_utf8Encode cs
  | true =>
    unfold decode
    rw [compressionOf_encode]
    change ((Zstd.decompress (Zstd.compress (Utf8.encode cs))).mapError TextFileError.compression >>=
      fun bytes => (Utf8.decode bytes).mapError TextFileError.encoding >>= fun cs =>
        .ok (unifyNewlines cs)) = _
    rw [Zstd.decompress_compress]
    change ((Utf8.decode (Utf8.encode cs)).mapError TextFileError.encoding >>= fun cs =>
      .ok (unifyNewlines cs)) = _
    rw [Utf8.decode_encode]
    rfl

theorem read_of_write {text : String} {compress : Bool} (h : write t p text compress = .ok t') :
    read t' p = .ok (unifyNewlines text.toList) := by
  rw [read_of_bytes (bytes_of_write h), decode_encode]

theorem compression_of_write {text : String} {compress : Bool}
    (h : write t p text compress = .ok t') :
    compression t' p = .ok (if compress then .zstd else .none) := by
  rw [compression, bytes_of_write h]
  exact congrArg Except.ok (compressionOf_encode compress text.toList)

/-- A text that is written where a file can be written reads back with every carriage return and line
feed, and every other carriage return, as one line feed. A text of line feeds only, such as what was
read, reads back as it is. The file is told to be compressed just if it was written so, as no plain
text starts with the magic number of a frame. -/
theorem reads_back_unified (h : t.Writable p) (text : String) (compress : Bool) :
    ∃ t', write t p text compress = .ok t' ∧
      read t' p = .ok ((replacePairs text.toList).map replaceReturn) ∧
      ('\r' ∉ text.toList → read t' p = .ok text.toList) ∧
      (∀ u q, u.Writable q → ∀ cs, read t' p = .ok cs → ∀ again,
        ∃ u', write u q (String.ofList cs) again = .ok u' ∧ read u' q = .ok cs) ∧
      compression t' p = .ok (if compress then .zstd else .none) ∧
      ¬ Zstd.magic <+: Utf8.encode text.toList := by
  have exists_write : ∀ {u : FileTree} {q : Path}, u.Writable q → ∀ text compress,
      ∃ u', write u q text compress = .ok u' := fun hu _ _ => hu.exists_write _
  obtain ⟨t', hwrite⟩ := exists_write h text compress
  have hread := read_of_write hwrite
  refine ⟨t', hwrite, ?_, fun hfeeds => ?_, fun u q hu cs hcs again => ?_,
    compression_of_write hwrite, magic_notPrefix_encode _⟩
  · rw [hread, unifyNewlines_eq]
  · rw [hread, unifyNewlines_of_notMem hfeeds]
  · rw [hread, Except.ok.injEq] at hcs
    obtain ⟨u', hagain⟩ := exists_write hu (String.ofList cs) again
    refine ⟨u', hagain, ?_⟩
    rw [read_of_write hagain, String.toList_ofList, ← hcs, unifyNewlines_unifyNewlines]

end Writing

def samplePath : Path := ⟨"", ["a", "b"]⟩

theorem reads_back_unified_sample :
    letI := Zstd.Blocks.codec
    Zstd.LawfulCodec ∧ FileTree.empty.Writable samplePath ∧
      ∃ t', write .empty samplePath "x\r\ny\rz" true = .ok t' ∧
        read t' samplePath = .ok "x\ny\nz".toList ∧ compression t' samplePath = .ok .zstd := by
  let codec := Zstd.Blocks.codec
  have hlawful : Zstd.LawfulCodec := Zstd.Blocks.codec_lawful
  have hwritable : FileTree.empty.Writable samplePath :=
    ⟨[], ⟨[(["a", "b"], .file []), (["a"], .directory)]⟩, rfl⟩
  obtain ⟨t', hwrite, hread, -, -, hcompression, -⟩ :=
    reads_back_unified hwritable "x\r\ny\rz" true
  have hfeeds : (replacePairs "x\r\ny\rz".toList).map replaceReturn = "x\ny\nz".toList := by decide
  exact ⟨hlawful, hwritable, t', hwrite, hread.trans (congrArg Except.ok hfeeds), hcompression⟩

end TextFile
end RenderTrace
