import RenderTrace.Input.Validate
import RenderTrace.Proofs.Input.Load
import RenderTrace.Proofs.Json.Limits
import RenderTrace.Proofs.Profile.EmptyRange

/-!
# What validation reports

A file that is there is reported on just if validation is not abandoned (`ofFile_reports_iff`). It is
abandoned for a compressed frame that cannot be read, and for an integer, a nesting or a decimal handle
beyond what is taken in (`Abandoned`), whatever codec reads the frames. A report says that a file is
valid just if it names no error, and just if a profile can be made with the content of the file
(`Accepted`).
-/

namespace RenderTrace

namespace Input

theorem ListsPass.unique {v : Json} {e e' : RenderPass.Key × RenderPass.Range} (h : ListsPass v e)
    (h' : ListsPass v e') : e = e' := by
  have hnumber : ∀ {name : String} {m n : Number}, v.field? name = some (.number m) →
      v.field? name = some (.number n) → m = n := fun hm hn =>
    Json.number.inj (Option.some.inj (hm.symm.trans hn))
  obtain ⟨⟨order, commandBuffer, renderPass, renderTarget⟩, ⟨start, stop⟩⟩ := e
  obtain ⟨⟨order', commandBuffer', renderPass', renderTarget'⟩, ⟨start', stop'⟩⟩ := e'
  obtain ⟨m, hm, horder⟩ := h.order
  obtain ⟨n, hn, horder'⟩ := h'.order
  dsimp only at hm hn
  rw [hm, hn, hnumber horder horder']
  obtain rfl := hnumber h.commandBuffer h'.commandBuffer
  obtain rfl := hnumber h.renderPass h'.renderPass
  obtain rfl := hnumber h.renderTarget h'.renderTarget
  obtain rfl := hnumber h.start h'.start
  obtain rfl := hnumber h.stop h'.stop
  rfl

theorem ListsPasses.unique {v : Json} {entries entries' : List (RenderPass.Key × RenderPass.Range)}
    (h : ListsPasses v entries) (h' : ListsPasses v entries') : entries = entries' := by
  obtain ⟨xs, hxs, hall⟩ := h
  obtain ⟨xs', hxs', hall'⟩ := h'
  obtain rfl := Json.array.inj (Option.some.inj (hxs.symm.trans hxs'))
  have hunique : Relator.RightUnique ListsPass := fun _ _ _ h h' => h.unique h'
  exact List.right_unique_forall₂' hunique hall hall'

end Input

namespace Validation
open Input

variable {t : FileTree} {p : Path} {bytes : List UInt8} {k : InputKind} {cs : List Char} {v : Json}

/-- A document of the right shape has nothing that only its conversion would find. -/
def Convertible : InputKind → Json → Prop
  | .descriptor, _ => True
  | .handleMapping, v => HandlesWithin v
  | .renderPasses, v => ∃ entries, ListsPasses v entries ∧ ∀ e ∈ entries, ¬ e.2.stop < e.2.start

/-- A profile can be made with the content of a file. -/
def Accepted [Zstd.Codec] (k : InputKind) (bytes : List UInt8) : Prop :=
  ∃ cs v, TextFile.decode bytes = .ok cs ∧ Json.read cs = .ok v ∧ k.shape v = [] ∧ Convertible k v

/-- Validation of some content is abandoned with an error. -/
inductive Abandoned [Zstd.Codec] (k : InputKind) (bytes : List UInt8) : LoadError → Prop where
  | frame {e : Zstd.Error} (compressed : TextFile.compressionOf bytes = .zstd)
    (refused : Zstd.decompress bytes = .error e) : Abandoned k bytes (.unreadable (.compression e))
  | excess {cs : List Char} {e : Json.Excess} (text : TextFile.decode bytes = .ok cs)
    (read : Json.read cs = .error (.excess e))
    (exceeds : Json.Exceeds Number.maxIntegerDigits Json.maxDepth cs e) :
    Abandoned k bytes (.excess e)
  | handle {cs : List Char} {ms : List (String × Json)} {m : String × Json}
    (kind : k = .handleMapping) (text : TextFile.decode bytes = .ok cs)
    (read : Json.read cs = .ok (.object ms)) (shape : k.shape (.object ms) = []) (member : m ∈ ms)
    (long : Number.maxIntegerDigits < (Handle.decimalDigits m.1).length) :
    Abandoned k bytes (.excess (.integer (.tooManyDigits (Handle.decimalDigits m.1).length)))

/-! ## Conversion -/

/-- Turns a document into what it tells, for the sake of what is wrong with it. -/
def converted (p : Path) : InputKind → Json → Except LoadError Unit
  | .descriptor, _ => .ok ()
  | .handleMapping, v => (handleMapOf v).map fun _ => ()
  | .renderPasses, v =>
    ((renderPassesOf v).mapError fun e => LoadError.invalid p [.inverted e]).map fun _ => ()

theorem load_eq [Zstd.Codec] (t : FileTree) (p : Path) (k : InputKind) :
    load t p k = document t p k >>= converted p k := by
  cases k with
  | descriptor => rw [load, descriptor]; cases document t p .descriptor <;> rfl
  | handleMapping => rw [load, handleMap]; cases document t p .handleMapping <;> rfl
  | renderPasses => rw [load, renderPasses]; cases document t p .renderPasses <;> rfl

theorem mappingEntryOf_of_long {m : String × Json} (hname : Handle.isHandle m.1)
    (hlong : Number.maxIntegerDigits < (Handle.decimalDigits m.1).length) : mappingEntryOf m =
      .error (.excess (.integer (.tooManyDigits (Handle.decimalDigits m.1).length))) := by
  rw [mappingEntryOf, Handle.read_of_isHandle hname, if_pos hlong]
  rfl

theorem handleMapOf_eq_error {ms : List (String × Json)} {e : LoadError} :
    handleMapOf (.object ms) = .error e ↔ ms.mapM mappingEntryOf = .error e := by
  rw [handleMapOf]
  cases ms.mapM mappingEntryOf <;> simp [Except.map]

theorem exists_of_handleMapOf_eq_error {ms : List (String × Json)} {e : LoadError}
    (hshape : InputKind.handleMappingShape (.object ms) = [])
    (h : handleMapOf (.object ms) = .error e) :
    ∃ m ∈ ms, Number.maxIntegerDigits < (Handle.decimalDigits m.1).length ∧
      e = .excess (.integer (.tooManyDigits (Handle.decimalDigits m.1).length)) := by
  obtain ⟨m, hm, hfail⟩ := exists_of_mapM_eq_error (handleMapOf_eq_error.mp h)
  obtain ⟨hname, hmember⟩ := member_of_shape hshape hm
  by_cases hlong : Number.maxIntegerDigits < (Handle.decimalDigits m.1).length
  · rw [mappingEntryOf_of_long hname hlong] at hfail
    exact ⟨m, hm, hlong, (Except.error.inj hfail).symm⟩
  · obtain ⟨entry, hentry, -⟩ := exists_mappingEntryOf hname (Nat.not_lt.mp hlong) hmember
    rw [hentry] at hfail
    exact nomatch hfail

theorem exists_handleMapOf_eq_error {ms : List (String × Json)}
    (hshape : InputKind.handleMappingShape (.object ms) = []) {m : String × Json} (hm : m ∈ ms)
    (hlong : Number.maxIntegerDigits < (Handle.decimalDigits m.1).length) :
    ∃ n, handleMapOf (.object ms) = .error (.excess (.integer (.tooManyDigits n))) := by
  obtain ⟨hname, -⟩ := member_of_shape hshape hm
  obtain ⟨e, he⟩ := mapM_eq_error_iff.mpr ⟨m, hm, _, mappingEntryOf_of_long hname hlong⟩
  have herror := handleMapOf_eq_error.mpr he
  obtain ⟨m', -, -, rfl⟩ := exists_of_handleMapOf_eq_error hshape herror
  exact ⟨_, herror⟩

theorem map_eq_ok_unit {α : Type} {x : Except LoadError α} :
    (x.map fun _ => ()) = .ok () ↔ ∃ a, x = .ok a := by
  cases x <;> simp [Except.map]

theorem converted_eq_ok_iff (hshape : k.shape v = []) :
    converted p k v = .ok () ↔ Convertible k v := by
  cases k with
  | descriptor => exact iff_of_true rfl trivial
  | handleMapping =>
    refine map_eq_ok_unit.trans ⟨?_, fun hwithin => ?_⟩
    · rintro ⟨hm, hok⟩ ms rfl m hmem -
      by_contra hlong
      obtain ⟨n, hfail⟩ := exists_handleMapOf_eq_error hshape hmem (Nat.not_le.mp hlong)
      rw [hok] at hfail
      exact nomatch hfail
    · obtain ⟨m, hm, -⟩ := exists_mapsHandles hshape hwithin
      exact ⟨m, hm⟩
  | renderPasses =>
    obtain ⟨entries, hlists, htable⟩ := exists_listsPasses hshape
    have hmapError : (∃ a, ((renderPassesOf v).mapError fun e =>
        LoadError.invalid p [.inverted e]) = .ok a) ↔ ∃ a, renderPassesOf v = .ok a := by
      cases renderPassesOf v <;> simp [Except.mapError]
    refine (map_eq_ok_unit.trans hmapError).trans ?_
    rw [htable, RenderPassTable.exists_addAll_iff]
    constructor
    · exact fun hranges => ⟨entries, hlists, hranges⟩
    · rintro ⟨entries', hlists', hranges⟩
      rwa [hlists.unique hlists']

theorem reported?_of_settled {α : Type} {result : Except LoadError α} {e : LoadError}
    (h : Settled p result) (herror : result = .error e) :
    ∃ errors, reported? e = some errors ∧ errors ≠ [] := by
  obtain ⟨a, ha⟩ | ⟨faults, hne, hfaults⟩ := h
  · rw [ha] at herror
    exact nomatch herror
  · rw [hfaults] at herror
    obtain rfl := Except.error.inj herror
    exact ⟨_, rfl, mt List.map_eq_nil_iff.mp hne⟩

/-! ## Loading -/

section Loading

variable [Zstd.Codec]

theorem load_eq_ok_iff (hbytes : TextFile.bytes t p = .ok bytes) :
    load t p k = .ok () ↔ Accepted k bytes := by
  have htext := TextFile.read_of_bytes hbytes
  rw [load_eq, bind_eq_ok]
  constructor
  · rintro ⟨v, hdocument, hconverted⟩
    cases hdecode : TextFile.decode bytes with
    | error e =>
      rw [document_of_unreadable (htext.trans hdecode)] at hdocument
      exact nomatch hdocument
    | ok cs =>
      obtain ⟨hread, hshape⟩ := shape_of_document (htext.trans hdecode) hdocument
      exact ⟨cs, v, hdecode, hread, hshape, (converted_eq_ok_iff hshape).mp hconverted⟩
  · rintro ⟨cs, v, hdecode, hread, hshape, hconvertible⟩
    exact ⟨v, document_of_shape (htext.trans hdecode) hread hshape,
      (converted_eq_ok_iff hshape).mpr hconvertible⟩

theorem load_of_document (h : document t p k = .ok v) : load t p k = converted p k v := by
  rw [load_eq, h]
  rfl

theorem load_of_document_eq_error {e : LoadError} (h : document t p k = .error e) :
    load t p k = .error e := by
  rw [load_eq, h]
  rfl

theorem reported?_of_abandoned {e : LoadError} (h : Abandoned k bytes e) : reported? e = none := by
  cases h <;> rfl

/-- Where validation is abandoned, loading fails with an error that is not reported. -/
theorem load_of_abandoned (hbytes : TextFile.bytes t p = .ok bytes) {e : LoadError}
    (h : Abandoned k bytes e) : ∃ e', load t p k = .error e' ∧ reported? e' = none := by
  have htext := TextFile.read_of_bytes hbytes
  cases h with
  | frame hcompressed hrefused =>
    have hdecode := TextFile.decode_eq_compression_iff.mpr ⟨hcompressed, hrefused⟩
    exact ⟨_, load_of_document_eq_error (document_of_unreadable (htext.trans hdecode)), rfl⟩
  | excess hdecode hread =>
    exact ⟨_, load_of_document_eq_error (document_of_excess (htext.trans hdecode) hread), rfl⟩
  | handle hkind hdecode hread hshape hm hlong =>
    subst hkind
    obtain ⟨n, hn⟩ := exists_handleMapOf_eq_error hshape hm hlong
    have hload := load_of_document (document_of_shape (htext.trans hdecode) hread hshape)
    exact ⟨_, hload.trans (congrArg (Except.map fun _ => ()) hn), rfl⟩

theorem of_converted_eq_error {e : LoadError} (hdecode : TextFile.decode bytes = .ok cs)
    (hread : Json.read cs = .ok v) (hshape : k.shape v = []) (h : converted p k v = .error e) :
    Abandoned k bytes e ∨ ∃ errors, reported? e = some errors ∧ errors ≠ [] := by
  cases k with
  | descriptor => exact nomatch h
  | handleMapping =>
    obtain ⟨ms, rfl⟩ : Schema.JsonType.object.Form v :=
      Schema.form_of_allOf hshape List.mem_cons_self
    have hmapping : handleMapOf (.object ms) = .error e := by
      cases hresult : handleMapOf (.object ms) with
      | error e' =>
        rw [converted, hresult] at h
        exact congrArg Except.error (Except.error.inj h)
      | ok m =>
        rw [converted, hresult] at h
        exact nomatch h
    obtain ⟨m, hm, hlong, rfl⟩ := exists_of_handleMapOf_eq_error hshape hmapping
    exact .inl (.handle rfl hdecode hread hshape hm hlong)
  | renderPasses => exact .inr (reported?_of_settled (Settled.map .mapError _) h)

theorem of_load_eq_error (hbytes : TextFile.bytes t p = .ok bytes) {e : LoadError}
    (h : load t p k = .error e) :
    Abandoned k bytes e ∨ ∃ errors, reported? e = some errors ∧ errors ≠ [] := by
  have htext := TextFile.read_of_bytes hbytes
  cases hdecode : TextFile.decode bytes with
  | error f =>
    rw [load_of_document_eq_error (document_of_unreadable (htext.trans hdecode))] at h
    obtain rfl := Except.error.inj h
    cases f with
    | compression e =>
      obtain ⟨hcompressed, hrefused⟩ := TextFile.decode_eq_compression_iff.mp hdecode
      exact .inl (.frame hcompressed hrefused)
    | missing | file | encoding => exact .inr ⟨_, rfl, List.cons_ne_nil _ _⟩
  | ok cs =>
    have htext := htext.trans hdecode
    match hread : Json.read cs with
    | .error (.excess f) =>
      rw [load_of_document_eq_error (document_of_excess htext hread)] at h
      obtain rfl := Except.error.inj h
      exact .inl (.excess hdecode hread (Json.exceeds_of_read hread))
    | .error (.malformed fault place) =>
      rw [load_of_document_eq_error (document_of_malformed htext hread)] at h
      obtain rfl := Except.error.inj h
      exact .inr ⟨_, rfl, List.cons_ne_nil _ _⟩
    | .ok v =>
      by_cases hshape : k.shape v = []
      · rw [load_of_document (document_of_shape htext hread hshape)] at h
        exact of_converted_eq_error hdecode hread hshape h
      · have hsettled : Settled p (document t p k) :=
          settled_document htext (by rw [hread]; exact nofun) k
        have hdocument := document_of_violations htext hread hshape
        rw [load_of_document_eq_error hdocument] at h
        obtain rfl := Except.error.inj h
        exact .inr (reported?_of_settled hsettled hdocument)

/-! ## Reports -/

/-- What is reported on a file with some content. -/
structure Reports (k : InputKind) (bytes : List UInt8) (r : Validation) : Prop where
  kind : r.kind = k
  size : r.size = bytes.length
  compression : r.compression = TextFile.compressionOf bytes
  valid_iff_errors : r.valid = true ↔ r.errors = []
  valid_iff_accepted : r.valid = true ↔ Accepted k bytes

/-- The report on some content with some errors. -/
def reportOf (k : InputKind) (bytes : List UInt8) (errors : List String) : Validation :=
  ⟨errors.isEmpty, k, bytes.length, TextFile.compressionOf bytes, errors⟩

theorem ofFile_of_load (hbytes : TextFile.bytes t p = .ok bytes) (h : load t p k = .ok ()) :
    ofFile t p k = .ok (reportOf k bytes []) := by
  unfold ofFile
  simp only [hbytes, h, Except.mapError, bind, Except.bind]
  rfl

theorem ofFile_of_reported (hbytes : TextFile.bytes t p = .ok bytes) {e : LoadError}
    (h : load t p k = .error e) {errors : List String} (hreported : reported? e = some errors) :
    ofFile t p k = .ok (reportOf k bytes errors) := by
  unfold ofFile
  simp only [hbytes, h, hreported, Except.mapError, bind, Except.bind]
  rfl

theorem ofFile_of_unreported (hbytes : TextFile.bytes t p = .ok bytes) {e : LoadError}
    (h : load t p k = .error e) (hreported : reported? e = none) : ofFile t p k = .error e := by
  unfold ofFile
  simp only [hbytes, h, hreported, Except.mapError, bind, Except.bind]

theorem reports_reportOf {errors : List String} (h : errors = [] ↔ Accepted k bytes) :
    Reports k bytes (reportOf k bytes errors) where
  kind := rfl
  size := rfl
  compression := rfl
  valid_iff_errors := List.isEmpty_iff
  valid_iff_accepted := List.isEmpty_iff.trans h

theorem ofFile_cases (hbytes : TextFile.bytes t p = .ok bytes) (k : InputKind) :
    (∃ r, ofFile t p k = .ok r ∧ Reports k bytes r) ∨
      ∃ e, ofFile t p k = .error e ∧ Abandoned k bytes e := by
  have haccepted := load_eq_ok_iff (k := k) hbytes
  cases hload : load t p k with
  | ok => exact .inl ⟨_, ofFile_of_load hbytes hload,
      reports_reportOf (iff_of_true rfl (haccepted.mp hload))⟩
  | error e =>
    have hnot : ¬ Accepted k bytes := by
      intro h
      rw [haccepted.mpr h] at hload
      exact nomatch hload
    obtain habandoned | ⟨errors, hreported, hne⟩ := of_load_eq_error hbytes hload
    · have hunreported := reported?_of_abandoned habandoned
      exact .inr ⟨e, ofFile_of_unreported hbytes hload hunreported, habandoned⟩
    · exact .inl ⟨_, ofFile_of_reported hbytes hload hreported,
        reports_reportOf (iff_of_false hne hnot)⟩

theorem not_ofFile_of_abandoned (hbytes : TextFile.bytes t p = .ok bytes) {e : LoadError}
    (h : Abandoned k bytes e) (r : Validation) : ofFile t p k ≠ .ok r := by
  obtain ⟨e', hload, hreported⟩ := load_of_abandoned hbytes h
  rw [ofFile_of_unreported hbytes hload hreported]
  exact nofun

/-- A file that is there is reported on just if validation is not abandoned. -/
theorem ofFile_reports_iff (hbytes : TextFile.bytes t p = .ok bytes) (k : InputKind) :
    ((∃ r, ofFile t p k = .ok r) ↔ ¬ ∃ e, Abandoned k bytes e) ∧
    (∀ r, ofFile t p k = .ok r → Reports k bytes r) ∧
    ∀ e, ofFile t p k = .error e → Abandoned k bytes e := by
  obtain ⟨r, hr, hreports⟩ | ⟨e, he, habandoned⟩ := ofFile_cases hbytes k
  · have hnot : ¬ ∃ e, Abandoned k bytes e := fun ⟨e, habandoned⟩ =>
      not_ofFile_of_abandoned hbytes habandoned r hr
    refine ⟨iff_of_true ⟨r, hr⟩ hnot, fun r' hr' => ?_, fun e he => ?_⟩
    · obtain rfl := Except.ok.inj (hr.symm.trans hr')
      exact hreports
    · exact nomatch hr.symm.trans he
  · have hnot : ¬ ∃ r, ofFile t p k = .ok r := fun ⟨r, hr⟩ =>
      not_ofFile_of_abandoned hbytes habandoned r hr
    refine ⟨iff_of_false hnot (not_not_intro ⟨e, habandoned⟩), fun r hr => absurd ⟨r, hr⟩ hnot,
      fun e' he' => ?_⟩
    obtain rfl := Except.error.inj (he.symm.trans he')
    exact habandoned

theorem ofFile_of_refused (hbytes : TextFile.bytes t p = .ok bytes)
    (hcompressed : TextFile.compressionOf bytes = .zstd) {e : Zstd.Error}
    (hrefused : Zstd.decompress bytes = .error e) :
    ofFile t p k = .error (.unreadable (.compression e)) := by
  have hdecode := TextFile.decode_eq_compression_iff.mpr ⟨hcompressed, hrefused⟩
  have htext := (TextFile.read_of_bytes hbytes).trans hdecode
  have hload := load_of_document_eq_error (document_of_unreadable (k := k) htext)
  exact ofFile_of_unreported hbytes hload rfl

end Loading

theorem ofFile_reports_iff_sample :
    letI := Zstd.Blocks.codec
    TextFile.bytes (sampleFiles [0xff]) samplePath = .ok [0xff] ∧
      ∃ r, ofFile (sampleFiles [0xff]) samplePath .descriptor = .ok r ∧ r.valid = false ∧
        r.errors ≠ [] := by
  let codec := Zstd.Blocks.codec
  have hbytes := bytes_sampleFiles [0xff]
  have hdecode : ∀ cs, TextFile.decode [0xff] ≠ .ok cs := fun cs h => nomatch h
  have hplain : TextFile.compressionOf [0xff] ≠ .zstd := by decide
  obtain ⟨hiff, hreports, -⟩ := ofFile_reports_iff hbytes .descriptor
  have hnot : ¬ ∃ e, Abandoned .descriptor [0xff] e := by
    rintro ⟨e, hcompressed | htext | hkind⟩
    · exact hplain hcompressed
    · exact hdecode _ htext
    · exact nomatch hkind
  obtain ⟨r, hr⟩ := hiff.mpr hnot
  have hrejected : ¬ Accepted .descriptor [0xff] := fun ⟨cs, v, htext, _⟩ => hdecode cs htext
  have hvalid : r.valid ≠ true := mt (hreports r hr).valid_iff_accepted.mp hrejected
  have herrors : r.errors ≠ [] := mt (hreports r hr).valid_iff_errors.mpr hvalid
  exact ⟨hbytes, r, hr, Bool.eq_false_iff.mpr hvalid, herrors⟩

/-- A frame with a block that is larger than the content it announces. -/
def oversized : List UInt8 :=
  [0x28, 0xb5, 0x2f, 0xfd, 0xa0, 0x0d, 0x00, 0x00, 0x00, 0x71, 0x00, 0x00, 0x7b, 0x22, 0x73, 0x70,
    0x65, 0x63, 0x73, 0x22, 0x3a, 0x20, 0x5b, 0x5d, 0x7d]

/-- The words for content that is not what its frame says. -/
def corruption : Zstd.Error := ⟨"zstd decompress error: Data corruption detected"⟩

/-- A codec that refuses some octets, and does with all others what another codec does. -/
@[reducible] def refusing (codec : Zstd.Codec) (refused : List UInt8) (e : Zstd.Error) :
    Zstd.Codec where
  compress := codec.compress
  decompress bytes := if bytes = refused then .error e else codec.decompress bytes

/-- The codec's error for this frame leaves validation. -/
theorem not_ofFile_of_oversized :
    letI := refusing Zstd.Blocks.codec oversized corruption
    TextFile.bytes (sampleFiles oversized) samplePath = .ok oversized ∧
      ofFile (sampleFiles oversized) samplePath .descriptor =
        .error (.unreadable (.compression corruption)) ∧
      ¬ ∃ r, ofFile (sampleFiles oversized) samplePath .descriptor = .ok r := by
  let codec := refusing Zstd.Blocks.codec oversized corruption
  have hbytes := bytes_sampleFiles oversized
  have hcompressed : TextFile.compressionOf oversized = .zstd := by decide
  have hrefused : Zstd.decompress oversized = .error corruption := if_pos rfl
  have hofFile := ofFile_of_refused (k := .descriptor) hbytes hcompressed hrefused
  refine ⟨hbytes, hofFile, ?_⟩
  rintro ⟨r, hr⟩
  exact nomatch hofFile.symm.trans hr

end Validation
end RenderTrace
