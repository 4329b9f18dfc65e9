import RenderTrace.Input.Load
import RenderTrace.Proofs.Files.TextFile
import RenderTrace.Proofs.Input.Handle
import RenderTrace.Proofs.Input.Schema
import RenderTrace.Proofs.Json.Ascii
import RenderTrace.Proofs.Json.Document
import RenderTrace.Proofs.Query.Outcome
import RenderTrace.Report.Document

/-!
# Loading files

A file that is read as a document is loaded or refused for what is wrong with its content
(`loaded_or_refused`). A document that passes the check of a kind tells every member that is needed
to turn it into what a profile is made with, and those that may be missing have the type they are
taken for where they are there (`Specifies`, `MapsHandle`, `ListsPass`).
-/

namespace RenderTrace.Input
open Schema

/-! ## What documents tell -/

/-- A member has a value, or it is missing and a default stands for it. -/
def MemberOr {α : Type} (v : Json) (name : String) (f : α → Json) (default a : α) : Prop :=
  v.field? name = some (f a) ∨ v.field? name = none ∧ a = default

/-- A document specifies a counter. -/
structure Specifies (v : Json) (s : CounterSpec) : Prop where
  counterId : v.field? "counter_id" = some (.number s.counterId)
  name : v.field? "name" = some (.text s.name)
  description : MemberOr v "description" .text "" s.description
  numeratorUnits : MemberOr v "numerator_units" .texts [] s.numeratorUnits
  denominatorUnits : MemberOr v "denominator_units" .texts [] s.denominatorUnits
  selectByDefault : MemberOr v "select_by_default" .bool false s.selectByDefault

/-- A document specifies the counters of a device, in their order. -/
def SpecifiesAll (v : Json) (d : Descriptor) : Prop :=
  ∃ xs, v.field? "specs" = some (.array xs) ∧ List.Forall₂ Specifies xs d.specs

/-- A document tells a handle of a trace. -/
structure TellsHandle (v : Json) (h : TraceHandle) : Prop where
  type : v.field? "handle_type" = some (.text h.type)
  value : v.field? "trace_value" = some (.number h.value)

/-- A member of a document maps a replay handle to handles of a trace. -/
def MapsHandle (m : String × Json) (e : Number × List TraceHandle) : Prop :=
  e.1 = .whole (Handle.value m.1) ∧ ∃ xs, m.2 = .array xs ∧ List.Forall₂ TellsHandle xs e.2

/-- A document lists the command range of a render pass. -/
structure ListsPass (v : Json) (e : RenderPass.Key × RenderPass.Range) : Prop where
  order : ∃ n, e.1.order = some n ∧ v.field? "submission_order" = some (.number n)
  commandBuffer : v.field? "command_buffer" = some (.number e.1.commandBuffer)
  renderPass : v.field? "render_pass" = some (.number e.1.renderPass)
  renderTarget : v.field? "render_target" = some (.number e.1.renderTarget)
  start : v.field? "from" = some (.number e.2.start)
  stop : v.field? "to" = some (.number e.2.stop)

/-! ## Members of a record that passes its check -/

theorem texts_of_form {name : String} {v : Json} {xs : List Json}
    (hv : v.field? name = some (.array xs)) (h : ∀ x ∈ xs, JsonType.string.Form x) :
    Json.texts (texts name v) = .array xs := by
  rw [texts, hv]
  refine congrArg Json.array ?_
  clear hv
  induction xs with
  | nil => rfl
  | cons x xs ih =>
    obtain ⟨⟨s, rfl⟩, hxs⟩ := List.forall_mem_cons.mp h
    exact congrArg (Json.text s :: ·) (ih hxs)

section Record
variable {needed : List String} {checks : List (String × Check)} {v : Json} {name : String}
  (h : record needed checks v = [])
include h

theorem field?_number (hname : name ∈ needed) (hcheck : (name, unsigned) ∈ checks) :
    v.field? name = some (.number (number name v)) := by
  obtain ⟨w, hw, hpass⟩ := field?_of_record h hname hcheck
  obtain ⟨n, rfl⟩ := number_of_unsigned hpass
  rw [number, hw]

theorem field?_text {check : Check} (hname : name ∈ needed) (hcheck : (name, check) ∈ checks)
    (hform : ∀ w, check w = [] → JsonType.string.Form w) :
    v.field? name = some (.text (text name v)) := by
  obtain ⟨w, hw, hpass⟩ := field?_of_record h hname hcheck
  obtain ⟨s, rfl⟩ := hform w hpass
  rw [text, hw]

theorem memberOr_text (hcheck : (name, isType .string) ∈ checks) :
    MemberOr v name .text "" (text name v) := by
  cases hw : v.field? name with
  | none => exact .inr ⟨hw, by rw [text, hw]⟩
  | some w =>
    obtain ⟨s, rfl⟩ : JsonType.string.Form w := form_of_isType (check_of_record h hcheck hw)
    exact .inl (by rw [text, hw])

theorem memberOr_flag (hcheck : (name, isType .boolean) ∈ checks) :
    MemberOr v name .bool false (flag name v) := by
  cases hw : v.field? name with
  | none => exact .inr ⟨hw, by rw [flag, hw]⟩
  | some w =>
    obtain ⟨b, rfl⟩ : JsonType.boolean.Form w := form_of_isType (check_of_record h hcheck hw)
    exact .inl (by rw [flag, hw])

theorem memberOr_texts (hcheck : (name, listOf (isType .string)) ∈ checks) :
    MemberOr v name .texts [] (texts name v) := by
  cases hw : v.field? name with
  | none => exact .inr ⟨hw, by rw [texts, hw]; rfl⟩
  | some w =>
    obtain ⟨xs, rfl, hxs⟩ := listOf_eq_nil.mp (check_of_record h hcheck hw)
    have hform : ∀ x ∈ xs, JsonType.string.Form x := fun x hx => form_of_isType (hxs x hx)
    exact .inl (hw.trans (congrArg some (texts_of_form hw hform).symm))

theorem field?_list {check : Check} (hname : name ∈ needed)
    (hcheck : (name, listOf check) ∈ checks) :
    v.field? name = some (.array (list name v)) ∧ ∀ x ∈ list name v, check x = [] := by
  obtain ⟨w, hw, hpass⟩ := field?_of_record h hname hcheck
  obtain ⟨xs, rfl, hxs⟩ := listOf_eq_nil.mp hpass
  have hlist : list name v = xs := by
    rw [list, hw]
    rfl
  rw [hlist]
  exact ⟨hw, hxs⟩

end Record

/-! ## The three kinds -/

variable {t : FileTree} {p : Path} {cs : List Char} {k : InputKind} {v : Json}

def counterShape : Check := record ["counter_id", "name"] [
  ("counter_id", unsigned), ("name", allOf [isType .string, nonEmptyText]),
  ("description", isType .string), ("numerator_units", listOf (isType .string)),
  ("denominator_units", listOf (isType .string)), ("select_by_default", isType .boolean)]

theorem specifies_specOf (h : counterShape v = []) : Specifies v (specOf v) where
  counterId := field?_number h (by simp) (by simp)
  name := field?_text h (by simp) (.tail _ List.mem_cons_self) fun _ hw =>
    form_of_allOf hw List.mem_cons_self
  description := memberOr_text h (by simp)
  numeratorUnits := memberOr_texts h (by simp)
  denominatorUnits := memberOr_texts h (by simp)
  selectByDefault := memberOr_flag h (by simp)

theorem specifiesAll_descriptorOf (h : InputKind.descriptorShape v = []) :
    SpecifiesAll v (descriptorOf v) := by
  obtain ⟨hspecs, hshapes⟩ : v.field? "specs" = some (.array (list "specs" v)) ∧
      ∀ x ∈ list "specs" v, counterShape x = [] :=
    field?_list h List.mem_cons_self List.mem_cons_self
  refine ⟨_, hspecs, ?_⟩
  rw [descriptorOf, List.forall₂_map_right_iff, List.forall₂_same]
  exact fun x hx => specifies_specOf (hshapes x hx)

def renderPassShape : Check :=
  record InputKind.renderPassFields (InputKind.renderPassFields.map fun n => (n, unsigned))

theorem listsPass_renderPassOf (h : renderPassShape v = []) : ListsPass v (renderPassOf v) := by
  have hfield : ∀ name ∈ InputKind.renderPassFields,
      v.field? name = some (.number (number name v)) :=
    fun name hname => field?_number h hname (List.mem_map_of_mem hname)
  exact ⟨⟨_, rfl, hfield _ (by decide)⟩, hfield _ (by decide), hfield _ (by decide),
    hfield _ (by decide), hfield _ (by decide), hfield _ (by decide)⟩

/-- A document lists command ranges of render passes, in the order they are added in. -/
def ListsPasses (v : Json) (entries : List (RenderPass.Key × RenderPass.Range)) : Prop :=
  ∃ xs, v.field? "render_passes" = some (.array xs) ∧ List.Forall₂ ListsPass xs entries

theorem exists_listsPasses (h : InputKind.renderPassesShape v = []) :
    ∃ entries, ListsPasses v entries ∧ renderPassesOf v = RenderPassTable.empty.addAll entries := by
  obtain ⟨hpasses, hshapes⟩ : v.field? "render_passes" = some (.array (list "render_passes" v)) ∧
      ∀ x ∈ list "render_passes" v, renderPassShape x = [] :=
    field?_list h List.mem_cons_self List.mem_cons_self
  refine ⟨_, ⟨_, hpasses, ?_⟩, rfl⟩
  rw [List.forall₂_map_right_iff, List.forall₂_same]
  exact fun x hx => listsPass_renderPassOf (hshapes x hx)

def traceHandleShape : Check := record ["handle_type", "trace_value"] [
  ("handle_type", isType .string), ("trace_value", unsigned)]

theorem tellsHandle_traceHandleOf (h : traceHandleShape v = []) :
    TellsHandle v (traceHandleOf v) where
  type := field?_text h (by simp) List.mem_cons_self fun _ => form_of_isType
  value := field?_number h (by simp) (by simp)

/-- The shape of what one replay handle is mapped to. -/
def traceHandlesShape : Check := allOf [isType .array, nonEmptyArray, items traceHandleShape]

theorem items_of_traceHandlesShape (h : traceHandlesShape v = []) :
    ∃ xs, v = .array xs ∧ ∀ x ∈ xs, traceHandleShape x = [] := by
  obtain ⟨xs, rfl⟩ : JsonType.array.Form v := form_of_allOf h List.mem_cons_self
  have hitems := allOf_eq_nil.mp h (items traceHandleShape)
    (.tail _ (.tail _ List.mem_cons_self))
  exact ⟨xs, rfl, items_eq_nil.mp hitems⟩

theorem member_of_shape {ms : List (String × Json)}
    (h : InputKind.handleMappingShape (.object ms) = []) {m : String × Json} (hm : m ∈ ms) :
    Handle.isHandle m.1 ∧ traceHandlesShape m.2 = [] := by
  have hnames := allOf_eq_nil.mp h (memberNames Handle.isHandle) (by simp)
  have hmembers := allOf_eq_nil.mp h (everyMember traceHandlesShape)
    (.tail _ (.tail _ List.mem_cons_self))
  exact ⟨memberNames_eq_nil.mp hnames m hm, everyMember_eq_nil.mp hmembers m hm⟩

/-- No decimal handle among the names of a document has more digits than an integer may have. -/
def HandlesWithin (v : Json) : Prop :=
  ∀ ms, v = .object ms → ∀ m ∈ ms, Handle.isHandle m.1 →
    (Handle.decimalDigits m.1).length ≤ Number.maxIntegerDigits

theorem read_of_within {s : String} (h : Handle.isHandle s)
    (hdigits : (Handle.decimalDigits s).length ≤ Number.maxIntegerDigits) :
    Handle.read s = .ok (Handle.value s) := by
  rw [Handle.read_of_isHandle h, if_neg (Nat.not_lt.mpr hdigits)]

/-- A document maps replay handles, in the order they are set in. -/
def MapsHandles (v : Json) (m : HandleMap) : Prop :=
  ∃ ms entries, v = .object ms ∧ List.Forall₂ MapsHandle ms entries ∧ m = .ofList entries

theorem exists_mappingEntryOf {m : String × Json} (hname : Handle.isHandle m.1)
    (hdigits : (Handle.decimalDigits m.1).length ≤ Number.maxIntegerDigits)
    (hshape : traceHandlesShape m.2 = []) : ∃ e, mappingEntryOf m = .ok e ∧ MapsHandle m e := by
  obtain ⟨xs, hxs, hitems⟩ := items_of_traceHandlesShape hshape
  refine ⟨(.whole (Handle.value m.1), xs.map traceHandleOf), ?_, rfl, xs, hxs, ?_⟩
  · rw [mappingEntryOf, read_of_within hname hdigits, hxs]
    rfl
  · rw [List.forall₂_map_right_iff, List.forall₂_same]
    exact fun x hx => tellsHandle_traceHandleOf (hitems x hx)

theorem exists_mapsHandles (h : InputKind.handleMappingShape v = []) (hwithin : HandlesWithin v) :
    ∃ m, handleMapOf v = .ok m ∧ MapsHandles v m := by
  obtain ⟨ms, rfl⟩ : JsonType.object.Form v := form_of_allOf h List.mem_cons_self
  obtain ⟨entries, hentries, hmaps⟩ := exists_mapM_eq_ok (f := mappingEntryOf) fun m hm =>
    have ⟨hname, hshape⟩ := member_of_shape h hm
    exists_mappingEntryOf hname (hwithin ms rfl m hm hname) hshape
  refine ⟨.ofList entries, ?_, ms, entries, rfl, hmaps, rfl⟩
  rw [handleMapOf, hentries]
  rfl

/-! ## Files -/

/-- A file is loaded, or it is refused for something that is wrong with its content. -/
def Settled {α : Type} (p : Path) (result : Except LoadError α) : Prop :=
  (∃ a, result = .ok a) ∨ ∃ faults, faults ≠ [] ∧ result = .error (.invalid p faults)

theorem Settled.ok {α : Type} {a : α} : Settled p (.ok a) := .inl ⟨a, rfl⟩

theorem Settled.mapError {ε α : Type} {result : Except ε α} {f : ε → InputFault} :
    Settled p (result.mapError fun e => LoadError.invalid p [f e]) := by
  cases result with
  | ok a => exact .ok
  | error e => exact .inr ⟨_, List.cons_ne_nil _ _, rfl⟩

theorem Settled.map {α β : Type} {result : Except LoadError α} (h : Settled p result) (f : α → β) :
    Settled p (result.map f) := by
  obtain ⟨a, rfl⟩ | ⟨faults, hne, rfl⟩ := h
  · exact .ok
  · exact .inr ⟨faults, hne, rfl⟩

theorem Settled.bind {α β : Type} {result : Except LoadError α} {f : α → Except LoadError β}
    (h : Settled p result) (hf : ∀ a, result = .ok a → Settled p (f a)) :
    Settled p (result >>= f) := by
  obtain ⟨a, rfl⟩ | ⟨faults, hne, rfl⟩ := h
  · exact hf a rfl
  · exact .inr ⟨faults, hne, rfl⟩

section Reading

variable [Zstd.Codec]

theorem document_of_shape (htext : TextFile.read t p = .ok cs) (hread : Json.read cs = .ok v)
    (hshape : k.shape v = []) : document t p k = .ok v := by
  have hviolations : k.violations v InputKind.defaultMost = [] := capped_eq_nil.mpr hshape
  unfold document
  simp only [htext, hread, hviolations, Except.mapError, bind, Except.bind]
  rfl

theorem document_of_violations (htext : TextFile.read t p = .ok cs) (hread : Json.read cs = .ok v)
    (hshape : k.shape v ≠ []) : document t p k =
      .error (.invalid p ((k.violations v InputKind.defaultMost).map .shape)) := by
  have hviolations : k.violations v InputKind.defaultMost ≠ [] := mt capped_eq_nil.mp hshape
  unfold document
  simp only [htext, hread, Except.mapError, bind, Except.bind]

theorem document_of_malformed {fault : Json.Fault} {place : Json.Place}
    (htext : TextFile.read t p = .ok cs) (hread : Json.read cs = .error (.malformed fault place)) :
    document t p k = .error (.invalid p [.malformed fault place.line]) := by
  unfold document
  simp only [htext, hread, Except.mapError, bind, Except.bind]

theorem document_of_unreadable {e : TextFileError} (htext : TextFile.read t p = .error e) :
    document t p k = .error (.unreadable e) := by
  unfold document
  simp only [htext, Except.mapError, bind, Except.bind]

theorem document_of_excess {e : Json.Excess} (htext : TextFile.read t p = .ok cs)
    (hread : Json.read cs = .error (.excess e)) : document t p k = .error (.excess e) := by
  unfold document
  simp only [htext, hread, Except.mapError, bind, Except.bind]

/-- What a kind's check says decides what comes of a file that is read as a document. -/
theorem settled_document (htext : TextFile.read t p = .ok cs)
    (hlimits : ∀ e, Json.read cs ≠ .error (.excess e)) (k : InputKind) :
    Settled p (document t p k) := by
  match hread : Json.read cs with
  | .error (.excess e) => exact absurd hread (hlimits e)
  | .error (.malformed fault place) =>
    exact .inr ⟨_, List.cons_ne_nil _ _, document_of_malformed htext hread⟩
  | .ok v =>
    by_cases hshape : k.shape v = []
    · exact .inl ⟨v, document_of_shape htext hread hshape⟩
    · have hfaults : (k.violations v InputKind.defaultMost).map InputFault.shape ≠ [] :=
        mt List.map_eq_nil_iff.mp (mt capped_eq_nil.mp hshape)
      exact .inr ⟨_, hfaults, document_of_violations htext hread hshape⟩

theorem shape_of_document (htext : TextFile.read t p = .ok cs) (h : document t p k = .ok v) :
    Json.read cs = .ok v ∧ k.shape v = [] := by
  match hread : Json.read cs with
  | .error (.excess e) =>
    rw [document_of_excess htext hread] at h
    exact nomatch h
  | .error (.malformed fault place) =>
    rw [document_of_malformed htext hread] at h
    exact nomatch h
  | .ok w =>
    by_cases hshape : k.shape w = []
    · rw [document_of_shape htext hread hshape] at h
      obtain rfl := Except.ok.inj h
      exact ⟨rfl, hshape⟩
    · rw [document_of_violations htext hread hshape] at h
      exact nomatch h

theorem shape_of_document_eq_ok (h : document t p k = .ok v) : k.shape v = [] := by
  cases htext : TextFile.read t p with
  | error e =>
    rw [document_of_unreadable htext] at h
    exact nomatch h
  | ok cs => exact (shape_of_document htext h).2

theorem descriptor_of_document (h : document t p .descriptor = .ok v) :
    descriptor t p = .ok (descriptorOf v) := by
  rw [descriptor, h]
  rfl

theorem handleMap_of_document (h : document t p .handleMapping = .ok v) :
    handleMap t p = handleMapOf v := by
  rw [handleMap, h]
  rfl

theorem renderPasses_of_document (h : document t p .renderPasses = .ok v) :
    renderPasses t p = (renderPassesOf v).mapError fun e => .invalid p [.inverted e] := by
  rw [renderPasses, h]
  rfl

theorem read_encode
    (hbytes : TextFile.bytes t p = .ok (Text.Utf8.encode v.write.toList)) :
    TextFile.read t p = .ok v.write.toList := by
  have hfeeds : '\r' ∉ v.write.toList := by
    rw [Json.write, String.toList_ofList]
    intro hmem
    exact absurd (Json.allPlain_writeValue 0 v _ hmem) (by decide)
  rw [TextFile.read_of_bytes hbytes, TextFile.decode_utf8Encode, Text.unifyNewlines_of_notMem hfeeds]

/-- A file that is read as a document is loaded by the loader of each kind, or refused for what is
wrong with its content. A document that passes the check of a kind is turned into what it tells, but for
a range of a render pass that ends before it starts. Only decimal handles of more digits than an integer
may have are left out. -/
theorem loaded_or_refused (htext : TextFile.read t p = .ok cs)
    (hlimits : ∀ e, Json.read cs ≠ .error (.excess e)) :
    (Settled p (descriptor t p) ∧
      ((∀ v, Json.read cs = .ok v → HandlesWithin v) → Settled p (handleMap t p)) ∧
      Settled p (renderPasses t p)) ∧
    (∀ v, Json.read cs = .ok v →
      (InputKind.descriptorShape v = [] → ∃ d, descriptor t p = .ok d ∧ SpecifiesAll v d) ∧
      (InputKind.handleMappingShape v = [] → HandlesWithin v →
        ∃ m, handleMap t p = .ok m ∧ MapsHandles v m) ∧
      (InputKind.renderPassesShape v = [] → ∃ entries, ListsPasses v entries ∧
        renderPasses t p =
          (RenderPassTable.empty.addAll entries).mapError fun e => .invalid p [.inverted e])) ∧
    ∀ s, Handle.isHandle s → (Handle.decimalDigits s).length ≤ Number.maxIntegerDigits →
      Handle.read s = .ok (Handle.value s) := by
  have hdocument := settled_document htext hlimits
  refine ⟨⟨(hdocument _).map _, fun hwithin => ?_, ?_⟩, fun v hread => ⟨fun hshape => ?_,
    fun hshape hwithin => ?_, fun hshape => ?_⟩, fun s => read_of_within⟩
  · refine (hdocument _).bind fun v hv => ?_
    obtain ⟨hread, hshape⟩ := shape_of_document htext hv
    obtain ⟨m, hm, -⟩ := exists_mapsHandles hshape (hwithin v hread)
    exact .inl ⟨m, hm⟩
  · exact (hdocument _).bind fun v _ => .mapError
  · have hload := descriptor_of_document (document_of_shape htext hread hshape)
    exact ⟨_, hload, specifiesAll_descriptorOf hshape⟩
  · obtain ⟨m, hm, hmaps⟩ := exists_mapsHandles hshape hwithin
    exact ⟨m, (handleMap_of_document (document_of_shape htext hread hshape)).trans hm, hmaps⟩
  · obtain ⟨entries, hlists, htable⟩ := exists_listsPasses hshape
    have hload := renderPasses_of_document (document_of_shape htext hread hshape)
    exact ⟨entries, hlists, hload.trans (congrArg (Except.mapError _) htable)⟩

end Reading

def sampleFiles (bytes : List UInt8) : FileTree := ⟨[(["in.json"], .file bytes)]⟩

def samplePath : Path := ⟨"", ["in.json"]⟩

theorem bytes_sampleFiles (bytes : List UInt8) :
    TextFile.bytes (sampleFiles bytes) samplePath = .ok bytes := TextFile.bytes_eq rfl rfl

/-- A mapping of one handle with a line feed at its end. -/
def sampleMapping : Json := .object [("10\n", .array [.object [
  ("handle_type", .text "b"), ("trace_value", .number (.whole 5))]])]

theorem shaped_sampleMapping (depth : Nat) : Json.Shaped (depth + 3) sampleMapping := by
  have hhandle : Json.Shaped (depth + 1) (.object [
      ("handle_type", .text "b"), ("trace_value", .number (.whole 5))]) :=
    .object (by decide) (by simp [Json.Shaped.text, Json.Shaped.number])
  refine .object (by decide) (List.forall_mem_singleton.mpr (.array ?_))
  exact List.forall_mem_singleton.mpr hhandle

theorem read_sampleMapping : Json.read sampleMapping.write.toList = .ok sampleMapping := by
  have hnumbers : sampleMapping.numbers = [5].map .whole := rfl
  exact Json.read_write_of_digits (shaped_sampleMapping 988) hnumbers (by decide)

theorem loaded_or_refused_sample :
    letI := Zstd.Blocks.codec
    Handle.isHandle "10\n" ∧ Handle.read "10\n" = .ok 10 ∧
      Json.read sampleMapping.write.toList = .ok sampleMapping ∧
      ∃ m, handleMap (sampleFiles (Text.Utf8.encode sampleMapping.write.toList)) samplePath =
        .ok m ∧ MapsHandles sampleMapping m := by
  let codec := Zstd.Blocks.codec
  have hread := read_sampleMapping
  have htext := read_encode (bytes_sampleFiles (Text.Utf8.encode sampleMapping.write.toList))
  have hwithin : HandlesWithin sampleMapping := by
    rintro _ ⟨⟩ m hm -
    obtain rfl := List.mem_singleton.mp hm
    decide
  have hhandle : Handle.isHandle "10\n" := by decide
  have hlimits : ∀ e, Json.read sampleMapping.write.toList ≠ .error (.excess e) := by
    rw [hread]
    exact nofun
  obtain ⟨-, hkinds, hnames⟩ := loaded_or_refused htext hlimits
  obtain ⟨-, hmapping, -⟩ := hkinds sampleMapping hread
  exact ⟨hhandle, hnames _ hhandle (by decide), hread, hmapping rfl hwithin⟩

/-! ## A table of one render pass -/

def passDocument (start stop : Int) : Json := .object [("render_passes", .array [.object
  ((InputKind.renderPassFields.zip [.whole 0, .whole 5, .whole 7, .whole 9, .whole start,
    .whole stop]).map fun (name, n) => (name, .number n))])]

def passKey : RenderPass.Key := ⟨some (.whole 0), .whole 5, .whole 7, .whole 9⟩

def passBytes (start stop : Int) : List UInt8 :=
  Text.Utf8.encode (passDocument start stop).write.toList

theorem shaped_passDocument (depth : Nat) (start stop : Int) :
    Json.Shaped (depth + 3) (passDocument start stop) := by
  have hfields : InputKind.renderPassFields.Nodup := by decide
  refine .object (by simp) (List.forall_mem_singleton.mpr (.array ?_))
  refine List.forall_mem_singleton.mpr (.object hfields ?_)
  simp [InputKind.renderPassFields, Json.Shaped.number]

theorem renderPasses_passBytes [Zstd.Codec] {start stop : Int}
    (hbytes : TextFile.bytes t p = .ok (passBytes start stop)) (hstart : start.natAbs < 10)
    (hstop : stop.natAbs < 10) (hshape : InputKind.renderPassesShape (passDocument start stop) = []) :
    renderPasses t p = (RenderPassTable.empty.addAll [(passKey, ⟨.whole start, .whole stop⟩)]).mapError
      fun e => .invalid p [.inverted e] := by
  have hnumbers : (passDocument start stop).numbers = [0, 5, 7, 9, start, stop].map .whole := rfl
  have hread := Json.read_write_of_digits (shaped_passDocument 988 start stop) hnumbers
    (by simpa using ⟨hstart, hstop⟩)
  exact renderPasses_of_document (document_of_shape (read_encode hbytes) hread hshape)

end RenderTrace.Input
