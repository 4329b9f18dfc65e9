import RenderTrace.Proofs.CommandLine.Inputs
import RenderTrace.Proofs.Entries

/-!
# Refused profiles

A profile checks what it is asked for and loads its input files one after the other, up to the first
that fails (`loadInputs_eq_error_iff`), and only then does it open its trace. So a profile that is
refused leaves the trace and the files alone and tells the first thing that is wrong, whatever comes
after it (`Surroundings.run_refused`).
-/

namespace RenderTrace

theorem forM_eq_error_iff {ε α : Type} {f : α → Except ε Unit} {xs : List α} {e : ε} :
    forM xs f = .error e ↔
      ∃ before a after, FirstWith (fun a => f a ≠ .ok ()) xs before a after ∧ f a = .error e := by
  induction xs with
  | nil =>
    constructor
    · intro h
      exact nomatch h
    · rintro ⟨before, a, after, h, -⟩
      exact nomatch h.mem
  | cons x xs ih =>
    rw [List.forM_cons, bind_eq_error_iff]
    by_cases hx : f x = .ok ()
    · simp only [firstWith_cons_of_not (P := fun a => f a ≠ .ok ()) (not_not.mpr hx)]
      constructor
      · rintro (h | ⟨_, -, h⟩)
        · exact nomatch hx.symm.trans h
        · obtain ⟨before, a, after, hfirst, ha⟩ := ih.mp h
          exact ⟨_, a, after, ⟨before, rfl, hfirst⟩, ha⟩
      · rintro ⟨-, a, after, ⟨before, -, hfirst⟩, ha⟩
        exact .inr ⟨(), hx, ih.mpr ⟨before, a, after, hfirst, ha⟩⟩
    · simp only [firstWith_cons_self (P := fun a => f a ≠ .ok ()) hx]
      constructor
      · rintro (h | ⟨_, h, -⟩)
        · exact ⟨[], x, xs, ⟨rfl, rfl, rfl⟩, h⟩
        · exact absurd h hx
      · rintro ⟨_, _, _, ⟨-, rfl, -⟩, h⟩
        exact .inl h

namespace CommandLine
open Input

variable {files : FileTree} {args : ProfileArgs}

/-! ## Loading one file after the other -/

/-- The input files that are given, in the order in which they are loaded. -/
def ProfileArgs.inputs (args : ProfileArgs) : List (InputKind × Path) :=
  InputKind.all.flatMap fun k => (args.input k).toList.map (k, ·)

theorem mem_inputs_iff {i : InputKind × Path} : i ∈ args.inputs ↔ args.input i.1 = some i.2 := by
  obtain ⟨k, p⟩ := i
  have hall : k ∈ InputKind.all := by cases k <;> decide
  simp [ProfileArgs.inputs, hall]

theorem forM_toList {ε α β : Type} (k : InputKind) (f : α → Except ε β) (o : Option α)
    (load : InputKind × α → Except ε Unit) (h : ∀ a, load (k, a) = (f a).map fun _ => ()) :
    forM (o.toList.map (k, ·)) load = (o.mapM f).map fun _ => () := by
  cases o with
  | none => rfl
  | some a =>
    show (load (k, a) >>= fun _ => .ok ()) = _
    rw [h, Option.mapM_some]
    cases f a <;> rfl

namespace Surroundings

theorem map_loadInputs [Zstd.Codec] : (loadInputs files args).map (fun _ => ()) =
    forM args.inputs fun i => load files i.2 i.1 := by
  have hdescriptor := forM_toList .descriptor (Input.descriptor files) args.descriptor
    (fun i => load files i.2 i.1) fun _ => rfl
  have hhandles := forM_toList .handleMapping (Input.handleMap files) args.handleMapping
    (fun i => load files i.2 i.1) fun _ => rfl
  have hpasses := forM_toList .renderPasses (Input.renderPasses files) args.renderPasses
    (fun i => load files i.2 i.1) fun _ => rfl
  simp only [ProfileArgs.inputs, InputKind.all, ProfileArgs.input, List.flatMap_cons,
    List.flatMap_nil, List.append_nil, List.forM_append, hdescriptor, hhandles, hpasses]
  unfold loadInputs
  cases args.descriptor.mapM (Input.descriptor files) with
  | error e => rfl
  | ok d =>
    cases args.handleMapping.mapM (Input.handleMap files) with
    | error e => rfl
    | ok m => cases args.renderPasses.mapM (Input.renderPasses files) <;> rfl

theorem loadInputs_eq_error_iff [Zstd.Codec] {e : LoadError} :
    loadInputs files args = .error e ↔
    ∃ before i after, FirstWith (fun i => ¬ Loads files i.2 i.1) args.inputs before i after ∧
      Fails files i.2 e i.1 := by
  rw [← map_eq_error_unit, map_loadInputs, forM_eq_error_iff]
  simp only [loads_iff, fails_iff]

end Surroundings

/-! ## Refusing -/

/-- A profile is asked to compress what it prints. -/
def ProfileArgs.CompressesNoFile (args : ProfileArgs) : Prop :=
  args.compress = true ∧ args.output = none

/-- An input file is refused for its content. -/
def ProfileArgs.HasInvalidInput [Zstd.Codec] (args : ProfileArgs) (files : FileTree) : Prop :=
  ∃ i ∈ args.inputs, ∃ p faults, Fails files i.2 (.invalid p faults) i.1

/-- A command fails with the trace not opened and the files as they are. -/
structure Outcome.FailsEarly (o : Outcome) (files : FileTree) : Prop where
  exitCode : o.exitCode = 1
  stdout : o.stdout = ""
  files : o.files = files
  events : o.events = []
  calls : o.calls = []

/-- A command tells what is wrong with what it is asked for. -/
structure Outcome.Tells (o : Outcome) (message : String) : Prop where
  stderr : o.stderr = Text.dropControlSequences (errorLine message)
  crash : o.crash = none

theorem Outcome.FailsEarly.withoutControls {o : Outcome} (h : o.FailsEarly files) :
    o.withoutControls.FailsEarly files where
  exitCode := h.exitCode
  stdout := by
    rw [Outcome.withoutControls, h.stdout, Text.dropControlSequences, String.toList_empty,
      Text.outsideControls]
    rfl
  files := h.files
  events := h.events
  calls := h.calls

namespace Surroundings

variable {s : Surroundings} {e : LoadError}

theorem failsEarly_finish (stderr : String) : (s.finish 1 "" stderr).FailsEarly s.files :=
  ⟨rfl, rfl, rfl, rfl, rfl⟩

theorem tells_finish (message : String) :
    (s.finish 1 "" (errorLine message)).withoutControls.Tells message :=
  ⟨rfl, rfl⟩

theorem compressesNoFile_iff :
    (args.compress && args.output.isNone) = true ↔ args.CompressesNoFile := by
  simp [ProfileArgs.CompressesNoFile]

/-- Ends a profile with an input file that does not load. -/
def refuse (s : Surroundings) : LoadError → Outcome
  | .invalid p faults => s.finish 1 "" (errorLine (LoadError.invalid p faults).message)
  | e => s.crash (.load e)

theorem failsEarly_refuse (e : LoadError) : (s.refuse e).FailsEarly s.files := by
  cases e <;> exact ⟨rfl, rfl, rfl, rfl, rfl⟩

section Profiling

variable [Zstd.Codec]

theorem profile_of_compresses (h : args.CompressesNoFile) :
    s.profile args = s.finish 1 "" (errorLine "--compress requires --output") := by
  rw [profile, if_pos (compressesNoFile_iff.mpr h)]

theorem profile_of_loadInputs (h : ¬ args.CompressesNoFile)
    (hload : loadInputs s.files args = .error e) : s.profile args = s.refuse e := by
  rw [profile, if_neg (mt compressesNoFile_iff.mp h), hload]
  cases e <;> rfl

theorem exists_loadInputs_eq_error (h : args.HasInvalidInput s.files) :
    ∃ e, loadInputs s.files args = .error e := by
  obtain ⟨i, hi, p, faults, hfails⟩ := h
  rw [exists_error_iff, exists_loadInputs_iff]
  intro hloads
  exact hfails.not_loads (hloads _ _ (mem_inputs_iff.mp hi))

theorem run_of_profile {words : List String} {verbosity : Nat}
    (hread : Line.read s.files words = .ok ⟨verbosity, .profile args⟩) :
    s.run words = (s.profile args).withoutControls := by
  rw [run, hread]
  rfl

/-- A profile that is asked to compress what it prints, or with an input file that is refused for its
content, fails before it opens its trace and asks the engine for nothing, whatever the trace is, and no
file is written. It tells the first thing that is wrong: what it was asked to compress, then the first
file that does not load, whatever the files behind that one contain. -/
theorem run_refused {words : List String} {verbosity : Nat}
    (hread : Line.read s.files words = .ok ⟨verbosity, .profile args⟩)
    (hrefused : args.CompressesNoFile ∨ args.HasInvalidInput s.files) :
    (s.run words).FailsEarly s.files ∧
    (∀ engine elapsed trace, profile ⟨s.files, engine, elapsed⟩ { args with trace } =
      s.profile args) ∧
    (args.CompressesNoFile → (s.run words).Tells "--compress requires --output") ∧
    (¬ args.CompressesNoFile → ∀ before i after p faults,
      FirstWith (fun i => ¬ Loads s.files i.2 i.1) args.inputs before i after →
      Fails s.files i.2 (.invalid p faults) i.1 →
        (s.run words).Tells (LoadError.invalid p faults).message) := by
  rw [run_of_profile hread]
  by_cases hcompress : args.CompressesNoFile
  · rw [profile_of_compresses hcompress]
    refine ⟨(failsEarly_finish _).withoutControls, fun engine elapsed trace => ?_,
      fun _ => tells_finish _, fun hnot => absurd hcompress hnot⟩
    have hasked : ProfileArgs.CompressesNoFile { args with trace } := hcompress
    exact profile_of_compresses hasked
  · obtain ⟨e, hload⟩ := exists_loadInputs_eq_error (hrefused.resolve_left hcompress)
    rw [profile_of_loadInputs hcompress hload]
    refine ⟨(failsEarly_refuse e).withoutControls, fun engine elapsed trace => ?_,
      fun h => absurd h hcompress, fun _ before i after p faults hfirst hfails => ?_⟩
    · have hasked : ¬ ProfileArgs.CompressesNoFile { args with trace } := hcompress
      exact profile_of_loadInputs hasked hload
    · obtain rfl : e = .invalid p faults := Except.error.inj (hload.symm.trans
        (loadInputs_eq_error_iff.mpr ⟨before, i, after, hfirst, hfails⟩))
      exact tells_finish _

end Profiling

/-- A trace, an empty file, and a table of one render pass with a range that ends before it starts. -/
def faultySurroundings : Surroundings where
  files := ⟨[(["t"], .file []), (["d"], .file []), (["r"], .file (passBytes 5 3))]⟩
  engine := fun _ => .ok ⟨[], []⟩
  elapsed := 0

def faultyWords : List String := ["profile", "-r", "r", "-d", "d", "t"]

def emptyPath : Path := ⟨"", ["d"]⟩

def faultyProfile : ProfileArgs :=
  { tableProfile with
    descriptor := some emptyPath
    renderPasses := some ⟨"", ["r"]⟩
    format := .table }

theorem read_faultyWords :
    Line.read faultySurroundings.files faultyWords = .ok ⟨0, .profile faultyProfile⟩ := by
  have hname : scan globalOptions false faultyWords = .ok ⟨[], faultyWords⟩ := by
    simp [faultyWords, scan, isOptionWord]
  have hwords : scan profileOptions true faultyWords.tail = .ok ⟨
      [⟨⟨"--render-passes", some 'r', .existingPath⟩, some "r"⟩,
        ⟨⟨"--descriptor", some 'd', .existingPath⟩, some "d"⟩], ["t"]⟩ := by
    simp [faultyWords, scan, isOptionWord, readWord, readShort, profileOptions, OptionSpec.takesValue]
    rfl
  rw [Line.read, hname]
  show (readCommand _ _ _ _ faultyWords.tail >>= fun c => .ok ⟨0, c⟩ : Except UsageError Line) = _
  rw [readCommand, hwords]
  rfl

theorem descriptor_emptyPath [Zstd.Codec] : Input.descriptor faultySurroundings.files emptyPath =
    .error (.invalid emptyPath [.malformed .value 1]) := by
  have hbytes : TextFile.bytes faultySurroundings.files emptyPath = .ok [] := TextFile.bytes_eq rfl rfl
  have htext : TextFile.read faultySurroundings.files emptyPath = .ok [] :=
    TextFile.read_of_bytes hbytes
  have hread : Json.read [] = .error (.malformed .value ⟨1, 1, 0⟩) := rfl
  rw [Input.descriptor, document_of_malformed htext hread]
  rfl

/-- The empty file is told, which is loaded first, and not the table. -/
theorem run_refused_sample :
    letI := Zstd.Blocks.codec
    let o := faultySurroundings.run faultyWords
    Line.read faultySurroundings.files faultyWords = .ok ⟨0, .profile faultyProfile⟩ ∧
      faultyProfile.HasInvalidInput faultySurroundings.files ∧
      o.FailsEarly faultySurroundings.files ∧
      o.Tells (LoadError.invalid emptyPath [.malformed .value 1]).message := by
  let codec := Zstd.Blocks.codec
  intro o
  have hfails : Fails faultySurroundings.files emptyPath
    (.invalid emptyPath [.malformed .value 1]) .descriptor := descriptor_emptyPath
  have hinvalid : faultyProfile.HasInvalidInput faultySurroundings.files :=
    ⟨(.descriptor, emptyPath), List.mem_cons_self, _, _, hfails⟩
  have hfirst : FirstWith (fun i => ¬ Loads faultySurroundings.files i.2 i.1) faultyProfile.inputs []
      (.descriptor, emptyPath) [(.renderPasses, ⟨"", ["r"]⟩)] :=
    ⟨rfl, hfails.not_loads, List.forall_mem_nil _⟩
  obtain ⟨hearly, -, -, htells⟩ := run_refused read_faultyWords (.inr hinvalid)
  exact ⟨read_faultyWords, hinvalid, hearly, htells nofun _ _ _ _ _ hfirst hfails⟩

end Surroundings
end CommandLine
end RenderTrace
