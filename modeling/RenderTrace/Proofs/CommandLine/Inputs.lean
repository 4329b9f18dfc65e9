import RenderTrace.CommandLine.Run
import RenderTrace.Proofs.Input.Validate

/-!
# Input files on the command line

What `validate` says of a file and what `profile` makes of it rest on the same loader. So `validate`
succeeds, however it is asked to print, just if `profile` gets past the file and opens its trace
(`validate_iff_opensTrace`).
-/

namespace RenderTrace.CommandLine
open Input

def ProfileArgs.input (args : ProfileArgs) : InputKind → Option Path
  | .descriptor => args.descriptor
  | .handleMapping => args.handleMapping
  | .renderPasses => args.renderPasses

/-- The loader of a kind gives something. -/
def Loads [Zstd.Codec] (files : FileTree) (p : Path) : InputKind → Prop
  | .descriptor => ∃ d, Input.descriptor files p = .ok d
  | .handleMapping => ∃ m, Input.handleMap files p = .ok m
  | .renderPasses => ∃ t, Input.renderPasses files p = .ok t

/-- The loader of a kind fails with an error. -/
def Fails [Zstd.Codec] (files : FileTree) (p : Path) (e : LoadError) : InputKind → Prop
  | .descriptor => Input.descriptor files p = .error e
  | .handleMapping => Input.handleMap files p = .error e
  | .renderPasses => Input.renderPasses files p = .error e

/-- The trace is announced, and the engine that holds it is closed in the end. -/
def Outcome.OpensTrace (o : Outcome) (trace : Path) : Prop :=
  .loadingTrace trace.text ∈ o.events ∧ .close ∈ o.calls

variable {files : FileTree} {p : Path} {k : InputKind}

/-! ## Loading and validating -/

theorem map_eq_error_unit {α : Type} {x : Except LoadError α} {e : LoadError} :
    (x.map fun _ => ()) = .error e ↔ x = .error e := by
  cases x <;> simp [Except.map]

section Loading

variable [Zstd.Codec]

theorem loads_iff : Loads files p k ↔ load files p k = .ok () := by
  cases k <;> exact Validation.map_eq_ok_unit.symm

theorem fails_iff {e : LoadError} : Fails files p e k ↔ load files p k = .error e := by
  cases k <;> exact map_eq_error_unit.symm

theorem Fails.not_loads {e : LoadError} (h : Fails files p e k) : ¬ Loads files p k := by
  intro hloads
  exact nomatch (fails_iff.mp h).symm.trans (loads_iff.mp hloads)

section Validation

variable {bytes : List UInt8} (hbytes : TextFile.bytes files p = .ok bytes)
include hbytes

theorem exists_valid_iff :
    (∃ r, Validation.ofFile files p k = .ok r ∧ r.valid = true) ↔ Loads files p k := by
  rw [loads_iff]
  constructor
  · rintro ⟨r, hr, hvalid⟩
    obtain ⟨r', hr', hreports⟩ | ⟨e, he, -⟩ := Validation.ofFile_cases hbytes k
    · obtain rfl := Except.ok.inj (hr.symm.trans hr')
      exact (Validation.load_eq_ok_iff hbytes).mpr (hreports.valid_iff_accepted.mp hvalid)
    · exact nomatch hr.symm.trans he
  · intro hload
    exact ⟨_, Validation.ofFile_of_load hbytes hload, rfl⟩

theorem exists_report_of_invalid {p' : Path} {faults : List InputFault}
    (h : Fails files p (.invalid p' faults) k) :
    ∃ r, Validation.ofFile files p k = .ok r ∧ r.valid = false ∧
      r.errors = faults.map InputFault.message := by
  have hload := fails_iff.mp h
  have hofFile := Validation.ofFile_of_reported hbytes hload rfl
  refine ⟨_, hofFile, ?_, rfl⟩
  apply Bool.eq_false_iff.mpr
  intro hvalid
  exact h.not_loads ((exists_valid_iff hbytes).mp ⟨_, hofFile, hvalid⟩)

end Validation

end Loading

namespace Surroundings

variable {s : Surroundings}

theorem exitCode_validate_eq_zero_iff [Zstd.Codec] {args : ValidateArgs}
    (hkind : args.kind.or (InputKind.detect? args.file) = some k) :
    (s.validate args).exitCode = 0 ↔
      ∃ r, Validation.ofFile s.files args.file k = .ok r ∧ r.valid = true := by
  unfold validate
  simp only [hkind]
  cases Validation.ofFile s.files args.file k with
  | error e => simp [crash, finish]
  | ok r => cases h : r.valid <;> simp [finish, h]

/-! ## Profiling -/

theorem exists_mapM_iff {α β ε : Type} {f : α → Except ε β} {o : Option α} :
    (∃ r, o.mapM f = .ok r) ↔ ∀ a, o = some a → ∃ b, f a = .ok b := by
  cases o with
  | none => simp [pure, Except.pure]
  | some a => cases h : f a <;> simp [h, Functor.map, Except.map]

section Profiling

variable [Zstd.Codec]

theorem exists_loadInputs_iff {args : ProfileArgs} :
    (∃ inputs, loadInputs files args = .ok inputs) ↔
      ∀ k p, args.input k = some p → Loads files p k := by
  have hdescriptor := exists_mapM_iff (f := Input.descriptor files) (o := args.descriptor)
  have hhandles := exists_mapM_iff (f := Input.handleMap files) (o := args.handleMapping)
  have hpasses := exists_mapM_iff (f := Input.renderPasses files) (o := args.renderPasses)
  constructor
  · rintro ⟨inputs, hinputs⟩
    obtain ⟨d, hd, hinputs⟩ := bind_eq_ok.mp hinputs
    obtain ⟨m, hm, hinputs⟩ := bind_eq_ok.mp hinputs
    obtain ⟨t, ht, -⟩ := bind_eq_ok.mp hinputs
    intro k
    cases k with
    | descriptor => exact hdescriptor.mp ⟨d, hd⟩
    | handleMapping => exact hhandles.mp ⟨m, hm⟩
    | renderPasses => exact hpasses.mp ⟨t, ht⟩
  · intro h
    obtain ⟨d, hd⟩ := hdescriptor.mpr (h .descriptor)
    obtain ⟨m, hm⟩ := hhandles.mpr (h .handleMapping)
    obtain ⟨t, ht⟩ := hpasses.mpr (h .renderPasses)
    exact ⟨_, bind_eq_ok.mpr ⟨d, hd, bind_eq_ok.mpr ⟨m, hm, bind_eq_ok.mpr ⟨t, ht, rfl⟩⟩⟩⟩

theorem deliver_eq (o : Outcome) (args : ProfileArgs) (text : String) :
    (deliver o args text).events = o.events ∧ (deliver o args text).calls = o.calls := by
  unfold deliver
  split
  · exact ⟨rfl, rfl⟩
  · split <;> exact ⟨rfl, rfl⟩

theorem opensTrace_profileLoaded {args : ProfileArgs} (inputs : Profile.Inputs)
    (htrace : TextFile.require s.files args.trace = .ok ()) :
    (s.profileLoaded args inputs).OpensTrace args.trace := by
  have hopen : Session.openTrace s.files args.trace [] =
      .ok ⟨args.trace, [], 0, false, [], [.loadingTrace args.trace.text]⟩ := by
    rw [Session.openTrace, htrace]
    rfl
  unfold profileLoaded
  rw [hopen]
  dsimp only
  generalize (s.profileOf args inputs).run
    { Progress.start (some (requestOf args)) with now := s.elapsed } = made
  obtain ⟨⟨profile, events⟩, progress⟩ := made
  dsimp only
  cases profileText args profile with
  | error f => simp [Outcome.OpensTrace]
  | ok text =>
    dsimp only
    rw [Outcome.OpensTrace, (deliver_eq _ args text).1, (deliver_eq _ args text).2]
    simp

theorem opensTrace_profile_iff {args : ProfileArgs}
    (hcompress : args.compress = true → args.output ≠ none)
    (htrace : TextFile.require s.files args.trace = .ok ()) :
    (s.profile args).OpensTrace args.trace ↔ ∃ inputs, loadInputs s.files args = .ok inputs := by
  have hasked : ¬ (args.compress && args.output.isNone) = true := by simpa using hcompress
  unfold profile
  rw [if_neg hasked]
  cases loadInputs s.files args with
  | error e => cases e <;> simp [Outcome.OpensTrace, crash, finish]
  | ok inputs => simpa using opensTrace_profileLoaded inputs htrace

/-- A file that is there is reported as valid just if its loader gives something, and what it is refused
for is what is reported. Validating it succeeds just if a profile that is asked for with it, and with
nothing else that stands in the way, opens its trace. -/
theorem validate_iff_opensTrace {path : Path} {bytes : List UInt8}
    (hbytes : TextFile.bytes s.files path = .ok bytes) (k : InputKind) :
    ((∃ r, Validation.ofFile s.files path k = .ok r ∧ r.valid = true) ↔ Loads s.files path k) ∧
    (∀ p faults, Fails s.files path (.invalid p faults) k →
      ∃ r, Validation.ofFile s.files path k = .ok r ∧ r.valid = false ∧
        r.errors = faults.map InputFault.message) ∧
    ∀ (check : ValidateArgs) (make : ProfileArgs),
      check.file = path → check.kind.or (InputKind.detect? path) = some k →
      make.input k = some path →
      (∀ k' p, k' ≠ k → make.input k' = some p → Loads s.files p k') →
      TextFile.require s.files make.trace = .ok () → (make.compress = true → make.output ≠ none) →
      ((s.validate check).exitCode = 0 ↔ (s.profile make).OpensTrace make.trace) := by
  refine ⟨exists_valid_iff hbytes, fun p faults => exists_report_of_invalid hbytes, ?_⟩
  intro check make hfile hkind hinput hothers htrace hcompress
  subst hfile
  rw [exitCode_validate_eq_zero_iff hkind, exists_valid_iff hbytes,
    opensTrace_profile_iff hcompress htrace, exists_loadInputs_iff]
  constructor
  · intro hloads k' p hp
    by_cases hk : k' = k
    · subst hk
      obtain rfl := Option.some.inj (hinput.symm.trans hp)
      exact hloads
    · exact hothers k' p hk hp
  · intro hall
    exact hall k _ hinput

end Profiling

/-- A trace, and a table of one render pass with a range that ends before it starts. -/
def invertedSurroundings : Surroundings where
  files := ⟨[(["t"], .file []), (["in.json"], .file (passBytes 5 3))]⟩
  engine := fun _ => .ok ⟨[], []⟩
  elapsed := 0

def tableCheck : ValidateArgs := ⟨samplePath, some .renderPasses, true, false, false⟩

def tableProfile : ProfileArgs where
  trace := ⟨"", ["t"]⟩
  descriptor := none
  handleMapping := none
  renderPasses := some samplePath
  format := .json
  part := none
  showHeader := true
  jobs := 1
  timeout := none
  output := none
  compress := false

theorem validate_iff_opensTrace_sample :
    letI := Zstd.Blocks.codec
    let s := invertedSurroundings
    let error : RenderPassTable.Inverted := ⟨passKey, ⟨5, 3⟩⟩
    TextFile.bytes s.files samplePath = .ok (passBytes 5 3) ∧
      (∃ r, Validation.ofFile s.files samplePath .renderPasses = .ok r ∧ r.valid = false ∧
        r.errors = [error.message]) ∧
      ¬ (s.profile tableProfile).OpensTrace tableProfile.trace ∧
      (s.validate tableCheck).exitCode ≠ 0 := by
  let codec := Zstd.Blocks.codec
  intro s error
  have hbytes : TextFile.bytes s.files samplePath = .ok (passBytes 5 3) := TextFile.bytes_eq rfl rfl
  have hfails : Input.renderPasses s.files samplePath =
      .error (.invalid samplePath [.inverted error]) :=
    renderPasses_passBytes hbytes (by decide) (by decide) rfl
  have hloads : ¬ Loads s.files samplePath .renderPasses := by
    rintro ⟨t, ht⟩
    exact nomatch hfails.symm.trans ht
  have hnot : ¬ (s.profile tableProfile).OpensTrace tableProfile.trace := by
    have hopens : (s.profile tableProfile).OpensTrace tableProfile.trace ↔
        ∃ inputs, loadInputs s.files tableProfile = .ok inputs := opensTrace_profile_iff nofun rfl
    rw [hopens, exists_loadInputs_iff]
    intro hall
    exact hloads (hall .renderPasses _ rfl)
  obtain ⟨-, hreport, hcommands⟩ := validate_iff_opensTrace hbytes .renderPasses
  have hothers : ∀ k p, k ≠ .renderPasses → tableProfile.input k = some p → Loads s.files p k := by
    intro k p hk hp
    cases k with
    | descriptor | handleMapping => simp [ProfileArgs.input, tableProfile] at hp
    | renderPasses => exact absurd rfl hk
  have hagree := hcommands tableCheck tableProfile rfl rfl rfl hothers rfl nofun
  exact ⟨hbytes, hreport _ _ hfails, hnot, mt hagree.mp hnot⟩

end Surroundings
end RenderTrace.CommandLine
