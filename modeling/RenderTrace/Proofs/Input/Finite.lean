import RenderTrace.Proofs.CommandLine.Inputs
import RenderTrace.Proofs.Input.Spelling
import RenderTrace.Proofs.Number.Finite
import RenderTrace.Proofs.Profile.EmptyRange

/-!
# Finite inputs

A number passes the check of an input file only if it is finite. So all numbers that a profile takes over
from files are finite (`Profile.Inputs.Finite.of_loadInputs`).
-/

namespace RenderTrace

def RenderPass.Range.Finite (r : RenderPass.Range) : Prop :=
  r.start.isFinite = true ∧ r.stop.isFinite = true

/-- The numbers that a profile takes over from its inputs are finite. -/
structure Profile.Inputs.Finite (inputs : Inputs) : Prop where
  specs : ∀ d ∈ inputs.descriptor, ∀ spec ∈ d.specs, spec.counterId.isFinite = true
  handles : ∀ m ∈ inputs.handles, ∀ h, ∀ target ∈ m.targets h, target.value.isFinite = true
  renderPasses : ∀ key range, inputs.renderPasses key = .ok (some range) → range.Finite

namespace RenderPassTable
open RenderPass

theorem finite_addAll {t t' : RenderPassTable} {entries : List (Key × Range)}
    (hadd : t.addAll entries = .ok t') (ht : ∀ e ∈ t.entries, e.2.Finite)
    (hentries : ∀ e ∈ entries, e.2.Finite) : ∀ e ∈ t'.entries, e.2.Finite := by
  induction entries generalizing t with
  | nil => exact Except.ok.inj hadd ▸ ht
  | cons e entries ih =>
    obtain ⟨hfirst, hrest⟩ := List.forall_mem_cons.mp hentries
    obtain ⟨next, hnext, hadd⟩ := addAll_cons_eq_ok.mp hadd
    obtain ⟨-, rfl⟩ := add_eq_ok hnext
    refine ih hadd (fun e' he' => ?_) hrest
    rcases mem_put he' with hrange | he'
    · exact hrange ▸ hfirst
    · exact ht e' he'

end RenderPassTable

namespace Input
open Schema

variable {files : FileTree} {p : Path} {v : Json}

/-! ## Documents that pass their check -/

theorem isFinite_of_unsigned {n : Number} (h : unsigned (.number n) = []) : n.isFinite = true := by
  cases n with
  | whole n => rfl
  | double x =>
    have htype : isType .integer (.number (.double x)) = [] :=
      allOf_eq_nil.mp h _ List.mem_cons_self
    exact Number.isFinite_of_isIntegral (isType_eq_nil.mp htype)

theorem isFinite_number {needed : List String} {checks : List (String × Check)} {name : String}
    (h : record needed checks v = []) (hcheck : (name, unsigned) ∈ checks) :
    (number name v).isFinite = true := by
  unfold number
  split
  · next hfield => exact isFinite_of_unsigned (check_of_record h hcheck hfield)
  · rfl

theorem finite_descriptorOf (h : InputKind.descriptorShape v = []) :
    ∀ spec ∈ (descriptorOf v).specs, spec.counterId.isFinite = true := by
  have hshapes : ∀ x ∈ list "specs" v, counterShape x = [] :=
    (field?_list h List.mem_cons_self List.mem_cons_self).2
  refine List.forall_mem_map.mpr fun x hx => ?_
  exact isFinite_number (hshapes x hx) List.mem_cons_self

theorem finite_traceHandles (h : traceHandlesShape v = []) :
    ∀ target ∈ v.items.map traceHandleOf, target.value.isFinite = true := by
  obtain ⟨xs, rfl, hitems⟩ := items_of_traceHandlesShape h
  refine List.forall_mem_map.mpr fun x hx => ?_
  exact isFinite_number (hitems x hx) (.tail _ List.mem_cons_self)

theorem finite_handleMapOf (h : InputKind.handleMappingShape v = []) {m : HandleMap}
    (hm : handleMapOf v = .ok m) (handle : Number) :
    ∀ target ∈ m.targets handle, target.value.isFinite = true := by
  obtain ⟨ms, rfl⟩ : JsonType.object.Form v := form_of_allOf h List.mem_cons_self
  obtain ⟨entries, hentries, rfl⟩ := map_eq_ok.mp hm
  rw [HandleMap.targets_eq, HandleMap.targets?_ofList]
  cases hfind : entries.reverse.find? fun e => e.1 == handle with
  | none => exact nofun
  | some e =>
    have he : e ∈ entries := List.mem_reverse.mp (List.mem_of_find?_eq_some hfind)
    obtain ⟨member, hmember, hentry⟩ := (exists_of_mem_forall₂ (mapM_eq_ok_iff.mp hentries)).2 e he
    obtain ⟨n, -, hentry⟩ := bind_eq_ok.mp hentry
    obtain rfl := Except.ok.inj hentry
    exact finite_traceHandles (member_of_shape h hmember).2

theorem finite_renderPassesOf (h : InputKind.renderPassesShape v = []) {t : RenderPassTable}
    (ht : renderPassesOf v = .ok t) : ∀ e ∈ t.entries, e.2.Finite := by
  have hshapes : ∀ x ∈ list "render_passes" v, renderPassShape x = [] :=
    (field?_list h List.mem_cons_self List.mem_cons_self).2
  have hfield : ∀ x ∈ list "render_passes" v, ∀ name ∈ InputKind.renderPassFields,
      (number name x).isFinite = true := fun x hx name hname =>
    isFinite_number (hshapes x hx) (List.mem_map_of_mem hname)
  refine RenderPassTable.finite_addAll ht (List.forall_mem_nil _)
    (List.forall_mem_map.mpr fun x hx => ?_)
  exact ⟨hfield x hx _ (by decide), hfield x hx _ (by decide)⟩

/-! ## Files -/

section Files

variable [Zstd.Codec]

theorem finite_descriptor {d : Descriptor} (h : descriptor files p = .ok d) :
    ∀ spec ∈ d.specs, spec.counterId.isFinite = true := by
  obtain ⟨v, hdocument, rfl⟩ := map_eq_ok.mp h
  exact finite_descriptorOf (shape_of_document_eq_ok hdocument)

theorem finite_handleMap {m : HandleMap} (h : handleMap files p = .ok m) (handle : Number) :
    ∀ target ∈ m.targets handle, target.value.isFinite = true := by
  obtain ⟨v, hdocument, hm⟩ := bind_eq_ok.mp h
  exact finite_handleMapOf (shape_of_document_eq_ok hdocument) hm handle

theorem finite_renderPasses {t : RenderPassTable} (h : renderPasses files p = .ok t)
    {key : RenderPass.Key} {range : RenderPass.Range} (hrange : t.lookup key = some range) :
    range.Finite := by
  obtain ⟨v, hdocument, ht⟩ := RenderPassTable.exists_of_renderPasses h
  obtain ⟨e, he, rfl⟩ := RenderPassTable.exists_mem_of_lookup hrange
  exact finite_renderPassesOf (shape_of_document_eq_ok hdocument) ht e he

end Files

end Input

theorem exists_of_mem_mapM {α β ε : Type} {f : α → Except ε β} {o : Option α} {r : Option β}
    (h : o.mapM f = .ok r) {b : β} (hb : b ∈ r) : ∃ a, f a = .ok b := by
  cases o with
  | none =>
    obtain rfl := Except.ok.inj h
    exact nomatch hb
  | some a =>
    obtain ⟨b', hb', rfl⟩ := map_eq_ok.mp h
    exact ⟨a, hb'.trans (congrArg Except.ok (Option.some.inj hb))⟩

theorem Profile.Inputs.Finite.of_loadInputs [Zstd.Codec] {files : FileTree}
    {args : CommandLine.ProfileArgs} {inputs : Profile.Inputs}
    (h : CommandLine.Surroundings.loadInputs files args = .ok inputs) : inputs.Finite := by
  obtain ⟨d, hd, h⟩ := bind_eq_ok.mp h
  obtain ⟨m, hm, h⟩ := bind_eq_ok.mp h
  obtain ⟨t, ht, h⟩ := bind_eq_ok.mp h
  obtain rfl := Except.ok.inj h
  refine ⟨fun d' hd' => ?_, fun m' hm' => ?_, fun key range hrange => ?_⟩
  · obtain ⟨p, hp⟩ := exists_of_mem_mapM hd hd'
    exact Input.finite_descriptor hp
  · obtain ⟨p, hp⟩ := exists_of_mem_mapM hm hm'
    exact Input.finite_handleMap hp
  · cases t with
    | none => exact nomatch hrange
    | some t =>
      obtain ⟨p, hp⟩ := exists_of_mem_mapM ht rfl
      exact Input.finite_renderPasses hp (Except.ok.inj hrange)

end RenderTrace
