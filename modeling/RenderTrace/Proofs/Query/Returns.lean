import RenderTrace.Proofs.Query.Evaluation

/-!
# What an inquiry can come to

`Inquiry.Returns` says of the results of an inquiry what holds of them whatever is answered. It holds of
the result that a run comes to with any server (`Returns.run`), beside another inquiry as well
(`Returns.runBoth`).
-/

namespace RenderTrace
namespace Inquiry

variable {α β σ : Type} {P Q : α → Prop} {R : β → Prop}

/-- Whatever is answered, a result has a property. -/
def Returns (P : α → Prop) : Inquiry α → Prop
  | done a => P a
  | fail _ => True
  | note _ rest => rest.Returns P
  | ask _ next => ∀ a, (next a).Returns P
  | askAll _ next => ∀ as, (next as).Returns P

namespace Returns

theorem pure {a : α} (h : P a) : (Pure.pure a : Inquiry α).Returns P := h

theorem of_forall (h : ∀ a, P a) (x : Inquiry α) : x.Returns P := by
  induction x with
  | done a => exact h a
  | fail f => trivial
  | note e rest ih => exact ih
  | ask sql next ih => exact ih
  | askAll sqls next ih => exact ih

theorem bind {x : Inquiry α} {f : α → Inquiry β} (hx : x.Returns P)
    (hf : ∀ a, P a → (f a).Returns R) : (x >>= f).Returns R := by
  change (x.bind f).Returns R
  induction x with
  | done a => exact hf a hx
  | fail e => trivial
  | note e rest ih => exact ih hx
  | ask sql next ih => exact fun a => ih a (hx a)
  | askAll sqls next ih => exact fun as => ih as (hx as)

theorem after {x : Inquiry α} {f : α → Inquiry β} (hf : ∀ a, (f a).Returns R) :
    (x >>= f).Returns R :=
  (of_forall (P := fun _ => True) (fun _ => trivial) x).bind fun a _ => hf a

theorem ofExcept {r : Except Failure α} (h : ∀ a, r = .ok a → P a) :
    (Inquiry.ofExcept r).Returns P := by
  cases r with
  | ok a => exact h a rfl
  | error f => trivial

theorem attempt {x : Inquiry α} (hx : x.Returns P) : x.attempt.Returns fun r => ∀ a, r = .ok a → P a := by
  induction x with
  | done a => rintro _ ⟨⟩; exact hx
  | fail f => exact nofun
  | note e rest ih => exact ih hx
  | ask sql next ih => exact fun a => ih a (hx a)
  | askAll sqls next ih => exact fun as => ih as (hx as)

/-! ## Runs -/

theorem run {x : Inquiry α} (hx : x.Returns P) (serve : String → StateM σ Answer) (s : σ) :
    ∀ a, ((x.run serve).run s).1.result = .ok a → P a := by
  induction x generalizing s with
  | done a =>
    intro b hb
    obtain rfl : a = b := Except.ok.inj hb
    exact hx
  | fail f => exact fun a ha => nomatch ha
  | note e rest ih => exact ih hx s
  | ask sql next ih => exact ih ((serve sql).run s).1 (hx _) ((serve sql).run s).2
  | askAll sqls next ih => exact ih ((sqls.mapM serve).run s).1 (hx _) ((sqls.mapM serve).run s).2

theorem settle {x : Inquiry α} (hx : x.Returns P) : x.settle.2.Returns P := by
  induction x with
  | note e rest ih => exact ih hx
  | done a => exact hx
  | fail f => exact hx
  | ask sql next => exact hx
  | askAll sqls next => exact hx

theorem resume {x : Inquiry α} (hx : x.Returns P) (place : Nat) (a : Answer) :
    (x.resume place a).Returns P := by
  cases x with
  | done a => exact hx
  | fail f => exact hx
  | note e rest => exact hx
  | ask sql next => exact hx a
  | askAll sqls next =>
    rw [Inquiry.resume]
    cases sqls.eraseIdx place with
    | nil => exact hx [a]
    | cons sql rest => exact fun as => hx _

theorem stable : Stable (Returns P) := ⟨fun _ hx => hx.settle, fun _ hx => hx.resume⟩

theorem runBoth {x : Inquiry α} {y : Inquiry β} (hx : x.Returns P) (hy : y.Returns R)
    (serve : String → StateM σ Answer) (schedule : List Nat) (s : σ) :
    (∀ a, ((Inquiry.runBoth serve schedule x y).run s).1.1 = .ok a → P a) ∧
      ∀ b, ((Inquiry.runBoth serve schedule x y).run s).1.2.1 = .ok b → R b := by
  obtain ⟨x', y', s₁, s₂, hx', hy', hresult, hresult'⟩ :=
    exists_run_of_runBoth stable stable hx hy serve schedule s
  rw [hresult, hresult']
  exact ⟨hx'.run serve s₁, hy'.run serve s₂⟩

end Returns
end Inquiry
end RenderTrace
