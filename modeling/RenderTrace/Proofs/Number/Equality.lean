import RenderTrace.Profile.RenderPass

/-!
# Numeric equality

Equality of numbers is symmetric and transitive, and so is equality of keys, which is that of their
numbers. It is not reflexive: a number without a value equals nothing, itself included. Everything
about keys that are looked up rests on these two laws alone, so `5` and `5.0` may stand for each
other wherever a key does.
-/

namespace RenderTrace

namespace Number

theorem Value.same_iff {a b : Value} : a.same b = true ↔ a = b ∧ a ≠ .undefined := by
  simp [Value.same]

theorem beq_iff {a b : Number} : (a == b) = true ↔ a.value = b.value ∧ a.value ≠ .undefined :=
  Value.same_iff

theorem whole_beq_whole {m n : Int} : (whole m == whole n) = true ↔ m = n := by
  simp [beq_iff, value]

instance : PartialEquivBEq Number where
  symm h := by
    obtain ⟨heq, hdef⟩ := beq_iff.mp h
    exact beq_iff.mpr ⟨heq.symm, heq ▸ hdef⟩
  trans hab hbc := by
    obtain ⟨heq, hdef⟩ := beq_iff.mp hab
    exact beq_iff.mpr ⟨heq.trans (beq_iff.mp hbc).1, hdef⟩

end Number

/-- Optional values are equal when both are missing or both are there and equal. -/
instance partialEquivBEqOption {α : Type} [BEq α] [PartialEquivBEq α] :
    PartialEquivBEq (Option α) where
  symm {a b} h := by
    cases a <;> cases b <;> simp_all [BEq.comm]
  trans {a b c} hab hbc := by
    cases a <;> cases b <;> cases c <;> simp_all
    exact BEq.trans hab hbc

namespace RenderPass

theorem Key.beq_iff {a b : Key} :
    (a == b) = true ↔ (a.order == b.order) = true ∧ (a.commandBuffer == b.commandBuffer) = true ∧
      (a.renderPass == b.renderPass) = true ∧ (a.renderTarget == b.renderTarget) = true := by
  change (_ && _ && _ && _) = true ↔ _
  simp only [Bool.and_eq_true, and_assoc]

instance : PartialEquivBEq Key where
  symm h := by
    obtain ⟨ho, hb, hp, ht⟩ := Key.beq_iff.mp h
    exact Key.beq_iff.mpr ⟨BEq.symm ho, BEq.symm hb, BEq.symm hp, BEq.symm ht⟩
  trans h h' := by
    obtain ⟨ho, hb, hp, ht⟩ := Key.beq_iff.mp h
    obtain ⟨ho', hb', hp', ht'⟩ := Key.beq_iff.mp h'
    exact Key.beq_iff.mpr
      ⟨BEq.trans ho ho', BEq.trans hb hb', BEq.trans hp hp', BEq.trans ht ht'⟩

end RenderPass
end RenderTrace
