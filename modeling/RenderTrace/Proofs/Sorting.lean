import Mathlib.Data.List.Forall2
import Mathlib.Data.List.Nodup

/-!
# Stable sorting by a key

`StablySorted key xs ys` says what a stable sort by integer keys comes to: nothing is lost, the keys
ascend, and elements of one key keep their order. Merge sort does that (`stablySorted_sortBy`); with
distinct keys it takes one order to all rearrangements (`StablySorted.eq_of_perm`).
-/

namespace RenderTrace

/-- The elements of `xs` by ascending keys; those of one key keep their order. -/
structure StablySorted {α : Type} (key : α → Int) (xs ys : List α) : Prop where
  perm : ys.Perm xs
  pairwise : ys.Pairwise fun a b => key a ≤ key b
  filter : ∀ k, ys.filter (key · = k) = xs.filter (key · = k)

def sortBy {α : Type} (key : α → Int) (xs : List α) : List α :=
  xs.mergeSort fun a b => key a ≤ key b

variable {α β : Type} {key : α → Int}

theorem trans_key (key : α → Int) (a b c : α) (hab : decide (key a ≤ key b) = true)
    (hbc : decide (key b ≤ key c) = true) : decide (key a ≤ key c) = true := by
  simp only [decide_eq_true_eq] at *
  omega

theorem total_key (key : α → Int) (a b : α) : (decide (key a ≤ key b) || decide (key b ≤ key a)) = true := by
  simp only [Bool.or_eq_true, decide_eq_true_eq]
  omega

theorem pairwise_sortBy (key : α → Int) (xs : List α) :
    (sortBy key xs).Pairwise fun a b => key a ≤ key b := by
  have hsorted := List.pairwise_mergeSort (trans_key key) (total_key key) xs
  exact hsorted.imp fun h => by simpa using h

theorem filter_sortBy (key : α → Int) (xs : List α) (k : Int) :
    (sortBy key xs).filter (key · = k) = xs.filter (key · = k) := by
  have hone : (xs.filter (key · = k)).Pairwise fun a b => decide (key a ≤ key b) = true := by
    refine List.pairwise_of_forall_mem_list fun a ha b hb => ?_
    have ha' : key a = k := by simpa using (List.mem_filter.mp ha).2
    have hb' : key b = k := by simpa using (List.mem_filter.mp hb).2
    simp [ha', hb']
  have hsub : (xs.filter (key · = k)).Sublist ((sortBy key xs).filter (key · = k)) := by
    have hsub := (List.sublist_mergeSort (trans_key key) (total_key key) hone List.filter_sublist).filter
      (key · = k)
    rwa [List.filter_filter, funext fun a => Bool.and_self _] at hsub
  have hlen := ((List.mergeSort_perm xs fun a b => key a ≤ key b).filter (key · = k)).length_eq
  exact (hsub.eq_of_length hlen.symm).symm

theorem stablySorted_sortBy (key : α → Int) (xs : List α) : StablySorted key xs (sortBy key xs) :=
  ⟨List.mergeSort_perm .., pairwise_sortBy key xs, filter_sortBy key xs⟩

/-- With distinct keys the order of what is sorted does not show. -/
theorem StablySorted.eq_of_perm {xs xs' ys ys' : List α} (h : StablySorted key xs ys)
    (h' : StablySorted key xs' ys') (hperm : xs'.Perm xs) (hnodup : (ys.map key).Nodup) :
    ys' = ys := by
  have hys : ys'.Perm ys := h'.perm.trans (hperm.trans h.perm.symm)
  refine hys.eq_of_pairwise (fun a b ha hb hab hba => ?_) h'.pairwise h.pairwise
  exact List.inj_on_of_nodup_map hnodup (hys.mem_iff.mp ha) hb (Int.le_antisymm hab hba)

theorem forall₂_sortBy {R : α → β → Prop} {f : α → Int} {g : β → Int}
    (hkey : ∀ a b, R a b → f a = g b) {xs : List α} {ys : List β} (h : List.Forall₂ R xs ys) :
    List.Forall₂ R (sortBy f xs) (sortBy g ys) := by
  -- sorted as pairs
  have hpairs : ∀ p ∈ xs.zip ys, R p.1 p.2 := fun p hp => List.forall₂_zip h hp
  have hf := List.map_mergeSort (r := fun p q : α × β => decide (f p.1 ≤ f q.1))
    (s := fun a b => decide (f a ≤ f b)) (f := Prod.fst) (l := xs.zip ys) fun _ _ _ _ => rfl
  have hg := List.map_mergeSort (r := fun p q : α × β => decide (f p.1 ≤ f q.1))
    (s := fun a b => decide (g a ≤ g b)) (f := Prod.snd) (l := xs.zip ys) fun p hp q hq => by
      rw [hkey _ _ (hpairs p hp), hkey _ _ (hpairs q hq)]
  rw [List.map_fst_zip (Nat.le_of_eq h.length_eq)] at hf
  rw [List.map_snd_zip (Nat.le_of_eq h.length_eq.symm)] at hg
  rw [sortBy, sortBy, ← hf, ← hg, List.forall₂_map_left_iff, List.forall₂_map_right_iff,
    List.forall₂_same]
  exact fun p hp => hpairs p (List.mem_mergeSort.mp hp)

end RenderTrace
