import Mathlib.Data.List.Forall2
import RenderTrace.Proofs.Query.Evaluation

/-!
# Results taken apart

What a chain of steps that may fail comes to is known from what each step comes to: a bind succeeds
just if both of its steps do (`bind_eq_ok`), a traversal just if every element does
(`mapM_eq_ok_iff`). The result of a run is such a chain as well, each step run from the state that
the steps before it leave (`Inquiry.resultOf_bind`), so that nothing of a run is left in what has to
be proved about its result.
-/

namespace RenderTrace

section Except

variable {ε α β : Type} {x : Except ε α} {f : α → Except ε β}

theorem bind_eq_ok {b : β} : x >>= f = .ok b ↔ ∃ a, x = .ok a ∧ f a = .ok b := by
  cases x <;> simp [bind, Except.bind]

theorem map_eq_ok {g : α → β} {b : β} : x.map g = .ok b ↔ ∃ a, x = .ok a ∧ g a = b := by
  cases x <;> simp [Except.map]

theorem exists_error_iff : (∃ e, x = .error e) ↔ ¬ ∃ a, x = .ok a := by
  cases x <;> simp

theorem toOption_eq_some_iff {a : α} : x.toOption = some a ↔ x = .ok a := by
  cases x <;> simp [Except.toOption]

theorem exists_eq_ok (h : x.isOk = true) : ∃ a, x = .ok a := by
  cases x with
  | ok a => exact ⟨a, rfl⟩
  | error e => exact nomatch h

theorem bind_eq_error_iff {e : ε} :
    x >>= f = .error e ↔ x = .error e ∨ ∃ a, x = .ok a ∧ f a = .error e := by
  cases x <;> simp [bind, Except.bind]

theorem bind_eq_error :
    (∃ e, x >>= f = .error e) ↔ (∃ e, x = .error e) ∨ ∃ a, x = .ok a ∧ ∃ e, f a = .error e := by
  cases x <;> simp [bind, Except.bind]

theorem mapM_eq_ok_iff {xs : List α} {ys : List β} :
    xs.mapM f = .ok ys ↔ List.Forall₂ (fun x y => f x = .ok y) xs ys := by
  induction xs generalizing ys with
  | nil => cases ys <;> simp [pure, Except.pure]
  | cons x xs ih =>
    rw [List.mapM_cons, bind_eq_ok]
    simp only [bind_eq_ok, pure, Except.pure, Except.ok.injEq]
    constructor
    · rintro ⟨y, hy, rest, hrest, rfl⟩
      exact .cons hy (ih.mp hrest)
    · rintro (_ | @⟨_, y, _, rest, hy, hrest⟩)
      exact ⟨_, hy, _, ih.mpr hrest, rfl⟩

theorem mapM_eq_ok_map {g : α → β} {xs : List α} (h : ∀ x ∈ xs, f x = .ok (g x)) :
    xs.mapM f = .ok (xs.map g) :=
  mapM_eq_ok_iff.mpr (List.forall₂_map_right_iff.mpr (List.forall₂_same.mpr h))

theorem mapM_eq_error_iff {xs : List α} :
    (∃ e, xs.mapM f = .error e) ↔ ∃ x ∈ xs, ∃ e, f x = .error e := by
  induction xs with
  | nil => simp [pure, Except.pure]
  | cons x xs ih =>
    rw [List.mapM_cons, List.exists_mem_cons_iff, ← ih]
    cases f x with
    | error e => simp [bind, Except.bind]
    | ok y => cases xs.mapM f <;> simp [bind, Except.bind, pure, Except.pure]

theorem exists_of_mapM_eq_error {e : ε} {xs : List α} (h : xs.mapM f = .error e) :
    ∃ x ∈ xs, f x = .error e := by
  induction xs with
  | nil => exact nomatch h
  | cons x xs ih =>
    rw [List.mapM_cons] at h
    cases hx : f x with
    | error e' =>
      rw [hx] at h
      obtain rfl : e' = e := Except.error.inj h
      exact ⟨x, List.mem_cons_self, hx⟩
    | ok y =>
      rw [hx] at h
      cases hxs : xs.mapM f with
      | error e' =>
        rw [hxs] at h
        obtain rfl : e' = e := Except.error.inj h
        obtain ⟨x', hx', hfail⟩ := ih hxs
        exact ⟨x', List.mem_cons_of_mem x hx', hfail⟩
      | ok ys =>
        rw [hxs] at h
        exact nomatch h

theorem exists_mapM_eq_ok {p : α → β → Prop} {xs : List α}
    (h : ∀ x ∈ xs, ∃ y, f x = .ok y ∧ p x y) : ∃ ys, xs.mapM f = .ok ys ∧ List.Forall₂ p xs ys := by
  induction xs with
  | nil => exact ⟨[], rfl, .nil⟩
  | cons x xs ih =>
    obtain ⟨⟨y, hy, hp⟩, hxs⟩ := List.forall_mem_cons.mp h
    obtain ⟨ys, hys, hps⟩ := ih hxs
    refine ⟨y :: ys, ?_, .cons hp hps⟩
    rw [List.mapM_cons, hy, hys]
    rfl

end Except

/-! ## Runs -/

namespace Inquiry

variable {α β σ : Type} (serve : String → StateM σ Answer)

def resultOf (x : Inquiry α) (s : σ) : Except Failure α := ((x.run serve).run s).1.result

def after (x : Inquiry α) (s : σ) : σ := ((x.run serve).run s).2

theorem resultOf_bind (x : Inquiry α) (f : α → Inquiry β) (s : σ) :
    resultOf serve (x >>= f) s =
      resultOf serve x s >>= fun a => resultOf serve (f a) (after serve x s) := by
  rw [resultOf, run_bind, resultOf, after]
  rcases (x.run serve).run s with ⟨⟨_ | a, es⟩, s'⟩ <;> rfl

theorem resultOf_pure (a : α) (s : σ) : resultOf serve (pure a) s = .ok a := rfl

theorem resultOf_ofExcept (r : Except Failure α) (s : σ) : resultOf serve (ofExcept r) s = r := by
  cases r <;> rfl

theorem after_ofExcept (r : Except Failure α) (s : σ) : after serve (ofExcept r) s = s := by
  cases r <;> rfl

theorem resultOf_query (sql : String) (s : σ) :
    resultOf serve (query sql) s = ((serve sql).run s).1 :=
  resultOf_ofExcept serve _ _

theorem after_query (sql : String) (s : σ) :
    after serve (query sql) s = ((serve sql).run s).2 :=
  after_ofExcept serve _ _

theorem resultOf_report {es : List Event} (h : Event.canTell es = true) (s : σ) :
    resultOf serve (report es) s = .ok () := by
  rw [resultOf, run_report serve h]

/-- The answers to questions that are put one after the other. -/
def answers {κ : Type} (ask : κ → StateM σ Answer) (keys : List κ) (s : σ) : List Answer :=
  ((keys.mapM ask).run s).1

theorem answers_cons {κ : Type} (ask : κ → StateM σ Answer) (key : κ) (keys : List κ) (s : σ) :
    answers ask (key :: keys) s = ((ask key).run s).1 :: answers ask keys ((ask key).run s).2 := by
  rw [answers, List.mapM_cons]
  rfl

theorem length_answers {κ : Type} (ask : κ → StateM σ Answer) (keys : List κ) (s : σ) :
    (answers ask keys s).length = keys.length := by
  induction keys generalizing s with
  | nil => rfl
  | cons key keys ih => rw [answers_cons, List.length_cons, ih, List.length_cons]

end Inquiry

/-- A server that answers as a store does. -/
def Store.stateless (store : Store) : String → StateM Unit Answer := fun sql => pure (store sql)

theorem Store.run_stateless (store : Store) (sql : String) (s : Unit) :
    (store.stateless sql).run s = (store sql, s) := rfl

end RenderTrace
