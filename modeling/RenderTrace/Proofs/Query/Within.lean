import RenderTrace.Proofs.Query.Evaluation

/-!
# What an inquiry may do

`Bounds` says which queries may be asked, which events reported and how an inquiry may fail;
`Inquiry.Within` that an inquiry keeps to them whatever is answered. An inquiry within its bounds
keeps to them when it is run by any server (`Within.run`), beside another one as well
(`Within.runBoth`), and stores that agree on the queries it may ask cannot be told apart by it
(`Within.evaluate_eq`).
-/

namespace RenderTrace
namespace Inquiry

/-- What an inquiry may ask, report and fail with. -/
structure Bounds where
  asks : String → Prop
  reports : Event → Prop
  fails : Failure → Prop

variable {α β σ : Type}

/-- The inquiry keeps to its bounds whatever is answered. -/
def Within (b : Bounds) : Inquiry α → Prop
  | done _ => True
  | fail f => b.fails f
  | note e rest => b.reports e ∧ rest.Within b
  | ask sql next => b.asks sql ∧ ∀ a, (next a).Within b
  | askAll sqls next => (∀ sql ∈ sqls, b.asks sql) ∧ ∀ as, (next as).Within b

namespace Within

variable {b c : Bounds}

theorem pure (a : α) : (Pure.pure a : Inquiry α).Within b := trivial

theorem bind {x : Inquiry α} {f : α → Inquiry β} (hx : x.Within b) (hf : ∀ a, (f a).Within b) :
    (x >>= f).Within b := by
  change (x.bind f).Within b
  induction x with
  | done a => exact hf a
  | fail e => exact hx
  | note e rest ih => exact ⟨hx.1, ih hx.2⟩
  | ask sql next ih => exact ⟨hx.1, fun a => ih a (hx.2 a)⟩
  | askAll sqls next ih => exact ⟨hx.1, fun as => ih as (hx.2 as)⟩

theorem ofExcept {r : Except Failure α} (h : ∀ f, r = .error f → b.fails f) :
    (Inquiry.ofExcept r).Within b := by
  cases r with
  | ok a => trivial
  | error f => exact h f rfl

theorem after_ofExcept {r : Except Failure α} {f : α → Inquiry β}
    (hr : ∀ f, r = .error f → b.fails f) (hf : ∀ a, r = .ok a → (f a).Within b) :
    (Inquiry.ofExcept r >>= f).Within b := by
  cases r with
  | ok a => exact hf a rfl
  | error f => exact hr f rfl

theorem query {sql : String} (hsql : b.asks sql) (hfails : ∀ f, b.fails f) :
    (Inquiry.query sql).Within b :=
  ⟨hsql, fun _ => ofExcept fun f _ => hfails f⟩

theorem report {es : List Event} (hes : ∀ e ∈ es, b.reports e)
    (hfails : ∀ e ∈ es, ∀ f, e.refusal? = some f → b.fails f) : (Inquiry.report es).Within b := by
  unfold Inquiry.report
  induction es with
  | nil => trivial
  | cons e es ih =>
    obtain ⟨he, hes⟩ := List.forall_mem_cons.mp hes
    obtain ⟨hrefused, hfails⟩ := List.forall_mem_cons.mp hfails
    rw [Event.told]
    cases hrefusal : e.refusal? with
    | some f => exact hrefused f hrefusal
    | none => exact ⟨he, ih hes hfails⟩

theorem attempt {x : Inquiry α} (hx : x.Within b) (hasks : ∀ sql, b.asks sql → c.asks sql)
    (hreports : ∀ e, b.reports e → c.reports e) : x.attempt.Within c := by
  induction x with
  | done a => trivial
  | fail f => trivial
  | note e rest ih => exact ⟨hreports e hx.1, ih hx.2⟩
  | ask sql next ih => exact ⟨hasks sql hx.1, fun a => ih a (hx.2 a)⟩
  | askAll sqls next ih =>
    exact ⟨fun sql hsql => hasks sql (hx.1 sql hsql), fun as => ih as (hx.2 as)⟩

/-! ## Runs -/

theorem run {x : Inquiry α} (hx : x.Within b) (serve : String → StateM σ Answer) (s : σ) :
    (∀ f, ((x.run serve).run s).1.result = .error f → b.fails f) ∧
      ∀ e ∈ ((x.run serve).run s).1.events, b.reports e := by
  induction x generalizing s with
  | done a => exact ⟨fun f h => (nomatch h), fun e he => (nomatch he)⟩
  | fail f =>
    refine ⟨fun g hg => ?_, fun e he => (nomatch he)⟩
    obtain rfl : f = g := Except.error.inj hg
    exact hx
  | note e rest ih =>
    obtain ⟨hfails, hreports⟩ := ih hx.2 s
    exact ⟨hfails, List.forall_mem_cons.mpr ⟨hx.1, hreports⟩⟩
  | ask sql next ih => exact ih ((serve sql).run s).1 (hx.2 _) ((serve sql).run s).2
  | askAll sqls next ih =>
    exact ih ((sqls.mapM serve).run s).1 (hx.2 _) ((sqls.mapM serve).run s).2

theorem settle {x : Inquiry α} (hx : x.Within b) : x.settle.2.Within b := by
  induction x with
  | note e rest ih => exact ih hx.2
  | done a => exact hx
  | fail f => exact hx
  | ask sql next => exact hx
  | askAll sqls next => exact hx

theorem resume {x : Inquiry α} (hx : x.Within b) (place : Nat) (a : Answer) :
    (x.resume place a).Within b := by
  cases x with
  | done a => exact hx
  | fail f => exact hx
  | note e rest => exact hx
  | ask sql next => exact hx.2 a
  | askAll sqls next =>
    rw [Inquiry.resume]
    cases hrest : sqls.eraseIdx place with
    | nil => exact hx.2 [a]
    | cons sql rest =>
      refine ⟨fun sql' hsql' => hx.1 sql' ?_, fun as => hx.2 _⟩
      exact List.mem_of_mem_eraseIdx (hrest ▸ hsql')

theorem stable : Stable (Within b : Inquiry α → Prop) :=
  ⟨fun _ hx => hx.settle, fun _ hx => hx.resume⟩

theorem runBoth {x : Inquiry α} {y : Inquiry β} (hx : x.Within b) (hy : y.Within c)
    (serve : String → StateM σ Answer) (schedule : List Nat) (s : σ) :
    (∀ f, ((Inquiry.runBoth serve schedule x y).run s).1.1 = .error f → b.fails f) ∧
      ∀ f, ((Inquiry.runBoth serve schedule x y).run s).1.2.1 = .error f → c.fails f := by
  obtain ⟨x', y', s₁, s₂, hx', hy', hresult, hresult'⟩ :=
    exists_run_of_runBoth stable stable hx hy serve schedule s
  rw [hresult, hresult']
  exact ⟨(hx'.run serve s₁).1, (hy'.run serve s₂).1⟩

/-- Stores that agree on the queries that may be asked cannot be told apart. -/
theorem evaluate_eq {x : Inquiry α} (hx : x.Within b) {store store' : Store}
    (h : ∀ sql, b.asks sql → store sql = store' sql) : x.evaluate store = x.evaluate store' := by
  induction x with
  | done a => rfl
  | fail f => rfl
  | note e rest ih => rw [evaluate, evaluate, ih hx.2]
  | ask sql next ih =>
    rw [evaluate, evaluate, h sql hx.1]
    exact ih _ (hx.2 _)
  | askAll sqls next ih =>
    have hanswers : sqls.map store = sqls.map store' :=
      List.map_congr_left fun sql hsql => h sql (hx.1 sql hsql)
    rw [evaluate, evaluate, hanswers]
    exact ih _ (hx.2 _)

end Within
end Inquiry
end RenderTrace
