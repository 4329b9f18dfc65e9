import Mathlib.Data.List.InsertIdx
import RenderTrace.Query.Store

/-!
# Evaluation against a store

When every query is answered by its text alone, what an inquiry comes to is a function of the
answers (`Inquiry.evaluate`). `Serves serve store I` says that a server answers as a store does as
long as its state satisfies `I`, which once lost is lost for good; `Store.serves` has it for a
request that is not over. Put to such a server one query after the other, an inquiry comes to what
the store makes of it (`run_eq`), and so do two inquiries at once under every schedule, their events
interleaved (`runBoth_eq`).
-/

namespace RenderTrace
namespace Inquiry

variable {α β σ : Type}

section Running

variable (serve : String → StateM σ Answer)

theorem run_bind (x : Inquiry α) (f : α → Inquiry β) (s : σ) :
    ((x >>= f).run serve).run s = match (x.run serve).run s with
      | (⟨.ok a, es⟩, s') =>
        (⟨(((f a).run serve).run s').1.result, es ++ (((f a).run serve).run s').1.events⟩,
          (((f a).run serve).run s').2)
      | (⟨.error e, es⟩, s') => (⟨.error e, es⟩, s') := by
  change ((x.bind f).run serve).run s = _
  induction x generalizing s with
  | done a => rfl
  | fail e => rfl
  | note e rest ih =>
    have hrest := ih s
    simp only [bind, run, StateT.run_bind, StateT.run_pure] at hrest ⊢
    rcases hx : (rest.run serve).run s with ⟨⟨_ | a, es⟩, s'⟩
    · simp only [hrest, hx]
      rfl
    · simp only [hrest, hx]
      rfl
  | ask sql next ih => exact ih ((serve sql).run s).1 ((serve sql).run s).2
  | askAll sqls next ih => exact ih ((sqls.mapM serve).run s).1 ((sqls.mapM serve).run s).2

theorem run_pure (a : α) (s : σ) : ((pure a : Inquiry α).run serve).run s = (⟨.ok a, []⟩, s) := rfl

theorem run_attempt (x : Inquiry α) (s : σ) :
    (x.attempt.run serve).run s =
      (⟨.ok ((x.run serve).run s).1.result, ((x.run serve).run s).1.events⟩,
        ((x.run serve).run s).2) := by
  induction x generalizing s with
  | done a => rfl
  | fail e => rfl
  | note e rest ih =>
    have hrest := ih s
    simp only [attempt, run, StateT.run_bind, StateT.run_pure] at hrest ⊢
    rw [hrest]
    rfl
  | ask sql next ih => exact ih ((serve sql).run s).1 ((serve sql).run s).2
  | askAll sqls next ih => exact ih ((sqls.mapM serve).run s).1 ((sqls.mapM serve).run s).2

theorem run_report {es : List Event} (h : Event.canTell es = true) (s : σ) :
    ((report es).run serve).run s = (⟨.ok (), es⟩, s) := by
  rw [report, Event.told_eq h]
  induction es with
  | nil => rfl
  | cons e es ih =>
    have hes : Event.canTell es = true := by
      simp only [Event.canTell, List.all_cons, Bool.and_eq_true] at h
      exact h.2
    have hrest := ih hes
    simp only [List.foldr_cons, run, StateT.run_bind, StateT.run_pure] at hrest ⊢
    rw [hrest]
    rfl

end Running

/-- What an inquiry comes to when a store answers its queries. -/
def evaluate (store : Store) : Inquiry α → Outcome α
  | done a => ⟨.ok a, []⟩
  | fail f => ⟨.error f, []⟩
  | note e rest => ⟨(rest.evaluate store).result, e :: (rest.evaluate store).events⟩
  | ask sql next => (next (store sql)).evaluate store
  | askAll sqls next => (next (sqls.map store)).evaluate store

theorem evaluate_ofExcept (store : Store) (r : Except Failure α) :
    (ofExcept r).evaluate store = ⟨r, []⟩ := by
  cases r <;> rfl

theorem evaluate_query (store : Store) (sql : String) :
    (query sql).evaluate store = ⟨store sql, []⟩ :=
  evaluate_ofExcept store (store sql)

theorem evaluate_bind (store : Store) (x : Inquiry α) (f : α → Inquiry β) :
    (x >>= f).evaluate store = match x.evaluate store with
      | ⟨.ok a, es⟩ => ⟨((f a).evaluate store).result, es ++ ((f a).evaluate store).events⟩
      | ⟨.error e, es⟩ => ⟨.error e, es⟩ := by
  change (x.bind f).evaluate store = _
  induction x with
  | done a => rfl
  | fail e => rfl
  | note e rest ih =>
    simp only [bind, evaluate, ih]
    rcases rest.evaluate store with ⟨_ | a, es⟩ <;> rfl
  | ask sql next ih => exact ih (store sql)
  | askAll sqls next ih => exact ih (sqls.map store)

/-! ## Serving -/

/-- A server answers as a store does as long as its state satisfies a condition, which holds before
a query if it holds after it. -/
structure Serves (serve : String → StateM σ Answer) (store : Store) (I : σ → Prop) : Prop where
  answer : ∀ sql s, I ((serve sql).run s).2 → ((serve sql).run s).1 = store sql
  before : ∀ sql s, I ((serve sql).run s).2 → I s

theorem serves_pure (store : Store) :
    Serves (fun sql => (pure (store sql) : StateM σ Answer)) store fun _ => True :=
  ⟨fun _ _ _ => rfl, fun _ _ _ => trivial⟩

variable {serve : String → StateM σ Answer} {store : Store} {I : σ → Prop}

theorem Serves.mapM (h : Serves serve store I) (sqls : List String) {s : σ}
    (hs : I ((sqls.mapM serve).run s).2) :
    ((sqls.mapM serve).run s).1 = sqls.map store ∧ I s := by
  induction sqls generalizing s with
  | nil => exact ⟨rfl, hs⟩
  | cons sql sqls ih =>
    rw [List.mapM_cons] at hs ⊢
    obtain ⟨hrest, hs'⟩ := ih (s := ((serve sql).run s).2) hs
    refine ⟨?_, h.before sql s hs'⟩
    rw [List.map_cons, ← h.answer sql s hs', ← hrest]
    rfl

theorem run_eq (h : Serves serve store I) (x : Inquiry α) {s : σ}
    (hs : I ((x.run serve).run s).2) :
    ((x.run serve).run s).1 = x.evaluate store ∧ I s := by
  induction x generalizing s with
  | done a => exact ⟨rfl, hs⟩
  | fail e => exact ⟨rfl, hs⟩
  | note e rest ih =>
    obtain ⟨heq, hbefore⟩ := ih (s := s) hs
    refine ⟨?_, hbefore⟩
    rw [evaluate, ← heq]
    rfl
  | ask sql next ih =>
    obtain ⟨heq, hs'⟩ := ih ((serve sql).run s).1 (s := ((serve sql).run s).2) hs
    refine ⟨?_, h.before sql s hs'⟩
    rw [evaluate, ← h.answer sql s hs', ← heq]
    rfl
  | askAll sqls next ih =>
    obtain ⟨heq, hs'⟩ := ih ((sqls.mapM serve).run s).1 (s := ((sqls.mapM serve).run s).2) hs
    obtain ⟨hanswers, hbefore⟩ := h.mapM sqls hs'
    refine ⟨?_, hbefore⟩
    rw [evaluate, ← hanswers, ← heq]
    rfl

/-! ## Two at once -/

theorem evaluate_settle (x : Inquiry α) : x.evaluate store =
    ⟨(x.settle.2.evaluate store).result, x.settle.1 ++ (x.settle.2.evaluate store).events⟩ := by
  induction x with
  | note e rest ih =>
    simp only [evaluate, settle, List.cons_append]
    rw [ih]
  | done a => rfl
  | fail e => rfl
  | ask sql next => rfl
  | askAll sqls next => rfl

/-- Taking in the answer to a pending query changes nothing of what the inquiry comes to. -/
theorem evaluate_resume {x : Inquiry α} {place : Nat} {sql : String}
    (h : x.pending[place]? = some sql) :
    (x.resume place (store sql)).evaluate store = x.evaluate store := by
  cases x with
  | done a => simp [pending] at h
  | fail e => simp [pending] at h
  | note e rest => simp [pending] at h
  | ask sql' next =>
    obtain rfl : sql' = sql := by
      rcases place with _ | place <;> simp_all [pending]
    rfl
  | askAll sqls next =>
    obtain ⟨hplace, rfl⟩ := List.getElem?_eq_some_iff.mp h
    simp only [pending] at hplace ⊢
    have hinsert : ((sqls.eraseIdx place).map store).insertIdx place (store sqls[place]) =
        sqls.map store := by
      rw [← List.map_insertIdx, List.insertIdx_eraseIdx_getElem hplace]
    simp only [resume]
    cases hrest : sqls.eraseIdx place with
    | nil =>
      rw [hrest] at hinsert
      have hplace' : place = 0 := by
        have hlen := List.length_eraseIdx_of_lt hplace
        rw [hrest, List.length_nil] at hlen
        omega
      subst hplace'
      rw [evaluate, ← hinsert]
      rfl
    | cons next' rest =>
      rw [hrest] at hinsert
      rw [evaluate, evaluate, hinsert]

theorem evaluate_resume_append (store : Store) {x : Inquiry α} {y : Inquiry β} {place : Nat}
    {sql : String} (h : (x.pending ++ y.pending)[place]? = some sql) :
    (if place < x.pending.length then x.resume place (store sql) else x).evaluate store =
        x.evaluate store ∧
      (if place < x.pending.length then y
        else y.resume (place - x.pending.length) (store sql)).evaluate store =
          y.evaluate store := by
  by_cases hleft : place < x.pending.length
  · rw [List.getElem?_append_left hleft] at h
    rw [if_pos hleft, if_pos hleft]
    exact ⟨evaluate_resume h, rfl⟩
  · rw [List.getElem?_append_right (Nat.le_of_not_lt hleft)] at h
    rw [if_neg hleft, if_neg hleft]
    exact ⟨rfl, evaluate_resume h⟩

/-- Two inquiries at once come each to what the store makes of it, under every schedule; their
events are interleaved. -/
theorem runBoth_eq (h : Serves serve store I) (schedule : List Nat) (x : Inquiry α)
    (y : Inquiry β) {s : σ} (hs : I ((runBoth serve schedule x y).run s).2) :
    ∃ events, ((runBoth serve schedule x y).run s).1 =
        ((x.evaluate store).result, (y.evaluate store).result, events) ∧
      events.Perm ((x.evaluate store).events ++ (y.evaluate store).events) ∧ I s := by
  induction schedule generalizing x y s with
  | nil =>
    obtain ⟨hy, hs'⟩ := run_eq h y (s := ((x.run serve).run s).2) hs
    obtain ⟨hx, hbefore⟩ := run_eq h x hs'
    refine ⟨_, ?_, List.Perm.refl _, hbefore⟩
    rw [← hx, ← hy]
    rfl
  | cons pick schedule ih =>
    obtain ⟨ex, x', hsx⟩ : ∃ ex x', x.settle = (ex, x') := ⟨_, _, rfl⟩
    obtain ⟨ey, y', hsy⟩ : ∃ ey y', y.settle = (ey, y') := ⟨_, _, rfl⟩
    have hx : x.evaluate store =
        ⟨(x'.evaluate store).result, ex ++ (x'.evaluate store).events⟩ := by
      rw [evaluate_settle, hsx]
    have hy : y.evaluate store =
        ⟨(y'.evaluate store).result, ey ++ (y'.evaluate store).events⟩ := by
      rw [evaluate_settle, hsy]
    -- the events at the front come before those of whatever goes on
    have hfront : ∀ es, es.Perm ((x'.evaluate store).events ++ (y'.evaluate store).events) →
        (ex ++ ey ++ es).Perm ((x.evaluate store).events ++ (y.evaluate store).events) := by
      intro es hes
      rw [hx, hy]
      refine (hes.append_left (ex ++ ey)).trans ?_
      simp only [List.append_assoc]
      exact (List.perm_append_comm_assoc ey _ _).append_left ex
    have hresult : ∀ (rest : Except Failure α × Except Failure β × List Event) (es : List Event),
        rest = ((x'.evaluate store).result, (y'.evaluate store).result, es) →
          (rest.1, rest.2.1, ex ++ ey ++ rest.2.2) =
            ((x.evaluate store).result, (y.evaluate store).result, ex ++ ey ++ es) := by
      rintro rest es rfl
      rw [hx, hy]
    simp only [runBoth, hsx, hsy] at hs ⊢
    cases hpick : (x'.pending ++ y'.pending)[pick % (x'.pending ++ y'.pending).length]? with
    | none =>
      rw [hpick] at hs
      obtain ⟨es, hrun, hes, hbefore⟩ := ih x' y' (s := s) hs
      exact ⟨ex ++ ey ++ es, hresult _ es hrun, hfront es hes, hbefore⟩
    | some sql =>
      rw [hpick] at hs
      generalize pick % (x'.pending ++ y'.pending).length = place at hpick hs
      obtain ⟨hx', hy'⟩ := evaluate_resume_append store hpick
      obtain ⟨es, hrun, hes, hs'⟩ := ih
        (if place < x'.pending.length then x'.resume place ((serve sql).run s).1 else x')
        (if place < x'.pending.length then y'
          else y'.resume (place - x'.pending.length) ((serve sql).run s).1)
        (s := ((serve sql).run s).2) hs
      simp only [h.answer sql s hs', hx', hy'] at hrun hes
      rw [← h.answer sql s hs'] at hrun
      exact ⟨ex ++ ey ++ es, hresult _ es hrun, hfront es hes, h.before sql s hs'⟩

/-! ## What queries keep -/

section Keeps

variable (hkeeps : ∀ sql s, I s → I ((serve sql).run s).2)
include hkeeps

theorem mapM_keeps (sqls : List String) {s : σ} (hs : I s) : I ((sqls.mapM serve).run s).2 := by
  induction sqls generalizing s with
  | nil => exact hs
  | cons sql sqls ih =>
    rw [List.mapM_cons]
    exact ih (hkeeps sql s hs)

theorem run_keeps (x : Inquiry α) {s : σ} (hs : I s) : I ((x.run serve).run s).2 := by
  induction x generalizing s with
  | done a => exact hs
  | fail e => exact hs
  | note e rest ih => exact ih hs
  | ask sql next ih => exact ih ((serve sql).run s).1 (hkeeps sql s hs)
  | askAll sqls next ih => exact ih ((sqls.mapM serve).run s).1 (mapM_keeps hkeeps sqls hs)

theorem runBoth_keeps (schedule : List Nat) (x : Inquiry α) (y : Inquiry β) {s : σ} (hs : I s) :
    I ((runBoth serve schedule x y).run s).2 := by
  induction schedule generalizing x y s with
  | nil => exact run_keeps hkeeps y (run_keeps hkeeps x hs)
  | cons pick schedule ih =>
    rw [runBoth]
    dsimp only
    split
    · exact ih _ _ hs
    · next sql hsql => exact ih _ _ (hkeeps sql s hs)

end Keeps

/-- A property of inquiries that reporting events and getting answers leaves alone. -/
structure Stable (X : Inquiry α → Prop) : Prop where
  settle : ∀ x, X x → X x.settle.2
  resume : ∀ x, X x → ∀ place a, X (x.resume place a)

/-- Two inquiries at once come to what inquiries do that are left of them. -/
theorem exists_run_of_runBoth {X : Inquiry α → Prop} {Y : Inquiry β → Prop} (hX : Stable X)
    (hY : Stable Y) {x : Inquiry α} {y : Inquiry β} (hx : X x) (hy : Y y)
    (serve : String → StateM σ Answer) (schedule : List Nat) (s : σ) :
    ∃ x' y' s₁ s₂, X x' ∧ Y y' ∧
      ((runBoth serve schedule x y).run s).1.1 = ((x'.run serve).run s₁).1.result ∧
      ((runBoth serve schedule x y).run s).1.2.1 = ((y'.run serve).run s₂).1.result := by
  induction schedule generalizing x y s with
  | nil => exact ⟨x, y, s, _, hx, hy, rfl, rfl⟩
  | cons pick schedule ih =>
    have hx' := hX.settle x hx
    have hy' := hY.settle y hy
    rw [runBoth]
    generalize x.settle = settled at hx' ⊢
    generalize y.settle = settled' at hy' ⊢
    obtain ⟨ex, x'⟩ := settled
    obtain ⟨ey, y'⟩ := settled'
    dsimp only at hx' hy' ⊢
    split
    · exact ih hx' hy' s
    · next sql hsql =>
      generalize pick % (x'.pending ++ y'.pending).length = place
      refine ih ?_ ?_ ((serve sql).run s).2
      · split
        · exact hX.resume x' hx' _ _
        · exact hx'
      · split
        · exact hy'
        · exact hY.resume y' hy' _ _

end Inquiry

/-! ## Requests -/

/-- The request, if there is one, is neither cancelled nor expired. -/
def Progress.Open (p : Progress) : Prop :=
  ∀ r, p.request = some r → r.isOver p.now = false

instance (p : Progress) : Decidable p.Open :=
  decidable_of_iff (∀ r ∈ p.request, r.isOver p.now = false) Iff.rfl

theorem Progress.Open.check {p : Progress} (h : p.Open) (sql : String) : p.check sql = .ok () := by
  unfold Progress.check
  cases hr : p.request with
  | none => rfl
  | some r =>
    have hover := h r hr
    rw [Request.isOver, Bool.or_eq_false_iff] at hover
    simp [Request.check, hover.1, hover.2]

theorem Progress.open_of_issue {p : Progress} {sql : String} (h : (p.issue sql).Open) : p.Open := by
  intro r hr
  by_cases hcancel : p.cancelAfter = some (p.issued ++ [sql]).length
  · have hrequest : (p.issue sql).request = some r.cancel := by
      simp only [issue, if_pos hcancel, hr, Option.map_some]
    -- a request that was cancelled is over
    exact absurd (h r.cancel hrequest) (by simp [Request.isOver, Request.cancel])
  · have hrequest : (p.issue sql).request = some r := by
      simp only [issue, if_neg hcancel, hr]
    exact h r hrequest

theorem Store.serves (store : Store) : Inquiry.Serves store.serve store Progress.Open := by
  have hrun : ∀ sql p, ((store.serve sql).run p).2.Open →
      ((store.serve sql).run p).1 = store sql ∧ p.Open := by
    intro sql p hopen
    change ((store.serve sql) p).2.Open at hopen
    change ((store.serve sql) p).1 = store sql ∧ p.Open
    unfold Store.serve at hopen ⊢
    cases hcheck : p.check sql with
    | error f =>
      rw [hcheck] at hopen
      have hok : p.check sql = .ok () := Progress.Open.check hopen sql
      rw [hcheck] at hok
      exact nomatch hok
    | ok u =>
      rw [hcheck] at hopen
      exact ⟨rfl, Progress.open_of_issue hopen⟩
  exact ⟨fun sql p h => (hrun sql p h).1, fun sql p h => (hrun sql p h).2⟩

/-- The request, if there is one, is not over and is not going to be cancelled. -/
structure Progress.Lasting (p : Progress) : Prop where
  isOpen : p.Open
  not_cancelled : p.cancelAfter = none

namespace Progress.Lasting

variable {p : Progress}

theorem issue (h : p.Lasting) (sql : String) : (p.issue sql).Lasting := by
  have hrequest : (p.issue sql).request = p.request := by
    rw [Progress.issue, h.not_cancelled]
    rfl
  exact ⟨fun r hr => h.isOpen r (hrequest ▸ hr), h.not_cancelled⟩

theorem serve_eq (h : p.Lasting) (store : Store) (sql : String) :
    (store.serve sql).run p = (store sql, p.issue sql) := by
  change store.serve sql p = _
  rw [Store.serve, h.isOpen.check]

theorem serve (h : p.Lasting) (store : Store) (sql : String) :
    ((store.serve sql).run p).2.Lasting := by
  rw [h.serve_eq]
  exact h.issue sql

end Progress.Lasting

end RenderTrace
