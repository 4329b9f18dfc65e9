import RenderTrace.Proofs.Query.Evaluation

/-!
# Cancelled requests

`Inquiry.queries` lists the queries that an inquiry asks of a store. A request that lasts sees all
of them issued (`run_lasting`). A `Progress.Countdown` is a request that is cancelled after a number
of further queries: an inquiry that goes no further once a query is refused (`Inquiry.Halting`) sees
that many of its queries issued, and comes to what it would have come to if these are all of them;
otherwise it fails (`run_countdown`).
-/

namespace RenderTrace
namespace Inquiry

variable {α β : Type}

def queries (store : Store) : Inquiry α → List String
  | done _ => []
  | fail _ => []
  | note _ rest => rest.queries store
  | ask sql next => sql :: (next (store sql)).queries store
  | askAll sqls next => sqls ++ (next (sqls.map store)).queries store

/-- The inquiry asks one query at a time and fails with the first that is not answered. -/
def Halting : Inquiry α → Prop
  | done _ => True
  | fail _ => True
  | note _ rest => rest.Halting
  | ask _ next => (∀ f, next (.error f) = fail f) ∧ ∀ a, (next a).Halting
  | askAll _ _ => False

namespace Halting

theorem pure (a : α) : (Pure.pure a : Inquiry α).Halting := trivial

theorem bind {x : Inquiry α} {f : α → Inquiry β} (hx : x.Halting) (hf : ∀ a, (f a).Halting) :
    (x >>= f).Halting := by
  change (x.bind f).Halting
  induction x with
  | done a => exact hf a
  | fail e => trivial
  | note e rest ih => exact ih hx
  | ask sql next ih =>
    refine ⟨fun e => ?_, fun a => ih a (hx.2 a)⟩
    change (next (.error e)).bind f = fail e
    rw [hx.1 e]
    rfl
  | askAll sqls next ih => exact hx.elim

theorem ofExcept (r : Except Failure α) : (Inquiry.ofExcept r).Halting := by
  cases r <;> trivial

theorem query (sql : String) : (Inquiry.query sql).Halting :=
  ⟨fun _ => rfl, fun a => ofExcept a⟩

theorem report (es : List Event) : (Inquiry.report es).Halting := by
  unfold Inquiry.report
  induction es with
  | nil => trivial
  | cons e es ih =>
    rw [Event.told]
    cases e.refusal? with
    | some f => trivial
    | none => exact ih

end Halting
end Inquiry

namespace Progress

def issueAll (p : Progress) (sqls : List String) : Progress := sqls.foldl issue p

variable {p : Progress}

theorem issued_issueAll (p : Progress) (sqls : List String) :
    (p.issueAll sqls).issued = p.issued ++ sqls := by
  induction sqls generalizing p with
  | nil => exact (List.append_nil _).symm
  | cons sql sqls ih =>
    change ((p.issue sql).issueAll sqls).issued = _
    rw [ih]
    exact List.append_assoc ..

theorem issueAll_append (p : Progress) (sqls more : List String) :
    p.issueAll (sqls ++ more) = (p.issueAll sqls).issueAll more := List.foldl_append

theorem Lasting.issueAll (h : p.Lasting) (sqls : List String) : (p.issueAll sqls).Lasting := by
  induction sqls generalizing p with
  | nil => exact h
  | cons sql sqls ih => exact ih (h.issue sql)

/-! ## Counting down -/

/-- The request is cancelled after some more queries. -/
def Countdown (p : Progress) : Nat → Prop
  | 0 => ∃ r, p.request = some r ∧ r.cancelled = true
  | left + 1 => ∃ r, p.request = some r ∧ r.isOver p.now = false ∧
      p.cancelAfter = some (p.issued.length + (left + 1))

/-- A request that is cancelled after some queries. -/
def cancelledAfter (r : Request) : Nat → Progress
  | 0 => start (some r.cancel)
  | n + 1 => { start (some r) with cancelAfter := some (n + 1) }

theorem countdown_cancelledAfter {r : Request} (h : r.isOver 0 = false) (n : Nat) :
    (cancelledAfter r n).Countdown n := by
  cases n with
  | zero => exact ⟨r.cancel, rfl, rfl⟩
  | succ n => exact ⟨r, rfl, h, by simp [cancelledAfter, start]⟩

namespace Countdown

theorem serve_eq_error (h : p.Countdown 0) (store : Store) (sql : String) :
    (store.serve sql).run p = (.error (.cancelled sql), p) := by
  obtain ⟨r, hr, hcancelled⟩ := h
  change store.serve sql p = _
  simp only [Store.serve, check, hr, Request.check, if_pos hcancelled]

theorem serve_eq {left : Nat} (h : p.Countdown (left + 1)) (store : Store) (sql : String) :
    (store.serve sql).run p = (store sql, p.issue sql) := by
  obtain ⟨r, hr, hover, -⟩ := h
  have hopen : p.Open := fun r' hr' => by
    obtain rfl : r = r' := Option.some.inj (hr.symm.trans hr')
    exact hover
  change store.serve sql p = _
  rw [Store.serve, hopen.check]

theorem issue {left : Nat} (h : p.Countdown (left + 1)) (sql : String) :
    (p.issue sql).Countdown left := by
  obtain ⟨r, hr, hover, hafter⟩ := h
  have hlength : (p.issue sql).issued.length = p.issued.length + 1 := List.length_append
  cases left with
  | zero =>
    refine ⟨r.cancel, ?_, rfl⟩
    rw [Progress.issue, hafter, hr]
    simp
  | succ left =>
    refine ⟨r, ?_, hover, ?_⟩
    · rw [Progress.issue, hafter, hr]
      simp
    · rw [hlength, Nat.add_right_comm]
      exact hafter

theorem issueAll {left : Nat} {sqls : List String} (h : p.Countdown (sqls.length + left)) :
    (p.issueAll sqls).Countdown left := by
  induction sqls generalizing p with
  | nil => rwa [List.length_nil, Nat.zero_add] at h
  | cons sql sqls ih =>
    refine ih (issue ?_ sql)
    rwa [List.length_cons, Nat.add_right_comm] at h

end Countdown
end Progress

/-! ## Runs -/

namespace Inquiry

variable {α : Type} (store : Store) {p : Progress}

theorem mapM_lasting (h : p.Lasting) (sqls : List String) :
    (sqls.mapM store.serve).run p = (sqls.map store, p.issueAll sqls) := by
  induction sqls generalizing p with
  | nil => rfl
  | cons sql sqls ih =>
    rw [List.mapM_cons, StateT.run_bind, h.serve_eq]
    change (StateT.run (sqls.mapM store.serve >>= _) (p.issue sql)) = _
    rw [StateT.run_bind, ih (h.issue sql)]
    rfl

theorem run_lasting (h : p.Lasting) (x : Inquiry α) :
    (x.run store.serve).run p = (x.evaluate store, p.issueAll (x.queries store)) := by
  induction x generalizing p with
  | done a => rfl
  | fail e => rfl
  | note e rest ih =>
    rw [run, StateT.run_bind, ih h]
    rfl
  | ask sql next ih =>
    rw [run, StateT.run_bind, h.serve_eq]
    exact ih (store sql) (h.issue sql)
  | askAll sqls next ih =>
    rw [run, StateT.run_bind, mapM_lasting store h, queries, Progress.issueAll_append]
    exact ih (sqls.map store) (h.issueAll sqls)

/-- Of the queries of an inquiry, those before the request is cancelled are issued. If these are all
of them nothing else changes, and otherwise the inquiry fails. -/
theorem run_countdown {x : Inquiry α} (hx : x.Halting) {left : Nat} (h : p.Countdown left) :
    ((x.run store.serve).run p).2 = p.issueAll ((x.queries store).take left) ∧
      ((x.queries store).length ≤ left → ((x.run store.serve).run p).1 = x.evaluate store) ∧
      (left < (x.queries store).length →
        ∃ f, ((x.run store.serve).run p).1.result = .error f) := by
  induction x generalizing p left with
  | done a =>
    rw [queries, List.take_nil]
    exact ⟨rfl, fun _ => rfl, fun h => absurd h (Nat.not_lt_zero _)⟩
  | fail e =>
    rw [queries, List.take_nil]
    exact ⟨rfl, fun _ => rfl, fun h => absurd h (Nat.not_lt_zero _)⟩
  | note e rest ih =>
    obtain ⟨hstate, hall, hcut⟩ := ih hx h
    rw [run, StateT.run_bind]
    refine ⟨hstate, fun hle => ?_, hcut⟩
    rw [evaluate, ← hall hle]
    rfl
  | ask sql next ih =>
    cases left with
    | zero =>
      have hrun : ((ask sql next).run store.serve).run p =
          (⟨.error (.cancelled sql), []⟩, p) := by
        rw [run, StateT.run_bind, h.serve_eq_error]
        change ((next (.error (.cancelled sql))).run store.serve).run p = _
        rw [hx.1]
        rfl
      rw [hrun]
      exact ⟨rfl, fun h => absurd h (Nat.not_succ_le_zero _), fun _ => ⟨_, rfl⟩⟩
    | succ left =>
      rw [run, StateT.run_bind, h.serve_eq]
      obtain ⟨hstate, hall, hcut⟩ := ih (store sql) (hx.2 _) (h.issue sql)
      exact ⟨hstate, fun hle => hall (Nat.le_of_succ_le_succ hle),
        fun hlt => hcut (Nat.lt_of_succ_lt_succ hlt)⟩
  | askAll sqls next ih => exact hx.elim

end Inquiry
end RenderTrace
