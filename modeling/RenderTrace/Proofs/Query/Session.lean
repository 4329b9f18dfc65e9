import Mathlib.Algebra.Order.Ring.Rat
import Mathlib.Data.List.Induction
import Mathlib.Data.List.ReduceOption
import RenderTrace.Proofs.Query.Outcome
import RenderTrace.Query.Session

/-!
# What a session lets through

What a step of a session does depends on the steps before it through two things only: the clock, and
which requests have been cancelled. Both can be told from the start of the session and these steps, and
so can whether a query is refused (`refusal?`); neither what the engine was asked nor how it failed has
a part in it. `Follows` says this of a session that has got through some steps, and that its lock is
free: no step keeps it (`Follows.step`), so none waits for ever (`steps_eq`).
-/

namespace RenderTrace
open Number (Value)

/-- A query is not put to the engine. -/
def Failure.IsRefusal : Failure → Prop
  | .cancelled _ | .expired _ => True
  | _ => False

namespace ExceptionClass

variable {c : ExceptionClass} {handled : List ExceptionClass}

theorem isOneOf_iff : c.isOneOf handled = true ↔ ∃ h ∈ handled, c.IsA h := by
  simp [isOneOf]

/-- What catches a class catches every class that is derived from it. -/
theorem isOneOf_derive (h : c.isOneOf handled = true) (home name : String) :
    (c.derive home name).isOneOf handled = true := by
  obtain ⟨base, hbase, hisA⟩ := isOneOf_iff.mp h
  exact isOneOf_iff.mpr ⟨base, hbase, List.mem_cons_of_mem _ hisA⟩

end ExceptionClass

theorem EngineFault.failure_eq (sql : String) (fault : EngineFault) :
    ((fault.kind.IsA .traceProcessor ∨ fault.kind.IsA .http ∨ fault.kind.IsA .os) →
        fault.failure sql = .query sql fault.message) ∧
      (¬ (fault.kind.IsA .traceProcessor ∨ fault.kind.IsA .http ∨ fault.kind.IsA .os) →
        fault.failure sql = .foreign fault.kind.name fault.message) := by
  have hhandled : fault.kind.isOneOf handled = true ↔
      (fault.kind.IsA .traceProcessor ∨ fault.kind.IsA .http ∨ fault.kind.IsA .os) := by
    simp [ExceptionClass.isOneOf_iff, handled]
  exact ⟨fun h => if_pos (hhandled.mpr h), fun h => if_neg fun hone => h (hhandled.mp hone)⟩

namespace Request

def Past (r : Request) (now : Rat) : Prop :=
  match r.deadline with
  | some (.finite q) => q ≤ now
  | some (.infinite negative) => negative = true
  | _ => False

variable {r : Request} {now later : Rat}

theorem isExpired_iff : r.isExpired now = true ↔ r.Past now := by
  unfold isExpired Past
  cases r.deadline with
  | none => simp
  | some d => cases d <;> simp [Value.less, Value.same, le_iff_lt_or_eq]

instance : Decidable (r.Past now) := decidable_of_iff _ isExpired_iff

theorem Past.mono (h : r.Past now) (hle : now ≤ later) : r.Past later := by
  unfold Past at h ⊢
  split at h
  · exact le_trans h hle
  · exact h
  · exact h

end Request

namespace Session

def Step.duration : Step → Rat
  | .wait seconds => if seconds < 0 then 0 else seconds
  | _ => 0

def Step.cancels (i : Nat) : Step → Bool
  | .cancel j => j == i
  | _ => false

/-- A step is a query of a request or cancels it. -/
def Step.concerns (i : Nat) : Step → Bool
  | .query _ (some j) _ => j == i
  | .cancel j => j == i
  | _ => false

def clockAfter (now : Rat) (before : List Step) : Rat :=
  before.foldl (fun now x => now + x.duration) now

/-- A request was cancelled from the start or is cancelled by some steps. -/
def cancelledBy (s : Session) (before : List Step) (i : Nat) : Bool :=
  (s.requests[i]?).any Request.cancelled || before.any (Step.cancels i)

/-- Why a query is refused after some steps, none if it is not. -/
def refusal? (s : Session) (before : List Step) (sql : String) (request : Option Nat) :
    Option Failure := do
  let i ← request
  let r ← s.requests[i]?
  if s.cancelledBy before i then some (.cancelled sql)
  else if r.Past (clockAfter s.now before) then some (.expired sql)
  else none

/-- What a step after some others gives. -/
def Step.outcome (s : Session) (before : List Step) : Step → Outcome
  | .query sql request reply =>
    match s.refusal? before sql request with
    | some f => .error f
    | none => (reply.answer sql).map some
  | .close (.error fault) => .error (.foreign fault.kind.name fault.message)
  | _ => .ok none

/-- What a step after some others asks of the engine. -/
def Step.call? (s : Session) (before : List Step) : Step → Option EngineCall
  | .query sql request _ => if s.refusal? before sql request = none then some (.query sql) else none
  | .close _ => some .close
  | _ => none

/-- A session has got through some steps to another. -/
def Reaches (s : Session) (xs : List Step) (reached : Session) : Prop :=
  ∃ outcomes, s.steps xs = some (outcomes, reached)

/-- What the steps before it leave to a session. -/
structure Follows (s : Session) (before : List Step) (reached : Session) : Prop where
  free : reached.locked = false
  now : reached.now = clockAfter s.now before
  requests : ∀ i, reached.requests[i]? = (s.requests[i]?).map fun (r : Request) =>
    { r with cancelled := r.cancelled || before.any (Step.cancels i) }

/-- Two sessions that are at the same time, with the same requests. -/
structure Agree (s s' : Session) : Prop where
  now : s.now = s'.now
  requests : s.requests = s'.requests

variable {s reached next : Session} {before : List Step}

/-! ## The clock and the requests -/

theorem Step.duration_nonneg (x : Step) : 0 ≤ x.duration := by
  cases x with
  | wait seconds =>
    rw [duration]
    split
    · exact le_refl 0
    · next h => exact not_lt.mp h
  | query | cancel | close => exact le_refl 0

theorem clockAfter_append (now : Rat) (before more : List Step) :
    clockAfter now (before ++ more) = clockAfter (clockAfter now before) more := List.foldl_append

theorem le_clockAfter (now : Rat) (before : List Step) : now ≤ clockAfter now before := by
  induction before generalizing now with
  | nil => exact le_refl now
  | cons x before ih => exact le_trans (le_add_of_nonneg_right x.duration_nonneg) (ih _)

theorem locked_of_openTrace {files : FileTree} {trace : Path} {requests : List Request}
    (h : openTrace files trace requests = .ok s) : s.locked = false := by
  obtain ⟨-, -, hs⟩ := bind_eq_ok.mp h
  exact Except.ok.inj hs ▸ rfl

theorem follows_nil (hfree : s.locked = false) : s.Follows [] s := ⟨hfree, rfl, fun i => by simp⟩

theorem Follows.concat (h : s.Follows before reached) {x : Step} (hfree : next.locked = false)
    (hnow : next.now = reached.now + x.duration)
    (hrequests : ∀ i, next.requests[i]? = (reached.requests[i]?).map fun (r : Request) =>
      { r with cancelled := r.cancelled || x.cancels i }) :
    s.Follows (before ++ [x]) next := by
  refine ⟨hfree, ?_, fun i => ?_⟩
  · rw [hnow, h.now, clockAfter_append]
    rfl
  · rw [hrequests, h.requests, Option.map_map]
    simp [Function.comp_def, Bool.or_assoc]

theorem Follows.concat_of_agree (h : s.Follows before reached) {x : Step}
    (hfree : next.locked = false) (hagree : next.Agree reached)
    (hduration : x.duration = 0) (hcancels : ∀ i, x.cancels i = false) :
    s.Follows (before ++ [x]) next := by
  refine h.concat hfree (by rw [hagree.now, hduration, add_zero]) fun i => ?_
  rw [hagree.requests, hcancels]
  simp

/-! ## Steps -/

theorem Follows.check (h : s.Follows before reached) (sql : String) (request : Option Nat) :
    reached.check request sql =
      match s.refusal? before sql request with
      | some f => .error f
      | none => .ok () := by
  cases request with
  | none => rfl
  | some i =>
    unfold Session.check refusal? cancelledBy
    cases hr : s.requests[i]? with
    | none => simp [h.requests, hr]
    | some r =>
      simp only [Option.bind_some, h.requests, hr, Option.map_some, h.now, Option.any_some, bind]
      by_cases hcancelled : (r.cancelled || before.any (Step.cancels i)) = true
      · simp [Request.check, hcancelled]
      · have hexpired : ∀ c, (⟨r.deadline, c⟩ : Request).isExpired (clockAfter s.now before) = true ↔
            r.Past (clockAfter s.now before) := fun _ => Request.isExpired_iff
        by_cases hpast : r.Past (clockAfter s.now before)
        · simp [Request.check, hcancelled, hexpired, hpast]
        · simp [Request.check, hcancelled, hexpired, hpast]

theorem withLock_ask {α : Type} (hfree : s.locked = false) (call : EngineCall) (reply : α) :
    s.withLock (ask call reply) = some (reply, { s with calls := s.calls ++ [call] }) := by
  obtain ⟨trace, requests, now, locked, calls, events⟩ := s
  obtain rfl : locked = false := hfree
  rfl

/-- A lock that is held lets no query through and no closing: that it is given back matters. -/
theorem step_of_locked (hlocked : s.locked = true) :
    (∀ reply, s.step (.close reply) = none) ∧
      ∀ sql request reply, s.check request sql = .ok () →
        s.step (.query sql request reply) = none := by
  refine ⟨fun reply => ?_, fun sql request reply hcheck => ?_⟩
  · simp [step, close, withLock, hlocked]
  · simp [step, query, hcheck, withLock, tell, hlocked]

theorem Follows.query_of_refused (h : s.Follows before reached) {sql : String}
    {request : Option Nat} {f : Failure} (hrefusal : s.refusal? before sql request = some f)
    (reply : EngineReply) : reached.query sql request reply = some (.error f, reached) := by
  unfold Session.query
  rw [h.check, hrefusal]

theorem Follows.query_of_open (h : s.Follows before reached) {sql : String}
    {request : Option Nat} (hrefusal : s.refusal? before sql request = none) (reply : EngineReply) :
    ∃ next, reached.query sql request reply = some (reply.answer sql, next) ∧
      next.locked = false ∧ next.Agree reached ∧ next.calls = reached.calls ++ [.query sql] := by
  have hcheck := h.check sql request
  rw [hrefusal] at hcheck
  let told := reached.tell (.runningQuery sql)
  have hask := withLock_ask (s := told) h.free (.query sql) reply
  refine ⟨{ told with calls := told.calls ++ [.query sql] }, ?_, h.free, ⟨rfl, rfl⟩, rfl⟩
  unfold Session.query
  rw [hcheck, hask]
  rfl

theorem Follows.step (h : s.Follows before reached) (x : Step) :
    ∃ next, reached.step x = some (x.outcome s before, next) ∧ s.Follows (before ++ [x]) next ∧
      next.calls = reached.calls ++ (x.call? s before).toList := by
  cases x with
  | query sql request reply =>
    cases hrefusal : s.refusal? before sql request with
    | some f =>
      have hquery := h.query_of_refused hrefusal reply
      refine ⟨reached, ?_, h.concat_of_agree h.free ⟨rfl, rfl⟩ rfl fun _ => rfl, ?_⟩
      · simp [Session.step, hquery, Step.outcome, hrefusal, Except.map]
      · simp [Step.call?, hrefusal]
    | none =>
      obtain ⟨next, hquery, hfree, hagree, hcalls⟩ := h.query_of_open hrefusal reply
      refine ⟨next, ?_, h.concat_of_agree hfree hagree rfl fun _ => rfl, ?_⟩
      · simp [Session.step, hquery, Step.outcome, hrefusal]
      · simp [hcalls, Step.call?, hrefusal]
  | cancel j =>
    refine ⟨_, rfl, h.concat h.free (add_zero _).symm fun i => ?_, (List.append_nil _).symm⟩
    change (reached.requests.modify j Request.cancel)[i]? = _
    rw [List.getElem?_modify]
    by_cases hj : j = i
    · simp [hj, Step.cancels, Request.cancel]
    · have hother : (Step.cancel j).cancels i = false := beq_false_of_ne hj
      simp [hj, hother]
  | wait seconds =>
    refine ⟨_, rfl, ?_, ?_⟩
    · by_cases hback : seconds < 0
      · rw [wait, if_pos hback]
        exact h.concat_of_agree h.free ⟨rfl, rfl⟩ (if_pos hback) fun _ => rfl
      · rw [wait, if_neg hback]
        refine h.concat h.free ?_ fun i => by simp [Step.cancels]
        rw [Step.duration, if_neg hback]
    · rw [wait]
      split <;> exact (List.append_nil _).symm
  | close reply =>
    refine ⟨{ reached with calls := reached.calls ++ [.close] }, ?_,
      h.concat_of_agree h.free ⟨rfl, rfl⟩ rfl fun _ => rfl, rfl⟩
    rw [Session.step, close, withLock_ask h.free]
    cases reply <;> rfl

theorem steps_append (s : Session) (xs ys : List Step) : s.steps (xs ++ ys) =
    (s.steps xs).bind fun (as, s) => (s.steps ys).map fun (bs, s) => (as ++ bs, s) := by
  induction xs generalizing s with
  | nil => simp [steps]
  | cons x xs ih =>
    simp [steps, ih, Option.bind_assoc, Option.map_eq_bind]

theorem mapIdx_take_concat {α β : Type} (f : List α → α → β) (xs : List α) (x : α) :
    (xs ++ [x]).mapIdx (fun n y => f ((xs ++ [x]).take n) y) =
      xs.mapIdx (fun n y => f (xs.take n) y) ++ [f xs x] := by
  rw [List.mapIdx_concat, List.take_left]
  congr 1
  refine List.mapIdx_eq_mapIdx_iff.mpr fun n hn => ?_
  rw [List.take_append_of_le_length (Nat.le_of_lt hn)]

theorem steps_eq (hfree : s.locked = false) (xs : List Step) :
    ∃ reached, s.steps xs = some (xs.mapIdx (fun n x => x.outcome s (xs.take n)), reached) ∧
      s.Follows xs reached ∧
      reached.calls =
        s.calls ++ (xs.mapIdx fun n x => x.call? s (xs.take n)).reduceOption := by
  -- from the end, so that the steps before a step stay as they are
  induction xs using List.reverseRecOn with
  | nil => exact ⟨s, rfl, follows_nil hfree, (List.append_nil _).symm⟩
  | append_singleton xs x ih =>
    obtain ⟨reached, hsteps, hfollows, hcalls⟩ := ih
    obtain ⟨next, hstep, hnext, hcall⟩ := hfollows.step x
    refine ⟨next, ?_, hnext, ?_⟩
    · rw [mapIdx_take_concat (Step.outcome s), steps_append, hsteps]
      simp [steps, hstep]
    · rw [mapIdx_take_concat (Step.call? s), List.reduceOption_append, ← List.append_assoc, ← hcalls,
        hcall]
      cases x.call? s xs <;> rfl

theorem Reaches.follows (h : s.Reaches before reached) (hfree : s.locked = false) :
    s.Follows before reached := by
  obtain ⟨outcomes, hsteps⟩ := h
  obtain ⟨reached', hsteps', hfollows, -⟩ := steps_eq hfree before
  rw [hsteps, Option.some_inj, Prod.mk.injEq] at hsteps'
  exact hsteps'.2 ▸ hfollows

/-! ## Requests that are over -/

theorem not_isRefusal_of_ofRows {names : List String} {rows : List (List Cell)} {f : Failure}
    (h : ResultSet.ofRows names rows = .error f) : ¬ f.IsRefusal := by
  rcases bind_eq_error_iff.mp h with hcells | ⟨columns, -, hcolumns⟩
  · obtain ⟨i, -, hcolumn⟩ := exists_of_mapM_eq_error hcells
    obtain ⟨row, -, hcell⟩ := exists_of_mapM_eq_error hcolumn
    unfold ResultSet.cellAt at hcell
    split at hcell
    · exact nomatch hcell
    · obtain rfl := Except.error.inj hcell
      exact not_false
  · unfold ResultSet.ofColumns at hcolumns
    split at hcolumns
    · split at hcolumns
      · exact nomatch hcolumns
      · obtain rfl := Except.error.inj hcolumns
        exact not_false
    · obtain rfl := Except.error.inj hcolumns
      exact not_false

theorem not_isRefusal_of_answer {sql : String} {reply : EngineReply} {f : Failure}
    (h : reply.answer sql = .error f) : ¬ f.IsRefusal := by
  match reply with
  | .error fault =>
    obtain rfl := Except.error.inj h
    unfold EngineFault.failure
    split <;> exact not_false
  | .ok r =>
    change r.toResultSet = .error f at h
    rcases bind_eq_error_iff.mp h with hcells | ⟨rows, -, hrows⟩
    · obtain ⟨row, -, hrow⟩ := exists_of_mapM_eq_error hcells
      obtain ⟨name, -, hcell⟩ := exists_of_mapM_eq_error hrow
      unfold EngineRows.cellNamed at hcell
      split at hcell
      · exact nomatch hcell
      · obtain rfl := Except.error.inj hcell
        exact not_false
    · exact not_isRefusal_of_ofRows hrows

theorem Follows.refusal_of_isRefusal (h : s.Follows before reached) {sql : String}
    {request : Option Nat} {reply : EngineReply} {f : Failure}
    (hquery : reached.query sql request reply = some (.error f, next)) (hf : f.IsRefusal) :
    s.refusal? before sql request = some f := by
  cases hrefusal : s.refusal? before sql request with
  | none =>
    obtain ⟨next', hanswer, -⟩ := h.query_of_open hrefusal reply
    rw [hquery, Option.some_inj, Prod.mk.injEq] at hanswer
    exact absurd hf (not_isRefusal_of_answer hanswer.1.symm)
  | some f' =>
    rw [h.query_of_refused hrefusal, Option.some_inj, Prod.mk.injEq] at hquery
    rw [Except.error.inj hquery.1]

theorem cancelledBy_append {i : Nat}
    (h : s.cancelledBy before i = true) (more : List Step) :
    s.cancelledBy (before ++ more) i = true := by
  rw [cancelledBy, Bool.or_eq_true] at h ⊢
  rw [List.any_append, Bool.or_eq_true]
  exact h.imp_right .inl

theorem refusal?_append {sql : String} {i : Nat} {f : Failure}
    (h : s.refusal? before sql (some i) = some f) (more : List Step) (sql' : String) :
    s.refusal? (before ++ more) sql' (some i) =
      some (if s.cancelledBy (before ++ more) i then .cancelled sql' else .expired sql') := by
  obtain ⟨r, hr, h⟩ := Option.bind_eq_some_iff.mp h
  change (s.requests[i]?.bind _) = _
  rw [hr, Option.bind_some]
  by_cases hcancelled : s.cancelledBy (before ++ more) i = true
  · simp only [if_pos hcancelled]
  · have hbefore : ¬ s.cancelledBy before i = true := fun hb => hcancelled (cancelledBy_append hb more)
    have hpast : r.Past (clockAfter s.now before) := by
      by_contra hnot
      rw [if_neg hbefore, if_neg hnot] at h
      exact nomatch h
    have hlater : r.Past (clockAfter s.now (before ++ more)) := by
      rw [clockAfter_append]
      exact hpast.mono (le_clockAfter _ more)
    simp only [if_neg hcancelled, if_pos hlater]

/-! ## Other requests -/

theorem clockAfter_filter (now : Rat) (before : List Step) (i : Nat) :
    clockAfter now (before.filter fun x => !x.concerns i) = clockAfter now before := by
  induction before generalizing now with
  | nil => rfl
  | cons x before ih =>
    cases hx : x.concerns i with
    | false =>
      rw [List.filter_cons_of_pos (by simp [hx])]
      exact ih _
    | true =>
      have hduration : x.duration = 0 := by
        cases x with
        | wait => exact nomatch hx
        | query | cancel | close => rfl
      -- a step that concerns a request takes no time
      rw [List.filter_cons_of_neg (by simp [hx]), ih]
      change _ = clockAfter (now + x.duration) before
      rw [hduration, add_zero]

theorem cancelledBy_filter (s : Session) {i j : Nat} (hne : j ≠ i) (before : List Step) :
    s.cancelledBy (before.filter fun x => !x.concerns i) j = s.cancelledBy before j := by
  have hkept : ∀ x : Step, (!x.concerns i && x.cancels j) = x.cancels j := by
    intro x
    cases x with
    | cancel k =>
      by_cases hk : k = j
      · simp [Step.concerns, Step.cancels, hk, hne]
      · simp [Step.cancels, hk]
    | query | wait | close => simp [Step.cancels]
  rw [cancelledBy, cancelledBy, List.any_filter]
  simp only [hkept]

theorem refusal?_filter (s : Session) {i : Nat} {request : Option Nat} (hne : request ≠ some i)
    (before : List Step) (sql : String) :
    s.refusal? (before.filter fun x => !x.concerns i) sql request =
      s.refusal? before sql request := by
  cases request with
  | none => rfl
  | some j =>
    have hj : j ≠ i := fun h => hne (congrArg some h)
    simp only [refusal?, bind, Option.bind_some, clockAfter_filter, s.cancelledBy_filter hj]

theorem step_filter (s : Session) {i : Nat} {x : Step} (hx : x.concerns i = false)
    (before : List Step) :
    x.outcome s (before.filter fun y => !y.concerns i) = x.outcome s before ∧
      x.call? s (before.filter fun y => !y.concerns i) = x.call? s before := by
  cases x with
  | query sql request reply =>
    have hne : request ≠ some i := by
      rintro rfl
      simp [Step.concerns] at hx
    simp only [Step.outcome, Step.call?, s.refusal?_filter hne, and_self]
  | cancel | wait => exact ⟨rfl, rfl⟩
  | close reply => cases reply <;> exact ⟨rfl, rfl⟩

/-! ## Failing queries -/

theorem Agree.outcome_eq {s' : Session} (h : s.Agree s') (before : List Step) (x : Step) :
    x.outcome s before = x.outcome s' before ∧ x.call? s before = x.call? s' before := by
  have hrefusal : s.refusal? = s'.refusal? := by
    funext before sql request
    unfold refusal? cancelledBy
    rw [h.requests, h.now]
  cases x <;> simp only [Step.outcome, Step.call?, hrefusal, and_self]

theorem Agree.steps {s' : Session} (h : s.Agree s') (hfree : s.locked = false)
    (hfree' : s'.locked = false) (xs : List Step) :
    ∃ outcomes calls reached reached', s.steps xs = some (outcomes, reached) ∧
      s'.steps xs = some (outcomes, reached') ∧
      reached.calls = s.calls ++ calls ∧ reached'.calls = s'.calls ++ calls := by
  obtain ⟨reached, hsteps, -, hcalls⟩ := steps_eq hfree xs
  obtain ⟨reached', hsteps', -, hcalls'⟩ := steps_eq hfree' xs
  simp only [(h.outcome_eq _ _).1] at hsteps
  simp only [(h.outcome_eq _ _).2] at hcalls
  exact ⟨_, _, reached, reached', hsteps, hsteps', hcalls, hcalls'⟩

/-- A query that the engine fails leaves the lock free, and no later step can tell that it was put. -/
theorem steps_of_failing (hfree : s.locked = false) {sql : String} {request : Option Nat}
    (hopen : s.refusal? before sql request = none) (fault : EngineFault) (after : List Step) :
    ∃ earlier later calls reached failed spared,
      s.steps before = some (earlier, reached) ∧
      s.steps (before ++ .query sql request (.error fault) :: after) =
        some (earlier ++ .error (fault.failure sql) :: later, failed) ∧
      s.steps (before ++ after) = some (earlier ++ later, spared) ∧
      failed.calls = reached.calls ++ .query sql :: calls ∧ spared.calls = reached.calls ++ calls := by
  obtain ⟨reached, hsteps, hfollows, -⟩ := steps_eq hfree before
  obtain ⟨next, hquery, hnext, hagree, hcalls⟩ := hfollows.query_of_open hopen (.error fault)
  obtain ⟨later, calls, failed, spared, hfailed, hspared, hfailedCalls, hsparedCalls⟩ :=
    hagree.steps hnext hfollows.free after
  have hstep : reached.step (.query sql request (.error fault)) =
      some (.error (fault.failure sql), next) := by
    simp [Session.step, hquery, EngineReply.answer, Except.map]
  refine ⟨_, later, calls, reached, failed, spared, hsteps, ?_, ?_, ?_, hsparedCalls⟩
  · simp [steps_append, hsteps, Session.steps, hstep, hfailed]
  · simp [steps_append, hsteps, hspared]
  · rw [hfailedCalls, hcalls, List.append_assoc]
    rfl

/-- Every step gives what the steps before it leave to be given, and just the queries that are not
refused are put to the engine, in order; none waits for ever, and the lock is free behind them. A
request of which a query has been refused stays over, and later refusals say whether it is cancelled by
then; steps that do not concern it go on as if it had not been there. An exception of the engine is
passed on by its class and leaves nothing behind. -/
theorem steps_respect_requests (hfree : s.locked = false) :
    (∀ xs, ∃ reached,
      s.steps xs = some (xs.mapIdx (fun n x => x.outcome s (xs.take n)), reached) ∧
      reached.locked = false ∧ reached.calls =
        s.calls ++ (xs.mapIdx fun n x => x.call? s (xs.take n)).reduceOption) ∧
    (∀ before middle sql sql' i reply reply' f reached next ended,
      s.Reaches before reached → reached.query sql (some i) reply = some (.error f, next) →
      f.IsRefusal →
      let later := before ++ .query sql (some i) reply :: middle
      s.Reaches later ended →
        ∃ f', ended.query sql' (some i) reply' = some (.error f', ended) ∧ f'.IsRefusal ∧
          f'.message = queryMessage sql' (if s.cancelledBy later i then "request cancelled"
            else "request deadline exceeded")) ∧
    (∀ before i x reached alone, x.concerns i = false → s.Reaches before reached →
      s.Reaches (before.filter fun y => !y.concerns i) alone →
        ∃ outcome asked next next', reached.step x = some (outcome, next) ∧
          alone.step x = some (outcome, next') ∧
          next.calls = reached.calls ++ asked ∧ next'.calls = alone.calls ++ asked) ∧
    ∀ before after sql request fault, s.refusal? before sql request = none →
      ∃ f earlier later calls reached failed spared,
        ((fault.kind.IsA .traceProcessor ∨ fault.kind.IsA .http ∨ fault.kind.IsA .os) →
          f = .query sql fault.message) ∧
        (¬ (fault.kind.IsA .traceProcessor ∨ fault.kind.IsA .http ∨ fault.kind.IsA .os) →
          f = .foreign fault.kind.name fault.message) ∧
        s.steps before = some (earlier, reached) ∧
        s.steps (before ++ .query sql request (.error fault) :: after) =
          some (earlier ++ .error f :: later, failed) ∧
        s.steps (before ++ after) = some (earlier ++ later, spared) ∧
        failed.calls = reached.calls ++ .query sql :: calls ∧
        spared.calls = reached.calls ++ calls := by
  refine ⟨?_, ?_, ?_, ?_⟩
  · intro xs
    obtain ⟨reached, hsteps, hfollows, hcalls⟩ := steps_eq hfree xs
    exact ⟨reached, hsteps, hfollows.free, hcalls⟩
  · intro before middle sql sql' i reply reply' f reached next ended hreached hquery hf later hover
    have hrefusal := (hreached.follows hfree).refusal_of_isRefusal hquery hf
    have hlater := refusal?_append hrefusal (.query sql (some i) reply :: middle) sql'
    refine ⟨_, (hover.follows hfree).query_of_refused hlater reply', ?_, ?_⟩
    · split <;> trivial
    · split <;> rfl
  · intro before i x reached alone hx hreached halone
    obtain ⟨next, hstep, -, hcalls⟩ := (hreached.follows hfree).step x
    obtain ⟨next', hstep', -, hcalls'⟩ := (halone.follows hfree).step x
    obtain ⟨houtcome, hcall⟩ := step_filter s hx before
    rw [houtcome] at hstep'
    rw [hcall] at hcalls'
    exact ⟨_, _, next, next', hstep, hstep', hcalls, hcalls'⟩
  · intro before after sql request fault hopen
    obtain ⟨hcaught, hother⟩ := fault.failure_eq sql
    obtain ⟨earlier, later, calls, reached, failed, spared, hall⟩ :=
      steps_of_failing hfree hopen fault after
    exact ⟨_, earlier, later, calls, reached, failed, spared, hcaught, hother, hall⟩

def emptyReply : EngineReply := .ok ⟨[], []⟩

/-- A request with a deadline and one without. -/
def twoRequests : Session :=
  ⟨⟨"", ["t"]⟩, [⟨some (.finite 5), false⟩, .unlimited], 0, false, [], []⟩

theorem steps_respect_requests_sample :
    let s := twoRequests
    let before : List Step := [.query "a" (some 0) emptyReply, .wait 5]
    let later := before ++ [.query "b" (some 0) emptyReply, .cancel 0]
    let reset : EngineFault := ⟨.ofName "ConnectionResetError", "gone"⟩
    let odd : EngineFault := ⟨.ofName "ValueError", "odd"⟩
    s.locked = false ∧
      (∃ ended f, s.Reaches later ended ∧ ended.query "c" (some 0) emptyReply = some (.error f, ended) ∧
        f.IsRefusal ∧ f.message = "SQL query failed: c: request cancelled") ∧
      (∃ ended waited outcome next next', s.Reaches later ended ∧ s.Reaches [.wait 5] waited ∧
        ended.step (.query "d" (some 1) emptyReply) = some (outcome, next) ∧
        waited.step (.query "d" (some 1) emptyReply) = some (outcome, next')) ∧
      (∃ outcomes failed, s.steps (later ++ [.query "d" (some 1) (.error reset)]) =
          some (outcomes ++ [.error (.query "d" "gone")], failed) ∧
        failed.calls = [.query "a", .query "d"]) ∧
      ∃ outcomes failed, s.steps (later ++ [.query "d" (some 1) (.error odd)]) =
        some (outcomes ++ [.error (.foreign "ValueError" "odd")], failed) := by
  intro s before later reset odd
  have hfree : s.locked = false := rfl
  obtain ⟨hall, hover, hothers, hfaults⟩ := steps_respect_requests hfree
  obtain ⟨reached, hreached, -, -⟩ := hall before
  obtain ⟨ended, hlater, -, hcalls⟩ := hall later
  obtain ⟨waited, hwaited, -, -⟩ := hall [.wait 5]
  have hopen : s.refusal? later "d" (some 1) = none := by decide +kernel
  have hlast : ∀ fault : EngineFault, ∃ f outcomes failed,
      ((fault.kind.IsA .traceProcessor ∨ fault.kind.IsA .http ∨ fault.kind.IsA .os) →
        f = .query "d" fault.message) ∧
      (¬ (fault.kind.IsA .traceProcessor ∨ fault.kind.IsA .http ∨ fault.kind.IsA .os) →
        f = .foreign fault.kind.name fault.message) ∧
      s.steps (later ++ [.query "d" (some 1) (.error fault)]) =
        some (outcomes ++ [.error f], failed) ∧
      failed.calls = [.query "a", .query "d"] := by
    intro fault
    obtain ⟨f, earlier, rest, calls, reached, failed, spared, hcaught, hother, hearlier, hfailed,
      hspared, hfailedCalls, hsparedCalls⟩ := hfaults later [] "d" (some 1) fault hopen
    rw [List.append_nil, hearlier, Option.some_inj, Prod.mk.injEq, List.self_eq_append_right]
      at hspared
    obtain ⟨rfl, rfl⟩ := hspared
    rw [List.self_eq_append_right] at hsparedCalls
    subst hsparedCalls
    rw [hlater, Option.some_inj, Prod.mk.injEq] at hearlier
    refine ⟨f, earlier, failed, hcaught, hother, hfailed, ?_⟩
    rw [hfailedCalls, ← hearlier.2, hcalls]
    decide +kernel
  refine ⟨hfree, ?_, ?_, ?_, ?_⟩
  · have hexpired : s.refusal? before "b" (some 0) = some (.expired "b") := by decide +kernel
    have hrefused := (Reaches.follows ⟨_, hreached⟩ hfree).query_of_refused hexpired emptyReply
    obtain ⟨f, hquery, hf, hmessage⟩ := hover before [.cancel 0] "b" "c" 0 emptyReply emptyReply _
      reached reached ended ⟨_, hreached⟩ hrefused trivial ⟨_, hlater⟩
    exact ⟨ended, f, ⟨_, hlater⟩, hquery, hf, hmessage⟩
  · obtain ⟨outcome, _, next, next', hstep, hstep', -, -⟩ :=
      hothers later 0 (.query "d" (some 1) emptyReply) ended waited rfl ⟨_, hlater⟩ ⟨_, hwaited⟩
    exact ⟨ended, waited, outcome, next, next', ⟨_, hlater⟩, ⟨_, hwaited⟩, hstep, hstep'⟩
  · obtain ⟨f, outcomes, failed, hcaught, -, hfailed, hfailedCalls⟩ := hlast reset
    have hos : reset.kind.IsA .os := by decide +kernel
    rw [hcaught (.inr (.inr hos))] at hfailed
    exact ⟨outcomes, failed, hfailed, hfailedCalls⟩
  · obtain ⟨f, outcomes, failed, -, hother, hfailed, -⟩ := hlast odd
    rw [hother (by decide +kernel)] at hfailed
    exact ⟨outcomes, failed, hfailed⟩

end Session
end RenderTrace
