import Mathlib.Algebra.BigOperators.Group.List.Basic
import Mathlib.Algebra.Order.Ring.Rat
import Mathlib.Tactic.NormNum.Basic
import Mathlib.Tactic.SplitIfs
import RenderTrace.Profile.Metric
import RenderTrace.Proofs.Profile.Bisection

/-!
# The loop over samples and the plain scan

To weigh a counter over a slice, a loop visits the sample intervals from the first that ends after
the start of the slice up to the last that starts before its end. `Metric.visits` are the places and
overlaps that it takes in, one after the other, whatever the values are (`weighted_eq_foldlM`). The
intervals left out on either side have no overlap, so apart from zeros these are the places and
overlaps of all intervals (`filter_visits`), and every sum over them is that of the plain scan.
-/

namespace RenderTrace.Metric

/-- The length of the common part of `[start, stop)` and `[a, b)`. -/
def common (start stop a b : Int) : Int := max 0 (min stop b - max start a)

/-- The place of a sample and the overlap of a slice with the interval that it ends. -/
def overlapAt (s : Slice Int) (times : List Int) (i : Nat) : Nat × Int :=
  (i, common s.start (s.start + s.duration) (times.getD (i - 1) 0) (times.getD i 0))

/-- All samples but the first, with the overlaps of their intervals. -/
def scan (s : Slice Int) (times : List Int) : List (Nat × Int) :=
  (List.range' 1 (times.length - 1)).map (overlapAt s times)

/-- The samples that the loop visits: from the first place after the start of the slice, but not the
first place of all, for as long as the interval starts before the end of the slice. -/
def visits (s : Slice Int) (times : List Int) : List (Nat × Int) :=
  let place := max 1 (Time.placeAfter times s.start)
  ((List.range' place (times.length - place)).takeWhile fun i =>
    times.getD (i - 1) 0 < s.start + s.duration).map (overlapAt s times)

/-- Takes the value at a place in with an overlap. -/
def Weighted.visit {V W : Type} [Weighing Int V W] [Add W] (values : List V)
    (acc : Weighted Int W) (v : Nat × Int) : Except Failure (Weighted Int W) :=
  match values[v.1]? with
  | none => .error .outOfRange
  | some x => do return ⟨acc.sum + (← weigh x v.2), acc.time + v.2⟩

theorem later_eq_max (x y : Int) : Time.later x y = max x y := by
  unfold Time.later
  split_ifs <;> omega

theorem earlier_eq_min (x y : Int) : Time.earlier x y = min x y := by
  unfold Time.earlier
  split_ifs <;> omega

theorem overlap_eq (start stop a b : Int) :
    Time.overlap start stop a b = .ok (common start stop a b) := by
  simp only [Time.overlap, Time.sub_plain, Except.map, later_eq_max, earlier_eq_min, common]

/-! ## What the loop takes in -/

section loop
variable {V W : Type} [Weighing Int V W] [Add W]

/-- The loop from a place on, `previous` being the time before it. -/
theorem accumulate_eq_foldlM (s : Slice Int) (times : List Int) (values : List V) (rest : List Int)
    (k : Nat) (previous : Int) (hdrop : times.drop k = previous :: rest) (acc : Weighted Int W) :
    accumulate s.start (s.start + s.duration) previous rest (values.drop (k + 1)) acc =
      (((List.range' (k + 1) rest.length).takeWhile fun i =>
        times.getD (i - 1) 0 < s.start + s.duration).map (overlapAt s times)).foldlM
          (Weighted.visit values) acc := by
  induction rest generalizing k previous acc with
  | nil => rfl
  | cons t rest ih =>
    -- the time before the place `k + 1` is at `k`
    have hnext : times.drop (k + 1) = t :: rest := by
      rw [← List.tail_drop, hdrop, List.tail_cons]
    have hprevious : times.getD k 0 = previous := by
      rw [List.getD_eq_getElem?_getD, ← List.head?_drop, hdrop]
      rfl
    have ht : times.getD (k + 1) 0 = t := by
      rw [List.getD_eq_getElem?_getD, ← List.head?_drop, hnext]
      rfl
    rw [List.length_cons, List.range'_succ, List.takeWhile_cons, Nat.add_sub_cancel, hprevious,
      accumulate]
    by_cases hstop : previous < s.start + s.duration
    · have hpair : overlapAt s times (k + 1) =
          (k + 1, common s.start (s.start + s.duration) previous t) := by
        rw [overlapAt, Nat.add_sub_cancel, hprevious, ht]
      have hhead : values[k + 1]? = (values.drop (k + 1)).head? := List.head?_drop.symm
      rw [if_pos hstop, if_pos (decide_eq_true hstop), overlap_eq, List.map_cons, List.foldlM_cons,
        hpair, Weighted.visit, hhead]
      cases hvalues : values.drop (k + 1) with
      | nil => rfl
      | cons v more =>
        have hmore : more = values.drop (k + 1 + 1) := by
          rw [← List.tail_drop, hvalues, List.tail_cons]
        cases hweigh : (weigh v (common s.start (s.start + s.duration) previous t) :
            Except Failure W) with
        | error f => simp only [List.head?_cons, bind, Except.bind, hweigh]
        | ok w =>
          simp only [List.head?_cons, bind, Except.bind, hweigh, hmore, Time.add_plain]
          exact ih (k + 1) t hnext _
    · rw [if_neg hstop, if_neg (by simpa using hstop)]
      rfl

variable [OfNat W 0]

theorem weighted_eq_foldlM (s : Slice Int) (c : Counter Int V) :
    (weighted s c : Except Failure (Weighted Int W)) =
      (visits s c.timestamps).foldlM (Weighted.visit c.values) .zero := by
  obtain ⟨k, hk⟩ : ∃ k, max 1 (Time.placeAfter c.timestamps s.start) = k + 1 :=
    ⟨max 1 (Time.placeAfter c.timestamps s.start) - 1, by omega⟩
  have hstop : s.stop = .ok (s.start + s.duration) := rfl
  simp only [weighted, visits, hstop, hk, Nat.add_sub_cancel, bind, Except.bind]
  cases hdrop : c.timestamps.drop k with
  | nil =>
    have hlen : c.timestamps.length - (k + 1) = 0 := by
      have := List.drop_eq_nil_iff.mp hdrop
      omega
    rw [hlen]
    rfl
  | cons previous rest =>
    have hlen : c.timestamps.length - (k + 1) = rest.length := by
      have := congrArg List.length hdrop
      rw [List.length_drop, List.length_cons] at this
      omega
    rw [hlen]
    exact accumulate_eq_foldlM s c.timestamps c.values rest k previous hdrop .zero

end loop

/-! ## What is left out -/

theorem common_eq_zero {start stop a b : Int} (h : stop ≤ a ∨ b ≤ start) :
    common start stop a b = 0 := by
  unfold common
  omega

theorem not_of_mem_dropWhile {α : Type} {p : α → Bool} {l : List α}
    (h : l.Pairwise fun a b => p b = true → p a = true) : ∀ x ∈ l.dropWhile p, p x = false := by
  induction l with
  | nil => simp
  | cons a l ih =>
    obtain ⟨ha, hl⟩ := List.pairwise_cons.mp h
    cases hpa : p a with
    | true =>
      rw [List.dropWhile_cons_of_pos hpa]
      exact ih hl
    | false =>
      rw [List.dropWhile_cons_of_neg (by simp [hpa])]
      intro x hx
      rcases List.mem_cons.mp hx with rfl | hx
      · exact hpa
      · exact Bool.eq_false_iff.mpr fun hpx => Bool.eq_false_iff.mp hpa (ha x hx hpx)

variable {s : Slice Int} {times : List Int}

theorem mem_visits {v : Nat × Int} (h : v ∈ visits s times) :
    1 ≤ v.1 ∧ v.1 < times.length ∧ v = overlapAt s times v.1 := by
  obtain ⟨i, hi, rfl⟩ := List.mem_map.mp h
  have hrange := (List.takeWhile_prefix _).subset hi
  rw [List.mem_range'_1] at hrange
  exact ⟨by simp only [overlapAt]; omega, by simp only [overlapAt]; omega, rfl⟩

theorem mem_scan_iff {v : Nat × Int} : v ∈ scan s times ↔
    1 ≤ v.1 ∧ v.1 < times.length ∧ v = overlapAt s times v.1 := by
  constructor
  · intro h
    obtain ⟨i, hi, rfl⟩ := List.mem_map.mp h
    rw [List.mem_range'_1] at hi
    exact ⟨hi.1, by simp only [overlapAt]; omega, rfl⟩
  · rintro ⟨hpos, hlt, hv⟩
    rw [hv]
    exact List.mem_map_of_mem (List.mem_range'_1.mpr ⟨hpos, by omega⟩)

theorem pairwise_starts (hsorted : times.Pairwise (· ≤ ·)) (stop : Int) (place : Nat) :
    (List.range' place (times.length - place)).Pairwise fun i j =>
      decide (times.getD (j - 1) 0 < stop) = true → decide (times.getD (i - 1) 0 < stop) = true := by
  refine (List.pairwise_lt_range' (s := place)).imp_of_mem fun {i j} hi hj hij hlt => ?_
  rw [List.mem_range'_1] at hj
  have hmono := Time.getD_le_getD hsorted (i := i - 1) (j := j - 1) (by omega) (by omega)
  simp only [decide_eq_true_eq] at hlt ⊢
  omega

/-- The plain scan is the loop with samples without overlap before and after. -/
theorem exists_scan_eq (s : Slice Int) (hsorted : times.Pairwise (· ≤ ·)) :
    ∃ before after, scan s times = before ++ visits s times ++ after ∧
      ∀ v ∈ before ++ after, v.2 = 0 := by
  rcases Nat.eq_zero_or_pos times.length with hnil | hpos
  · obtain rfl := List.eq_nil_of_length_eq_zero hnil
    exact ⟨[], [], by simp [visits, scan], by simp⟩
  obtain ⟨hle, hsep⟩ := Time.placeAfter_spec hsorted s.start
  simp only [visits, scan]
  generalize hplace : max 1 (Time.placeAfter times s.start) = place
  have hrange : List.range' 1 (times.length - 1) =
      List.range' 1 (place - 1) ++ List.range' place (times.length - place) := by
    have happend := List.range'_append_1 (s := 1) (m := place - 1) (n := times.length - place)
    rw [show 1 + (place - 1) = place by omega,
      show place - 1 + (times.length - place) = times.length - 1 by omega] at happend
    exact happend.symm
  refine ⟨(List.range' 1 (place - 1)).map (overlapAt s times),
    ((List.range' place (times.length - place)).dropWhile fun i =>
      times.getD (i - 1) 0 < s.start + s.duration).map (overlapAt s times), ?_, fun v hv => ?_⟩
  · rw [hrange, List.append_assoc, ← List.map_append, List.takeWhile_append_dropWhile,
      List.map_append]
  · rcases List.mem_append.mp hv with hv | hv
    · -- the interval ends up to the start of the slice
      obtain ⟨i, hi, rfl⟩ := List.mem_map.mp hv
      rw [List.mem_range'_1] at hi
      exact common_eq_zero (Or.inr (hsep.before i (by omega)))
    · -- the interval starts from the end of the slice on
      obtain ⟨i, hi, rfl⟩ := List.mem_map.mp hv
      have hstop := not_of_mem_dropWhile (pairwise_starts hsorted _ place) i hi
      simp only [decide_eq_false_iff_not, Int.not_lt] at hstop
      exact common_eq_zero (Or.inl hstop)

theorem filter_visits (s : Slice Int) (hsorted : times.Pairwise (· ≤ ·)) :
    (visits s times).filter (fun v => v.2 ≠ 0) = (scan s times).filter (fun v => v.2 ≠ 0) := by
  obtain ⟨before, after, hscan, hzero⟩ := exists_scan_eq s hsorted
  have hbefore : before.filter (fun v => v.2 ≠ 0) = [] :=
    List.filter_eq_nil_iff.mpr fun v hv => by simp [hzero v (List.mem_append_left _ hv)]
  have hafter : after.filter (fun v => v.2 ≠ 0) = [] :=
    List.filter_eq_nil_iff.mpr fun v hv => by simp [hzero v (List.mem_append_right _ hv)]
  rw [hscan, List.filter_append, List.filter_append, hbefore, hafter, List.nil_append,
    List.append_nil]

theorem sum_visits {M : Type} [AddMonoid M] (s : Slice Int) (hsorted : times.Pairwise (· ≤ ·))
    (f : Nat × Int → M) (hf : ∀ v : Nat × Int, v.2 = 0 → f v = 0) :
    ((visits s times).map f).sum = ((scan s times).map f).sum := by
  obtain ⟨before, after, hscan, hzero⟩ := exists_scan_eq s hsorted
  have hbefore : (before.map f).sum = 0 := List.sum_eq_zero fun x hx => by
    obtain ⟨v, hv, rfl⟩ := List.mem_map.mp hx
    exact hf v (hzero v (List.mem_append_left _ hv))
  have hafter : (after.map f).sum = 0 := List.sum_eq_zero fun x hx => by
    obtain ⟨v, hv, rfl⟩ := List.mem_map.mp hx
    exact hf v (hzero v (List.mem_append_right _ hv))
  rw [hscan, List.map_append, List.map_append, List.sum_append, List.sum_append, hbefore, hafter,
    zero_add, add_zero]

/-! ## Sums -/

theorem time_of_foldlM_visit {V W : Type} [Weighing Int V W] [Add W] {values : List V}
    {vs : List (Nat × Int)} {acc w : Weighted Int W}
    (h : vs.foldlM (Weighted.visit values) acc = .ok w) :
    w.time = acc.time + (vs.map (·.2)).sum := by
  induction vs generalizing acc with
  | nil =>
    obtain rfl : acc = w := Except.ok.inj h
    simp
  | cons v vs ih =>
    rw [List.foldlM_cons, Weighted.visit] at h
    cases hvalue : values[v.1]? with
    | none => simp [hvalue, bind, Except.bind] at h
    | some x =>
      cases hweigh : (weigh x v.2 : Except Failure W) with
      | error f => simp [hvalue, hweigh, bind, Except.bind] at h
      | ok y =>
        simp only [hvalue, hweigh, bind, Except.bind, pure, Except.pure] at h
        rw [ih h, List.map_cons, List.sum_cons, Int.add_assoc]

instance : Measure Int Rat := ⟨fun n => .ok n⟩

theorem foldlM_visit_exact {values : List Rat} {vs : List (Nat × Int)}
    (hvs : ∀ v ∈ vs, v.1 < values.length) (acc : Weighted Int Rat) :
    vs.foldlM (Weighted.visit values) acc = .ok
      ⟨acc.sum + (vs.map fun v => values.getD v.1 0 * v.2).sum, acc.time + (vs.map (·.2)).sum⟩ := by
  induction vs generalizing acc with
  | nil => simp [pure, Except.pure]
  | cons v vs ih =>
    obtain ⟨hv, hvs⟩ := List.forall_mem_cons.mp hvs
    have hvalue : values[v.1]? = some (values.getD v.1 0) := by
      rw [List.getD_eq_getElem _ _ hv, List.getElem?_eq_getElem hv]
    have hvisit : Weighted.visit values acc v =
        .ok ⟨acc.sum + values.getD v.1 0 * v.2, acc.time + v.2⟩ := by
      rw [Weighted.visit, hvalue]
      rfl
    rw [List.foldlM_cons, hvisit]
    simp only [bind, Except.bind, ih hvs, List.map_cons, List.sum_cons, add_assoc]

/-- For ascending times the loop over samples agrees with the plain scan of all of them: its places
are in range, apart from samples without overlap it takes in the same places and overlaps in the
same order, and so it comes to the same time, whatever the values, and to the same exact sum. -/
theorem weighted_eq_scan (s : Slice Int) (times : List Int) (hsorted : times.Pairwise (· ≤ ·)) :
    (∀ {V W : Type} [Weighing Int V W] [Add W] [OfNat W 0] (c : Counter Int V),
      c.timestamps = times →
        (weighted s c : Except Failure (Weighted Int W)) =
            (visits s times).foldlM (Weighted.visit c.values) .zero ∧
          ∀ w : Weighted Int W, weighted s c = .ok w → w.time = ((scan s times).map (·.2)).sum) ∧
      (∀ v ∈ scan s times, Time.overlap s.start (s.start + s.duration)
        (times.getD (v.1 - 1) 0) (times.getD v.1 0) = .ok v.2) ∧
      (∀ v ∈ visits s times, 1 ≤ v.1 ∧ v.1 < times.length) ∧
      (visits s times).filter (fun v => v.2 ≠ 0) = (scan s times).filter (fun v => v.2 ≠ 0) ∧
      ∀ c : Counter Int Rat, c.timestamps = times → c.values.length = times.length →
        (weighted s c : Except Failure (Weighted Int Rat)) = .ok
          ⟨((scan s times).map fun v => c.values.getD v.1 0 * v.2).sum,
            ((scan s times).map (·.2)).sum⟩ := by
  have htime := sum_visits s hsorted (·.2) fun _ h => h
  refine ⟨fun c hc => ⟨hc ▸ weighted_eq_foldlM s c, fun w hw => ?_⟩, fun v hv => ?_,
    fun v hv => ?_, filter_visits s hsorted, fun c hc hlen => ?_⟩
  · rw [weighted_eq_foldlM, hc] at hw
    rw [time_of_foldlM_visit hw, htime]
    exact Int.zero_add _
  · obtain ⟨i, -, rfl⟩ := List.mem_map.mp hv
    exact overlap_eq _ _ _ _
  · exact ⟨(mem_visits hv).1, (mem_visits hv).2.1⟩
  · have hin : ∀ v ∈ visits s times, v.1 < c.values.length := fun v hv =>
      hlen ▸ (mem_visits hv).2.1
    have hsum := sum_visits s hsorted (fun v => c.values.getD v.1 0 * v.2) fun v h => by simp [h]
    rw [weighted_eq_foldlM, hc, foldlM_visit_exact hin, htime, hsum]
    simp only [Weighted.zero, zero_add]

def sampleSlice : Slice Int := ⟨0, 5, 10, "", 0, 0, 0, 0, 0, 0, 0, 0⟩

/-- A counter with two samples at one time. -/
def sampleCounter : Counter Int Rat := ⟨0, "", "", "", none, [0, 10, 10, 20], [1, 2, 3, 4]⟩

theorem weighted_eq_scan_sample :
    sampleCounter.timestamps.Pairwise (· ≤ ·) ∧
      (weighted sampleSlice sampleCounter : Except Failure (Weighted Int Rat)) = .ok ⟨30, 10⟩ := by
  have hsorted : sampleCounter.timestamps.Pairwise (· ≤ ·) := by decide
  obtain ⟨-, -, -, -, hexact⟩ := weighted_eq_scan sampleSlice sampleCounter.timestamps hsorted
  refine ⟨hsorted, (hexact sampleCounter rfl rfl).trans ?_⟩
  have hscan : scan sampleSlice sampleCounter.timestamps = [(1, 5), (2, 0), (3, 5)] := by decide
  rw [hscan]
  norm_num [sampleCounter]

end RenderTrace.Metric
