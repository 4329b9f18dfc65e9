import RenderTrace.Proofs.Json.Number
import RenderTrace.Proofs.Json.Text

/-!
# Documents read back

`Json.Shaped` says how deep containers may stand inside one another and that no object has two members
of one name. A shaped document whose numbers read back is read back from its text over several lines
(`readWithin_write`), line feeds after it or none.
-/

namespace RenderTrace.Json

/-! ## Shape and numbers -/

/-- A document with at most `depth` containers inside one another whose objects have distinct names. -/
inductive Shaped : Nat → Json → Prop where
  | null {depth : Nat} : Shaped depth null
  | bool {depth : Nat} (b : Bool) : Shaped depth (bool b)
  | number {depth : Nat} (n : Number) : Shaped depth (number n)
  | text {depth : Nat} (s : String) : Shaped depth (text s)
  | array {depth : Nat} {xs : List Json} (items : ∀ x ∈ xs, Shaped depth x) :
    Shaped (depth + 1) (array xs)
  | object {depth : Nat} {ms : List (String × Json)} (names : (ms.map (·.1)).Nodup)
    (members : ∀ m ∈ ms, Shaped depth m.2) : Shaped (depth + 1) (object ms)

theorem mem_itemNumbers {n : Number} {xs : List Json} :
    n ∈ itemNumbers xs ↔ ∃ x ∈ xs, n ∈ x.numbers := by
  induction xs with
  | nil => simp [itemNumbers]
  | cons x xs ih => simp [itemNumbers, ih]

theorem mem_memberNumbers {n : Number} {ms : List (String × Json)} :
    n ∈ memberNumbers ms ↔ ∃ m ∈ ms, n ∈ m.2.numbers := by
  induction ms with
  | nil => simp [memberNumbers]
  | cons m ms ih => simp [memberNumbers, ih]

theorem put_of_notMem {name : String} {v : Json} {ms : List (String × Json)}
    (h : name ∉ ms.map (·.1)) : put name v ms = ms ++ [(name, v)] := by
  induction ms with
  | nil => rfl
  | cons m ms ih =>
    obtain ⟨hne, hms⟩ := not_or.mp (mt List.mem_cons.mpr h)
    have hname : m.1 ≠ name := fun heq => hne heq.symm
    rw [put, if_neg hname, ih hms, List.cons_append]

theorem foldl_put_of_nodup {ms acc : List (String × Json)}
    (h : ((acc ++ ms).map (·.1)).Nodup) :
    ms.foldl (fun acc m => put m.1 m.2 acc) acc = acc ++ ms := by
  induction ms generalizing acc with
  | nil => exact (List.append_nil acc).symm
  | cons m ms ih =>
    have hnew : m.1 ∉ acc.map (·.1) := by
      rw [List.map_append, List.nodup_append] at h
      exact fun hmem => h.2.2 _ hmem _ List.mem_cons_self rfl
    rw [List.foldl_cons, put_of_notMem hnew, ih (by simpa using h), List.append_assoc]
    rfl

theorem ofMembers_of_nodup {ms : List (String × Json)} (h : (ms.map (·.1)).Nodup) :
    ofMembers ms = ms := foldl_put_of_nodup h

/-! ## Blanks and first characters -/

variable {most fuel depth level : Nat} {cs rest : List Char} {v : Json}

/-- The characters that numbers and words start with. -/
def startsAtom (c : Char) : Bool := c.isAlphanum || c == '-'

/-- The characters that values start with. -/
def startsValue (c : Char) : Bool := startsAtom c || c == '"' || c == '[' || c == '{'

/-- A text that starts as a value does. -/
def Opening (cs : List Char) : Prop := ∃ c cs', cs = c :: cs' ∧ startsValue c

theorem Opening.append (h : Opening cs) (more : List Char) : Opening (cs ++ more) := by
  obtain ⟨c, cs', rfl, hc⟩ := h
  exact ⟨c, cs' ++ more, rfl, hc⟩

theorem Opening.head_ne (h : Opening cs) {d : Char} (hd : startsValue d = false) (tail : List Char) :
    cs ≠ d :: tail := by
  obtain ⟨c, cs', rfl, hc⟩ := h
  intro heq
  rw [(List.cons.inj heq).1, hd] at hc
  exact nomatch hc

theorem Opening.skip (h : Opening cs) : skip cs = cs := by
  obtain ⟨c, cs', rfl, hc⟩ := h
  have hspace : isSpace c = false := by
    rw [Bool.eq_false_iff]
    intro hspace
    simp only [isSpace, Bool.or_eq_true, beq_iff_eq] at hspace
    rcases hspace with ((rfl | rfl) | rfl) | rfl <;> exact absurd hc (by decide)
  exact List.dropWhile_cons_of_neg (Bool.eq_false_iff.mp hspace)

theorem skip_newline (level : Nat) (cs : List Char) : skip (newline level ++ cs) = skip cs := by
  have hblanks : skip (newline level) = [] := by
    rw [skip, newline, List.dropWhile_cons_of_pos (by decide), List.dropWhile_replicate]
    rfl
  rw [skip] at hblanks ⊢
  rw [List.dropWhile_append, hblanks]
  rfl

theorem delimited_newline : Delimited (newline level ++ cs) := by
  intro c hc
  obtain rfl : '\n' = c := Option.some.inj hc
  exact .inr rfl

theorem delimited_comma : Delimited (',' :: cs) := by
  intro c hc
  obtain rfl : ',' = c := Option.some.inj hc
  exact .inl rfl

theorem startsAtom_of_readNumber? {result : Read Number} (h : readNumber? most cs = some result) :
    ∃ c cs', cs = c :: cs' ∧ startsAtom c := by
  match cs with
  | [] => exact nomatch h
  | c :: cs =>
    refine ⟨c, cs, rfl, ?_⟩
    by_cases hminus : c = '-'
    · rw [hminus]; rfl
    by_cases hdigit : c.isDigit
    · simp [startsAtom, Char.isAlphanum, hdigit]
    · have hzero : c ≠ '0' := by
        rintro rfl
        exact hdigit rfl
      simp [readNumber?, takeMinus, hminus, integerPart?, hdigit] at h

theorem startsAtom_of_readWord? {result : Json × List Char} (h : readWord? cs = some result) :
    ∃ c cs', cs = c :: cs' ∧ startsAtom c := by
  have hwords : ∀ w ∈ words.map (·.1.toList), w.head?.any startsAtom = true := by decide
  obtain ⟨⟨w, v⟩, hw, hprefix⟩ := List.exists_of_findSome?_eq_some h
  obtain ⟨r, hr, -⟩ := Option.map_eq_some_iff.mp hprefix
  obtain ⟨c, hc, hstart⟩ := (Option.any_eq_true _ _).mp (hwords _ (List.mem_map_of_mem hw))
  obtain ⟨w', hw'⟩ := List.head?_eq_some_iff.mp hc
  have hcs : w.toList ++ r = cs := List.append_eq_of_isPrefixOf?_eq_some hr
  rw [hw'] at hcs
  exact ⟨c, w' ++ r, hcs.symm, hstart⟩

theorem startsAtom_of_readAtom (h : readAtom most cs = .ok (v, rest)) :
    ∃ c cs', cs = c :: cs' ∧ startsAtom c := by
  unfold readAtom at h
  cases hword : readWord? cs with
  | some result => exact startsAtom_of_readWord? hword
  | none =>
    rw [hword] at h
    cases hnumber : readNumber? most cs with
    | some result => exact startsAtom_of_readNumber? hnumber
    | none =>
      rw [hnumber] at h
      exact nomatch h

theorem readValue_atom {c : Char} (h : startsAtom c) :
    readValue most (fuel + 1) depth (c :: cs) = readAtom most (c :: cs) := by
  have hne : ∀ d, startsAtom d = false → ∀ tail, c :: cs ≠ d :: tail := by
    intro d hd tail heq
    rw [(List.cons.inj heq).1, hd] at h
    exact nomatch h
  exact readValue.eq_7 most depth (c :: cs) fuel (hne '"' rfl) (fun _ _ => hne '[' rfl _)
    (fun _ _ _ => hne '[' rfl _) (fun _ _ => hne '{' rfl _) (fun _ _ _ => hne '{' rfl _)

theorem readValue_of_readAtom (hread : readAtom most cs = .ok (v, [])) (h : Delimited rest) :
    readValue most (fuel + 1) depth (cs ++ rest) = .ok (v, rest) := by
  obtain ⟨c, cs, rfl, hstart⟩ := startsAtom_of_readAtom hread
  rw [List.cons_append, readValue_atom hstart]
  exact readAtom_append h hread

/-! ## Values -/

/-- A number reads back, up to the end of the text. -/
def NumberReadsBack (most : Nat) (n : Number) : Prop :=
  readAtom most (writeNumber n) = .ok (number n, [])

theorem opening_writeValue (level : Nat) (hnumbers : ∀ n ∈ v.numbers, NumberReadsBack most n) :
    Opening (writeValue level v) := by
  cases v with
  | null => exact ⟨_, _, rfl, rfl⟩
  | bool b => cases b <;> exact ⟨_, _, rfl, rfl⟩
  | number n =>
    obtain ⟨c, cs, hcs, hstart⟩ := startsAtom_of_readAtom (hnumbers n List.mem_cons_self)
    exact ⟨c, cs, hcs, by simp [startsValue, hstart]⟩
  | text s => exact ⟨_, _, rfl, rfl⟩
  | array xs => cases xs <;> exact ⟨_, _, rfl, rfl⟩
  | object ms => rcases ms with _ | ⟨⟨name, v⟩, ms⟩ <;> exact ⟨_, _, rfl, rfl⟩

/-- A value as it is written at a level is taken in with enough fuel and depth, whatever may follow. -/
def TakenBack (most depth level : Nat) (v : Json) : Prop :=
  ∀ fuel rest, (writeValue level v).length ≤ fuel → Delimited rest →
    readValue most fuel depth (writeValue level v ++ rest) = .ok (v, rest)

/-- The text of parts on lines of their own at a level. -/
def lines (level : Nat) (parts : List (List Char)) : List Char :=
  List.intercalate (',' :: newline level) parts

theorem lines_cons_cons (level : Nat) (part next : List Char) (parts : List (List Char)) :
    lines level (part :: next :: parts) =
      part ++ ',' :: (newline level ++ lines level (next :: parts)) := by
  rw [lines, List.intercalate_cons_cons, List.append_assoc]
  rfl

theorem Opening.lines {part : List Char} (h : Opening part) (level : Nat)
    (parts : List (List Char)) : Opening (lines level (part :: parts)) := by
  match parts with
  | [] => rwa [Json.lines, List.intercalate_singleton]
  | next :: parts =>
    rw [lines_cons_cons]
    exact h.append _

theorem skip_newline_lines {part : List Char} {parts : List (List Char)} (h : Opening part)
    (level : Nat) (more : List Char) :
    skip (newline level ++ (lines level (part :: parts) ++ more)) =
      lines level (part :: parts) ++ more := by
  rw [skip_newline, ((h.lines level parts).append more).skip]

theorem skip_close {c : Char} (hspace : isSpace c = false) (level : Nat) (rest : List Char) :
    skip (newline level ++ c :: rest) = c :: rest := by
  rw [skip_newline]
  exact List.dropWhile_cons_of_neg (Bool.eq_false_iff.mp hspace)

theorem skip_comma (rest : List Char) : skip (',' :: rest) = ',' :: rest :=
  List.dropWhile_cons_of_neg (by decide)

theorem readItems_lines {x : Json} {xs : List Json} (fuel outer : Nat) (rest : List Char)
    (hopening : ∀ y ∈ x :: xs, Opening (writeValue level y))
    (hread : ∀ y ∈ x :: xs, TakenBack most depth level y)
    (hfuel : (lines level (writeItems level (x :: xs))).length < fuel) :
    readItems most fuel depth
      (lines level (writeItems level (x :: xs)) ++ (newline outer ++ ']' :: rest)) =
        .ok (x :: xs, rest) := by
  obtain ⟨fuel, rfl⟩ := Nat.exists_eq_succ_of_ne_zero (Nat.ne_zero_of_lt hfuel)
  induction xs generalizing x fuel with
  | nil =>
    have hx : lines level (writeItems level [x]) = writeValue level x :=
      List.intercalate_singleton
    rw [hx] at hfuel ⊢
    have hvalue := hread x List.mem_cons_self fuel (newline outer ++ ']' :: rest)
      (Nat.le_of_lt_succ hfuel) delimited_newline
    rw [readItems.eq_2, hvalue]
    simp only [bind, Except.bind, skip_close (c := ']') rfl]
  | cons y ys ih =>
    obtain ⟨hx, hys⟩ := List.forall_mem_cons.mp hread
    have hopen : Opening (writeValue level y) := hopening y (by simp)
    have hlines : lines level (writeItems level (x :: y :: ys)) = writeValue level x ++
        ',' :: (newline level ++ lines level (writeItems level (y :: ys))) :=
      lines_cons_cons level _ _ _
    rw [hlines, List.length_append, List.length_cons, List.length_append] at hfuel
    obtain ⟨fuel, rfl⟩ : ∃ k, fuel = k + 1 := Nat.exists_eq_succ_of_ne_zero (by omega)
    have hrest := ih (fun z hz => hopening z (List.mem_cons_of_mem x hz)) hys fuel (by omega)
    rw [hlines, List.append_assoc, List.cons_append, List.append_assoc, readItems.eq_2,
      hx _ _ (by omega) delimited_comma]
    simp only [bind, Except.bind, skip_comma]
    rw [writeItems] at hrest ⊢
    rw [skip_newline_lines hopen, hrest]

theorem readColon_writeValue (hopening : Opening (writeValue level v)) (rest : List Char) :
    readColon (':' :: ' ' :: (writeValue level v ++ rest)) = .ok (writeValue level v ++ rest) := by
  have hcolon : skip (':' :: ' ' :: (writeValue level v ++ rest)) =
      ':' :: ' ' :: (writeValue level v ++ rest) := List.dropWhile_cons_of_neg (by decide)
  have hblank : skip (' ' :: (writeValue level v ++ rest)) = skip (writeValue level v ++ rest) :=
    List.dropWhile_cons_of_pos (by decide)
  unfold readColon
  rw [hcolon]
  exact congrArg Except.ok (hblank.trans (hopening.append rest).skip)

theorem readMembers_lines {m : String × Json} {ms : List (String × Json)} (fuel outer : Nat)
    (rest : List Char)
    (hopening : ∀ n ∈ m :: ms, Opening (writeValue level n.2))
    (hread : ∀ n ∈ m :: ms, TakenBack most depth level n.2)
    (hfuel : (lines level (writeMembers level (m :: ms))).length < fuel) :
    readMembers most fuel depth
      (lines level (writeMembers level (m :: ms)) ++ (newline outer ++ '}' :: rest)) =
        .ok (m :: ms, rest) := by
  obtain ⟨fuel, rfl⟩ := Nat.exists_eq_succ_of_ne_zero (Nat.ne_zero_of_lt hfuel)
  induction ms generalizing m fuel with
  | nil =>
    obtain ⟨name, v⟩ := m
    have hopen : Opening (writeValue level v) := hopening _ List.mem_cons_self
    have hm : lines level (writeMembers level [(name, v)]) =
        writeText name ++ ':' :: ' ' :: writeValue level v := List.intercalate_singleton
    rw [hm, List.length_append, List.length_cons, List.length_cons] at hfuel
    have hvalue := hread _ List.mem_cons_self fuel (newline outer ++ '}' :: rest)
      (by dsimp only; omega) delimited_newline
    rw [hm, List.append_assoc, List.cons_append, List.cons_append, readMembers.eq_2]
    simp only [bind, Except.bind, readText_writeText, readColon_writeValue hopen, hvalue,
      skip_close (c := '}') rfl]
  | cons n ns ih =>
    obtain ⟨name, v⟩ := m
    obtain ⟨hm, hns⟩ := List.forall_mem_cons.mp hread
    have hopen : Opening (writeValue level v) := hopening _ List.mem_cons_self
    have hnext : Opening (writeText n.1 ++ ':' :: ' ' :: writeValue level n.2) := ⟨_, _, rfl, rfl⟩
    have hlines : lines level (writeMembers level ((name, v) :: n :: ns)) =
        writeText name ++ ':' :: ' ' :: (writeValue level v ++
          ',' :: (newline level ++ lines level (writeMembers level (n :: ns)))) := by
      rw [writeMembers, writeMembers, lines_cons_cons, List.append_assoc]
      rfl
    rw [hlines] at hfuel
    simp only [List.length_append, List.length_cons] at hfuel
    obtain ⟨fuel, rfl⟩ : ∃ k, fuel = k + 1 := Nat.exists_eq_succ_of_ne_zero (by omega)
    have hrest := ih (fun z hz => hopening z (List.mem_cons_of_mem _ hz)) hns fuel (by omega)
    rw [hlines]
    simp only [List.append_assoc, List.cons_append]
    rw [readMembers.eq_2]
    simp only [bind, Except.bind, readText_writeText, readColon_writeValue hopen,
      hm (fuel + 1) _ (by dsimp only; omega) delimited_comma, skip_comma]
    rw [writeMembers] at hrest ⊢
    rw [skip_newline_lines hnext, hrest]

theorem readValue_array (hopening : Opening cs) (level : Nat) :
    readValue most (fuel + 1) (depth + 1) ('[' :: (newline level ++ cs)) =
      (readItems most fuel depth cs).map fun (xs, rest) => (array xs, rest) := by
  rw [readValue.eq_4, skip_newline, hopening.skip]
  split
  · next heq => exact absurd rfl (hopening.head_ne rfl _)
  · rfl

theorem readValue_object (hopening : Opening cs) (level : Nat) :
    readValue most (fuel + 1) (depth + 1) ('{' :: (newline level ++ cs)) =
      (readMembers most fuel depth cs).map fun (ms, rest) => (object (ofMembers ms), rest) := by
  rw [readValue.eq_6, skip_newline, hopening.skip]
  split
  · next heq => exact absurd rfl (hopening.head_ne rfl _)
  · rfl

theorem takenBack_array {xs : List Json}
    (hopening : ∀ y ∈ xs, Opening (writeValue (level + 1) y))
    (hread : ∀ y ∈ xs, TakenBack most depth (level + 1) y) :
    TakenBack most (depth + 1) level (array xs) := by
  intro fuel rest hfuel _
  match xs with
  | [] =>
    obtain ⟨fuel, rfl⟩ : ∃ k, fuel = k + 1 := Nat.exists_eq_succ_of_ne_zero (Nat.ne_zero_of_lt hfuel)
    rfl
  | x :: xs =>
    have hx : Opening (writeValue (level + 1) x) := hopening x List.mem_cons_self
    have htext : writeValue level (array (x :: xs)) ++ rest = '[' :: (newline (level + 1) ++
        (lines (level + 1) (writeItems (level + 1) (x :: xs)) ++ (newline level ++ ']' :: rest))) := by
      simp only [writeValue, writeItems, block, lines, List.cons_append, List.append_assoc,
        List.nil_append]
    have hlength := congrArg List.length htext
    simp only [List.length_append, List.length_cons] at hlength
    obtain ⟨fuel, rfl⟩ : ∃ k, fuel = k + 1 := Nat.exists_eq_succ_of_ne_zero (by omega)
    have hitems := readItems_lines fuel level rest hopening hread (by omega)
    have hopen : Opening (lines (level + 1) (writeItems (level + 1) (x :: xs))) := hx.lines _ _
    rw [htext, readValue_array (hopen.append _), hitems]
    rfl

theorem takenBack_object {ms : List (String × Json)} (hnames : (ms.map (·.1)).Nodup)
    (hopening : ∀ m ∈ ms, Opening (writeValue (level + 1) m.2))
    (hread : ∀ m ∈ ms, TakenBack most depth (level + 1) m.2) :
    TakenBack most (depth + 1) level (object ms) := by
  intro fuel rest hfuel _
  match ms with
  | [] =>
    obtain ⟨fuel, rfl⟩ : ∃ k, fuel = k + 1 := Nat.exists_eq_succ_of_ne_zero (Nat.ne_zero_of_lt hfuel)
    rfl
  | (name, v) :: ms =>
    have hpart : Opening (writeText name ++ ':' :: ' ' :: writeValue (level + 1) v) :=
      ⟨_, _, rfl, rfl⟩
    have htext : writeValue level (object ((name, v) :: ms)) ++ rest = '{' :: (newline (level + 1) ++
        (lines (level + 1) (writeMembers (level + 1) ((name, v) :: ms)) ++
          (newline level ++ '}' :: rest))) := by
      simp only [writeValue, writeMembers, block, lines, List.cons_append, List.append_assoc,
        List.nil_append]
    have hlength := congrArg List.length htext
    simp only [List.length_append, List.length_cons] at hlength
    obtain ⟨fuel, rfl⟩ : ∃ k, fuel = k + 1 := Nat.exists_eq_succ_of_ne_zero (by omega)
    have hmembers := readMembers_lines fuel level rest hopening hread (by omega)
    have hopen : Opening (lines (level + 1) (writeMembers (level + 1) ((name, v) :: ms))) :=
      hpart.lines _ _
    rw [htext, readValue_object (hopen.append _), hmembers]
    exact congrArg (fun ms => Except.ok (object ms, rest)) (ofMembers_of_nodup hnames)

theorem takenBack_atom (hread : readAtom most (writeValue level v) = .ok (v, [])) :
    TakenBack most depth level v := by
  intro fuel rest hfuel hrest
  obtain ⟨c, cs, hcs, -⟩ := startsAtom_of_readAtom hread
  rw [hcs, List.length_cons] at hfuel
  obtain ⟨fuel, rfl⟩ : ∃ k, fuel = k + 1 := Nat.exists_eq_succ_of_ne_zero (by omega)
  exact readValue_of_readAtom hread hrest

theorem takenBack_text (s : String) : TakenBack most depth level (text s) := by
  intro fuel rest hfuel _
  obtain ⟨fuel, rfl⟩ : ∃ k, fuel = k + 1 := Nat.exists_eq_succ_of_ne_zero (Nat.ne_zero_of_lt hfuel)
  have hread := readText_writeText .value s rest
  rw [writeValue]
  rw [writeText, List.cons_append] at hread ⊢
  rw [readValue.eq_2, hread]
  rfl

theorem Shaped.takenBack (h : Shaped depth v) (hnumbers : ∀ n ∈ v.numbers, NumberReadsBack most n)
    {deepest : Nat} (hdepth : depth ≤ deepest) (level : Nat) : TakenBack most deepest level v := by
  induction h generalizing deepest level with
  | null => exact takenBack_atom rfl
  | bool b =>
    cases b with
    | false => exact takenBack_atom rfl
    | true => exact takenBack_atom rfl
  | number n => exact takenBack_atom (hnumbers n List.mem_cons_self)
  | text s => exact takenBack_text s
  | @array depth xs hitems ih =>
    obtain ⟨deepest, rfl⟩ := Nat.exists_eq_add_of_le' (Nat.le_trans (Nat.le_add_left 1 depth) hdepth)
    have hitem : ∀ x ∈ xs, ∀ n ∈ x.numbers, NumberReadsBack most n := fun x hx n hn =>
      hnumbers n (mem_itemNumbers.mpr ⟨x, hx, hn⟩)
    exact takenBack_array (fun x hx => opening_writeValue _ (hitem x hx)) fun x hx =>
      ih x hx (hitem x hx) (Nat.le_of_succ_le_succ hdepth) (level + 1)
  | @object depth ms hnames hmembers ih =>
    obtain ⟨deepest, rfl⟩ := Nat.exists_eq_add_of_le' (Nat.le_trans (Nat.le_add_left 1 depth) hdepth)
    have hmember : ∀ m ∈ ms, ∀ n ∈ m.2.numbers, NumberReadsBack most n := fun m hm n hn =>
      hnumbers n (mem_memberNumbers.mpr ⟨m, hm, hn⟩)
    exact takenBack_object hnames (fun m hm => opening_writeValue _ (hmember m hm)) fun m hm =>
      ih m hm (hmember m hm) (Nat.le_of_succ_le_succ hdepth) (level + 1)

theorem skip_eq_nil (h : ∀ c ∈ rest, isSpace c) : skip rest = [] := List.dropWhile_eq_nil_iff.mpr h

/-- A shaped document whose numbers read back is read from its text, with line feeds after it or
none. -/
theorem readWithin_write (h : Shaped maxDepth v)
    (hnumbers : ∀ n ∈ v.numbers, NumberReadsBack most n) (feeds : Nat) :
    readWithin most (v.write.toList ++ List.replicate feeds '\n') = .ok v := by
  have hopening : Opening (writeValue 0 v ++ List.replicate feeds '\n') :=
    (opening_writeValue 0 hnumbers).append _
  have hdelimited : Delimited (List.replicate feeds '\n') := by
    intro c hc
    exact .inr (List.eq_of_mem_replicate (List.mem_of_mem_head? hc))
  have hblank : skip (List.replicate feeds '\n') = [] := skip_eq_nil fun c hc => by
    rw [List.eq_of_mem_replicate hc]
    rfl
  have hvalue := h.takenBack hnumbers (Nat.le_refl _) 0
    (2 * (writeValue 0 v ++ List.replicate feeds '\n').length + 2) _
    (by rw [List.length_append]; omega) hdelimited
  have hall : readAll most (writeValue 0 v ++ List.replicate feeds '\n') = .ok v := by
    rw [readAll, hopening.skip, hvalue]
    simp only [bind, Except.bind, hblank]
  rw [write, String.toList_ofList, readWithin]
  · rw [hall]
    rfl
  · exact fun tail => hopening.head_ne rfl tail

/-! ## Limits -/

/-- Every integer of a document has at most so many digits. -/
def IntegersWithin (most : Nat) (v : Json) : Prop := ∀ n ∈ v.numbers, n.digitCount ≤ most

/-- Every double of a document reads back. -/
def DoublesReadBack (v : Json) : Prop := ∀ x, .double x ∈ v.numbers → ReadsBack x

theorem numberReadsBack (hintegers : IntegersWithin most v) (hdoubles : DoublesReadBack v) :
    ∀ n ∈ v.numbers, NumberReadsBack most n := by
  intro n hn
  cases n with
  | whole n => exact readAtom_whole (hintegers _ hn)
  | double x => exact readAtom_double (hdoubles x hn)

theorem read_write (h : Shaped maxDepth v)
    (hnumbers : ∀ n ∈ v.numbers, NumberReadsBack Number.maxIntegerDigits n) :
    read v.write.toList = .ok v := by
  have hread := readWithin_write h hnumbers 0
  rwa [List.replicate_zero, List.append_nil] at hread

theorem read_write_of_digits (h : Shaped maxDepth v) {digits : List Int}
    (hnumbers : v.numbers = digits.map .whole) (hdigits : ∀ n ∈ digits, n.natAbs < 10) :
    read v.write.toList = .ok v := by
  have hintegers : IntegersWithin Number.maxIntegerDigits v := by
    intro n hn
    rw [hnumbers] at hn
    obtain ⟨m, hm, rfl⟩ := List.mem_map.mp hn
    rw [Number.digitCount, Nat.toDigits_of_lt_base (hdigits m hm), List.length_singleton]
    decide
  have hdoubles : DoublesReadBack v := by
    intro x hx
    rw [hnumbers] at hx
    obtain ⟨m, -, heq⟩ := List.mem_map.mp hx
    exact nomatch heq
  exact read_write h (numberReadsBack hintegers hdoubles)

end RenderTrace.Json
