import Mathlib.Data.List.Basic
import RenderTrace.Text.Utf8

/-!
# UTF-8 read back

The state machine takes in the octets of a character one after the other and ends with the
character read (`foldl_encodeChar`), so that every text reads back as it was written
(`decode_encode`). Its first octet is never a trailing one (`not_trailing_of_encode`).
-/

namespace RenderTrace.Text.Utf8

theorem toNat_trailing (n : Nat) : (trailing n).toNat = 0x80 + n % 64 := by
  have hbyte : 0x80 + n % 64 < 256 := by omega
  rw [trailing, UInt8.toNat_ofNat', Nat.mod_eq_of_lt hbyte]

theorem toNat_lead {n : Nat} (h : n < 256) : (UInt8.ofNat n).toNat = n := by
  rw [UInt8.toNat_ofNat', Nat.mod_eq_of_lt h]

theorem toNat_range (c : Char) : c.toNat < 0xd800 ∨ 0xdfff < c.toNat ∧ c.toNat < 0x110000 :=
  c.valid

/-! ## Lead octets -/

theorem lead?_one {n : Nat} (h : n < 0x80) : lead? n = some ⟨n, 0, 0x80, 0xbf⟩ := if_pos h

theorem lead?_two {n : Nat} (low : 0x80 ≤ n) (high : n < 0x800) :
    lead? (0xc0 + n / 64) = some ⟨n / 64, 1, 0x80, 0xbf⟩ := by
  have hlead : 0xc0 + n / 64 - 0xc0 = n / 64 := by omega
  rw [lead?, if_neg (by omega), if_neg (by omega), if_pos (by omega), hlead]

/-- The first octet after the lead of three lies in the lead's range: what is shorter is above it, and
no character is a surrogate. -/
theorem lead?_three {n : Nat} (low : 0x800 ≤ n) (high : n < 0x10000)
    (valid : n < 0xd800 ∨ 0xdfff < n) :
    ∃ first last, lead? (0xe0 + n / 4096) = some ⟨n / 4096, 2, first, last⟩ ∧
      first ≤ 0x80 + n / 64 % 64 ∧ 0x80 + n / 64 % 64 ≤ last := by
  have hlead : 0xe0 + n / 4096 - 0xe0 = n / 4096 := by omega
  rw [lead?, if_neg (by omega), if_neg (by omega), if_neg (by omega)]
  by_cases hfirst : n / 4096 = 0
  · exact ⟨0xa0, 0xbf, by rw [if_pos (by omega), hfirst], by omega, by omega⟩
  by_cases hlast : n / 4096 = 0xd
  · exact ⟨0x80, 0x9f, by rw [if_neg (by omega), if_pos (by omega), hlast], by omega, by omega⟩
  · refine ⟨0x80, 0xbf, ?_, by omega, by omega⟩
    rw [if_neg (by omega), if_neg (by omega), if_pos (by omega), hlead]

theorem lead?_four {n : Nat} (low : 0x10000 ≤ n) (high : n < 0x110000) :
    ∃ first last, lead? (0xf0 + n / 262144) = some ⟨n / 262144, 3, first, last⟩ ∧
      first ≤ 0x80 + n / 4096 % 64 ∧ 0x80 + n / 4096 % 64 ≤ last := by
  have hlead : 0xf0 + n / 262144 - 0xf0 = n / 262144 := by omega
  rw [lead?, if_neg (by omega), if_neg (by omega), if_neg (by omega), if_neg (by omega),
    if_neg (by omega), if_neg (by omega)]
  by_cases hfirst : n / 262144 = 0
  · exact ⟨0x90, 0xbf, by rw [if_pos (by omega), hfirst], by omega, by omega⟩
  by_cases hlast : n / 262144 = 4
  · refine ⟨0x80, 0x8f, ?_, by omega, by omega⟩
    rw [if_neg (by omega), if_neg (by omega), if_pos (by omega), hlast]
  · refine ⟨0x80, 0xbf, ?_, by omega, by omega⟩
    rw [if_neg (by omega), if_pos (by omega), hlead]

/-! ## One character -/

variable {place start n bits more low high : Nat} {read : List Char} {first b : UInt8}

theorem step_lead (h : lead? b.toNat = some ⟨bits, more + 1, low, high⟩) :
    State.step (.reading place read none) b =
      .reading (place + 1) read (some ⟨b, place, bits, more + 1, low, high⟩) := by
  rw [State.step, begin, h]
  rfl

theorem step_trailing (hlow : low ≤ 0x80 + n % 64) (hhigh : 0x80 + n % 64 ≤ high) :
    State.step (.reading place read (some ⟨first, start, bits, more + 2, low, high⟩)) (trailing n) =
      .reading (place + 1) read
        (some ⟨first, start, bits * 64 + n % 64, more + 1, 0x80, 0xbf⟩) := by
  have hbits : (0x80 + n % 64) % 64 = n % 64 := by omega
  simp only [State.step, toNat_trailing, hbits]
  rw [if_pos ⟨hlow, hhigh⟩, if_neg (by omega)]
  rfl

theorem step_last (hlow : low ≤ 0x80 + n % 64) (hhigh : 0x80 + n % 64 ≤ high) :
    State.step (.reading place read (some ⟨first, start, bits, 1, low, high⟩)) (trailing n) =
      .reading (place + 1) (Char.ofNat (bits * 64 + n % 64) :: read) none := by
  have hbits : (0x80 + n % 64) % 64 = n % 64 := by omega
  simp only [State.step, toNat_trailing, hbits]
  rw [if_pos ⟨hlow, hhigh⟩, if_true]

/-- The machine takes in the octets of a character. -/
theorem foldl_encodeChar (place : Nat) (read : List Char) (c : Char) :
    (encodeChar c).foldl State.step (.reading place read none) =
      .reading (place + (encodeChar c).length) (c :: read) none := by
  have hvalid := toNat_range c
  have hc : Char.ofNat c.toNat = c := Char.ofNat_toNat c
  unfold encodeChar
  generalize c.toNat = n at hvalid hc ⊢
  dsimp only
  split_ifs with h1 h2 h3
  · simp only [List.foldl_cons, List.foldl_nil, State.step, begin, toNat_lead (n := n) (by omega),
      lead?_one h1, if_true, hc, List.length_singleton]
  · have hlead := lead?_two (by omega) h2
    rw [← toNat_lead (n := 0xc0 + n / 64) (by omega)] at hlead
    have hbits : n / 64 * 64 + n % 64 = n := by omega
    rw [List.foldl_cons, step_lead hlead, List.foldl_cons, step_last (by omega) (by omega), hbits, hc]
    rfl
  · obtain ⟨first, last, hlead, hfirst, hlast⟩ := lead?_three (by omega) h3 (by omega)
    rw [← toNat_lead (n := 0xe0 + n / 4096) (by omega)] at hlead
    have hbits : (n / 4096 * 64 + n / 64 % 64) * 64 + n % 64 = n := by omega
    rw [List.foldl_cons, step_lead hlead, List.foldl_cons, step_trailing hfirst hlast,
      List.foldl_cons, step_last (by omega) (by omega), hbits, hc]
    rfl
  · obtain ⟨first, last, hlead, hfirst, hlast⟩ := lead?_four (n := n) (by omega) (by omega)
    rw [← toNat_lead (n := 0xf0 + n / 262144) (by omega)] at hlead
    have hbits : ((n / 262144 * 64 + n / 4096 % 64) * 64 + n / 64 % 64) * 64 + n % 64 = n := by
      omega
    rw [List.foldl_cons, step_lead hlead, List.foldl_cons, step_trailing hfirst hlast,
      List.foldl_cons, step_trailing (by omega) (by omega), List.foldl_cons,
      step_last (by omega) (by omega), hbits, hc]
    rfl

/-! ## Texts -/

theorem encode_cons (c : Char) (cs : List Char) : encode (c :: cs) = encodeChar c ++ encode cs := rfl

theorem foldl_encode (place : Nat) (read cs : List Char) :
    (encode cs).foldl State.step (.reading place read none) =
      .reading (place + (encode cs).length) (cs.reverse ++ read) none := by
  induction cs generalizing place read with
  | nil => rfl
  | cons c cs ih =>
    rw [encode_cons, List.foldl_append, foldl_encodeChar, ih, List.length_append,
      List.reverse_cons, List.append_assoc, Nat.add_assoc]
    rfl

theorem decode_encode (cs : List Char) : decode (encode cs) = .ok cs := by
  rw [decode, foldl_encode, List.append_nil]
  exact congrArg Except.ok (List.reverse_reverse cs)

theorem exists_encodeChar_eq (c : Char) : ∃ b bs, encodeChar c = b :: bs ∧
    (b.toNat < 0x80 ∧ b.toNat = c.toNat ∧ bs = [] ∨ 0xc0 ≤ b.toNat) := by
  have hvalid := toNat_range c
  unfold encodeChar
  dsimp only
  split_ifs with h1 h2 h3
  · exact ⟨_, _, rfl, .inl ⟨by rwa [toNat_lead (by omega)], toNat_lead (by omega), rfl⟩⟩
  · exact ⟨_, _, rfl, .inr (by rw [toNat_lead (by omega)]; omega)⟩
  · exact ⟨_, _, rfl, .inr (by rw [toNat_lead (by omega)]; omega)⟩
  · exact ⟨_, _, rfl, .inr (by rw [toNat_lead (by omega)]; omega)⟩

theorem not_trailing_of_encode {cs : List Char} {b : UInt8} {bs : List UInt8}
    (h : encode cs = b :: bs) : b.toNat < 0x80 ∨ 0xc0 ≤ b.toNat := by
  cases cs with
  | nil => exact nomatch h
  | cons c cs =>
    obtain ⟨b', bs', hc, hb⟩ := exists_encodeChar_eq c
    rw [encode_cons, hc, List.cons_append, List.cons.injEq] at h
    obtain ⟨rfl, -⟩ := h
    exact hb.imp_left And.left

end RenderTrace.Text.Utf8
