import RenderTrace.Text.Digit

/-!
# UTF-8

`Utf8.encode` writes characters as octets and `Utf8.decode` reads them back. Decoding runs a state
machine over the octets: each lead octet fixes how many octets follow and the range of the first of
them, which excludes overlong forms, surrogates and codes above U+10FFFF. The first malformed
sequence is reported with its place and the reason.
-/

namespace RenderTrace.Text.Utf8

/-! ## Encoding -/

/-- The octet that carries the six lowest bits of `n` on behalf of a character. -/
def trailing (n : Nat) : UInt8 := UInt8.ofNat (0x80 + n % 64)

def encodeChar (c : Char) : List UInt8 :=
  let n := c.toNat
  if n < 0x80 then [UInt8.ofNat n]
  else if n < 0x800 then [UInt8.ofNat (0xc0 + n / 64), trailing n]
  else if n < 0x10000 then [UInt8.ofNat (0xe0 + n / 4096), trailing (n / 64), trailing n]
  else [UInt8.ofNat (0xf0 + n / 262144), trailing (n / 4096), trailing (n / 64), trailing n]

def encode (cs : List Char) : List UInt8 := cs.flatMap encodeChar

/-! ## Decoding -/

inductive Reason where
  | startByte
  | continuationByte
  | truncated
  deriving DecidableEq, Repr

/-- A malformed sequence: its first octet, and where it starts and stops. -/
structure Malformed where
  reason : Reason
  first : UInt8
  start : Nat
  stop : Nat
  deriving DecidableEq, Repr

/-- What a lead octet announces: the bits it carries, the number of octets to follow, and the range
of the first of those. -/
structure Lead where
  bits : Nat
  more : Nat
  low : Nat
  high : Nat

/-- Reads a lead octet. -/
def lead? (b : Nat) : Option Lead :=
  if b < 0x80 then some ⟨b, 0, 0x80, 0xbf⟩
  else if b < 0xc2 then none
  else if b < 0xe0 then some ⟨b - 0xc0, 1, 0x80, 0xbf⟩
  else if b = 0xe0 then some ⟨0, 2, 0xa0, 0xbf⟩
  else if b = 0xed then some ⟨0xd, 2, 0x80, 0x9f⟩
  else if b < 0xf0 then some ⟨b - 0xe0, 2, 0x80, 0xbf⟩
  else if b = 0xf0 then some ⟨0, 3, 0x90, 0xbf⟩
  else if b < 0xf4 then some ⟨b - 0xf0, 3, 0x80, 0xbf⟩
  else if b = 0xf4 then some ⟨4, 3, 0x80, 0x8f⟩
  else none

/-- A sequence that has begun: its lead octet and place, and what is still expected. -/
structure Pending where
  first : UInt8
  start : Nat
  expected : Lead

/-- The characters read so far, newest first, with an unfinished sequence if there is one; or the
first malformed sequence. -/
inductive State where
  | reading (place : Nat) (read : List Char) (pending : Option Pending)
  | failed (error : Malformed)

/-- Takes in the octet `b` at `place` where a sequence may start. -/
def begin (place : Nat) (read : List Char) (b : UInt8) : State :=
  match lead? b.toNat with
  | none => .failed ⟨.startByte, b, place, place + 1⟩
  | some l =>
    if l.more = 0 then .reading (place + 1) (Char.ofNat l.bits :: read) none
    else .reading (place + 1) read (some ⟨b, place, l⟩)

/-- Takes in one octet. -/
def State.step : State → UInt8 → State
  | .failed e, _ => .failed e
  | .reading place read none, b => begin place read b
  | .reading place read (some p), b =>
    let e := p.expected
    if e.low ≤ b.toNat ∧ b.toNat ≤ e.high then
      let bits := e.bits * 64 + b.toNat % 64
      if e.more = 1 then .reading (place + 1) (Char.ofNat bits :: read) none
      else .reading (place + 1) read (some { p with expected := ⟨bits, e.more - 1, 0x80, 0xbf⟩ })
    else .failed ⟨.continuationByte, p.first, p.start, place⟩

/-- The text of the octets taken in, when no sequence is left unfinished. -/
def State.finish : State → Except Malformed (List Char)
  | .failed e => .error e
  | .reading _ read none => .ok read.reverse
  | .reading place _ (some p) => .error ⟨.truncated, p.first, p.start, place⟩

def decode (bs : List UInt8) : Except Malformed (List Char) :=
  (bs.foldl State.step (.reading 0 [] none)).finish

def Reason.message : Reason → String
  | .startByte => "invalid start byte"
  | .continuationByte => "invalid continuation byte"
  | .truncated => "unexpected end of data"

def Malformed.message (e : Malformed) : String :=
  let place :=
    if e.stop = e.start + 1 then
      "byte 0x" ++ String.ofList (hexText 2 e.first.toNat) ++ " in position " ++ toString e.start
    else "bytes in position " ++ toString e.start ++ "-" ++ toString (e.stop - 1)
  "'utf-8' codec can't decode " ++ place ++ ": " ++ e.reason.message

end RenderTrace.Text.Utf8
