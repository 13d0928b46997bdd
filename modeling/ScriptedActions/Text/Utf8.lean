/-!
# UTF-8 text

Bytes and the text they spell. `decode` refuses a text that is not well formed and says where
it goes wrong: the index of the first byte of the faulty sequence, and how many bytes of it
can be told to be wrong, or nothing when the text merely stops too early. `decodeLossy` never
refuses: each faulty sequence reads as the replacement character.

A faulty sequence is the longest run of bytes that starts some well-formed sequence, so the
reader resumes at the first byte that could not continue it.
-/

set_option autoImplicit false

namespace ScriptedActions.Text.Utf8

/-- Where a byte sequence stops being text. -/
structure Fault where
  /-- Number of bytes before the faulty sequence. -/
  index : Nat
  /-- Length of the faulty sequence, or `none` if the bytes end inside a sequence. -/
  length : Option Nat
deriving DecidableEq, Repr

/-- The wording of a fault. -/
def Fault.message (e : Fault) : String :=
  match e.length with
  | some n => "invalid utf-8 sequence of " ++ toString n ++ " bytes from index " ++ toString e.index
  | none => "incomplete utf-8 byte sequence from index " ++ toString e.index

/-- What the front of a byte sequence holds. -/
inductive Step where
  /-- A character spelled by this many bytes. -/
  | char (c : Char) (size : Nat)
  /-- This many bytes that no text contains in this place. -/
  | invalid (size : Nat)
  /-- A sequence that the end of the bytes cuts short; all that is left belongs to it. -/
  | incomplete
deriving Repr

/-- The bytes that may follow the first byte of a sequence, and the length of the sequence. -/
def lead (b : UInt8) : Option (Nat × UInt8 × UInt8) :=
  if 0xC2 ≤ b && b ≤ 0xDF then some (2, 0x80, 0xBF)
  else if b == 0xE0 then some (3, 0xA0, 0xBF)
  else if b == 0xED then some (3, 0x80, 0x9F)
  else if 0xE1 ≤ b && b ≤ 0xEF then some (3, 0x80, 0xBF)
  else if b == 0xF0 then some (4, 0x90, 0xBF)
  else if 0xF1 ≤ b && b ≤ 0xF3 then some (4, 0x80, 0xBF)
  else if b == 0xF4 then some (4, 0x80, 0x8F)
  else none

/-- The last six bits of a continuation byte. -/
def tailBits (b : UInt8) : Nat := b.toNat % 64

/-- A continuation byte after the second one. -/
def isTail (b : UInt8) : Bool := 0x80 ≤ b && b ≤ 0xBF

/-- Reads one character or one fault off the front of a nonempty byte sequence. -/
def step (a : UInt8) (rest : List UInt8) : Step :=
  if a < 0x80 then .char (Char.ofNat a.toNat) 1
  else match lead a with
    | none => .invalid 1
    | some (n, lo, hi) =>
      match rest with
      | [] => .incomplete
      | b :: rest =>
        if !(lo ≤ b && b ≤ hi) then .invalid 1
        else if n == 2 then .char (Char.ofNat ((a.toNat % 32) * 64 + tailBits b)) 2
        else match rest with
          | [] => .incomplete
          | c :: rest =>
            if !isTail c then .invalid 2
            else if n == 3 then
              .char (Char.ofNat (((a.toNat % 16) * 64 + tailBits b) * 64 + tailBits c)) 3
            else match rest with
              | [] => .incomplete
              | d :: _ =>
                if !isTail d then .invalid 3
                else .char (Char.ofNat
                  ((((a.toNat % 8) * 64 + tailBits b) * 64 + tailBits c) * 64 + tailBits d)) 4

/-- Reads characters up to the first fault; `skip` bytes of the front are already read. -/
def decodeFrom (index : Nat) (skip : Nat) (text : String) : List UInt8 → Except Fault String
  | [] => .ok text
  | a :: rest =>
    match skip with
    | n + 1 => decodeFrom (index + 1) n text rest
    | 0 =>
      match step a rest with
      | .char c n => decodeFrom (index + 1) (n - 1) (text.push c) rest
      | .invalid n => .error ⟨index, some n⟩
      | .incomplete => .error ⟨index, none⟩

/-- The text that the bytes spell, or the first fault in them. -/
def decode (bytes : List UInt8) : Except Fault String := decodeFrom 0 0 "" bytes

/-- Reads all characters, writing the replacement character for each fault. -/
def decodeLossyFrom (skip : Nat) (text : String) : List UInt8 → String
  | [] => text
  | a :: rest =>
    match skip with
    | n + 1 => decodeLossyFrom n text rest
    | 0 =>
      match step a rest with
      | .char c n => decodeLossyFrom (n - 1) (text.push c) rest
      | .invalid n => decodeLossyFrom (n - 1) (text.push '\uFFFD') rest
      | .incomplete => text.push '\uFFFD'

/-- The text that the bytes spell, with the replacement character where they spell none. -/
def decodeLossy (bytes : List UInt8) : String := decodeLossyFrom 0 "" bytes

end ScriptedActions.Text.Utf8
