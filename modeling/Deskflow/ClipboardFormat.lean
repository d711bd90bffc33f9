import Deskflow.BigEndian
import Deskflow.ProtocolTypes

/-! The clipboard container and the texts of announced sizes. -/

namespace Deskflow

/-- One format, `Text`, in a container with a big-endian header. -/
def marshalText (utf8Text : Bytes) : Bytes :=
  BigEndian.encode 4 1 ++ BigEndian.encode 4 0 ++ BigEndian.encode 4 utf8Text.length ++ utf8Text

/-- The lambda `rd`: zero where four bytes are not left. -/
def containerWord (container : Bytes) (off : Nat) : Nat :=
  if off + 4 > container.length then 0
  else BigEndian.decode ((container.drop off).take 4)

/-- A run of `unmarshalText`: its result, the ranges it reads, each an offset and a
length, and the rounds of its loop. -/
structure Walk where
  text : Bytes
  reads : List (Nat × Nat)
  rounds : Nat

/-- The loop of `unmarshalText` with the number of formats still to visit. -/
def walkFrom (container : Bytes) : Nat → Nat → Walk
  | 0, _ => ⟨[], [], 0⟩
  | numFormats + 1, off =>
    if off + 8 ≤ container.length then
      let format := containerWord container off
      let size := containerWord container (off + 4)
      let header := [(off, 4), (off + 4, 4)]
      if off + 8 + size > container.length then ⟨[], header, 1⟩
      else if format = 0 then
        ⟨(container.drop (off + 8)).take size, header ++ [(off + 8, size)], 1⟩
      else
        let w := walkFrom container numFormats (off + 8 + size)
        ⟨w.text, header ++ w.reads, w.rounds + 1⟩
    else ⟨[], [], 0⟩

def walk (container : Bytes) : Walk :=
  if container.length < 4 then ⟨[], [], 0⟩
  else
    let w := walkFrom container (containerWord container 0) 4
    { w with reads := (0, 4) :: w.reads }

def unmarshalText (container : Bytes) : Bytes := (walk container).text

def isSpace (ch : UInt8) : Bool := ch == 32 || (9 ≤ ch && ch ≤ 13)

def isDigit (ch : UInt8) : Bool := 48 ≤ ch && ch ≤ 57

/-- `std::stoull` in base ten: leading white space, an optional sign and the
longest run of digits; `none` where it throws. A minus sign negates modulo
`2 ^ 64`, as `strtoull` does. -/
def stoull (text : Bytes) : Option Nat :=
  let text := text.dropWhile isSpace
  let (negative, text) := match text with
    | 43 :: rest => (false, rest)   -- '+'
    | 45 :: rest => (true, rest)    -- '-'
    | _ => (false, text)
  let digits := text.takeWhile isDigit
  let value := digits.foldl (fun n ch => n * 10 + (ch.toNat - 48)) 0
  if digits = [] ∨ 2 ^ 64 ≤ value then none
  else if negative then some ((2 ^ 64 - value) % 2 ^ 64)
  else some value

example : stoull (ascii "12abc") = some 12 ∧ stoull (ascii "abc") = none := by decide +kernel

/-- `std::to_string`. -/
def decimal (n : Int) : Bytes := ascii (toString n)

def kChunk : Nat := 512 * 1024

/-- The pieces of `payload` that the upload loop cuts. -/
def clipboardChunks (payload : Bytes) : List Bytes :=
  (List.range ((payload.length + kChunk - 1) / kChunk)).map fun i =>
    (payload.drop (i * kChunk)).take kChunk

end Deskflow
