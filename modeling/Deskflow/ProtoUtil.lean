import Deskflow.SocketStream

/-! The `printf`-like format interpreters `writef` and `readf`. -/

namespace Deskflow

/-- An argument of a format. Vector elements are the low-order bits the
element width keeps. -/
inductive Arg
  | int (v : Int)
  | ints (vs : List UInt32)
  | str (s : Bytes)
  | raw (data : Bytes)
  deriving DecidableEq, Repr

inductive Directive
  | literal (ch : UInt8)
  | int (len : Nat)
  | ints (len : Nat)
  | str (len : Nat)
  | raw
  | percent
  | unknown
  deriving DecidableEq, Repr

/-- The `switch` on the byte that ends a directive. -/
def conversion (len : Nat) (ch : UInt8) : Directive :=
  if ch = 105 then .int len        -- 'i'
  else if ch = 73 then .ints len   -- 'I'
  else if ch = 115 then .str len   -- 's'
  else if ch = 83 then .raw        -- 'S'
  else if ch = 37 then .percent    -- '%'
  else .unknown

/-- The scan both interpreters make: the first argument is the width read so
far inside a directive. A format that stops inside one has no conversion. -/
def scanFormat : Option Nat → Bytes → List Directive
  | none, [] => []
  | some _, [] => [.unknown]
  | none, ch :: fmt =>
    if ch = 37 then scanFormat (some 0) fmt else .literal ch :: scanFormat none fmt
  | some len, ch :: fmt =>
    if 48 ≤ ch ∧ ch ≤ 57 then
      scanFormat (some ((len * 10 + (ch.toNat - 48)) % 2 ^ 32)) fmt
    else conversion len ch :: scanFormat none fmt

def directives (fmt : Bytes) : List Directive := scanFormat none fmt

/-- The low-order bytes of an integer; other widths write nothing. -/
def putInt (len : Nat) (v : Int) : Bytes :=
  if len = 1 ∨ len = 2 ∨ len = 4 then BigEndian.encode len (v % 2 ^ 32).toNat else []

/-- Pad with zero bytes or truncate to `len`. -/
def putFixed (len : Nat) (s : Bytes) : Bytes :=
  (List.range len).map fun i => if h : i < s.length then s[i] else 0

def putSized (s : Bytes) : Bytes := BigEndian.encode 4 s.length ++ s

/-- The directives take their arguments from the list in order, as `va_arg`
does. An argument of another type is undefined behaviour and ends the model's
output. -/
def writeDirectives : List Directive → List Arg → Bytes
  | .literal ch :: ds, args => ch :: writeDirectives ds args
  | .int len :: ds, .int v :: args => putInt len v ++ writeDirectives ds args
  | .ints len :: ds, .ints vs :: args =>
    BigEndian.encode 4 vs.length ++ vs.flatMap (fun v => putInt len v.toNat) ++
      writeDirectives ds args
  | .str len :: ds, .str s :: args =>
    (if 0 < len then putFixed len s else putSized s) ++ writeDirectives ds args
  | .raw :: ds, .raw data :: args => putSized data ++ writeDirectives ds args
  | .percent :: ds, args => 37 :: writeDirectives ds args
  | .unknown :: ds, args => writeDirectives ds args
  | _, _ => []

def writef (fmt : Bytes) (args : List Arg) : Bytes := writeDirectives (directives fmt) args

section Reading

variable {σ : Type} [ByteSource σ]

def readInt (len : Nat) : Reader σ Nat := do
  if len = 1 ∨ len = 2 ∨ len = 4 then
    let b ← Reader.exact len
    pure (BigEndian.decode b)
  else Reader.fail

def readInts (len : Nat) : Nat → Reader σ (List UInt32)
  | 0 => pure []
  | count + 1 => do
    let v ← readInt len
    let vs ← readInts len count
    pure (UInt32.ofNat v :: vs)

def readCount (limit : Nat) : Reader σ Nat := do
  let n ← readInt 4
  if n > limit then Reader.fail else pure n

def readDirective : Directive → Reader σ (List Arg)
  | .literal ch => do
    let b ← Reader.exact 1
    if b = [ch] then pure [] else Reader.fail
  | .int len => do
    let v ← readInt len
    pure [.int v]
  | .ints len => do
    let count ← readCount 1048576
    let vs ← readInts len count
    pure [.ints vs]
  | .str len => do
    let n ← if 0 < len then pure len else readCount (1024 * 1024)
    let s ← Reader.exact n
    pure [.str s]
  | .raw => do
    let n ← readCount (4 * 1024 * 1024)
    let data ← Reader.exact n
    pure [.raw data]
  | .percent => pure []
  | .unknown => Reader.fail

def readDirectives : List Directive → Reader σ (List Arg)
  | [] => pure []
  | d :: ds => do
    let args ← readDirective d
    let more ← readDirectives ds
    pure (args ++ more)

/-- The values stored through the argument pointers, or a failure. Integers
are returned unsigned; the caller's variable gives them their sign. -/
def readf (fmt : Bytes) : Reader σ (List Arg) := readDirectives (directives fmt)

end Reading

end Deskflow
