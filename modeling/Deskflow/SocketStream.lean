import Deskflow.BigEndian
import Deskflow.ByteSource
import Deskflow.ProtocolTypes

/-! The TCP stream: buffered exact reads, complete writes and frames with a
four-byte length prefix. The kernel's answers to `recv` and `send` are given
in advance as schedules. -/

namespace Deskflow

/-- What a `recv` call meets. An empty piece is the end of the stream. -/
inductive Recv
  | data (piece : Bytes)
  | eintr
  | error
  deriving DecidableEq, Repr

/-- What a `send` call meets: `accept k` takes at most `k + 1` bytes. -/
inductive Send
  | accept (k : Nat)
  | eintr
  | error
  deriving DecidableEq, Repr

/-- `m_buffer` with the read position `m_bufferPos`. -/
structure ReadBuffer where
  bytes : Bytes
  pos : Nat
  pos_le : pos ≤ bytes.length
  deriving DecidableEq

namespace ReadBuffer

def empty : ReadBuffer := ⟨[], 0, Nat.le_refl _⟩

def unread (b : ReadBuffer) : Bytes := b.bytes.drop b.pos

def remaining (b : ReadBuffer) : Nat := b.bytes.length - b.pos

/-- Up to `n` unread bytes; only the position moves. -/
def take (n : Nat) (b : ReadBuffer) : Bytes × ReadBuffer :=
  (b.unread.take n,
    ⟨b.bytes, b.pos + min n b.remaining, by have := b.pos_le; unfold remaining; omega⟩)

def push (bytes : Bytes) (b : ReadBuffer) : ReadBuffer :=
  ⟨b.bytes ++ bytes, b.pos, by have := b.pos_le; rw [List.length_append]; omega⟩

end ReadBuffer

structure SocketStream where
  connected : Bool := false
  buffer : ReadBuffer := .empty
  recvs : List Recv := []
  sends : List Send := []
  wire : Bytes := []
  deriving DecidableEq

/-- What a schedule delivers before the stream ends. -/
def arriving : List Recv → Bytes
  | [] => []
  | .eintr :: rs => arriving rs
  | .error :: _ => []
  | .data [] :: _ => []
  | .data (b :: bs) :: rs => b :: bs ++ arriving rs

/-- The second loop of `readExact`. A failed call ends the schedule: a socket
at its end or in error stays there. -/
def recvLoop : Nat → List Recv → Option Bytes × List Recv
  | 0, rs => (some [], rs)
  | _ + 1, [] => (none, [])
  | n + 1, .eintr :: rs => recvLoop (n + 1) rs
  | _ + 1, .error :: rs => (none, .error :: rs)
  | _ + 1, .data [] :: rs => (none, .data [] :: rs)
  | n + 1, .data (b :: bs) :: rs =>
    if bs.length ≤ n then
      match recvLoop (n - bs.length) rs with
      | (some more, rs) => (some (b :: bs ++ more), rs)
      | (none, rs) => (none, rs)
    else (some (b :: bs.take n), .data (bs.drop n) :: rs)

/-- The loop of `writeAll`: the result, the bytes the kernel took and the rest
of the schedule. A schedule that has run out takes everything. -/
def sendLoop : Bytes → List Send → Bool × Bytes × List Send
  | [], ss => (true, [], ss)
  | data, [] => (true, data, [])
  | data, .eintr :: ss => sendLoop data ss
  | _, .error :: ss => (false, [], ss)
  | data, .accept k :: ss =>
    let r := sendLoop (data.drop (k + 1)) ss
    (r.1, data.take (k + 1) ++ r.2.1, r.2.2)

namespace SocketStream

def bufferRemaining (s : SocketStream) : Nat := s.buffer.remaining

/-- Everything that can still be read: the buffer, then the socket. -/
def pending (s : SocketStream) : Bytes :=
  s.buffer.unread ++ if s.connected then arriving s.recvs else []

/-- Buffered bytes are served first, the socket second. -/
def readExact (n : Nat) (s : SocketStream) : Option Bytes × SocketStream :=
  let got := (s.buffer.take n).1
  let s := { s with buffer := (s.buffer.take n).2 }
  if got.length = n then (some got, s)
  else if !s.connected then (none, s)
  else match recvLoop (n - got.length) s.recvs with
    | (some more, rs) => (some (got ++ more), { s with recvs := rs })
    | (none, rs) => (none, { s with recvs := rs })

instance : ByteSource SocketStream := ⟨readExact⟩

def writeAll (data : Bytes) (s : SocketStream) : Bool × SocketStream :=
  if data = [] then (true, s)
  else if !s.connected then (false, s)
  else
    let r := sendLoop data s.sends
    (r.1, { s with sends := r.2.2, wire := s.wire ++ r.2.1 })

def pushToBuffer (data : Bytes) (s : SocketStream) : SocketStream :=
  { s with buffer := s.buffer.push data }

def writeFrame (data : Bytes) (s : SocketStream) : Bool × SocketStream :=
  if data.length > 4 * 1024 * 1024 then (false, s)
  else match s.writeAll (BigEndian.encode 4 data.length) with
    | (false, s) => (false, s)
    | (true, s) => s.writeAll data

/-- A new socket; the read buffer is not touched. -/
def connect (recvs : List Recv) (sends : List Send) (s : SocketStream) : SocketStream :=
  { s with connected := true, recvs := recvs, sends := sends, wire := [] }

def close (s : SocketStream) : SocketStream :=
  { s with connected := false, buffer := .empty }

end SocketStream

def readFrame {σ : Type} [ByteSource σ] : Reader σ Bytes := do
  let lenb ← Reader.exact 4
  let len := BigEndian.decode lenb
  if len > 4 * 1024 * 1024 then Reader.fail
  else if 0 < len then Reader.exact len
  else pure []

end Deskflow
