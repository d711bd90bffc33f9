import Deskflow.HandledMessages
import Deskflow.HelloAcceptance
import Deskflow.Leftovers

/-! Reading moves the position in the read buffer and keeps its bytes. -/

namespace Deskflow

open DeskflowClient

namespace SocketStream

theorem readExact_bytes (n : Nat) (s : SocketStream) :
    (s.readExact n).2.buffer.bytes = s.buffer.bytes := by
  unfold readExact
  dsimp only
  split_ifs
  · rfl
  · rfl
  · split <;> rfl

def Holds (bytes : Bytes) (s t : SocketStream) : Prop := t = s ∧ s.buffer.bytes = bytes

theorem exact_holds (bytes : Bytes) (n : Nat) :
    Reader.Simulates (Holds bytes) (Reader.exact n) (Reader.exact n) := by
  rintro s t ⟨rfl, hs⟩
  exact ⟨rfl, rfl, (readExact_bytes n t).trans hs⟩

theorem run_bytes {α : Type} {r : Reader SocketStream α}
    (h : ∀ bytes, Reader.Simulates (Holds bytes) r r) (s : SocketStream) :
    (r.run s).2.buffer.bytes = s.buffer.bytes :=
  (h s.buffer.bytes s s ⟨rfl, rfl⟩).2.2

end SocketStream

namespace DeskflowClient

theorem handleMessage_bytes (key : Bytes) (c : DeskflowClient) :
    (c.handleMessage key).2.stream.buffer.bytes = c.stream.buffer.bytes := by
  unfold handleMessage
  cases Key.ofBytes key with
  | none => rfl
  | some k =>
    have hbytes := SocketStream.run_bytes
      (fun bytes => readMessage_simulates (SocketStream.exact_holds bytes) k) c.stream
    dsimp only
    rcases hm : (readMessage k).run c.stream with ⟨_ | m, s⟩ <;> rw [hm] at hbytes
    · exact hbytes
    · have hin := perform_sameInput m { c with stream := s }
      exact (congrArg ReadBuffer.bytes hin.buffer).trans hbytes

theorem digest_sameInput (a : Arrival) (c : DeskflowClient) :
    SocketStream.SameInput c.stream (c.digest a).2.stream := by
  cases a with
  | message key m => exact perform_sameInput m (c.emit (.dispatched key))
  | _ => exact deliver_sameInput _ c

theorem receive_connected (c : DeskflowClient) :
    c.receive.2.stream.connected = c.stream.connected := by
  obtain ⟨s, hout, -, he⟩ := c.receive_eq_digest
  rw [he]
  exact (digest_sameInput _ { c with stream := s }).connected.trans hout.connected

theorem handshake_connected (c : DeskflowClient) :
    c.handshake.2.stream.connected = c.stream.connected := by
  obtain ⟨s, hout, -, he⟩ := c.handshake_eq
  rw [he]
  split
  · exact (answerHello_sameInput _ _ _ { c with stream := s }).connected.trans hout.connected
  · exact hout.connected

def nextFrame (c : DeskflowClient) : Bytes := ((c.stream.view.run readFrame).1).getD []

theorem receive_bytes (c : DeskflowClient) :
    c.receive.2.stream.buffer.bytes = c.stream.buffer.bytes ++ c.nextFrame := by
  obtain ⟨hv, -, -⟩ := c.stream.run_view
    (fun s => readFrame_simulates (SocketStream.readExact_simulates s))
  have hbytes := SocketStream.run_bytes
    (fun bytes => readFrame_simulates (SocketStream.exact_holds bytes)) c.stream
  unfold receive nextFrame
  rw [← hv]
  rcases hf : readFrame.run c.stream with ⟨_ | frame, s⟩ <;> rw [hf] at hbytes
  · rw [Option.getD_none, List.append_nil]
    dsimp only
    split_ifs <;> exact hbytes
  · have hkey := SocketStream.readExact_bytes 4 (s.pushToBuffer frame)
    have hpush : (s.pushToBuffer frame).buffer.bytes = c.stream.buffer.bytes ++ frame :=
      congrArg (· ++ frame) hbytes
    dsimp only
    rcases hk : (s.pushToBuffer frame).readExact 4 with ⟨_ | key, t⟩ <;> rw [hk] at hkey
    · exact hkey.trans hpush
    · exact (handleMessage_bytes key _).trans (hkey.trans hpush)

theorem handshake_bytes (c : DeskflowClient) :
    c.handshake.2.stream.buffer.bytes = c.stream.buffer.bytes ++ c.nextFrame := by
  obtain ⟨hv, -, -⟩ := c.stream.run_view
    (fun s => readFrame_simulates (SocketStream.readExact_simulates s))
  have hbytes := SocketStream.run_bytes
    (fun bytes => readFrame_simulates (SocketStream.exact_holds bytes)) c.stream
  unfold handshake nextFrame
  rw [← hv]
  rcases hf : readFrame.run c.stream with ⟨_ | frame, s⟩ <;> rw [hf] at hbytes
  · simpa using hbytes
  · have hargs := SocketStream.run_bytes
      (fun bytes => readf_simulates (SocketStream.exact_holds bytes) kMsgHello)
      (s.pushToBuffer frame)
    have hpush : (s.pushToBuffer frame).buffer.bytes = c.stream.buffer.bytes ++ frame :=
      congrArg (· ++ frame) hbytes
    dsimp only
    split
    · rename_i heq
      rw [heq] at hargs
      exact (congrArg ReadBuffer.bytes (answerHello_sameInput _ _ _ _).buffer).trans
        (hargs.trans hpush)
    · rename_i heq
      rw [heq] at hargs
      exact hargs.trans hpush

theorem nextFrame_of_view {c : DeskflowClient} {frame rest : Bytes}
    (hlen : frame.length ≤ 4 * 1024 * 1024)
    (h : c.stream.view = ⟨[], frameBytes frame ++ rest⟩) : c.nextFrame = frame := by
  rw [nextFrame, h, View.run_frame hlen]
  rfl

theorem nextFrame_of_empty {c : DeskflowClient} (h : c.stream.view = ⟨[], []⟩) :
    c.nextFrame = [] := by
  rw [nextFrame, h]
  rfl

end DeskflowClient

end Deskflow
