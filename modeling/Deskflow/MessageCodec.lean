import Deskflow.FormatCodec
import Deskflow.Messages

/-! Every server message is decoded from its own encoding, with its arguments
unchanged and nothing of what follows read. -/

namespace Deskflow

theorem readMessage_simulates {σ τ : Type} [ByteSource σ] [ByteSource τ] {R : σ → τ → Prop}
    (h : ∀ n, Reader.Simulates R (Reader.exact n) (Reader.exact n)) (k : Key) :
    Reader.Simulates R (readMessage k) (readMessage k) := by
  refine (readf_simulates h k.argFormat).bind fun args => ?_
  cases Message.ofArgs k args with
  | none => exact .fail R
  | some m => exact .pure R m

theorem readMessage_local (k : Key) : Reader.Local (readMessage k) := by
  refine (readf_local k.argFormat).bind fun args => ?_
  cases Message.ofArgs k args with
  | none => exact .fail
  | some m => exact .pure m

namespace Key

theorem length_bytes (k : Key) : k.bytes.length = 4 := by cases k <;> rfl

theorem ofBytes_bytes (k : Key) : ofBytes k.bytes = some k := by cases k <;> rfl

theorem ofBytes_eq_some {key : Bytes} {k : Key} (h : ofBytes key = some k) : key = k.bytes := by
  have hk := List.find?_some h
  exact (beq_iff_eq.mp hk).symm

def argDirectives : Key → List Directive
  | .CINN => [.int 2, .int 2, .int 4, .int 2]
  | .DMMV => [.int 2, .int 2]
  | .DMRM => [.int 2, .int 2]
  | .DMDN => [.int 1]
  | .DMUP => [.int 1]
  | .DMWM => [.int 2, .int 2]
  | .DKDN => [.int 2, .int 2, .int 2]
  | .DKUP => [.int 2, .int 2, .int 2]
  | .DKRP => [.int 2, .int 2, .int 2, .int 2, .str 0]
  | .DKDL => [.int 2, .int 2, .int 2, .str 0]
  | .CSEC => [.int 1]
  | .CCLP => [.int 1, .int 4]
  | .DSOP => [.ints 4]
  | .DCLP => [.int 1, .int 4, .int 1, .str 0]
  | .DFTR => [.int 1, .str 0]
  | .DDRG => [.int 2, .str 0]
  | .LSYN => [.str 0]
  | .SECN => [.str 0]
  | .EICV => [.int 2, .int 2]
  | _ => []

theorem directives_argFormat (k : Key) : directives k.argFormat = k.argDirectives := by
  cases k <;> rfl

theorem directives_format (k : Key) :
    directives k.format = k.bytes.map .literal ++ k.argDirectives := by
  cases k <;> rfl

end Key

theorem writeDirectives_literals (key : Bytes) (ds : List Directive) (args : List Arg) :
    writeDirectives (key.map .literal ++ ds) args = key ++ writeDirectives ds args := by
  induction key with
  | nil => rfl
  | cons ch key ih => simp only [List.map_cons, List.cons_append, writeDirectives, ih]

theorem i16_toInt_emod (v : Int16) : i16 (v.toInt % 65536) = v := by
  apply Int16.toInt.inj
  have hlt := v.toInt_lt
  have hle := v.le_toInt
  have hmod : (v.toInt % 65536).bmod 65536 = v.toInt.bmod 65536 :=
    Int.emod_bmod _ _
  rw [i16, Int16.toInt_ofInt, Int16.size, hmod]
  exact Int.bmod_eq_of_le (by omega) (by omega)

theorem u8_toNat_emod (v : UInt8) : u8 ((v.toNat : Int) % 256) = v := by
  have hlt := v.toNat_lt
  have hv : (((v.toNat : Int) % 256) % 2 ^ 8).toNat = v.toNat := by omega
  rw [u8, UInt8.ofInt, hv, UInt8.ofNat_toNat]

theorem u32_toNat_emod (v : UInt32) : u32 ((v.toNat : Int) % 4294967296) = v := by
  have hlt := v.toNat_lt
  have hv : (((v.toNat : Int) % 4294967296) % 2 ^ 32).toNat = v.toNat := by omega
  rw [u32, UInt32.ofInt, hv, UInt32.ofNat_toNat]

namespace Message

/-- The messages a server may send: strings of at most 1 MB and frames of at
most 4 MB. -/
structure WellFormed (m : Message) : Prop where
  strings : ∀ s, Arg.str s ∈ m.args → s.length ≤ 1024 * 1024
  frame : m.payload.length ≤ 4 * 1024 * 1024

theorem payload_eq (m : Message) : m.payload = m.key.bytes ++ writef m.key.argFormat m.args := by
  rw [payload, writef, writef, Key.directives_format, Key.directives_argFormat,
    writeDirectives_literals]

theorem length_payload (m : Message) :
    m.payload.length = 4 + (writeDirectives m.key.argDirectives m.args).length := by
  rw [payload_eq, List.length_append, Key.length_bytes, writef, Key.directives_argFormat]

theorem length_options_le {options : List UInt32} (h : (dsop options).WellFormed) :
    options.length ≤ 1048576 := by
  have hframe := h.frame
  have hints : ∀ vs : List UInt32,
      (vs.flatMap fun v => putInt 4 v.toNat).length = 4 * vs.length := by
    intro vs
    induction vs with
    | nil => rfl
    | cons v vs ih =>
      rw [List.flatMap_cons, List.length_append, ih, putInt_of_width (by simp),
        BigEndian.length_encode, List.length_cons]
      omega
  rw [payload_eq, writef, Key.directives_argFormat] at hframe
  simp only [key, Key.argDirectives, args, writeDirectives, List.length_append, hints,
    Key.length_bytes, BigEndian.length_encode] at hframe
  omega

theorem carries (m : Message) (h : m.WellFormed) : Carries m.key.argDirectives m.args := by
  have hs := h.strings
  cases m with
  | dsop options => exact ⟨by simp, length_options_le h, trivial⟩
  | _ => simp_all [key, args, Key.argDirectives, Carries]

theorem ofArgs_stored (m : Message) :
    ofArgs m.key (stored m.key.argDirectives m.args) = some m := by
  cases m <;>
    simp [key, args, Key.argDirectives, stored, ofArgs, i16_toInt_emod, u8_toNat_emod,
      u32_toNat_emod]

end Message

theorem readMessage_append {m : Message} (h : m.WellFormed) (rest : Bytes) :
    (readMessage m.key).run (writef m.key.argFormat m.args ++ rest) = (some m, rest) := by
  have hc : Carries (directives m.key.argFormat) m.args := by
    rw [Key.directives_argFormat]
    exact m.carries h
  rw [readMessage, Reader.run_bind_some (readf_writef hc rest), Key.directives_argFormat,
    m.ofArgs_stored]
  rfl

end Deskflow
