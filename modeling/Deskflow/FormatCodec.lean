import Mathlib.Tactic.NormNum
import Deskflow.ProtoUtil
import Deskflow.StreamView

/-! `readf` undoes `writef`, one directive at a time, and depends only on the
bytes it uses. -/

namespace Deskflow

section Simulation

variable {σ τ : Type} [ByteSource σ] [ByteSource τ] {R : σ → τ → Prop}

theorem readInt_simulates (h : ∀ n, Reader.Simulates R (Reader.exact n) (Reader.exact n))
    (len : Nat) : Reader.Simulates R (readInt len) (readInt len) :=
  .ite _ ((h len).bind fun _ => .pure R _) (.fail R)

theorem readInts_simulates (h : ∀ n, Reader.Simulates R (Reader.exact n) (Reader.exact n))
    (len count : Nat) : Reader.Simulates R (readInts len count) (readInts len count) := by
  induction count with
  | zero => exact .pure R _
  | succ count ih => exact (readInt_simulates h len).bind fun _ => ih.bind fun _ => .pure R _

theorem readCount_simulates (h : ∀ n, Reader.Simulates R (Reader.exact n) (Reader.exact n))
    (limit : Nat) : Reader.Simulates R (readCount limit) (readCount limit) :=
  (readInt_simulates h 4).bind fun _ => .ite _ (.fail R) (.pure R _)

theorem readDirective_simulates (h : ∀ n, Reader.Simulates R (Reader.exact n) (Reader.exact n))
    (d : Directive) : Reader.Simulates R (readDirective d) (readDirective d) := by
  cases d with
  | literal ch => exact (h 1).bind fun _ => .ite _ (.pure R _) (.fail R)
  | int len => exact (readInt_simulates h len).bind fun _ => .pure R _
  | ints len =>
    exact (readCount_simulates h _).bind fun _ => (readInts_simulates h len _).bind fun _ =>
      .pure R _
  | str len =>
    have hread := fun n => (h n).bind fun s => .pure R [Arg.str s]
    exact .ite _ ((Reader.Simulates.pure R len).bind hread) ((readCount_simulates h _).bind hread)
  | raw => exact (readCount_simulates h _).bind fun n => (h n).bind fun _ => .pure R _
  | percent => exact .pure R _
  | unknown => exact .fail R

theorem readf_simulates (h : ∀ n, Reader.Simulates R (Reader.exact n) (Reader.exact n))
    (fmt : Bytes) : Reader.Simulates R (readf fmt) (readf fmt) := by
  unfold readf
  induction directives fmt with
  | nil => exact .pure R _
  | cons d ds ih => exact (readDirective_simulates h d).bind fun _ => ih.bind fun _ => .pure R _

end Simulation

theorem readInt_local (len : Nat) : Reader.Local (readInt len) :=
  .ite _ ((Reader.Local.exact len).bind fun _ => .pure _) .fail

theorem readInts_local (len count : Nat) : Reader.Local (readInts len count) := by
  induction count with
  | zero => exact .pure _
  | succ count ih => exact (readInt_local len).bind fun _ => ih.bind fun _ => .pure _

theorem readCount_local (limit : Nat) : Reader.Local (readCount limit) :=
  (readInt_local 4).bind fun _ => .ite _ .fail (.pure _)

theorem readDirective_local (d : Directive) : Reader.Local (readDirective d) := by
  cases d with
  | literal ch => exact (Reader.Local.exact 1).bind fun _ => .ite _ (.pure _) .fail
  | int len => exact (readInt_local len).bind fun _ => .pure _
  | ints len =>
    exact (readCount_local _).bind fun _ => (readInts_local len _).bind fun _ => .pure _
  | str len =>
    have hread := fun n => (Reader.Local.exact n).bind fun s => .pure [Arg.str s]
    exact .ite _ ((Reader.Local.pure len).bind hread) ((readCount_local _).bind hread)
  | raw => exact (readCount_local _).bind fun n => (Reader.Local.exact n).bind fun _ => .pure _
  | percent => exact .pure _
  | unknown => exact .fail

theorem readf_local (fmt : Bytes) : Reader.Local (readf fmt) := by
  unfold readf
  induction directives fmt with
  | nil => exact .pure _
  | cons d ds ih => exact (readDirective_local d).bind fun _ => ih.bind fun _ => .pure _

/-- The arguments a format can carry: one of the right type for each
directive, within the limits of the reader. -/
def Carries : List Directive → List Arg → Prop
  | [], [] => True
  | .literal _ :: ds, args => Carries ds args
  | .int len :: ds, .int _ :: args => (len = 1 ∨ len = 2 ∨ len = 4) ∧ Carries ds args
  | .ints len :: ds, .ints vs :: args =>
    (len = 1 ∨ len = 2 ∨ len = 4) ∧ vs.length ≤ 1048576 ∧ Carries ds args
  | .str len :: ds, .str s :: args => (len = 0 → s.length ≤ 1024 * 1024) ∧ Carries ds args
  | .raw :: ds, .raw data :: args => data.length ≤ 4 * 1024 * 1024 ∧ Carries ds args
  | _, _ => False

/-- What arrives of the arguments: the low-order bytes of the integers and the
padded or truncated fixed-width strings. -/
def stored : List Directive → List Arg → List Arg
  | .literal _ :: ds, args => stored ds args
  | .int len :: ds, .int v :: args => .int (v % 256 ^ len) :: stored ds args
  | .ints len :: ds, .ints vs :: args =>
    .ints (vs.map fun v => UInt32.ofNat (v.toNat % 256 ^ len)) :: stored ds args
  | .str len :: ds, .str s :: args =>
    .str (if 0 < len then putFixed len s else s) :: stored ds args
  | .raw :: ds, .raw data :: args => .raw data :: stored ds args
  | _, _ => []

theorem putInt_of_width {len : Nat} (h : len = 1 ∨ len = 2 ∨ len = 4) (v : Int) :
    putInt len v = BigEndian.encode len (v % 2 ^ 32).toNat := if_pos h

theorem toNat_emod_width {len : Nat} (h : len = 1 ∨ len = 2 ∨ len = 4) (v : Int) :
    (((v % 2 ^ 32).toNat % 256 ^ len : Nat) : Int) = v % 256 ^ len := by
  rcases h with rfl | rfl | rfl <;> norm_num <;> omega

theorem readInt_append {len : Nat} (h : len = 1 ∨ len = 2 ∨ len = 4) (n : Nat) (rest : Bytes) :
    (readInt len).run (BigEndian.encode len n ++ rest) = (some (n % 256 ^ len), rest) := by
  have he := Reader.run_exact_append (BigEndian.encode len n) rest
  rw [BigEndian.length_encode] at he
  rw [readInt, if_pos h, Reader.run_bind_some he, BigEndian.decode_encode]
  rfl

theorem readCount_append {limit n : Nat} (h : n ≤ limit) (hn : n < 2 ^ 32) (rest : Bytes) :
    (readCount limit).run (BigEndian.encode 4 n ++ rest) = (some n, rest) := by
  have hmod : n % 256 ^ 4 = n := Nat.mod_eq_of_lt hn
  rw [readCount, Reader.run_bind_some (readInt_append (by simp) n rest), hmod,
    if_neg (Nat.not_lt.mpr h)]
  rfl

theorem readInts_append {len : Nat} (h : len = 1 ∨ len = 2 ∨ len = 4) (vs : List UInt32)
    (rest : Bytes) :
    (readInts len vs.length).run (vs.flatMap (fun v => putInt len v.toNat) ++ rest) =
      (some (vs.map fun v => UInt32.ofNat (v.toNat % 256 ^ len)), rest) := by
  induction vs with
  | nil => rfl
  | cons v vs ih =>
    have hv : ((v.toNat : Int) % 2 ^ 32).toNat = v.toNat := by
      have := v.toNat_lt
      omega
    rw [List.flatMap_cons, List.append_assoc, List.length_cons, readInts, putInt_of_width h, hv,
      Reader.run_bind_some (readInt_append h _ _), Reader.run_bind_some ih]
    rfl

theorem length_putFixed (len : Nat) (s : Bytes) : (putFixed len s).length = len := by
  simp [putFixed]

section Directives

variable (rest : Bytes)

theorem readDirective_literal (ch : UInt8) :
    (readDirective (.literal ch)).run (ch :: rest) = (some [], rest) := by
  have hone : (Reader.exact 1).run (ch :: rest) = (some [ch], rest) :=
    Reader.run_exact_append [ch] rest
  rw [readDirective, Reader.run_bind_some hone, if_pos rfl]
  rfl

theorem readDirective_int {len : Nat} (h : len = 1 ∨ len = 2 ∨ len = 4) (v : Int) :
    (readDirective (.int len)).run (putInt len v ++ rest) =
      (some [.int (v % 256 ^ len)], rest) := by
  rw [readDirective, putInt_of_width h, Reader.run_bind_some (readInt_append h _ rest),
    toNat_emod_width h]
  rfl

theorem readDirective_ints {len : Nat} (h : len = 1 ∨ len = 2 ∨ len = 4) {vs : List UInt32}
    (hcount : vs.length ≤ 1048576) :
    (readDirective (.ints len)).run
        (BigEndian.encode 4 vs.length ++ vs.flatMap (fun v => putInt len v.toNat) ++ rest) =
      (some [.ints (vs.map fun v => UInt32.ofNat (v.toNat % 256 ^ len))], rest) := by
  rw [readDirective, List.append_assoc, Reader.run_bind_some (readCount_append hcount (by omega) _),
    Reader.run_bind_some (readInts_append h vs rest)]
  rfl

theorem readDirective_str {len : Nat} {s : Bytes} (h : len = 0 → s.length ≤ 1024 * 1024) :
    (readDirective (.str len)).run ((if 0 < len then putFixed len s else putSized s) ++ rest) =
      (some [.str (if 0 < len then putFixed len s else s)], rest) := by
  rw [readDirective]
  split_ifs with hpos
  · have hfixed := Reader.run_exact_append (putFixed len s) rest
    rw [length_putFixed] at hfixed
    rw [Reader.run_bind_some (Reader.run_pure len _), Reader.run_bind_some hfixed]
    rfl
  · have hs := h (Nat.eq_zero_of_not_pos hpos)
    rw [putSized, List.append_assoc, Reader.run_bind_some (readCount_append hs (by omega) _),
      Reader.run_bind_some (Reader.run_exact_append s rest)]
    rfl

theorem readDirective_raw {data : Bytes} (h : data.length ≤ 4 * 1024 * 1024) :
    (readDirective .raw).run (putSized data ++ rest) = (some [.raw data], rest) := by
  rw [readDirective, putSized, List.append_assoc,
    Reader.run_bind_some (readCount_append h (by omega) _),
    Reader.run_bind_some (Reader.run_exact_append data rest)]
  rfl

end Directives

theorem readDirectives_cons {d : Directive} {ds : List Directive} {s s' s'' : Bytes}
    {args more : List Arg} (h : (readDirective d).run s = (some args, s'))
    (h' : (readDirectives ds).run s' = (some more, s'')) :
    (readDirectives (d :: ds)).run s = (some (args ++ more), s'') := by
  rw [readDirectives, Reader.run_bind_some h, Reader.run_bind_some h']
  rfl

theorem readDirectives_append {ds : List Directive} {args : List Arg} (h : Carries ds args)
    (rest : Bytes) :
    (readDirectives ds).run (writeDirectives ds args ++ rest) = (some (stored ds args), rest) := by
  induction ds, args using Carries.induct with
  | case1 => rfl
  | case2 ch ds args ih => exact readDirectives_cons (readDirective_literal _ ch) (ih h)
  | case3 len ds v args ih =>
    rw [writeDirectives, List.append_assoc]
    exact readDirectives_cons (readDirective_int _ h.1 v) (ih h.2)
  | case4 len ds vs args ih =>
    rw [writeDirectives, List.append_assoc]
    exact readDirectives_cons (readDirective_ints _ h.1 h.2.1) (ih h.2.2)
  | case5 len ds s args ih =>
    rw [writeDirectives, List.append_assoc]
    exact readDirectives_cons (readDirective_str _ h.1) (ih h.2)
  | case6 ds data args ih =>
    rw [writeDirectives, List.append_assoc]
    exact readDirectives_cons (readDirective_raw _ h.1) (ih h.2)
  | case7 => simp [Carries] at h

/-- Reading what was written gives the stored arguments and stops right after them. -/
theorem readf_writef {fmt : Bytes} {args : List Arg} (h : Carries (directives fmt) args)
    (rest : Bytes) :
    (readf fmt).run (writef fmt args ++ rest) = (some (stored (directives fmt) args), rest) :=
  readDirectives_append h rest

end Deskflow
