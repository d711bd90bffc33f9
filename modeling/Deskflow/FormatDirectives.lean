import Deskflow.ClipboardCodec
import Deskflow.FormatCodec

/-! Formats as sequences of directives, and what a successful `readf` has consumed. -/

namespace Deskflow

inductive Width
  | one
  | two
  | four
  deriving DecidableEq, Repr

def Width.bytes : Width → Nat
  | .one => 1
  | .two => 2
  | .four => 4

theorem Width.bytes_eq (w : Width) : w.bytes = 1 ∨ w.bytes = 2 ∨ w.bytes = 4 := by
  cases w <;> simp [bytes]

theorem Width.bytes_mod (w : Width) : w.bytes % 2 ^ 32 = w.bytes := by cases w <;> rfl

/-- The documented directives of a format. -/
inductive Piece
  | literal (ch : UInt8) (h : ch ≠ 37)
  | percent
  | int (w : Width)
  | ints (w : Width)
  | str
  | fixed (n : Nat) (h : 0 < n)
  | raw
  deriving DecidableEq

namespace Piece

def text : Piece → Bytes
  | .literal ch _ => [ch]
  | .percent => ascii "%%"
  | .int w => ascii "%" ++ decimal w.bytes ++ ascii "i"
  | .ints w => ascii "%" ++ decimal w.bytes ++ ascii "I"
  | .str => ascii "%s"
  | .fixed n _ => ascii "%" ++ decimal n ++ ascii "s"
  | .raw => ascii "%S"

/-- What the interpreters see: the width is kept in 32 bits. -/
def directive : Piece → Directive
  | .literal ch _ => .literal ch
  | .percent => .percent
  | .int w => .int w.bytes
  | .ints w => .ints w.bytes
  | .str => .str 0
  | .fixed n _ => .str (n % 2 ^ 32)
  | .raw => .raw

end Piece

def formatText (ps : List Piece) : Bytes := ps.flatMap Piece.text

theorem scanFormat_digits (ds fmt : Bytes) (len : Nat)
    (h : ∀ ch ∈ ds, 48 ≤ ch.toNat ∧ ch.toNat ≤ 57) :
    scanFormat (some (len % 2 ^ 32)) (ds ++ fmt) =
      scanFormat (some (ds.foldl (fun n ch => n * 10 + (ch.toNat - 48)) len % 2 ^ 32)) fmt := by
  induction ds generalizing len with
  | nil => rfl
  | cons ch ds ih =>
    have hch := h ch (by simp)
    have hdigit : 48 ≤ ch ∧ ch ≤ 57 := by simpa [UInt8.le_iff_toNat_le] using hch
    have hmod : (len % 2 ^ 32 * 10 + (ch.toNat - 48)) % 2 ^ 32 =
        (len * 10 + (ch.toNat - 48)) % 2 ^ 32 := by omega
    rw [List.cons_append, scanFormat, if_pos hdigit, hmod,
      ih _ fun b hb => h b (List.mem_cons_of_mem _ hb)]
    rfl

theorem scanFormat_width (n : Nat) (ch : UInt8) (fmt : Bytes) (h : ¬(48 ≤ ch ∧ ch ≤ 57)) :
    scanFormat none (37 :: (decimal n ++ ch :: fmt)) =
      conversion (n % 2 ^ 32) ch :: scanFormat none fmt := by
  have hdigits := scanFormat_digits (decimal n) (ch :: fmt) 0 fun b hb => isDigit_of_mem_decimal hb
  rw [foldl_decimal, Nat.zero_mod] at hdigits
  rw [scanFormat, if_pos rfl, hdigits, scanFormat, if_neg h]

@[simp] theorem conversion_int (len : Nat) : conversion len 105 = .int len := rfl

@[simp] theorem conversion_ints (len : Nat) : conversion len 73 = .ints len := rfl

@[simp] theorem conversion_str (len : Nat) : conversion len 115 = .str len := rfl

theorem scanFormat_text (p : Piece) (fmt : Bytes) :
    scanFormat none (p.text ++ fmt) = p.directive :: scanFormat none fmt := by
  cases p with
  | literal ch h =>
    rw [Piece.text, List.singleton_append, scanFormat, if_neg h]
    rfl
  | percent => rfl
  | int w =>
    have hwidth := scanFormat_width w.bytes 105 fmt (by decide)
    rw [Width.bytes_mod] at hwidth
    simpa [Piece.text, Piece.directive, ascii] using hwidth
  | ints w =>
    have hwidth := scanFormat_width w.bytes 73 fmt (by decide)
    rw [Width.bytes_mod] at hwidth
    simpa [Piece.text, Piece.directive, ascii] using hwidth
  | str => rfl
  | fixed n h =>
    simpa [Piece.text, Piece.directive, ascii] using scanFormat_width n 115 fmt (by decide)
  | raw => rfl

theorem directives_formatText (ps : List Piece) :
    directives (formatText ps) = ps.map Piece.directive := by
  unfold directives formatText
  induction ps with
  | nil => rfl
  | cons p ps ih => rw [List.flatMap_cons, scanFormat_text, ih, List.map_cons]

theorem readInt_eq_some {len v : Nat} {bs rest : Bytes}
    (h : (readInt len).run bs = (some v, rest)) :
    (len = 1 ∨ len = 2 ∨ len = 4) ∧ bs = BigEndian.encode len v ++ rest ∧ v < 256 ^ len := by
  unfold readInt at h
  split_ifs at h with hlen
  · obtain ⟨b, mid, hb, hv⟩ := Reader.run_bind_eq_some h
    simp only [Reader.run_pure, Prod.mk.injEq, Option.some.injEq] at hv
    obtain ⟨rfl, rfl⟩ := hv
    obtain ⟨hbs, hb⟩ := Reader.run_exact_eq_some hb
    have hback := BigEndian.encode_decode b
    rw [hb] at hback
    refine ⟨hlen, by rw [hback, hbs], ?_⟩
    rw [← hb]
    exact BigEndian.decode_lt b
  · simp at h

theorem readCount_eq_some {limit n : Nat} {bs rest : Bytes}
    (h : (readCount limit).run bs = (some n, rest)) :
    n ≤ limit ∧ bs = BigEndian.encode 4 n ++ rest := by
  obtain ⟨m, mid, hm, hn⟩ := Reader.run_bind_eq_some h
  split_ifs at hn with hle
  · simp at hn
  · simp only [Reader.run_pure, Prod.mk.injEq, Option.some.injEq] at hn
    obtain ⟨rfl, rfl⟩ := hn
    exact ⟨Nat.not_lt.mp hle, (readInt_eq_some hm).2.1⟩

theorem putInt_natCast {len v : Nat} (h : len = 1 ∨ len = 2 ∨ len = 4) (hv : v < 256 ^ len) :
    putInt len v = BigEndian.encode len v := by
  have hle : 256 ^ len ≤ 2 ^ 32 := by rcases h with rfl | rfl | rfl <;> norm_num
  have hcast : ((v : Int) % 2 ^ 32).toNat = v := by omega
  rw [putInt_of_width h, hcast]

theorem readInts_eq_some {len count : Nat} {bs rest : Bytes} {vs : List UInt32}
    (h : (readInts len count).run bs = (some vs, rest)) :
    vs.length = count ∧ bs = vs.flatMap (fun v => putInt len v.toNat) ++ rest := by
  induction count generalizing bs vs with
  | zero =>
    simp only [readInts, Reader.run_pure, Prod.mk.injEq, Option.some.injEq] at h
    obtain ⟨rfl, rfl⟩ := h
    exact ⟨rfl, rfl⟩
  | succ count ih =>
    obtain ⟨v, mid, hv, h⟩ := Reader.run_bind_eq_some h
    obtain ⟨vs', mid', hvs, h⟩ := Reader.run_bind_eq_some h
    simp only [Reader.run_pure, Prod.mk.injEq, Option.some.injEq] at h
    obtain ⟨rfl, rfl⟩ := h
    obtain ⟨hwidth, rfl, hlt⟩ := readInt_eq_some hv
    obtain ⟨hlen, rfl⟩ := ih hvs
    have hsize : v < UInt32.size := by
      rcases hwidth with rfl | rfl | rfl <;> norm_num at hlt ⊢ <;> omega
    refine ⟨by rw [List.length_cons, hlen], ?_⟩
    rw [List.flatMap_cons, UInt32.toNat_ofNat_of_lt' hsize, putInt_natCast hwidth hlt,
      List.append_assoc]

theorem carries_literal {ch : UInt8} {args : List Arg} (h : Carries [.literal ch] args) :
    args = [] := by
  cases args with
  | nil => rfl
  | cons a args => exact h.elim

theorem carries_int {len : Nat} {args : List Arg} (h : Carries [.int len] args) :
    (len = 1 ∨ len = 2 ∨ len = 4) ∧ ∃ v, args = [.int v] := by
  rcases args with _ | ⟨_ | _ | _ | _, _ | ⟨a, args⟩⟩ <;> simp_all [Carries]

theorem carries_ints {len : Nat} {args : List Arg} (h : Carries [.ints len] args) :
    (len = 1 ∨ len = 2 ∨ len = 4) ∧ ∃ vs, vs.length ≤ 1048576 ∧ args = [.ints vs] := by
  rcases args with _ | ⟨_ | _ | _ | _, _ | ⟨a, args⟩⟩ <;> simp_all [Carries]

theorem carries_str {len : Nat} {args : List Arg} (h : Carries [.str len] args) :
    ∃ s, (len = 0 → s.length ≤ 1024 * 1024) ∧ args = [.str s] := by
  rcases args with _ | ⟨_ | _ | _ | _, _ | ⟨a, args⟩⟩ <;> simp_all [Carries]

theorem carries_raw {args : List Arg} (h : Carries [.raw] args) :
    ∃ data, data.length ≤ 4 * 1024 * 1024 ∧ args = [.raw data] := by
  rcases args with _ | ⟨_ | _ | _ | _, _ | ⟨a, args⟩⟩ <;> simp_all [Carries]

/-- What one directive carries and writes, in front of the rest. -/
theorem carries_cons {d : Directive} {ds : List Directive} {args more : List Arg}
    (h : Carries [d] args) (h' : Carries ds more) :
    Carries (d :: ds) (args ++ more) ∧
      writeDirectives (d :: ds) (args ++ more) =
        writeDirectives [d] args ++ writeDirectives ds more := by
  cases d with
  | literal ch =>
    obtain rfl := carries_literal h
    exact ⟨h', rfl⟩
  | int len =>
    obtain ⟨hlen, v, rfl⟩ := carries_int h
    exact ⟨⟨hlen, h'⟩, by simp [writeDirectives]⟩
  | ints len =>
    obtain ⟨hlen, vs, hle, rfl⟩ := carries_ints h
    exact ⟨⟨hlen, hle, h'⟩, by simp [writeDirectives]⟩
  | str len =>
    obtain ⟨s, hle, rfl⟩ := carries_str h
    exact ⟨⟨hle, h'⟩, by simp [writeDirectives]⟩
  | raw =>
    obtain ⟨data, hle, rfl⟩ := carries_raw h
    exact ⟨⟨hle, h'⟩, by simp [writeDirectives]⟩
  | percent => cases args <;> exact h.elim
  | unknown => cases args <;> exact h.elim

theorem carries_split {d : Directive} {ds : List Directive} {args : List Arg}
    (h : Carries (d :: ds) args) :
    ∃ first more, args = first ++ more ∧ Carries [d] first ∧ Carries ds more := by
  cases d with
  | literal ch => exact ⟨[], args, rfl, trivial, h⟩
  | percent => cases args <;> exact h.elim
  | unknown => cases args <;> exact h.elim
  | int len =>
    rcases args with _ | ⟨v | _ | _ | _, more⟩ <;> first | exact h.elim | skip
    exact ⟨[.int v], more, rfl, ⟨h.1, trivial⟩, h.2⟩
  | ints len =>
    rcases args with _ | ⟨_ | vs | _ | _, more⟩ <;> first | exact h.elim | skip
    exact ⟨[.ints vs], more, rfl, ⟨h.1, h.2.1, trivial⟩, h.2.2⟩
  | str len =>
    rcases args with _ | ⟨_ | _ | s | _, more⟩ <;> first | exact h.elim | skip
    exact ⟨[.str s], more, rfl, ⟨h.1, trivial⟩, h.2⟩
  | raw =>
    rcases args with _ | ⟨_ | _ | _ | data, more⟩ <;> first | exact h.elim | skip
    exact ⟨[.raw data], more, rfl, ⟨h.1, trivial⟩, h.2⟩

theorem putFixed_length (s : Bytes) : putFixed s.length s = s := by
  apply List.ext_getElem (length_putFixed _ s)
  intro i hi hi'
  simp [putFixed, hi']

theorem readStr_eq_some {len : Nat} {bs rest : Bytes} {args : List Arg}
    (h : (readDirective (.str len)).run bs = (some args, rest)) :
    Carries [.str len] args ∧ bs = writeDirectives [.str len] args ++ rest := by
  rw [readDirective] at h
  split_ifs at h with hpos
  · obtain ⟨n, mid, hn, h⟩ := Reader.run_bind_eq_some h
    obtain ⟨s, mid', hs, h⟩ := Reader.run_bind_eq_some h
    simp only [Reader.run_pure, Prod.mk.injEq, Option.some.injEq] at h hn
    obtain ⟨rfl, rfl⟩ := h
    obtain ⟨rfl, rfl⟩ := hn
    obtain ⟨rfl, rfl⟩ := Reader.run_exact_eq_some hs
    refine ⟨⟨fun hz => absurd hz hpos.ne', trivial⟩, ?_⟩
    simp [writeDirectives, hpos, putFixed_length]
  · obtain ⟨n, mid, hn, h⟩ := Reader.run_bind_eq_some h
    obtain ⟨s, mid', hs, h⟩ := Reader.run_bind_eq_some h
    simp only [Reader.run_pure, Prod.mk.injEq, Option.some.injEq] at h
    obtain ⟨rfl, rfl⟩ := h
    obtain ⟨hle, rfl⟩ := readCount_eq_some hn
    obtain ⟨rfl, rfl⟩ := Reader.run_exact_eq_some hs
    refine ⟨⟨fun _ => hle, trivial⟩, ?_⟩
    simp [writeDirectives, hpos, putSized]

theorem readDirective_eq_some {p : Piece} (hp : p ≠ .percent) {bs rest : Bytes}
    {args : List Arg} (h : (readDirective p.directive).run bs = (some args, rest)) :
    Carries [p.directive] args ∧ bs = writeDirectives [p.directive] args ++ rest := by
  cases p with
  | literal ch hch =>
    obtain ⟨b, mid, hb, h⟩ := Reader.run_bind_eq_some h
    split_ifs at h with heq
    · simp only [Reader.run_pure, Prod.mk.injEq, Option.some.injEq] at h
      obtain ⟨rfl, rfl⟩ := h
      obtain ⟨rfl, -⟩ := Reader.run_exact_eq_some hb
      exact ⟨trivial, by rw [heq]; rfl⟩
    · simp at h
  | percent => exact absurd rfl hp
  | int w =>
    obtain ⟨v, mid, hv, h⟩ := Reader.run_bind_eq_some h
    simp only [Reader.run_pure, Prod.mk.injEq, Option.some.injEq] at h
    obtain ⟨rfl, rfl⟩ := h
    obtain ⟨hwidth, rfl, hlt⟩ := readInt_eq_some hv
    refine ⟨⟨hwidth, trivial⟩, ?_⟩
    simp [Piece.directive, writeDirectives, putInt_natCast hwidth hlt]
  | ints w =>
    obtain ⟨count, mid, hcount, h⟩ := Reader.run_bind_eq_some h
    obtain ⟨vs, mid', hvs, h⟩ := Reader.run_bind_eq_some h
    simp only [Reader.run_pure, Prod.mk.injEq, Option.some.injEq] at h
    obtain ⟨rfl, rfl⟩ := h
    obtain ⟨hle, rfl⟩ := readCount_eq_some hcount
    obtain ⟨rfl, rfl⟩ := readInts_eq_some hvs
    refine ⟨⟨w.bytes_eq, hle, trivial⟩, ?_⟩
    simp [Piece.directive, writeDirectives]
  | str => exact readStr_eq_some h
  | fixed n hn => exact readStr_eq_some h
  | raw =>
    obtain ⟨n, mid, hn, h⟩ := Reader.run_bind_eq_some h
    obtain ⟨data, mid', hdata, h⟩ := Reader.run_bind_eq_some h
    simp only [Reader.run_pure, Prod.mk.injEq, Option.some.injEq] at h
    obtain ⟨rfl, rfl⟩ := h
    obtain ⟨hle, rfl⟩ := readCount_eq_some hn
    obtain ⟨rfl, rfl⟩ := Reader.run_exact_eq_some hdata
    refine ⟨⟨hle, trivial⟩, ?_⟩
    simp [Piece.directive, writeDirectives, putSized]

/-- Without the escape, what was read is written back as the bytes it was read from. -/
theorem readDirectives_eq_some {ps : List Piece} (hp : ∀ p ∈ ps, p ≠ .percent)
    {bs rest : Bytes} {args : List Arg}
    (h : (readDirectives (ps.map Piece.directive)).run bs = (some args, rest)) :
    Carries (ps.map Piece.directive) args ∧
      bs = writeDirectives (ps.map Piece.directive) args ++ rest := by
  induction ps generalizing bs args with
  | nil =>
    simp only [List.map_nil, readDirectives, Reader.run_pure, Prod.mk.injEq,
      Option.some.injEq] at h
    obtain ⟨rfl, rfl⟩ := h
    exact ⟨trivial, rfl⟩
  | cons p ps ih =>
    obtain ⟨first, mid, hfirst, h⟩ := Reader.run_bind_eq_some h
    obtain ⟨more, mid', hmore, h⟩ := Reader.run_bind_eq_some h
    simp only [Reader.run_pure, Prod.mk.injEq, Option.some.injEq] at h
    obtain ⟨rfl, rfl⟩ := h
    obtain ⟨hc, rfl⟩ := readDirective_eq_some (hp p (by simp)) hfirst
    obtain ⟨hcs, rfl⟩ := ih (fun q hq => hp q (List.mem_cons_of_mem _ hq)) hmore
    obtain ⟨hall, hwrite⟩ := carries_cons hc hcs
    rw [List.map_cons, hwrite, List.append_assoc]
    exact ⟨hall, rfl⟩

end Deskflow
