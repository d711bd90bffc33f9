import Deskflow.FormatDirectives

/-! `writef` undoing `readf`, and what arrives of arguments in range. -/

namespace Deskflow

/-- The signed and the unsigned integers of the width. -/
def Width.InRange (w : Width) (v : Int) : Prop := -(256 ^ w.bytes / 2) ≤ v ∧ v < 256 ^ w.bytes

/-- A variable of the width with these bits has the value `v`, read unsigned
where `v` is not negative and signed where it fits. -/
def Width.Holds (w : Width) (bits v : Int) : Prop :=
  (0 ≤ v → bits = v) ∧ (v < 256 ^ w.bytes / 2 → bits.bmod (256 ^ w.bytes) = v)

theorem Width.holds_emod {w : Width} {v : Int} (h : w.InRange v) :
    w.Holds (v % 256 ^ w.bytes) v := by
  obtain ⟨hlow, hhigh⟩ := h
  refine ⟨fun hv => Int.emod_eq_of_lt hv hhigh, ?_⟩
  intro hv
  rw [← Nat.cast_ofNat (R := Int), ← Nat.cast_pow, Int.emod_bmod]
  cases w <;> simp only [bytes] at hlow hhigh hv ⊢ <;>
    exact Int.bmod_eq_of_le (by norm_num at hlow ⊢; omega) (by norm_num at hv ⊢; omega)

/-- The widths an interpreter keeps, and no escape. -/
def Piece.Honoured : Piece → Prop
  | .percent => False
  | .fixed n _ => n < 2 ^ 32
  | _ => True

theorem Piece.Honoured.ne_percent {p : Piece} (h : p.Honoured) : p ≠ .percent := by
  rintro rfl
  exact h

theorem honoured_of_mem {ps : List Piece} (hp : .percent ∉ ps)
    (hwide : ∀ n h, Piece.fixed n h ∈ ps → n < 2 ^ 32) : ∀ p ∈ ps, p.Honoured := by
  intro p hmem
  cases p with
  | percent => exact hp hmem
  | fixed n h => exact hwide n h hmem
  | _ => trivial

/-- Arguments that match the format: integers and elements of the stated width,
lengths within the limits, strings of exactly the fixed width. -/
def InRange : List Piece → List Arg → Prop
  | [], [] => True
  | .literal _ _ :: ps, args => InRange ps args
  | .percent :: ps, args => InRange ps args
  | .int w :: ps, .int v :: args => w.InRange v ∧ InRange ps args
  | .ints w :: ps, .ints vs :: args =>
    (vs.length ≤ 1048576 ∧ ∀ v ∈ vs, v.toNat < 256 ^ w.bytes) ∧ InRange ps args
  | .str :: ps, .str s :: args => s.length ≤ 1024 * 1024 ∧ InRange ps args
  | .fixed n _ :: ps, .str s :: args => s.length = n ∧ InRange ps args
  | .raw :: ps, .raw data :: args => data.length ≤ 4 * 1024 * 1024 ∧ InRange ps args
  | _, _ => False

/-- The values read are the arguments, the integers as bits of their width. -/
def Received : List Piece → List Arg → List Arg → Prop
  | [], [], [] => True
  | .literal _ _ :: ps, args, got => Received ps args got
  | .percent :: ps, args, got => Received ps args got
  | .int w :: ps, .int v :: args, .int bits :: got => w.Holds bits v ∧ Received ps args got
  | _ :: ps, a :: args, b :: got => b = a ∧ Received ps args got
  | _, _, _ => False

theorem stored_received {ps : List Piece} (hp : ∀ p ∈ ps, p.Honoured) {args : List Arg}
    (h : InRange ps args) :
    Carries (ps.map Piece.directive) args ∧
      Received ps args (stored (ps.map Piece.directive) args) := by
  induction ps, args using InRange.induct with
  | case1 => exact ⟨trivial, trivial⟩
  | case2 ch hch ps args ih => exact ih (fun p hq => hp p (List.mem_cons_of_mem _ hq)) h
  | case3 ps args ih => exact (hp .percent (by simp)).elim
  | case4 w ps v args ih =>
    obtain ⟨hc, hr⟩ := ih (fun p hq => hp p (List.mem_cons_of_mem _ hq)) h.2
    exact ⟨⟨w.bytes_eq, hc⟩, Width.holds_emod h.1, hr⟩
  | case5 w ps vs args ih =>
    obtain ⟨hc, hr⟩ := ih (fun p hq => hp p (List.mem_cons_of_mem _ hq)) h.2
    have hsame : vs.map (fun v => UInt32.ofNat (v.toNat % 256 ^ w.bytes)) = vs := by
      conv_rhs => rw [← List.map_id vs]
      apply List.map_congr_left
      intro v hv
      rw [Nat.mod_eq_of_lt (h.1.2 v hv), UInt32.ofNat_toNat, id]
    exact ⟨⟨w.bytes_eq, h.1.1, hc⟩, congrArg Arg.ints hsame, hr⟩
  | case6 ps s args ih =>
    obtain ⟨hc, hr⟩ := ih (fun p hq => hp p (List.mem_cons_of_mem _ hq)) h.2
    exact ⟨⟨fun _ => h.1, hc⟩, rfl, hr⟩
  | case7 n hn ps s args ih =>
    obtain ⟨hc, hr⟩ := ih (fun p hq => hp p (List.mem_cons_of_mem _ hq)) h.2
    have hmod : n % 2 ^ 32 = n := Nat.mod_eq_of_lt (hp (.fixed n hn) (by simp))
    rw [List.map_cons, Piece.directive, hmod]
    refine ⟨⟨fun hz => absurd hz hn.ne', hc⟩, ?_, hr⟩
    rw [if_pos hn, ← h.1, putFixed_length]
  | case8 ps data args ih =>
    obtain ⟨hc, hr⟩ := ih (fun p hq => hp p (List.mem_cons_of_mem _ hq)) h.2
    exact ⟨⟨h.1, hc⟩, rfl, hr⟩
  | case9 => simp_all [InRange]

namespace SocketStream

theorem readf_of_pending {s : SocketStream} {fmt rest : Bytes} {args : List Arg}
    (h : (readf fmt).run s.pending = (some args, rest)) :
    ((readf fmt).run s).1 = some args ∧ ((readf fmt).run s).2.pending = rest := by
  obtain ⟨hv, -, hview⟩ := run_of_simulates s (readf_simulates (readExact_simulates s) fmt)
  obtain ⟨used, hused, -⟩ := readf_local fmt _ _ _ h
  rw [h] at hv hview
  refine ⟨hv, ?_⟩
  rw [← pending_view, hview, View.pending_drop, pending_view]
  simp [hused]

theorem pending_of_readf {s : SocketStream} {fmt : Bytes} {args : List Arg}
    (h : ((readf fmt).run s).1 = some args) :
    (readf fmt).run s.pending = (some args, ((readf fmt).run s).2.pending) := by
  obtain ⟨hv, -, -⟩ := run_of_simulates s (readf_simulates (readExact_simulates s) fmt)
  have hfst : ((readf fmt).run s.pending).1 = some args := hv.symm.trans h
  have hpair : (readf fmt).run s.pending = (some args, ((readf fmt).run s.pending).2) :=
    Prod.ext hfst rfl
  rw [(readf_of_pending hpair).2]
  exact hpair

def holding (bs : Bytes) : SocketStream := pushToBuffer bs {}

@[simp] theorem pending_holding (bs : Bytes) : (holding bs).pending = bs := by
  simp [holding, pending, pushToBuffer, ReadBuffer.push, ReadBuffer.unread, ReadBuffer.empty]

end SocketStream

/-- Both directions on any format without the escape: arguments in range come
back, widths below `2 ^ 32` provided, and values read give the bytes they were read from. -/
theorem readf_writef_inverse {ps : List Piece} (hp : ∀ p ∈ ps, p ≠ .percent) :
    (∀ (args : List Arg) (s : SocketStream) (rest : Bytes),
      (∀ n h, Piece.fixed n h ∈ ps → n < 2 ^ 32) → InRange ps args →
      s.pending = writef (formatText ps) args ++ rest →
      ∃ got, ((readf (formatText ps)).run s).1 = some got ∧ Received ps args got ∧
        ((readf (formatText ps)).run s).2.pending = rest) ∧
    (∀ (s : SocketStream) (args : List Arg), ((readf (formatText ps)).run s).1 = some args →
      s.pending = writef (formatText ps) args ++ ((readf (formatText ps)).run s).2.pending) := by
  constructor
  · intro args s rest hwide hrange hs
    have hhonoured := honoured_of_mem (fun hmem => hp _ hmem rfl) hwide
    obtain ⟨hc, hr⟩ := stored_received hhonoured hrange
    rw [← directives_formatText] at hc hr
    have hread := readf_writef hc rest
    rw [← hs] at hread
    obtain ⟨hgot, hrest⟩ := SocketStream.readf_of_pending hread
    exact ⟨_, hgot, hr, hrest⟩
  · intro s args h
    have hread := SocketStream.pending_of_readf h
    rw [readf, directives_formatText] at hread
    rw [writef, directives_formatText]
    exact (readDirectives_eq_some hp hread).2

def helloBackPieces : List Piece := [.fixed 7 (by decide), .int .two, .int .two, .str]

example : formatText helloBackPieces = kMsgHelloBack := by decide +kernel

theorem readf_writef_inverse_helloBack :
    ∃ got, ((readf (formatText helloBackPieces)).run
        (SocketStream.holding (writef (formatText helloBackPieces)
          [.str (ascii "Barrier"), .int 1, .int (-1), .str (ascii "pad")] ++ [9]))).1 = some got ∧
      Received helloBackPieces
        [.str (ascii "Barrier"), .int 1, .int (-1), .str (ascii "pad")] got ∧
      ((readf (formatText helloBackPieces)).run
        (SocketStream.holding (writef (formatText helloBackPieces)
          [.str (ascii "Barrier"), .int 1, .int (-1), .str (ascii "pad")] ++ [9]))).2.pending =
        [9] := by
  have hplain : ∀ p ∈ helloBackPieces, p ≠ .percent := by simp [helloBackPieces]
  refine (readf_writef_inverse hplain).1 _ _ _ (fun n h hmem => ?_) ?_
    (SocketStream.pending_holding _)
  · simp only [helloBackPieces, List.mem_cons, Piece.fixed.injEq, reduceCtorEq, List.not_mem_nil,
      or_false] at hmem
    omega
  · simp only [helloBackPieces, InRange, Width.InRange, Width.bytes]
    decide

/-- The format reads one byte, which is not the string that was to be written. -/
theorem fixed_not_received {n : Nat} (h : 0 < n) (hmod : n % 2 ^ 32 = 1) (hn : n ≠ 1)
    {text : Bytes} (htext : text.length = n) {got : List Arg}
    (hgot : ((readf (formatText [.fixed n h])).run
      (SocketStream.holding (writef (formatText [.fixed n h]) [.str text]))).1 = some got) :
    ¬Received [.fixed n h] [.str text] got := by
  intro hreceived
  have hds : directives (formatText [.fixed n h]) = [.str 1] := by
    rw [directives_formatText, List.map_singleton, Piece.directive, hmod]
  have hc : Carries (directives (formatText [.fixed n h])) [.str text] := by
    rw [hds]
    exact ⟨fun hz => absurd hz one_ne_zero, trivial⟩
  have hread := readf_writef hc []
  rw [List.append_nil,
    ← SocketStream.pending_holding (writef (formatText [.fixed n h]) [.str text])] at hread
  have hshort := (SocketStream.readf_of_pending hread).1
  rw [hgot, hds, Option.some.injEq] at hshort
  subst hshort
  have hone : putFixed 1 text = text := Arg.str.inj hreceived.1
  have hlen := length_putFixed 1 text
  rw [hone, htext] at hlen
  exact hn hlen

/-- A width of `2 ^ 32 + 1` is taken for one. -/
theorem readf_writef_not_inverse :
    ¬∀ ps : List Piece, (∀ p ∈ ps, p ≠ .percent) →
      ∀ (args : List Arg) (s : SocketStream) (rest : Bytes), InRange ps args →
        s.pending = writef (formatText ps) args ++ rest →
        ∃ got, ((readf (formatText ps)).run s).1 = some got ∧ Received ps args got ∧
          ((readf (formatText ps)).run s).2.pending = rest := by
  intro hinverse
  obtain ⟨n, h, hmod, hn⟩ : ∃ n : Nat, 0 < n ∧ n % 2 ^ 32 = 1 ∧ n ≠ 1 :=
    ⟨4294967297, by norm_num⟩
  have hrange : InRange [.fixed n h] [.str (List.replicate n 0)] := ⟨List.length_replicate, trivial⟩
  obtain ⟨got, hgot, hreceived, -⟩ := hinverse [.fixed n h] (by simp) _ _ [] hrange
    (by rw [List.append_nil, SocketStream.pending_holding])
  exact fixed_not_received h hmod hn List.length_replicate hgot hreceived

end Deskflow
