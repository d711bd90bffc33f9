import Mathlib.Algebra.Order.BigOperators.Group.List
import Mathlib.Computability.Language
import Deskflow.FormatInverse

/-! The strings a format documents, and those `readf` takes for them. -/

namespace Deskflow

/-- The strings the documentation gives to one directive. -/
def Piece.language : Piece → Language UInt8
  | .literal ch _ => {[ch]}
  | .percent => {[37]}
  | .int w => {u : Bytes | u.length = w.bytes}
  | .ints w => {u : Bytes | ∃ elements : List Bytes, elements.length ≤ 1048576 ∧
      (∀ e ∈ elements, e.length = w.bytes) ∧
      u = BigEndian.encode 4 elements.length ++ elements.flatten}
  | .str => {u : Bytes | ∃ s : Bytes, s.length ≤ 1024 * 1024 ∧
      u = BigEndian.encode 4 s.length ++ s}
  | .fixed n _ => {u : Bytes | u.length = n}
  | .raw => {u : Bytes | ∃ data : Bytes, data.length ≤ 4 * 1024 * 1024 ∧
      u = BigEndian.encode 4 data.length ++ data}

def documented (ps : List Piece) : Language UInt8 := (ps.map Piece.language).prod

/-- On every stream, `readf` succeeds exactly where a string of the language is
first, and then it has used up that string. -/
def Recognises (fmt : Bytes) (L : Language UInt8) : Prop :=
  ∀ s : SocketStream,
    (((readf fmt).run s).1.isSome ↔ ∃ u ∈ L, u <+: s.pending) ∧
    (((readf fmt).run s).1.isSome → ∃ u ∈ L, s.pending = u ++ ((readf fmt).run s).2.pending)

theorem mem_documented_cons {p : Piece} {ps : List Piece} {u : Bytes} :
    u ∈ documented (p :: ps) ↔ ∃ a ∈ p.language, ∃ b ∈ documented ps, a ++ b = u := by
  rw [documented, List.map_cons, List.prod_cons]
  exact Language.mem_mul

theorem elements_written {w : Width} {elements : List Bytes}
    (h : ∀ e ∈ elements, e.length = w.bytes) :
    (elements.map fun e => UInt32.ofNat (BigEndian.decode e)).flatMap
      (fun v => putInt w.bytes v.toNat) = elements.flatten := by
  induction elements with
  | nil => rfl
  | cons e elements ih =>
    have he := h e (by simp)
    have hlt := BigEndian.decode_lt e
    have hsize : BigEndian.decode e < UInt32.size := by
      rw [he] at hlt
      cases w <;> simp only [Width.bytes] at hlt <;> norm_num at hlt ⊢ <;> omega
    rw [List.map_cons, List.flatMap_cons, List.flatten_cons,
      ih fun e he => h e (List.mem_cons_of_mem _ he), UInt32.toNat_ofNat_of_lt' hsize,
      putInt_natCast w.bytes_eq (he ▸ hlt), ← he, BigEndian.encode_decode]

theorem length_elements {len : Nat} (vs : List UInt32) (h : len = 1 ∨ len = 2 ∨ len = 4) :
    ∀ e ∈ vs.map fun v => putInt len v.toNat, e.length = len := by
  intro e he
  obtain ⟨v, -, rfl⟩ := List.mem_map.mp he
  rw [putInt_of_width h, BigEndian.length_encode]

/-- For a directive the interpreters honour, the documented strings are those
that are written for arguments it carries. -/
theorem mem_language_iff {p : Piece} (h : p.Honoured) {u : Bytes} :
    u ∈ p.language ↔
      ∃ args, Carries [p.directive] args ∧ writeDirectives [p.directive] args = u := by
  constructor
  · intro hu
    cases p with
    | literal ch hch => exact ⟨[], trivial, hu.symm⟩
    | percent => exact h.elim
    | int w =>
      have hback := BigEndian.encode_decode u
      have hlt := BigEndian.decode_lt u
      rw [show u.length = w.bytes from hu] at hback hlt
      refine ⟨[.int (BigEndian.decode u)], ⟨w.bytes_eq, trivial⟩, ?_⟩
      rw [Piece.directive, writeDirectives, putInt_natCast w.bytes_eq hlt, hback]
      exact List.append_nil u
    | ints w =>
      obtain ⟨elements, hle, helements, rfl⟩ := hu
      refine ⟨[.ints (elements.map fun e => UInt32.ofNat (BigEndian.decode e))],
        ⟨w.bytes_eq, by rwa [List.length_map], trivial⟩, ?_⟩
      rw [Piece.directive, writeDirectives, elements_written helements, List.length_map]
      exact List.append_nil _
    | str =>
      obtain ⟨s, hle, rfl⟩ := hu
      exact ⟨[.str s], ⟨fun _ => hle, trivial⟩, List.append_nil _⟩
    | fixed n hn =>
      have hmod : n % 2 ^ 32 = n := Nat.mod_eq_of_lt h
      refine ⟨[.str u], ⟨fun hz => absurd (hmod.symm.trans hz) hn.ne', trivial⟩, ?_⟩
      rw [Piece.directive, hmod, writeDirectives, if_pos hn,
        ← show u.length = n from hu, putFixed_length]
      exact List.append_nil u
    | raw =>
      obtain ⟨data, hle, rfl⟩ := hu
      exact ⟨[.raw data], ⟨hle, trivial⟩, List.append_nil _⟩
  · rintro ⟨args, hc, rfl⟩
    cases p with
    | literal ch hch =>
      obtain rfl := carries_literal hc
      rfl
    | percent => exact h.elim
    | int w =>
      obtain ⟨-, v, rfl⟩ := carries_int hc
      show (putInt w.bytes v ++ []).length = w.bytes
      rw [List.append_nil, putInt_of_width w.bytes_eq, BigEndian.length_encode]
    | ints w =>
      obtain ⟨-, vs, hle, rfl⟩ := carries_ints hc
      refine ⟨vs.map fun v => putInt w.bytes v.toNat, by rwa [List.length_map],
        length_elements vs w.bytes_eq, ?_⟩
      rw [List.length_map, ← List.flatMap_def]
      exact List.append_nil _
    | str =>
      obtain ⟨s, hle, rfl⟩ := carries_str hc
      exact ⟨s, hle rfl, List.append_nil _⟩
    | fixed n hn =>
      obtain ⟨s, -, rfl⟩ := carries_str hc
      have hmod : n % 2 ^ 32 = n := Nat.mod_eq_of_lt h
      show (writeDirectives [.str (n % 2 ^ 32)] [.str s]).length = n
      rw [hmod, writeDirectives, if_pos hn]
      exact (congrArg List.length (List.append_nil _)).trans (length_putFixed n s)
    | raw =>
      obtain ⟨data, hle, rfl⟩ := carries_raw hc
      exact ⟨data, hle, List.append_nil _⟩

theorem mem_documented_iff {ps : List Piece} (hp : ∀ p ∈ ps, p.Honoured) {u : Bytes} :
    u ∈ documented ps ↔ ∃ args, Carries (ps.map Piece.directive) args ∧
      writeDirectives (ps.map Piece.directive) args = u := by
  induction ps generalizing u with
  | nil =>
    constructor
    · intro hu
      exact ⟨[], trivial, hu.symm⟩
    · rintro ⟨args, hc, rfl⟩
      cases args with
      | nil => rfl
      | cons a args => exact hc.elim
  | cons p ps ih =>
    have hps : ∀ q ∈ ps, q.Honoured := fun q hq => hp q (List.mem_cons_of_mem _ hq)
    rw [mem_documented_cons]
    constructor
    · rintro ⟨a, ha, b, hb, rfl⟩
      obtain ⟨args, hc, rfl⟩ := (mem_language_iff (hp p (by simp))).mp ha
      obtain ⟨more, hcs, rfl⟩ := (ih hps).mp hb
      obtain ⟨hall, hwrite⟩ := carries_cons hc hcs
      exact ⟨args ++ more, hall, hwrite⟩
    · rintro ⟨args, hc, rfl⟩
      obtain ⟨first, more, rfl, hfirst, hmore⟩ := carries_split hc
      refine ⟨_, (mem_language_iff (hp p (by simp))).mpr ⟨first, hfirst, rfl⟩, _,
        (ih hps).mpr ⟨more, hmore, rfl⟩, ?_⟩
      rw [List.map_cons, (carries_cons hfirst hmore).2]

namespace Piece

/-- The length of the shortest documented string. -/
def least : Piece → Nat
  | .literal _ _ => 1
  | .percent => 1
  | .int w => w.bytes
  | .ints _ => 4
  | .str => 4
  | .fixed n _ => n
  | .raw => 4

/-- The length of the shortest string `readf` takes. -/
def taken : Piece → Nat
  | .percent => 0
  | .fixed n _ => if 0 < n % 2 ^ 32 then n % 2 ^ 32 else 4
  | p => p.least

theorem taken_le (p : Piece) : p.taken ≤ p.least := by
  cases p with
  | fixed n h =>
    simp only [taken, least]
    split_ifs <;> omega
  | percent => exact Nat.zero_le _
  | _ => exact Nat.le_refl _

theorem honoured_of_taken {p : Piece} (h : p.taken = p.least) : p.Honoured := by
  cases p with
  | fixed n hn =>
    simp only [taken, least] at h
    show n < 2 ^ 32
    split_ifs at h <;> omega
  | percent => exact absurd h (by decide)
  | _ => trivial

theorem least_le {p : Piece} {u : Bytes} (h : u ∈ p.language) : p.least ≤ u.length := by
  cases p with
  | literal ch hch => exact (congrArg List.length (show u = [ch] from h)).ge
  | percent => exact (congrArg List.length (show u = [37] from h)).ge
  | int w => exact (show u.length = w.bytes from h).ge
  | ints w =>
    obtain ⟨elements, -, -, rfl⟩ := h
    simp [least]
  | str =>
    obtain ⟨s, -, rfl⟩ := h
    simp [least]
  | fixed n hn => exact (show u.length = n from h).ge
  | raw =>
    obtain ⟨data, -, rfl⟩ := h
    simp [least]

theorem exists_taken (p : Piece) : ∃ (u : Bytes) (args : List Arg), u.length = p.taken ∧
    ∀ rest : Bytes, (readDirective p.directive).run (u ++ rest) = (some args, rest) := by
  cases p with
  | literal ch hch => exact ⟨[ch], [], rfl, fun rest => readDirective_literal rest ch⟩
  | percent => exact ⟨[], [], rfl, fun rest => rfl⟩
  | int w =>
    refine ⟨putInt w.bytes 0, _, ?_, fun rest => readDirective_int rest w.bytes_eq 0⟩
    rw [putInt_of_width w.bytes_eq, BigEndian.length_encode]
    rfl
  | ints w =>
    have hcount : ([] : List UInt32).length ≤ 1048576 := Nat.zero_le _
    exact ⟨_, _, by simp [taken, least], fun rest => readDirective_ints rest w.bytes_eq hcount⟩
  | str =>
    have hsize : 0 = 0 → ([] : Bytes).length ≤ 1024 * 1024 := fun _ => Nat.zero_le _
    exact ⟨_, _, by simp [taken, least, putSized], fun rest => readDirective_str rest hsize⟩
  | fixed n hn =>
    have hsize : n % 2 ^ 32 = 0 → ([] : Bytes).length ≤ 1024 * 1024 := fun _ => Nat.zero_le _
    refine ⟨_, _, ?_, fun rest => readDirective_str rest hsize⟩
    simp only [taken]
    split_ifs
    · exact length_putFixed _ _
    · simp [putSized]
  | raw =>
    have hsize : ([] : Bytes).length ≤ 4 * 1024 * 1024 := Nat.zero_le _
    exact ⟨_, _, by simp [taken, least, putSized], fun rest => readDirective_raw rest hsize⟩

end Piece

theorem least_le_of_mem {ps : List Piece} {u : Bytes} (h : u ∈ documented ps) :
    (ps.map Piece.least).sum ≤ u.length := by
  induction ps generalizing u with
  | nil => exact Nat.zero_le _
  | cons p ps ih =>
    obtain ⟨a, ha, b, hb, rfl⟩ := mem_documented_cons.mp h
    rw [List.map_cons, List.sum_cons, List.length_append]
    exact Nat.add_le_add (Piece.least_le ha) (ih hb)

theorem exists_read_whole (ps : List Piece) :
    ∃ (u : Bytes) (args : List Arg), u.length = (ps.map Piece.taken).sum ∧
      (readDirectives (ps.map Piece.directive)).run u = (some args, []) := by
  induction ps with
  | nil => exact ⟨[], [], rfl, rfl⟩
  | cons p ps ih =>
    obtain ⟨u, args, hlen, hread⟩ := p.exists_taken
    obtain ⟨v, more, hlen', hread'⟩ := ih
    refine ⟨u ++ v, args ++ more, ?_, readDirectives_cons (hread v) hread'⟩
    rw [List.length_append, hlen, hlen', List.map_cons, List.sum_cons]

theorem honoured_of_sum {ps : List Piece}
    (h : (ps.map Piece.least).sum ≤ (ps.map Piece.taken).sum) : ∀ p ∈ ps, p.Honoured := by
  induction ps with
  | nil => simp
  | cons p ps ih =>
    simp only [List.map_cons, List.sum_cons] at h
    have hp := p.taken_le
    have hps : (ps.map Piece.taken).sum ≤ (ps.map Piece.least).sum :=
      List.sum_le_sum fun q _ => q.taken_le
    rintro q (_ | ⟨_, hq⟩)
    · exact Piece.honoured_of_taken (by omega)
    · exact ih (by omega) q hq

/-- `readf` recognises the documented language of a format exactly where the
format has no escape and its fixed widths are below `2 ^ 32`. -/
theorem recognises_iff (ps : List Piece) :
    Recognises (formatText ps) (documented ps) ↔
      (.percent ∉ ps ∧ ∀ n h, Piece.fixed n h ∈ ps → n < 2 ^ 32) := by
  constructor
  · intro hrec
    obtain ⟨u, args, hlen, hread⟩ := exists_read_whole ps
    have hrun : (readf (formatText ps)).run (SocketStream.holding u).pending = (some args, []) := by
      rw [SocketStream.pending_holding, readf, directives_formatText, hread]
    have hsome : ((readf (formatText ps)).run (SocketStream.holding u)).1.isSome := by
      rw [(SocketStream.readf_of_pending hrun).1]
      rfl
    obtain ⟨v, hv, hpending⟩ := (hrec (.holding u)).2 hsome
    rw [SocketStream.pending_holding] at hpending
    have hle := congrArg List.length hpending
    rw [List.length_append, hlen] at hle
    have hhonoured := honoured_of_sum ((least_le_of_mem hv).trans (by omega))
    exact ⟨fun hmem => hhonoured _ hmem, fun n h hmem => hhonoured _ hmem⟩
  · rintro ⟨hescape, hwide⟩ s
    have hhonoured : ∀ p ∈ ps, p.Honoured := honoured_of_mem hescape hwide
    have hsound : ((readf (formatText ps)).run s).1.isSome →
        ∃ u ∈ documented ps, s.pending = u ++ ((readf (formatText ps)).run s).2.pending := by
      intro hsome
      obtain ⟨args, hargs⟩ := Option.isSome_iff_exists.mp hsome
      have hread := SocketStream.pending_of_readf hargs
      rw [readf, directives_formatText] at hread
      obtain ⟨hc, hpending⟩ :=
        readDirectives_eq_some (fun p hp => (hhonoured p hp).ne_percent) hread
      exact ⟨_, (mem_documented_iff hhonoured).mpr ⟨args, hc, rfl⟩, hpending⟩
    refine ⟨⟨?_, ?_⟩, hsound⟩
    · intro hsome
      obtain ⟨u, hu, hpending⟩ := hsound hsome
      exact ⟨u, hu, _, hpending.symm⟩
    · rintro ⟨u, hu, rest, hrest⟩
      obtain ⟨args, hc, rfl⟩ := (mem_documented_iff hhonoured).mp hu
      rw [← directives_formatText] at hc hrest
      have hread := readf_writef hc rest
      rw [writef, hrest] at hread
      rw [(SocketStream.readf_of_pending hread).1]
      rfl

/-- The escape is taken for nothing. -/
theorem not_recognises_percent : ¬Recognises (formatText [.percent]) (documented [.percent]) := by
  intro hrec
  obtain ⟨u, hu, hprefix⟩ := ((hrec (.holding [])).1.mp rfl)
  have hle := least_le_of_mem hu
  rw [SocketStream.pending_holding, List.prefix_nil] at hprefix
  subst hprefix
  exact absurd hle (by decide)

end Deskflow
