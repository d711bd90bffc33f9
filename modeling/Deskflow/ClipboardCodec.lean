import Mathlib.Data.List.TakeWhile
import Deskflow.ClipboardFormat

/-! What the sender of a clipboard makes, the receiver takes apart: the container,
the pieces of it and the text of its size. -/

namespace Deskflow

@[simp] theorem length_marshalText (text : Bytes) :
    (marshalText text).length = text.length + 12 := by
  simp only [marshalText, List.length_append, BigEndian.length_encode]
  omega

theorem containerWord_append (pre post : Bytes) {n : Nat} (h : n < 2 ^ 32) :
    containerWord (pre ++ BigEndian.encode 4 n ++ post) pre.length = n := by
  have hfits : ¬pre.length + 4 > (pre ++ BigEndian.encode 4 n ++ post).length := by
    simp only [List.length_append, BigEndian.length_encode]
    omega
  have hword : ((pre ++ BigEndian.encode 4 n ++ post).drop pre.length).take 4 =
      BigEndian.encode 4 n := by
    rw [List.append_assoc, List.drop_left]
    exact List.take_left' (BigEndian.length_encode 4 n)
  rw [containerWord, if_neg hfits, hword]
  exact BigEndian.decode_encode_of_lt h

theorem flatten_pieces (payload : Bytes) {k : Nat} (n : Nat) :
    ((List.range n).map fun i => (payload.drop (i * k)).take k).flatten =
      payload.take (n * k) := by
  induction n with
  | zero => simp
  | succ n ih =>
    rw [List.range_succ, List.map_append, List.flatten_append, ih, List.map_singleton,
      List.flatten_singleton, Nat.succ_mul, List.take_add]

theorem flatten_clipboardChunks (payload : Bytes) :
    (clipboardChunks payload).flatten = payload := by
  have hpos : 0 < kChunk := by decide
  have hdiv := Nat.div_add_mod (payload.length + kChunk - 1) kChunk
  have hmod := Nat.mod_lt (payload.length + kChunk - 1) hpos
  rw [clipboardChunks, flatten_pieces, List.take_of_length_le]
  rw [Nat.mul_comm]
  omega

theorem length_clipboardChunk_le {payload chunk : Bytes} (h : chunk ∈ clipboardChunks payload) :
    chunk.length ≤ kChunk := by
  obtain ⟨i, -, rfl⟩ := List.mem_map.mp h
  exact List.length_take_le _ _

theorem decimal_natCast (n : Nat) :
    decimal n = (Nat.toDigits 10 n).map fun d => UInt8.ofNat d.toNat := by
  have hrepr : toString (n : Int) = n.repr := rfl
  rw [decimal, ascii, hrepr, Nat.toList_repr]

theorem toNat_of_isDigit {d : Char} (h : d.isDigit) :
    (UInt8.ofNat d.toNat).toNat = d.toNat ∧ 48 ≤ d.toNat ∧ d.toNat ≤ 57 := by
  have hrange : 48 ≤ d.toNat ∧ d.toNat ≤ 57 := Char.isDigit_iff_toNat.mp h
  refine ⟨?_, hrange⟩
  rw [UInt8.toNat_ofNat']
  omega

theorem isDigit_of_mem_decimal {n : Nat} {ch : UInt8} (h : ch ∈ decimal n) :
    48 ≤ ch.toNat ∧ ch.toNat ≤ 57 := by
  rw [decimal_natCast] at h
  obtain ⟨d, hd, rfl⟩ := List.mem_map.mp h
  obtain ⟨hch, hrange⟩ := toNat_of_isDigit (Nat.isDigit_of_mem_toDigits (by decide) (by decide) hd)
  rwa [hch]

theorem isSpace_of_isDigit {ch : UInt8} (h : 48 ≤ ch.toNat ∧ ch.toNat ≤ 57) :
    isSpace ch = false := by
  simp only [isSpace, Bool.or_eq_false_iff, Bool.and_eq_false_iff, decide_eq_false_iff_not,
    beq_eq_false_iff_ne, ne_eq, ← UInt8.toNat_inj, UInt8.le_iff_toNat_le]
  simp
  omega

theorem decimal_ne_nil (n : Nat) : decimal n ≠ [] := by
  rw [decimal_natCast, Ne, List.map_eq_nil_iff]
  exact Nat.toDigits_ne_nil

theorem foldl_digits {ds : List Char} (h : ∀ d ∈ ds, d.isDigit) (init : Nat) :
    (ds.map fun d => UInt8.ofNat d.toNat).foldl (fun n ch => n * 10 + (ch.toNat - 48)) init =
      Nat.ofDigitChars 10 ds init := by
  induction ds generalizing init with
  | nil => simp
  | cons d ds ih =>
    obtain ⟨hd, -⟩ := toNat_of_isDigit (h d (by simp))
    rw [List.map_cons, List.foldl_cons, ih fun d hd => h d (List.mem_cons_of_mem _ hd),
      Nat.ofDigitChars_cons, hd, Nat.mul_comm]
    rfl

theorem foldl_decimal (n : Nat) :
    (decimal n).foldl (fun n ch => n * 10 + (ch.toNat - 48)) 0 = n := by
  rw [decimal_natCast, foldl_digits fun d hd =>
    Nat.isDigit_of_mem_toDigits (by decide) (by decide) hd]
  exact Nat.ofDigitChars_ten_toDigits

theorem stoull_decimal {n : Nat} (h : n < 2 ^ 64) : stoull (decimal n) = some n := by
  have hdigit (ch : UInt8) (hch : ch ∈ decimal n) : 48 ≤ ch.toNat ∧ ch.toNat ≤ 57 :=
    isDigit_of_mem_decimal hch
  obtain ⟨ch, rest, hcons⟩ := List.exists_cons_of_ne_nil (decimal_ne_nil n)
  have hch := hdigit ch (by simp [hcons])
  have hspace : isSpace ch = false := isSpace_of_isDigit hch
  have hall : (decimal n).takeWhile isDigit = decimal n := by
    refine List.takeWhile_eq_self_iff.mpr fun ch hch => ?_
    have hrange := hdigit ch hch
    simp only [isDigit, Bool.and_eq_true, decide_eq_true_eq, UInt8.le_iff_toNat_le]
    exact hrange
  have hdrop : (decimal n).dropWhile isSpace = decimal n := by
    rw [hcons, List.dropWhile_cons, hspace]
    rfl
  have hsign : ch ≠ 43 ∧ ch ≠ 45 := by
    constructor <;> rintro rfl <;> exact absurd hch (by decide)
  rw [stoull, hdrop]
  dsimp only
  split
  · rename_i heq
    exact absurd (by simpa [hcons] using congrArg List.head? heq) hsign.1
  · rename_i heq
    exact absurd (by simpa [hcons] using congrArg List.head? heq) hsign.2
  · dsimp only
    rw [hall, foldl_decimal, if_neg (not_or.mpr ⟨decimal_ne_nil n, Nat.not_le.mpr h⟩)]
    rfl

theorem length_decimal_le {n : Nat} (h : n < 2 ^ 32) : (decimal n).length ≤ 10 := by
  have hlen : (Nat.toDigits 10 n).length ≤ 10 :=
    (Nat.length_toDigits_le_iff (by decide) (by decide)).mpr (by omega)
  rw [decimal_natCast, List.length_map]
  exact hlen

end Deskflow
