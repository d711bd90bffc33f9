import Deskflow.ClipboardCodec

/-! The clipboard container as a list of entries, and what `unmarshalText` makes of
it and of any other bytes. -/

namespace Deskflow

/-- The size of the data has to fit its field. -/
@[ext] structure Entry where
  format : UInt32
  data : Bytes
  fits : data.length < 2 ^ 32

structure Container where
  entries : List Entry
  fits : entries.length < 2 ^ 32

def Entry.encode (e : Entry) : Bytes :=
  BigEndian.encode 4 e.format.toNat ++ BigEndian.encode 4 e.data.length ++ e.data

def Container.encode (c : Container) : Bytes :=
  BigEndian.encode 4 c.entries.length ++ c.entries.flatMap Entry.encode

def firstText (es : List Entry) : Bytes :=
  ((es.find? fun e => e.format == 0).map Entry.data).getD []

@[simp] theorem Entry.length_encode (e : Entry) : e.encode.length = e.data.length + 8 := by
  simp only [encode, List.length_append, BigEndian.length_encode]
  omega

theorem firstText_cons (e : Entry) (es : List Entry) :
    firstText (e :: es) = if e.format = 0 then e.data else firstText es := by
  rw [firstText, List.find?_cons]
  split_ifs with hzero
  · rw [beq_iff_eq.mpr hzero]
    rfl
  · rw [beq_eq_false_iff_ne.mpr hzero]
    rfl

theorem containerWord_size (pre : Bytes) (e : Entry) (post : Bytes) :
    containerWord (pre ++ e.encode ++ post) (pre.length + 4) = e.data.length := by
  have hword := containerWord_append (pre ++ BigEndian.encode 4 e.format.toNat) (e.data ++ post)
    e.fits
  simpa only [Entry.encode, List.append_assoc, List.length_append, BigEndian.length_encode]
    using hword

theorem containerWord_format (pre : Bytes) (e : Entry) (post : Bytes) :
    containerWord (pre ++ e.encode ++ post) pre.length = e.format.toNat := by
  have hword := containerWord_append pre (BigEndian.encode 4 e.data.length ++ e.data ++ post)
    e.format.toNat_lt
  simpa only [Entry.encode, List.append_assoc] using hword

theorem walkFrom_entry (pre : Bytes) (e : Entry) (post : Bytes) (n : Nat) :
    (walkFrom (pre ++ e.encode ++ post) (n + 1) pre.length).text =
      if e.format = 0 then e.data
      else (walkFrom (pre ++ e.encode ++ post) n (pre ++ e.encode).length).text := by
  have hzero : e.format.toNat = 0 ↔ e.format = 0 := by rw [← UInt32.toNat_inj]; rfl
  have hdata : ((pre ++ e.encode ++ post).drop (pre.length + 8)).take e.data.length = e.data := by
    have hsplit : pre ++ e.encode ++ post = (pre ++ BigEndian.encode 4 e.format.toNat ++
        BigEndian.encode 4 e.data.length) ++ (e.data ++ post) := by
      simp only [Entry.encode, List.append_assoc]
    rw [hsplit, List.drop_left' (by simp only [List.length_append, BigEndian.length_encode]),
      List.take_left]
  have hnext : pre.length + 8 + e.data.length = (pre ++ e.encode).length := by
    rw [List.length_append, Entry.length_encode]
    omega
  have hlen : (pre ++ e.encode ++ post).length = (pre ++ e.encode).length + post.length :=
    List.length_append
  rw [walkFrom, if_pos (by omega)]
  dsimp only
  rw [containerWord_size, containerWord_format, if_neg (by omega), hdata, hnext]
  simp only [hzero]
  split_ifs <;> rfl

/-- Where header and data are not cut off, the bytes begin with an entry. -/
theorem exists_entry {container : Bytes} {off : Nat} (hheader : off + 8 ≤ container.length)
    (hfits : off + 8 + containerWord container (off + 4) ≤ container.length) :
    ∃ e : Entry, e.format.toNat = containerWord container off ∧
      e.data = (container.drop (off + 8)).take (containerWord container (off + 4)) ∧
      container.drop off =
        e.encode ++ container.drop (off + 8 + containerWord container (off + 4)) := by
  have hword (o : Nat) (ho : o + 4 ≤ container.length) : ∃ bs : Bytes, bs.length = 4 ∧
      container.drop o = bs ++ container.drop (o + 4) ∧
        containerWord container o = BigEndian.decode bs := by
    refine ⟨(container.drop o).take 4, ?_, ?_, if_neg (by omega)⟩
    · rw [List.length_take, List.length_drop]
      omega
    · rw [← List.drop_drop, List.take_append_drop]
  obtain ⟨fs, hfs, hformat, hword₁⟩ := hword off (by omega)
  obtain ⟨ss, hss, hsize, hword₂⟩ := hword (off + 4) (by omega)
  have hf := BigEndian.decode_lt fs
  have hs := BigEndian.decode_lt ss
  rw [hfs] at hf
  rw [hss] at hs
  let data := (container.drop (off + 8)).take (containerWord container (off + 4))
  have hlen : data.length = containerWord container (off + 4) := by
    rw [List.length_take, List.length_drop]
    omega
  have hencode₁ := BigEndian.encode_decode fs
  have hencode₂ := BigEndian.encode_decode ss
  rw [hfs] at hencode₁
  rw [hss] at hencode₂
  have hword : (UInt32.ofNat (BigEndian.decode fs)).toNat = BigEndian.decode fs :=
    UInt32.toNat_ofNat_of_lt' hf
  refine ⟨⟨UInt32.ofNat (BigEndian.decode fs), data, by omega⟩, hword.trans hword₁.symm, rfl, ?_⟩
  rw [Entry.encode]
  dsimp only
  have hbody : container.drop (off + 8) =
      data ++ container.drop (off + 8 + containerWord container (off + 4)) := by
    have hskip : container.drop (off + 8 + containerWord container (off + 4)) =
        (container.drop (off + 8)).drop (containerWord container (off + 4)) :=
      List.drop_drop.symm
    rw [hskip]
    exact (List.take_append_drop _ _).symm
  have hsize' : container.drop (off + 4) = ss ++ container.drop (off + 8) := hsize
  rw [hword, hencode₁, hlen, hword₂, hencode₂, hformat, hsize', hbody, ← hword₂,
    List.append_assoc, List.append_assoc]

theorem Entry.encode_append_inj {e e' : Entry} {rest rest' : Bytes}
    (h : e.encode ++ rest = e'.encode ++ rest') : e = e' ∧ rest = rest' := by
  have hformat := containerWord_format [] e rest
  have hsize := containerWord_size [] e rest
  rw [List.nil_append, h] at hformat hsize
  have hformat' := containerWord_format [] e' rest'
  have hsize' := containerWord_size [] e' rest'
  rw [List.nil_append] at hformat' hsize'
  have hlen : e.encode.length = e'.encode.length := by
    rw [length_encode, length_encode, hsize.symm.trans hsize']
  obtain ⟨hencode, hrest⟩ := List.append_inj h hlen
  refine ⟨Entry.ext (UInt32.toNat_inj.mp (hformat.symm.trans hformat')) ?_, hrest⟩
  exact List.append_inj_right' hencode (hsize.symm.trans hsize')

/-- The complete entries that the bytes begin with, up to the given number. -/
inductive Parses : Nat → Bytes → List Entry → Prop
  | done (bs : Bytes) : Parses 0 bs []
  | cut {n : Nat} {bs : Bytes} : (∀ e rest, bs ≠ Entry.encode e ++ rest) → Parses (n + 1) bs []
  | entry {n : Nat} {rest : Bytes} {es : List Entry} (e : Entry) :
      Parses n rest es → Parses (n + 1) (e.encode ++ rest) (e :: es)

namespace Parses

theorem exists_parses (n : Nat) (bs : Bytes) : ∃ es, Parses n bs es := by
  induction n generalizing bs with
  | zero => exact ⟨[], .done bs⟩
  | succ n ih =>
    by_cases hbs : ∃ e rest, bs = Entry.encode e ++ rest
    · obtain ⟨e, rest, rfl⟩ := hbs
      obtain ⟨es, hes⟩ := ih rest
      exact ⟨e :: es, .entry e hes⟩
    · exact ⟨[], .cut fun e rest he => hbs ⟨e, rest, he⟩⟩

theorem unique {n : Nat} {bs : Bytes} {es es' : List Entry} (h : Parses n bs es)
    (h' : Parses n bs es') : es = es' := by
  induction h generalizing es' with
  | done bs =>
    cases h'
    rfl
  | cut hnone =>
    generalize hm : _ + 1 = m at h'
    cases h' with
    | done => rfl
    | cut _ => rfl
    | entry e _ => exact absurd rfl (hnone e _)
  | @entry n rest es e _ ih =>
    generalize hbs : e.encode ++ rest = bs at h'
    cases h' with
    | cut hnone => exact absurd hbs.symm (hnone e rest)
    | entry e' hrest =>
      obtain ⟨rfl, rfl⟩ := Entry.encode_append_inj hbs
      rw [ih hrest]

theorem of_entries (es : List Entry) (rest : Bytes) :
    Parses es.length (es.flatMap Entry.encode ++ rest) es := by
  induction es with
  | nil => exact .done _
  | cons e es ih =>
    rw [List.flatMap_cons, List.append_assoc]
    exact .entry e ih

theorem split {n : Nat} {bs : Bytes} {es : List Entry} (h : Parses n bs es) :
    es.length ≤ n ∧ ∃ rest, bs = es.flatMap Entry.encode ++ rest := by
  induction h with
  | done bs => exact ⟨Nat.le_refl 0, bs, rfl⟩
  | cut _ => exact ⟨Nat.zero_le _, _, rfl⟩
  | entry e _ ih =>
    obtain ⟨hlen, rest, rfl⟩ := ih
    exact ⟨Nat.succ_le_succ hlen, rest, by rw [List.flatMap_cons, List.append_assoc]⟩

end Parses

theorem walkFrom_of_parses {container : Bytes} {n off : Nat} {es : List Entry}
    (h : Parses n (container.drop off) es) : (walkFrom container n off).text = firstText es := by
  generalize hbs : container.drop off = bs at h
  induction h generalizing off with
  | done => rfl
  | cut hnone =>
    rw [walkFrom]
    dsimp only
    split_ifs with hheader hlong
    · rfl
    all_goals first
      | rfl
      | obtain ⟨e, -, -, hdrop⟩ := exists_entry hheader (Nat.not_lt.mp hlong)
        exact absurd (hbs.symm.trans hdrop) (hnone e _)
  | @entry n rest es e _ ih =>
    obtain ⟨pre, rfl, rfl⟩ : ∃ pre, pre.length = off ∧ container = pre ++ e.encode ++ rest := by
      refine ⟨container.take off, ?_, ?_⟩
      · have hlen := congrArg List.length hbs
        rw [List.length_drop, List.length_append, Entry.length_encode] at hlen
        rw [List.length_take]
        omega
      · rw [List.append_assoc, ← hbs, List.take_append_drop]
    rw [walkFrom_entry, firstText_cons, ih List.drop_left]

theorem unmarshalText_of_parses {count body : Bytes} {es : List Entry} (hcount : count.length = 4)
    (h : Parses (BigEndian.decode count) body es) :
    unmarshalText (count ++ body) = firstText es := by
  have hword : containerWord (count ++ body) 0 = BigEndian.decode count := by
    have hfits : ¬0 + 4 > (count ++ body).length := by
      rw [List.length_append]
      omega
    rw [containerWord, if_neg hfits, List.drop_zero, List.take_left' hcount]
  rw [unmarshalText, walk, if_neg (by rw [List.length_append]; omega), hword]
  refine walkFrom_of_parses ?_
  rwa [List.drop_left' hcount]

theorem unmarshalText_encode (c : Container) : unmarshalText c.encode = firstText c.entries := by
  refine unmarshalText_of_parses (BigEndian.length_encode 4 _) ?_
  rw [BigEndian.decode_encode_of_lt c.fits]
  have hparses := Parses.of_entries c.entries []
  rwa [List.append_nil] at hparses

theorem unmarshalText_marshalText {text : Bytes} (h : text.length < 2 ^ 32) :
    unmarshalText (marshalText text) = text := by
  have hcount : [Entry.mk 0 text h].length < 2 ^ 32 := (by decide : 1 < 2 ^ 32)
  have hone : marshalText text = Container.encode ⟨[⟨0, text, h⟩], hcount⟩ := by
    simp [marshalText, Container.encode, Entry.encode]
  rw [hone, unmarshalText_encode]
  rfl

/-- The reference parser has one result on the bytes behind the count, and
`unmarshalText` returns the first text in it. -/
theorem unmarshalText_reference (container : Bytes) :
    (container.length < 4 ∧ unmarshalText container = []) ∨
      ∃ count body es, container = count ++ body ∧ count.length = 4 ∧
        Parses (BigEndian.decode count) body es ∧
        (∀ es', Parses (BigEndian.decode count) body es' → es' = es) ∧
        unmarshalText container = firstText es := by
  by_cases hshort : container.length < 4
  · exact .inl ⟨hshort, congrArg Walk.text (if_pos hshort)⟩
  · have hcount : (container.take 4).length = 4 := by
      rw [List.length_take]
      omega
    obtain ⟨es, hes⟩ := Parses.exists_parses (BigEndian.decode (container.take 4))
      (container.drop 4)
    have htext := unmarshalText_of_parses hcount hes
    rw [List.take_append_drop] at htext
    exact .inr ⟨_, _, es, (List.take_append_drop 4 _).symm, hcount, hes,
      fun es' hes' => hes'.unique hes, htext⟩

/-- What `unmarshalText` returns is data of an entry with format 0 that lies whole in
the container, behind complete entries with other formats and counted with them. -/
theorem unmarshalText_walked (container : Bytes) :
    unmarshalText container = [] ∨ ∃ count es e rest,
      container = count ++ List.flatMap Entry.encode es ++ Entry.encode e ++ rest ∧
        count.length = 4 ∧ es.length < BigEndian.decode count ∧
        (∀ e' ∈ es, e'.format ≠ 0) ∧ e.format = 0 ∧ unmarshalText container = e.data := by
  rcases unmarshalText_reference container with
    ⟨-, hempty⟩ | ⟨count, body, es, hsplit, hcount, hes, -, htext⟩
  · exact .inl hempty
  · obtain ⟨hlen, rest, hrest⟩ := hes.split
    cases hfind : es.find? fun e => e.format == 0 with
    | none =>
      rw [firstText, hfind] at htext
      exact .inl htext
    | some e =>
      obtain ⟨hzero, before, after, rfl, hbefore⟩ := List.find?_eq_some_iff_append.mp hfind
      rw [firstText, hfind] at htext
      refine .inr ⟨count, before, e, after.flatMap Entry.encode ++ rest, ?_, hcount, ?_,
        fun e' he' hz => ?_, beq_iff_eq.mp hzero, htext⟩
      · rw [hsplit, hrest, List.flatMap_append, List.flatMap_cons]
        simp only [List.append_assoc]
      · rw [List.length_append, List.length_cons] at hlen
        omega
      · simpa [hz] using hbefore e' he'

theorem walkFrom_reads (container : Bytes) (n off : Nat) :
    ∀ r ∈ (walkFrom container n off).reads, r.1 + r.2 ≤ container.length := by
  induction n generalizing off with
  | zero => exact fun r hr => absurd hr List.not_mem_nil
  | succ n ih =>
    rw [walkFrom]
    dsimp only
    split_ifs with hheader hlong hzero
    · simp only [List.mem_cons, List.not_mem_nil, or_false]
      rintro r (rfl | rfl) <;> dsimp only <;> omega
    · simp only [List.cons_append, List.nil_append, List.mem_cons, List.not_mem_nil, or_false]
      rintro r (rfl | rfl | rfl) <;> dsimp only <;> omega
    · simp only [List.cons_append, List.nil_append, List.mem_cons]
      rintro r (rfl | rfl | hr)
      · dsimp only
        omega
      · dsimp only
        omega
      · exact ih _ r hr
    · exact fun r hr => absurd hr List.not_mem_nil

theorem walk_reads (container : Bytes) :
    ∀ r ∈ (walk container).reads, r.1 + r.2 ≤ container.length := by
  unfold walk
  split_ifs with hshort
  · exact fun r hr => absurd hr List.not_mem_nil
  · intro r hr
    rcases List.mem_cons.mp hr with rfl | hr
    · exact Nat.le_of_not_lt hshort
    · exact walkFrom_reads container _ 4 r hr

theorem walkFrom_rounds (container : Bytes) (n off : Nat) :
    (walkFrom container n off).rounds ≤ (container.length - off) / 8 := by
  induction n generalizing off with
  | zero => exact Nat.zero_le _
  | succ n ih =>
    rw [walkFrom]
    dsimp only
    split_ifs with hheader hlong hzero
    · dsimp only
      omega
    · dsimp only
      omega
    · have hrest := ih (off + 8 + containerWord container (off + 4))
      dsimp only
      omega
    · exact Nat.zero_le _

theorem walk_rounds (container : Bytes) :
    (walk container).rounds ≤ container.length / 8 + 1 := by
  unfold walk
  split_ifs
  · exact Nat.zero_le _
  · have hrounds := walkFrom_rounds container (containerWord container 0) 4
    dsimp only
    omega

/-- `unmarshalText` agrees with the reference parser: of a container it returns the
first text, of any bytes the first text of the complete entries they begin with. It
reads only what is there, in at most one round for every eight bytes and one more. -/
theorem unmarshalText_parses :
    (∀ c : Container, unmarshalText c.encode = firstText c.entries) ∧
      ∀ container : Bytes,
        ((container.length < 4 ∧ unmarshalText container = []) ∨
          ∃ count body es, container = count ++ body ∧ count.length = 4 ∧
            Parses (BigEndian.decode count) body es ∧
            (∀ es', Parses (BigEndian.decode count) body es' → es' = es) ∧
            unmarshalText container = firstText es) ∧
        (walk container).text = unmarshalText container ∧
        (∀ r ∈ (walk container).reads, r.1 + r.2 ≤ container.length) ∧
        (walk container).rounds ≤ container.length / 8 + 1 ∧
        (unmarshalText container = [] ∨ ∃ count es e rest,
          container = count ++ List.flatMap Entry.encode es ++ Entry.encode e ++ rest ∧
            count.length = 4 ∧ es.length < BigEndian.decode count ∧
            (∀ e' ∈ es, e'.format ≠ 0) ∧ e.format = 0 ∧ unmarshalText container = e.data) :=
  ⟨unmarshalText_encode, fun container =>
    ⟨unmarshalText_reference container, rfl, walk_reads container,
      walk_rounds container, unmarshalText_walked container⟩⟩

end Deskflow
