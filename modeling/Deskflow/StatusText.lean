import Mathlib.Data.List.Infix
import Deskflow.ClipboardCodec

/-! The page's reading of a status text: a word in it decides. -/

namespace Deskflow

section Words

variable {α : Type} {word a b : List α} {x : α}

/-- A word in a text of two parts lies in one of them or across the seam. -/
theorem infix_append_cases (h : word <:+: a ++ b) :
    word <:+: a ∨ word <:+: b ∨ ∃ i, 0 < i ∧ i < word.length ∧ word.take i <:+ a := by
  obtain ⟨p, q, heq⟩ := h
  rcases List.append_eq_append_iff.mp heq with ⟨c, rfl, -⟩ | ⟨c, hleft, rfl⟩
  · exact .inl ⟨p, c, rfl⟩
  · rcases List.append_eq_append_iff.mp hleft with ⟨d, rfl, rfl⟩ | ⟨d, rfl, rfl⟩
    · rcases Nat.eq_zero_or_pos d.length with hd | hd
      · obtain rfl := List.length_eq_zero_iff.mp hd
        exact .inr (.inl ⟨[], q, rfl⟩)
      · rcases Nat.eq_zero_or_pos c.length with hc | hc
        · obtain rfl := List.length_eq_zero_iff.mp hc
          exact .inl ⟨p, [], by simp⟩
        · refine .inr (.inr ⟨d.length, hd, by rw [List.length_append]; omega, ?_⟩)
          rw [List.take_left]
          exact ⟨p, rfl⟩
    · exact .inr (.inl ⟨d, q, rfl⟩)

theorem infix_of_disjoint (hword : word ≠ []) (hb : ∀ y ∈ b, y ∉ word)
    (h : word <:+: a ++ b) : word <:+: a := by
  obtain ⟨p, q, heq⟩ := h
  rcases List.append_eq_append_iff.mp heq with ⟨c, rfl, -⟩ | ⟨c, hleft, rfl⟩
  · exact ⟨p, c, rfl⟩
  · rcases List.eq_nil_or_concat c with rfl | ⟨c, y, rfl⟩
    · exact ⟨p, [], by simpa using hleft⟩
    · obtain ⟨word, z, rfl⟩ := (List.eq_nil_or_concat word).resolve_left hword
      rw [List.concat_eq_append, List.concat_eq_append, ← List.append_assoc,
        ← List.append_assoc] at hleft
      obtain ⟨-, hlast⟩ := List.append_inj' hleft rfl
      obtain rfl : z = y := by simpa using hlast
      exact absurd (by simp) (hb z (by simp))

/-- A letter that is not in the word separates. -/
theorem infix_of_separated (hx : x ∉ word) (h : word <:+: a ++ x :: b) :
    word <:+: a ∨ word <:+: b := by
  obtain ⟨p, q, heq⟩ := h
  rcases List.append_eq_append_iff.mp heq with ⟨c, rfl, -⟩ | ⟨c, hleft, hright⟩
  · exact .inl ⟨p, c, rfl⟩
  · cases c with
    | nil => exact .inl ⟨p, [], by simpa using hleft⟩
    | cons y c =>
      obtain ⟨rfl, rfl⟩ : x = y ∧ b = c ++ q := by simpa using hright
      rcases List.append_eq_append_iff.mp hleft with ⟨d, -, rfl⟩ | ⟨d, -, hd⟩
      · exact absurd (by simp) hx
      · cases d with
        | nil =>
          obtain rfl : x :: c = word := by simpa using hd
          exact absurd (by simp) hx
        | cons y d =>
          obtain ⟨rfl, rfl⟩ : x = y ∧ c = d ++ word := by simpa using hd
          exact .inr ⟨d, q, rfl⟩

end Words

inductive ConnState
  | disconnected
  | connecting
  | connected
  | error
  deriving DecidableEq, Repr

/-- `toLowerCase` as far as ASCII letters come out of it: besides those in upper case
they come from the Kelvin sign and from the capital I with a dot. -/
def lower : Bytes → Bytes
  | 0xE2 :: 0x84 :: 0xAA :: s => 0x6B :: lower s
  | 0xC4 :: 0xB0 :: s => 0x69 :: 0xCC :: 0x87 :: lower s
  | ch :: s => (if 65 ≤ ch ∧ ch ≤ 90 then ch + 32 else ch) :: lower s
  | [] => []

def trimEnd : Bytes → Bytes
  | [] => []
  | ch :: s => if trimEnd s = [] ∧ isSpace ch = true then [] else ch :: trimEnd s

/-- `trim`; the white space beyond ASCII is in none of the words. -/
def trim (s : Bytes) : Bytes := trimEnd (s.dropWhile isSpace)

/-- The state shown after a status text, given the one before it. -/
def mapStatus (connState : ConnState) (s : Bytes) : ConnState :=
  let t := lower (trim s)
  if ascii "error" <:+: t ∨ ascii "closed" <:+: t ∨ ascii "incompatible" <:+: t ∨
      ascii "unknown" <:+: t ∨ ascii "violation" <:+: t then .error
  else if ascii "active" <:+: t ∨ ascii "control acquired" <:+: t then .connected
  else if ascii "handshake ok" <:+: t ∨ ascii "reconnect" <:+: t ∨
      ascii "waiting for enter" <:+: t then .connected
  else if ascii "connecting" <:+: t ∨ ascii "connect failed" <:+: t then .connecting
  else if ascii "disconnected" <:+: t then .disconnected
  else connState

def errorWords : List Bytes :=
  [ascii "error", ascii "closed", ascii "incompatible", ascii "unknown", ascii "violation"]

def connectedWords : List Bytes :=
  [ascii "active", ascii "control acquired", ascii "handshake ok", ascii "reconnect",
    ascii "waiting for enter"]

def Lacks (words : List Bytes) (t : Bytes) : Prop := ∀ word ∈ words, ¬word <:+: t

instance (words : List Bytes) (t : Bytes) : Decidable (Lacks words t) :=
  inferInstanceAs (Decidable (∀ word ∈ words, _))

theorem trimEnd_append {b : Bytes} (hb : trimEnd b ≠ []) (a : Bytes) :
    trimEnd (a ++ b) = a ++ trimEnd b := by
  induction a with
  | nil => rfl
  | cons ch a ih =>
    have hne : trimEnd (a ++ b) ≠ [] := by simp [ih, hb]
    rw [List.cons_append, trimEnd, if_neg fun h => hne h.1, ih]
    rfl

theorem trimEnd_eq_self {b : Bytes} (hb : ∀ ch ∈ b, isSpace ch = false) : trimEnd b = b := by
  induction b with
  | nil => rfl
  | cons ch b ih =>
    have hch := hb ch (by simp)
    rw [trimEnd, if_neg (by simp [hch]), ih fun ch hch => hb ch (List.mem_cons_of_mem _ hch)]

/-- A text that neither begins nor ends with white space is left as it is. -/
theorem trim_append {x : UInt8} {a b : Bytes} (hx : isSpace x = false)
    (hb : ∀ ch ∈ b, isSpace ch = false) (hne : b ≠ []) : trim (x :: a ++ b) = x :: a ++ b := by
  have hend := trimEnd_eq_self hb
  rw [trim, List.cons_append, List.dropWhile_cons, hx]
  simp only [Bool.false_eq_true, if_false]
  rw [← List.cons_append, trimEnd_append (by rwa [hend]), hend]

def lowerByte (ch : UInt8) : UInt8 := if 65 ≤ ch ∧ ch ≤ 90 then ch + 32 else ch

theorem lower_cons {ch : UInt8} (h : ch < 128) (s : Bytes) :
    lower (ch :: s) = lowerByte ch :: lower s := by
  rw [lower]
  · rfl
  · rintro s' rfl
    exact absurd h (by decide)
  · rintro s' rfl
    exact absurd h (by decide)

theorem lower_append {a : Bytes} (h : a.all fun ch => ch < 128) (s : Bytes) :
    lower (a ++ s) = a.map lowerByte ++ lower s := by
  induction a with
  | nil => rfl
  | cons ch a ih =>
    rw [List.all_cons, Bool.and_eq_true, decide_eq_true_iff] at h
    rw [List.cons_append, lower_cons h.1, ih h.2]
    rfl

/-- A letter of ASCII belongs to no other one before it. -/
theorem lower_append_cons {x : UInt8} (h : x < 128) (a s : Bytes) :
    lower (a ++ x :: s) = lower a ++ lower (x :: s) := by
  have hkeep (b : UInt8) (t : Bytes) (h₁ : ∀ u, b = 0xE2 → t = 0x84 :: 0xAA :: u → False)
      (h₂ : ∀ u, b = 0xC4 → t = 0xB0 :: u → False) :
      lower (b :: t) = lowerByte b :: lower t := lower.eq_3 b t h₁ h₂
  fun_induction lower a with
  | case1 t ih => rw [List.cons_append, List.cons_append, List.cons_append, lower, ih]; rfl
  | case2 t ih => rw [List.cons_append, List.cons_append, lower, ih]; rfl
  | case3 b t h₁ h₂ ih =>
    rw [List.cons_append, hkeep, ih]
    · rfl
    · rintro u hb heq
      match t, h₁, heq with
      | [], _, heq =>
        obtain ⟨rfl, -⟩ := List.cons.inj heq
        exact absurd h (by decide)
      | [z], _, heq =>
        obtain ⟨-, heq⟩ := List.cons.inj heq
        obtain ⟨rfl, -⟩ := List.cons.inj heq
        exact absurd h (by decide)
      | z :: y :: t, h₁, heq =>
        obtain ⟨rfl, rfl, -⟩ : z = 0x84 ∧ y = 0xAA ∧ t ++ x :: s = u := by simpa using heq
        exact h₁ t hb rfl
    · rintro u hb heq
      cases t with
      | nil =>
        obtain ⟨rfl, -⟩ := List.cons.inj heq
        exact absurd h (by decide)
      | cons z t =>
        obtain ⟨rfl, -⟩ := List.cons.inj heq
        exact h₂ t hb rfl
  | case4 => rfl

theorem decimal_negSucc (m : Nat) :
    decimal (Int.negSucc m) = 45 :: decimal ((m + 1 : Nat) : Int) := by
  have hrepr : toString (Int.negSucc m) = "-" ++ (m + 1).repr := rfl
  rw [decimal, ascii, hrepr, String.toList_append]
  rfl

theorem mem_decimal {n : Int} {ch : UInt8} (h : ch ∈ decimal n) :
    ch = 45 ∨ 48 ≤ ch.toNat ∧ ch.toNat ≤ 57 := by
  cases n with
  | ofNat m => exact .inr (isDigit_of_mem_decimal h)
  | negSucc m =>
    rw [decimal_negSucc, List.mem_cons] at h
    exact h.imp id isDigit_of_mem_decimal

theorem decimal_int_ne_nil (n : Int) : decimal n ≠ [] := by
  cases n with
  | ofNat m => exact decimal_ne_nil m
  | negSucc m =>
    rw [decimal_negSucc]
    exact List.cons_ne_nil _ _

/-- Neither letters nor white space. -/
def Figures (b : Bytes) : Prop := ∀ ch ∈ b, 33 ≤ ch.toNat ∧ ch.toNat < 65

instance (b : Bytes) : Decidable (Figures b) :=
  List.decidableBAll (fun ch : UInt8 => 33 ≤ ch.toNat ∧ ch.toNat < 65) b

namespace Figures

variable {b c : Bytes}

theorem append (hb : Figures b) (hc : Figures c) : Figures (b ++ c) := by
  intro ch hch
  rcases List.mem_append.mp hch with hch | hch
  · exact hb ch hch
  · exact hc ch hch

theorem decimal (n : Int) : Figures (decimal n) := by
  intro ch hch
  rcases mem_decimal hch with rfl | hdigit
  · decide
  · omega

theorem isSpace (h : Figures b) {ch : UInt8} (hch : ch ∈ b) : isSpace ch = false := by
  have hrange := h ch hch
  simp only [Deskflow.isSpace, Bool.or_eq_false_iff, Bool.and_eq_false_iff,
    decide_eq_false_iff_not, beq_eq_false_iff_ne, ne_eq, ← UInt8.toNat_inj,
    UInt8.le_iff_toNat_le]
  simp
  omega

theorem lower (h : Figures b) : lower b = b := by
  have hbyte (ch : UInt8) (hch : ch ∈ b) : ch < 128 ∧ lowerByte ch = ch := by
    have hrange := h ch hch
    refine ⟨UInt8.lt_iff_toNat_lt.mpr (by simp; omega), if_neg ?_⟩
    rintro ⟨hupper, -⟩
    rw [UInt8.le_iff_toNat_le] at hupper
    simp at hupper
    omega
  have hsmall : b.all fun ch => ch < 128 :=
    List.all_eq_true.mpr fun ch hch => decide_eq_true (hbyte ch hch).1
  have happend := lower_append hsmall []
  rw [List.append_nil, List.map_congr_left fun ch hch => (hbyte ch hch).2, List.map_id'] at happend
  rw [happend]
  exact List.append_nil _

end Figures

theorem letters {word : Bytes} (h : word ∈ errorWords ++ connectedWords) :
    word ≠ [] ∧ ∀ ch ∈ word, ch.toNat = 32 ∨ 97 ≤ ch.toNat := by
  have hall : (errorWords ++ connectedWords).all fun word =>
      word != [] && word.all fun ch => ch.toNat == 32 || 97 ≤ ch.toNat := by decide
  have hword := List.all_eq_true.mp hall word h
  rw [Bool.and_eq_true, bne_iff_ne, List.all_eq_true] at hword
  refine ⟨hword.1, fun ch hch => ?_⟩
  simpa using hword.2 ch hch

section Lacks

variable {words : List Bytes} {t b : Bytes}

theorem Lacks.append_figures (hwords : words ⊆ errorWords ++ connectedWords) (h : Lacks words t)
    (hb : Figures b) : Lacks words (t ++ b) := by
  intro word hword hin
  obtain ⟨hne, hletters⟩ := letters (hwords hword)
  refine h word hword (infix_of_disjoint hne (fun ch hch hmem => ?_) hin)
  have hrange := hb ch hch
  have hletter := hletters ch hmem
  omega

theorem Lacks.append_cons {ch : UInt8} (hch : ∀ word ∈ words, ch ∉ word) (h : Lacks words t)
    (hb : Lacks words b) : Lacks words (t ++ ch :: b) := by
  intro word hword hin
  rcases infix_of_separated (hch word hword) hin with hin | hin
  · exact h word hword hin
  · exact hb word hword hin

theorem Lacks.append (hseam : ∀ word ∈ words, ∀ i < word.length, 0 < i → ¬word.take i <:+ t)
    (h : Lacks words t) (hb : Lacks words b) : Lacks words (t ++ b) := by
  intro word hword hin
  rcases infix_append_cases hin with hin | hin | ⟨i, hpos, hlt, hsuffix⟩
  · exact h word hword hin
  · exact hb word hword hin
  · exact hseam word hword i hlt hpos hsuffix

end Lacks

theorem lacks_errorWords {t : Bytes} : Lacks errorWords t ↔
    ¬(ascii "error" <:+: t ∨ ascii "closed" <:+: t ∨ ascii "incompatible" <:+: t ∨
      ascii "unknown" <:+: t ∨ ascii "violation" <:+: t) := by
  simp only [Lacks, errorWords, List.forall_mem_cons, List.not_mem_nil, false_imp_iff,
    implies_true, and_true, not_or]

theorem lacks_connectedWords {t : Bytes} : Lacks connectedWords t ↔
    ¬((ascii "active" <:+: t ∨ ascii "control acquired" <:+: t) ∨ ascii "handshake ok" <:+: t ∨
      ascii "reconnect" <:+: t ∨ ascii "waiting for enter" <:+: t) := by
  simp only [Lacks, connectedWords, List.forall_mem_cons, List.not_mem_nil, false_imp_iff,
    implies_true, and_true, not_or, and_assoc]

theorem mapStatus_eq (connState : ConnState) (s : Bytes) : mapStatus connState s =
    if ¬Lacks errorWords (lower (trim s)) then .error
    else if ¬Lacks connectedWords (lower (trim s)) then .connected
    else if ascii "connecting" <:+: lower (trim s) ∨
      ascii "connect failed" <:+: lower (trim s) then .connecting
    else if ascii "disconnected" <:+: lower (trim s) then .disconnected
    else connState := by
  unfold mapStatus
  dsimp only
  simp only [lacks_errorWords, lacks_connectedWords, not_not]
  exact if_congr Iff.rfl rfl (ite_or _ _ _ _).symm

theorem mapStatus_error (rest : Bytes) (connState : ConnState) :
    mapStatus connState (ascii "error: " ++ rest) = .error := by
  have htrim : ∃ more, trim (ascii "error: " ++ rest) = ascii "error" ++ more := by
    have hcolon : trimEnd (58 :: 32 :: rest) ≠ [] := by
      rw [trimEnd, if_neg (fun h => absurd h.2 (by decide))]
      exact List.cons_ne_nil _ _
    exact ⟨_, trimEnd_append hcolon (ascii "error")⟩
  obtain ⟨more, hmore⟩ := htrim
  have hlower : lower (ascii "error" ++ more) = ascii "error" ++ lower more :=
    lower_append (by decide) more
  rw [mapStatus_eq, hmore, hlower, if_pos]
  rw [lacks_errorWords, not_not]
  exact .inl List.infix_append_left

theorem mapStatus_active (x y : Int) (connState : ConnState) :
    mapStatus connState (ascii "active: control acquired, pointer at " ++ decimal x ++
      ascii "," ++ decimal y) = .connected := by
  let text := ascii "active: control acquired, pointer at "
  let figures := decimal x ++ (ascii "," ++ decimal y)
  have hfigures : Figures figures :=
    (Figures.decimal x).append (Figures.append (by decide) (Figures.decimal y))
  have hne : figures ≠ [] := by simp [figures, decimal_int_ne_nil]
  have htrim : trim (text ++ figures) = text ++ figures :=
    trim_append (x := 97) (a := text.tail) rfl (fun ch hch => hfigures.isSpace hch) hne
  have hlower : lower (text ++ figures) = text ++ figures := by
    rw [lower_append (by decide), hfigures.lower]
    rfl
  have herror : Lacks errorWords (text ++ figures) :=
    Lacks.append_figures (List.subset_append_left _ _) (by decide +kernel) hfigures
  have hconnected : ¬Lacks connectedWords (text ++ figures) := by
    rw [lacks_connectedWords, not_not]
    exact .inl (.inl (List.infix_append_of_infix_left (by decide +kernel)))
  have htext : ascii "active: control acquired, pointer at " ++ decimal x ++ ascii "," ++
      decimal y = text ++ figures := by
    simp only [text, figures, List.append_assoc]
  rw [htext, mapStatus_eq, htrim, hlower, if_neg (not_not.mpr herror), if_pos hconnected]

/-- A host without a word of an end or of a connection in it. -/
def PlainHost (host : Bytes) : Prop := Lacks (errorWords ++ connectedWords) (lower host)

instance (host : Bytes) : Decidable (PlainHost host) :=
  inferInstanceAs (Decidable (Lacks _ (lower host)))

theorem Lacks.of_subset {words words' : List Bytes} {t : Bytes} (h : Lacks words t)
    (hsub : words' ⊆ words) : Lacks words' t := fun word hword => h word (hsub hword)

theorem mapStatus_dial {host : Bytes} (h : PlainHost host) (port : Nat) (connState : ConnState) :
    mapStatus connState (ascii "connecting to " ++ host ++ ascii ":" ++ decimal port) =
      .connecting := by
  let text := ascii "connecting to "
  let figures := ascii ":" ++ decimal port
  have hfigures : Figures figures := Figures.append (by decide) (Figures.decimal port)
  have hne : figures ≠ [] := by simp [figures, decimal_int_ne_nil]
  have htrim : trim (text ++ host ++ figures) = text ++ host ++ figures :=
    trim_append (x := 99) (a := text.tail ++ host) rfl (fun ch hch => hfigures.isSpace hch) hne
  have hlower : lower (text ++ host ++ figures) = text ++ lower host ++ figures := by
    have hseam := lower_append_cons (x := 58) (by decide) (text ++ host) (decimal port)
    have htext : lower (text ++ host) = text ++ lower host := lower_append (by decide) host
    have hself := hfigures.lower
    change lower (text ++ host ++ figures) = lower (text ++ host) ++ lower figures at hseam
    rw [hseam, htext, hself]
  have hlacks : Lacks (errorWords ++ connectedWords) (text ++ lower host ++ figures) := by
    refine Lacks.append_figures (List.Subset.refl _) (Lacks.append ?_ ?_ h) hfigures
    · decide +kernel
    · decide +kernel
  have htext : ascii "connecting to " ++ host ++ ascii ":" ++ decimal port =
      text ++ host ++ figures := by
    simp only [text, figures, List.append_assoc]
  have hword : ascii "connecting" <:+: text ++ lower host ++ figures := by
    rw [List.append_assoc]
    exact List.infix_append_of_infix_left (by decide +kernel)
  rw [htext, mapStatus_eq, htrim, hlower,
    if_neg (not_not.mpr (hlacks.of_subset (List.subset_append_left _ _))),
    if_neg (not_not.mpr (hlacks.of_subset (List.subset_append_right _ _))), if_pos (.inl hword)]

/-- A mismatch is not shown as a connection if the protocol name has no word of one. -/
theorem mapStatus_mismatch {name : Bytes} (h : Lacks connectedWords (lower name))
    (major minor : Int) {connState : ConnState} (hstate : connState ≠ .connected) :
    mapStatus connState (ascii "protocol mismatch: name='" ++ name ++ ascii "' ver=" ++
      decimal major ++ ascii "." ++ decimal minor) ≠ .connected := by
  let text := ascii "protocol mismatch: name="
  let figures := decimal major ++ (ascii "." ++ decimal minor)
  have hfigures : Figures figures :=
    (Figures.decimal major).append (Figures.append (by decide) (Figures.decimal minor))
  have hne : figures ≠ [] := by simp [figures, decimal_int_ne_nil]
  let status := text ++ 39 :: (name ++ 39 :: (ascii " ver=" ++ figures))
  have htrim : trim status = status := by
    have hends := trim_append (x := 112)
      (a := text.tail ++ 39 :: (name ++ 39 :: ascii " ver=")) rfl
      (fun ch hch => hfigures.isSpace hch) hne
    have hstatus :
        112 :: (text.tail ++ 39 :: (name ++ 39 :: ascii " ver=")) ++ figures = status := by
      change text ++ 39 :: (name ++ 39 :: ascii " ver=") ++ figures = status
      simp only [status, List.cons_append, List.append_assoc]
    rwa [hstatus] at hends
  have hlower : lower status = text ++ 39 :: (lower name ++ 39 :: (ascii " ver=" ++ figures)) := by
    have hquote := lower_append_cons (x := 39) (by decide) name (ascii " ver=" ++ figures)
    have hver : lower (39 :: (ascii " ver=" ++ figures)) = 39 :: (ascii " ver=" ++ figures) := by
      have happend := lower_append (a := 39 :: ascii " ver=") (by decide) figures
      rw [hfigures.lower] at happend
      exact happend
    have hstart := lower_append (a := text ++ [39]) (by decide)
      (name ++ 39 :: (ascii " ver=" ++ figures))
    rw [hquote, hver, List.append_assoc] at hstart
    rw [show status = text ++ ([39] ++ (name ++ 39 :: (ascii " ver=" ++ figures))) from rfl, hstart]
    rfl
  have hlacks : Lacks connectedWords (lower status) := by
    have hquote : ∀ word ∈ connectedWords, (39 : UInt8) ∉ word := by decide +kernel
    rw [hlower]
    refine Lacks.append_cons hquote (by decide +kernel) (Lacks.append_cons hquote h ?_)
    exact Lacks.append_figures (List.subset_append_right _ _) (by decide +kernel) hfigures
  have htext : ascii "protocol mismatch: name='" ++ name ++ ascii "' ver=" ++ decimal major ++
      ascii "." ++ decimal minor = status := by
    have hname : ascii "protocol mismatch: name='" = text ++ [39] := rfl
    have hver : ascii "' ver=" = 39 :: ascii " ver=" := rfl
    simp only [hname, hver, status, figures, List.append_assoc, List.cons_append, List.nil_append]
  rw [htext, mapStatus_eq, htrim, if_neg (not_not.mpr hlacks)]
  split_ifs
  all_goals first | exact hstate | exact ConnState.noConfusion

end Deskflow
