import Mathlib.Algebra.GroupWithZero.Nat
import Mathlib.Data.List.Basic
import Mathlib.Tactic.SplitIfs

/-! Text as code points and its UTF-8 bytes. A lone surrogate is a code point that has no
bytes. -/
namespace Utf8Text

instance lawfulBEqText : LawfulBEq (List ℕ) := inferInstance

def text (s : String) : List ℕ := s.toList.map Char.toNat

def IsSurrogate (c : ℕ) : Prop := 0xD800 ≤ c ∧ c < 0xE000

instance (c : ℕ) : Decidable (IsSurrogate c) := inferInstanceAs (Decidable (_ ∧ _))

def IsTail (b : ℕ) : Prop := 0x80 ≤ b ∧ b < 0xC0

instance (b : ℕ) : Decidable (IsTail b) := inferInstanceAs (Decidable (_ ∧ _))

def encodeOne (c : ℕ) : Option (List ℕ) :=
  if c < 0x80 then some [c]
  else if c < 0x800 then some [0xC0 + c / 0x40, 0x80 + c % 0x40]
  else if c < 0x10000 then
    if IsSurrogate c then none
    else some [0xE0 + c / 0x1000, 0x80 + c / 0x40 % 0x40, 0x80 + c % 0x40]
  else if c < 0x110000 then
    some [0xF0 + c / 0x40000, 0x80 + c / 0x1000 % 0x40, 0x80 + c / 0x40 % 0x40, 0x80 + c % 0x40]
  else none

/-- `text.encode("utf-8")`, none for a `UnicodeEncodeError`. -/
def encode : List ℕ → Option (List ℕ)
  | [] => some []
  | c :: cs => (encodeOne c).bind fun bytes => (encode cs).map (bytes ++ ·)

/-- The first code point and the bytes after it. Longer forms than needed, surrogates and what
is beyond the last code point are refused. -/
def decodeOne : List ℕ → Option (ℕ × List ℕ)
  | [] => none
  | a :: rest =>
    if a < 0x80 then some (a, rest)
    else if 0xC2 ≤ a ∧ a < 0xE0 then
      match rest with
      | b :: rest => if IsTail b then some ((a - 0xC0) * 0x40 + (b - 0x80), rest) else none
      | [] => none
    else if 0xE0 ≤ a ∧ a < 0xF0 then
      match rest with
      | b :: c :: rest =>
        let point := (a - 0xE0) * 0x1000 + (b - 0x80) * 0x40 + (c - 0x80)
        if IsTail b ∧ IsTail c ∧ 0x800 ≤ point ∧ ¬ IsSurrogate point then some (point, rest)
        else none
      | _ => none
    else if 0xF0 ≤ a ∧ a < 0xF5 then
      match rest with
      | b :: c :: d :: rest =>
        let point := (a - 0xF0) * 0x40000 + (b - 0x80) * 0x1000 + (c - 0x80) * 0x40 + (d - 0x80)
        if IsTail b ∧ IsTail c ∧ IsTail d ∧ 0x10000 ≤ point ∧ point < 0x110000 then
          some (point, rest)
        else none
      | _ => none
    else none

def decodeLoop : ℕ → List ℕ → Option (List ℕ)
  | _, [] => some []
  | 0, _ :: _ => none
  | n + 1, bytes => (decodeOne bytes).bind fun one => (decodeLoop n one.2).map (one.1 :: ·)

/-- `bytes.decode("utf-8")`, none for a `UnicodeDecodeError`. -/
def decode (bytes : List ℕ) : Option (List ℕ) := decodeLoop bytes.length bytes

variable {bytes rest more cs data t : List ℕ} {c n : ℕ}

theorem decodeOne_append
    (h : decodeOne bytes = some (c, rest)) : decodeOne (bytes ++ more) = some (c,
      rest ++ more) := by
  unfold decodeOne at h
  split at h
  · cases h
  · rename_i a tail
    split_ifs at h with hone htwo hthree hfour
    · cases h
      simp only [List.cons_append, decodeOne]
      rw [if_pos hone]
    · split at h
      · split_ifs at h with htail
        obtain ⟨rfl, rfl⟩ := Prod.mk.inj (Option.some.inj h)
        simp only [List.cons_append, decodeOne]
        rw [if_neg hone, if_pos htwo, if_pos htail]
      · cases h
    · split at h
      · rename_i b d tail
        dsimp only at h
        split_ifs at h with hvalid
        obtain ⟨rfl, rfl⟩ := Prod.mk.inj (Option.some.inj h)
        simp only [List.cons_append, decodeOne]
        rw [if_neg hone, if_neg htwo, if_pos hthree, if_pos hvalid]
      · cases h
    · split at h
      · rename_i b d e tail
        dsimp only at h
        split_ifs at h with hvalid
        obtain ⟨rfl, rfl⟩ := Prod.mk.inj (Option.some.inj h)
        simp only [List.cons_append, decodeOne]
        rw [if_neg hone, if_neg htwo, if_neg hthree, if_pos hfour, if_pos hvalid]
      · cases h

theorem decodeOne_encodeOne (h : encodeOne c = some bytes)
    (rest : List ℕ) : decodeOne (bytes ++ rest) = some (c, rest) := by
  unfold encodeOne at h
  split_ifs at h with hone htwo hthree hsurrogate hfour
  · cases h
    simp only [List.cons_append, List.nil_append, decodeOne]
    rw [if_pos hone]
  · cases h
    have hlead : ¬ 0xC0 + c / 0x40 < 0x80 := by omega
    have hrange : 0xC2 ≤ 0xC0 + c / 0x40 ∧ 0xC0 + c / 0x40 < 0xE0 := by omega
    have htail : IsTail (0x80 + c % 0x40) := by
      unfold IsTail
      omega
    have hpoint : (0xC0 + c / 0x40 - 0xC0) * 0x40 + (0x80 + c % 0x40 - 0x80) = c := by omega
    simp only [List.cons_append, List.nil_append, decodeOne]
    rw [if_neg hlead, if_pos hrange, if_pos htail, hpoint]
  · cases h
    have hlead : ¬ 0xE0 + c / 0x1000 < 0x80 := by omega
    have hnotTwo : ¬ (0xC2 ≤ 0xE0 + c / 0x1000 ∧ 0xE0 + c / 0x1000 < 0xE0) := by omega
    have hrange : 0xE0 ≤ 0xE0 + c / 0x1000 ∧ 0xE0 + c / 0x1000 < 0xF0 := by omega
    have hpoint : (0xE0 + c / 0x1000 - 0xE0) * 0x1000 + (0x80 + c / 0x40 % 0x40 - 0x80) * 0x40 +
        (0x80 + c % 0x40 - 0x80) = c := by omega
    have htails : IsTail (0x80 + c / 0x40 % 0x40) ∧ IsTail (0x80 + c % 0x40) := by
      unfold IsTail
      omega
    simp only [List.cons_append, List.nil_append, decodeOne]
    rw [if_neg hlead, if_neg hnotTwo, if_pos hrange, hpoint, if_pos]
    exact ⟨htails.1, htails.2, by omega, hsurrogate⟩
  · cases h
    have hlead : ¬ 0xF0 + c / 0x40000 < 0x80 := by omega
    have hnotTwo : ¬ (0xC2 ≤ 0xF0 + c / 0x40000 ∧ 0xF0 + c / 0x40000 < 0xE0) := by omega
    have hnotThree : ¬ (0xE0 ≤ 0xF0 + c / 0x40000 ∧ 0xF0 + c / 0x40000 < 0xF0) := by omega
    have hrange : 0xF0 ≤ 0xF0 + c / 0x40000 ∧ 0xF0 + c / 0x40000 < 0xF5 := by omega
    have hpoint : (0xF0 + c / 0x40000 - 0xF0) * 0x40000 +
        (0x80 + c / 0x1000 % 0x40 - 0x80) * 0x1000 + (0x80 + c / 0x40 % 0x40 - 0x80) * 0x40 +
        (0x80 + c % 0x40 - 0x80) = c := by omega
    have htails : IsTail (0x80 + c / 0x1000 % 0x40) ∧ IsTail (0x80 + c / 0x40 % 0x40) ∧
        IsTail (0x80 + c % 0x40) := by
      unfold IsTail
      omega
    simp only [List.cons_append, List.nil_append, decodeOne]
    rw [if_neg hlead, if_neg hnotTwo, if_neg hnotThree, if_pos hrange, hpoint, if_pos]
    exact ⟨htails.1, htails.2.1, htails.2.2, by omega, hfour⟩

theorem encode_cons (h : encode (c :: cs) = some data) :
    ∃ bytes rest, encodeOne c = some bytes ∧ encode cs = some rest ∧ data = bytes ++ rest := by
  obtain ⟨bytes, hbytes, hmap⟩ := Option.bind_eq_some_iff.mp h
  obtain ⟨rest, hrest, heq⟩ := Option.map_eq_some_iff.mp hmap
  exact ⟨bytes, rest, hbytes, hrest, heq.symm⟩

theorem encodeOne_ne_nil (h : encodeOne c = some bytes) :
    bytes ≠ [] := by
  unfold encodeOne at h
  split_ifs at h <;> cases h <;> exact List.cons_ne_nil _ _

theorem decodeLoop_ne_nil (h : decodeOne bytes = some (c, rest)) :
    decodeLoop (n + 1) bytes = (decodeLoop n rest).map (c :: ·) := by
  cases bytes with
  | nil => cases h
  | cons b bytes =>
    change (decodeOne (b :: bytes)).bind _ = _
    rw [h]
    rfl

theorem decodeLoop_encode (h : encode cs = some data)
    (hn : data.length ≤ n) : decodeLoop n data = some cs := by
  induction cs generalizing data n with
  | nil =>
    cases h
    cases n <;> rfl
  | cons c cs ih =>
    obtain ⟨bytes, rest, hbytes, hrest, rfl⟩ := encode_cons h
    have hpos := List.length_pos_iff_ne_nil.mpr (encodeOne_ne_nil hbytes)
    rw [List.length_append] at hn
    obtain ⟨m, rfl⟩ := Nat.exists_eq_succ_of_ne_zero (show n ≠ 0 by omega)
    rw [decodeLoop_ne_nil (decodeOne_encodeOne hbytes rest), ih hrest (by omega)]
    rfl

theorem decode_encode (h : encode cs = some data) : decode data = some cs :=
  decodeLoop_encode h (Nat.le_refl _)

theorem decodeLoop_prefix
    (h : encode cs = some (bytes ++ more)) (hread : decodeLoop n bytes = some t) :
    ∃ u, cs = t ++ u ∧ encode u = some more := by
  induction n generalizing cs t bytes with
  | zero =>
    cases bytes with
    | nil =>
      cases hread
      exact ⟨cs, rfl, h⟩
    | cons b bytes => cases hread
  | succ n ih =>
    cases bytes with
    | nil =>
      cases hread
      exact ⟨cs, rfl, h⟩
    | cons b bytes =>
      obtain ⟨⟨point, rest⟩, hone, hloop⟩ := Option.bind_eq_some_iff.mp hread
      obtain ⟨t, ht, rfl⟩ := Option.map_eq_some_iff.mp hloop
      have hmore : decodeOne (b :: bytes ++ more) = some (point, rest ++ more) :=
        decodeOne_append hone
      cases cs with
      | nil => cases h
      | cons c cs =>
        obtain ⟨first, data, hfirst, hdata, heq⟩ := encode_cons h
        have hboth := decodeOne_encodeOne hfirst data
        rw [← heq, hmore] at hboth
        cases hboth
        obtain ⟨u, rfl, hu⟩ := ih hdata ht
        exact ⟨u, rfl, hu⟩

theorem decode_prefix (h : encode cs = some (bytes ++ more))
    (hread : decode bytes = some t) : ∃ u, cs = t ++ u ∧ encode u = some more :=
  decodeLoop_prefix h hread

theorem not_surrogate_of_encode (h : encode cs = some data) :
    ∀ c ∈ cs, ¬ IsSurrogate c := by
  induction cs generalizing data with
  | nil => exact fun c hc => absurd hc List.not_mem_nil
  | cons c cs ih =>
    obtain ⟨bytes, rest, hbytes, hrest, -⟩ := encode_cons h
    refine List.forall_mem_cons.mpr ⟨fun hsurrogate => ?_, ih hrest⟩
    have hlow : ¬ c < 0x800 := by
      have := hsurrogate.1
      omega
    have hhigh : c < 0x10000 := by
      have := hsurrogate.2
      omega
    unfold encodeOne at hbytes
    rw [if_neg (by omega), if_neg hlow, if_pos hhigh, if_pos hsurrogate] at hbytes
    cases hbytes

theorem isSome_encode_iff : (encode cs).isSome ↔ ∀ c ∈ cs, (encodeOne c).isSome := by
  induction cs with
  | nil => exact iff_of_true rfl fun c hc => absurd hc List.not_mem_nil
  | cons c cs ih =>
    rw [List.forall_mem_cons, ← ih, encode]
    cases encodeOne c with
    | none => exact iff_of_false Bool.false_ne_true fun h => Bool.false_ne_true h.1
    | some bytes => simp

def width (c : ℕ) : ℕ := ((encodeOne c).getD []).length

theorem length_encode (h : encode cs = some bytes) :
    bytes.length = (cs.map width).sum := by
  induction cs generalizing bytes with
  | nil =>
    cases h
    rfl
  | cons c cs ih =>
    obtain ⟨first, data, hfirst, hdata, rfl⟩ := encode_cons h
    rw [List.length_append, ih hdata, List.map_cons, List.sum_cons, width, hfirst, Option.getD_some]

end Utf8Text
