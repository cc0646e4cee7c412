import ProtonDrive.Lib.Encoding

/-!
# The bytes of characters

* `Continues b`     the byte goes on with a character that has begun;
* `encode_shape`    a character is a byte that does not and some that do;
* `character_two`, `character_three`, `character_four`
                    which sequences of two, three and four bytes are characters;
* `Inside cs i`     the index `i` lies inside a character of the text `cs`, behind its first byte;
* `inside_iff`      the byte there tells.
-/

namespace Encoding.Utf8

/-! ## one character -/

def Continues (b : UInt8) : Prop := 0x80 ≤ b.toNat ∧ b.toNat ≤ 0xBF

instance : DecidablePred Continues := fun b => inferInstanceAs (Decidable (0x80 ≤ b.toNat ∧ b.toNat ≤ 0xBF))

theorem continues_ofNat {n : Nat} : Continues (UInt8.ofNat (n % 64 + 0x80)) := by
  unfold Continues
  rw [UInt8.toNat_ofNat']
  omega

theorem not_continues_ofNat {n : Nat} (h : n < 0x80 ∨ 0xC0 ≤ n) (hn : n < 256) :
    ¬ Continues (UInt8.ofNat n) := by
  unfold Continues
  rw [UInt8.toNat_ofNat']
  omega

/-- the first byte of a character does not continue one, and all the others do -/
theorem encode_shape (c : Char) : ∃ b bs, String.utf8EncodeChar c = b :: bs ∧ ¬ Continues b ∧
    ∀ x ∈ bs, Continues x := by
  unfold String.utf8EncodeChar
  by_cases h₁ : c.val.toNat ≤ 0x7f
  · rw [if_pos h₁]
    exact ⟨_, _, rfl, not_continues_ofNat (by omega) (by omega), nofun⟩
  · rw [if_neg h₁]
    by_cases h₂ : c.val.toNat ≤ 0x7ff
    · rw [if_pos h₂]
      refine ⟨_, _, rfl, not_continues_ofNat (by omega) (by omega), ?_⟩
      exact List.forall_mem_singleton.mpr continues_ofNat
    · rw [if_neg h₂]
      by_cases h₃ : c.val.toNat ≤ 0xffff
      · rw [if_pos h₃]
        refine ⟨_, _, rfl, not_continues_ofNat (by omega) (by omega), ?_⟩
        exact List.forall_mem_cons.mpr
          ⟨continues_ofNat, List.forall_mem_singleton.mpr continues_ofNat⟩
      · rw [if_neg h₃]
        refine ⟨_, _, rfl, not_continues_ofNat (by omega) (by omega), ?_⟩
        exact List.forall_mem_cons.mpr ⟨continues_ofNat, List.forall_mem_cons.mpr
          ⟨continues_ofNat, List.forall_mem_singleton.mpr continues_ofNat⟩⟩

theorem val_ofNatAux {n : Nat} (h : n.isValidChar) : (Char.ofNatAux n h).val.toNat = n := rfl

theorem eq_ofNat {b : UInt8} {n : Nat} (h : n = b.toNat) : UInt8.ofNat n = b := by
  rw [h, UInt8.ofNat_toNat]

theorem character_two {a b : UInt8} (ha : 0xC2 ≤ a.toNat ∧ a.toNat ≤ 0xDF) (hb : Continues b) :
    ∃ c, String.utf8EncodeChar c = [a, b] := by
  obtain ⟨hb, hb'⟩ := hb
  have hvalid : ((a.toNat - 0xC0) * 64 + (b.toNat - 0x80)).isValidChar := .inl (by omega)
  refine ⟨Char.ofNatAux _ hvalid, ?_⟩
  unfold String.utf8EncodeChar
  rw [val_ofNatAux, if_neg (by omega), if_pos (by omega), eq_ofNat (b := a) (by omega),
    eq_ofNat (b := b) (by omega)]

/-- the second byte of three leaves out what two bytes can write, and the surrogates -/
theorem character_three {a b c : UInt8} (ha : 0xE0 ≤ a.toNat ∧ a.toNat ≤ 0xEF) (hb : Continues b)
    (hlow : a.toNat = 0xE0 → 0xA0 ≤ b.toNat) (hhigh : a.toNat = 0xED → b.toNat ≤ 0x9F)
    (hc : Continues c) : ∃ ch, String.utf8EncodeChar ch = [a, b, c] := by
  obtain ⟨hb, hb'⟩ := hb
  obtain ⟨hc, hc'⟩ := hc
  have hvalid :
      ((a.toNat - 0xE0) * 4096 + (b.toNat - 0x80) * 64 + (c.toNat - 0x80)).isValidChar := by
    by_cases hsurrogate : a.toNat ≤ 0xED
    · exact .inl (by omega)
    · exact .inr ⟨by omega, by omega⟩
  refine ⟨Char.ofNatAux _ hvalid, ?_⟩
  unfold String.utf8EncodeChar
  rw [val_ofNatAux, if_neg (by omega), if_neg (by omega), if_pos (by omega),
    eq_ofNat (b := a) (by omega), eq_ofNat (b := b) (by omega), eq_ofNat (b := c) (by omega)]

/-- the second byte of four leaves out what three bytes can write, and what no character is -/
theorem character_four {a b c d : UInt8} (ha : 0xF0 ≤ a.toNat ∧ a.toNat ≤ 0xF4) (hb : Continues b)
    (hlow : a.toNat = 0xF0 → 0x90 ≤ b.toNat) (hhigh : a.toNat = 0xF4 → b.toNat ≤ 0x8F)
    (hc : Continues c) (hd : Continues d) : ∃ ch, String.utf8EncodeChar ch = [a, b, c, d] := by
  obtain ⟨hb, hb'⟩ := hb
  obtain ⟨hc, hc'⟩ := hc
  obtain ⟨hd, hd'⟩ := hd
  have hvalid : ((a.toNat - 0xF0) * 262144 + (b.toNat - 0x80) * 4096 + (c.toNat - 0x80) * 64 +
      (d.toNat - 0x80)).isValidChar := .inr ⟨by omega, by omega⟩
  refine ⟨Char.ofNatAux _ hvalid, ?_⟩
  unfold String.utf8EncodeChar
  rw [val_ofNatAux, if_neg (by omega), if_neg (by omega), if_neg (by omega),
    eq_ofNat (b := a) (by omega), eq_ofNat (b := b) (by omega), eq_ofNat (b := c) (by omega),
    eq_ofNat (b := d) (by omega)]

/-! ## texts -/

def encode (cs : List Char) : Bytes := cs.flatMap String.utf8EncodeChar

@[simp] theorem encode_nil : encode [] = [] := rfl

theorem encode_cons (c : Char) (cs : List Char) :
    encode (c :: cs) = String.utf8EncodeChar c ++ encode cs := List.flatMap_cons

theorem encode_append (cs ds : List Char) : encode (cs ++ ds) = encode cs ++ encode ds :=
  List.flatMap_append

theorem asBytes_ofList (cs : List Char) : asBytes (String.ofList cs) = encode cs := by
  unfold asBytes encode
  rw [String.toByteArray_ofList]
  unfold List.utf8Encode
  rw [List.data_toByteArray]

theorem fromUtf8_encode (cs : List Char) : fromUtf8 (encode cs) = some (String.ofList cs) := by
  rw [← asBytes_ofList, fromUtf8_asBytes]

def Inside (cs : List Char) (i : Nat) : Prop :=
  ∃ pre c post, cs = pre ++ c :: post ∧ (encode pre).length < i ∧ i < (encode (pre ++ [c])).length

theorem inside_cons_of_lt {c : Char} {cs : List Char} {i : Nat}
    (hi : i < (String.utf8EncodeChar c).length) : Inside (c :: cs) i ↔ 0 < i := by
  constructor
  · intro ⟨pre, c', post, _, hlow, _⟩
    omega
  · intro hpos
    refine ⟨[], c, cs, rfl, hpos, ?_⟩
    rw [List.nil_append, encode_cons, encode_nil, List.append_nil]
    exact hi

theorem inside_cons_of_le {c : Char} {cs : List Char} {i : Nat}
    (hi : (String.utf8EncodeChar c).length ≤ i) :
    Inside (c :: cs) i ↔ Inside cs (i - (String.utf8EncodeChar c).length) := by
  constructor
  · intro ⟨pre, c', post, heq, hlow, hhigh⟩
    cases pre with
    | nil =>
      obtain ⟨rfl, rfl⟩ := List.cons.inj heq
      rw [List.nil_append, encode_cons, encode_nil, List.append_nil] at hhigh
      omega
    | cons d pre =>
      obtain ⟨rfl, rfl⟩ := List.cons.inj heq
      rw [encode_cons, List.length_append] at hlow
      rw [List.cons_append, encode_cons, List.length_append] at hhigh
      exact ⟨pre, c', post, rfl, by omega, by omega⟩
  · rintro ⟨pre, c', post, rfl, hlow, hhigh⟩
    refine ⟨c :: pre, c', post, rfl, ?_, ?_⟩
    · rw [encode_cons, List.length_append]
      omega
    · rw [List.cons_append, encode_cons, List.length_append]
      omega

/-- an index lies inside a character just if its byte continues one -/
theorem inside_iff {cs : List Char} {i : Nat} :
    Inside cs i ↔ ∃ b, (encode cs)[i]? = some b ∧ Continues b := by
  induction cs generalizing i with
  | nil =>
    constructor
    · intro ⟨pre, c, post, heq, _⟩
      simp at heq
    · intro ⟨b, hb, _⟩
      cases hb
  | cons c cs ih =>
    by_cases hi : i < (String.utf8EncodeChar c).length
    · rw [inside_cons_of_lt hi, encode_cons, List.getElem?_append_left hi]
      obtain ⟨b, bs, hshape, hfirst, hrest⟩ := encode_shape c
      rw [hshape]
      cases i with
      | zero => simp [hfirst]
      | succ i =>
        rw [hshape, List.length_cons] at hi
        have hi : i < bs.length := by omega
        simp only [List.getElem?_cons_succ, List.getElem?_eq_getElem hi, Nat.zero_lt_succ, true_iff]
        exact ⟨bs[i], rfl, hrest _ (List.getElem_mem hi)⟩
    · rw [inside_cons_of_le (by omega), encode_cons, List.getElem?_append_right (by omega), ih]

theorem inside_lt {cs : List Char} {i : Nat} (h : Inside cs i) : i < (encode cs).length := by
  obtain ⟨b, hb, _⟩ := inside_iff.mp h
  exact (List.getElem?_eq_some_iff.mp hb).1

theorem encode_length_pos {cs : List Char} (h : cs ≠ []) : 0 < (encode cs).length := by
  cases cs with
  | nil => exact absurd rfl h
  | cons c cs =>
    obtain ⟨b, bs, hshape, _⟩ := encode_shape c
    rw [encode_cons, hshape]
    exact Nat.succ_pos _

/-- the end of a part of the text lies inside no character -/
theorem not_inside_append {pre post : List Char} : ¬ Inside (pre ++ post) (encode pre).length := by
  rw [inside_iff, encode_append, List.getElem?_append_right (Nat.le_refl _), Nat.sub_self]
  intro ⟨b, hb, hcont⟩
  cases post with
  | nil => cases hb
  | cons c post =>
    obtain ⟨a, bs, hshape, hfirst, _⟩ := encode_shape c
    rw [encode_cons, hshape] at hb
    cases hb
    exact hfirst hcont

end Encoding.Utf8
