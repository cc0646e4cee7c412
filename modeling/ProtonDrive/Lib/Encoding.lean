import Mathlib.Tactic.Common
import Mathlib.Tactic.IntervalCases
import Mathlib.Data.List.Basic

/-!
# Bytes as text: UTF-8, base64 and hexadecimal

* `asBytes`, `fromUtf8`        the UTF-8 bytes of a string and back (`fromUtf8_asBytes`);
* `Base64.encode`, `decode`    RFC 4648 base64 with padding.  Decoding is strict: padding is
                               required and the bits it stands for must be zero
                               (`Base64.decode_encode`);
* `Base64.decode_of_not_symbol`  a text whose first byte is outside the alphabet is no base64;
* `Base64.decodeLoose`         white space is skipped, padding may be missing, and the bits it stands for
                               are ignored (`Base64.decodeLoose_encode`);
* `Hex.encode`, `Hex.decode`   lower-case digits out, both cases in (`Hex.decode_encode`).
-/

set_option linter.unusedVariables false

namespace Encoding

abbrev Bytes := List UInt8

/-! ## UTF-8 -/

def asBytes (s : String) : Bytes := s.toByteArray.data.toList

def fromUtf8 (bs : Bytes) : Option String := String.fromUTF8? ⟨bs.toArray⟩

@[simp] theorem fromUtf8_asBytes (s : String) : fromUtf8 (asBytes s) = some s := by
  unfold fromUtf8 asBytes String.fromUTF8?
  have h : (⟨s.toByteArray.data.toList.toArray⟩ : ByteArray) = s.toByteArray := by simp
  rw [h, dif_pos s.isValidUTF8]
  rfl

theorem asBytes_injective {s t : String} (h : asBytes s = asBytes t) : s = t := by
  have hs := fromUtf8_asBytes s
  rw [h, fromUtf8_asBytes] at hs
  exact (Option.some.inj hs).symm

theorem asBytes_append (s t : String) : asBytes (s ++ t) = asBytes s ++ asBytes t := by
  simp [asBytes]

theorem asBytes_join (l : List String) : asBytes (String.join l) = (l.map asBytes).flatten := by
  have key : ∀ (l : List String) (acc : String),
      asBytes (l.foldl (· ++ ·) acc) = asBytes acc ++ (l.map asBytes).flatten := by
    intro l
    induction l with
    | nil => intro acc; simp
    | cons s l ih =>
      intro acc
      rw [List.foldl_cons, ih, asBytes_append, List.map_cons, List.flatten_cons, List.append_assoc]
  exact key l ""

/-- an ASCII byte as a character -/
def ascii (b : UInt8) : Char := Char.ofNat b.toNat

theorem utf8Encode_ascii (b : UInt8) (hb : b.toNat < 128) :
    String.utf8EncodeChar (ascii b) = [b] := by
  have hv : (ascii b).val.toNat = b.toNat := by
    unfold ascii
    rw [Char.ofNat, dif_pos (Or.inl (by omega))]
    rfl
  have h1 : (ascii b).utf8Size = 1 := by
    rw [Char.utf8Size_eq_one_iff, UInt32.le_iff_toNat_le, hv]
    have h127 : (127 : UInt32).toNat = 127 := rfl
    omega
  rw [String.utf8EncodeChar_eq_singleton h1]
  congr 1
  apply UInt8.toNat_inj.mp
  rw [UInt32.toNat_toUInt8, hv]
  exact Nat.mod_eq_of_lt b.toNat_lt

/-- the string with the given ASCII bytes -/
def ofAscii (bs : Bytes) : String := String.ofList (bs.map ascii)

theorem asBytes_ofAscii (bs : Bytes) (h : ∀ b ∈ bs, b.toNat < 128) : asBytes (ofAscii bs) = bs := by
  have hf : ∀ l : Bytes, (∀ b ∈ l, b.toNat < 128) →
      (l.map ascii).flatMap String.utf8EncodeChar = l := by
    intro l
    induction l with
    | nil => intro _; rfl
    | cons b l ih =>
      intro hl
      rw [List.map_cons, List.flatMap_cons, utf8Encode_ascii b (hl b List.mem_cons_self),
        ih fun b' hb' => hl b' (List.mem_cons_of_mem _ hb')]
      rfl
  show (String.ofList (bs.map ascii)).toByteArray.data.toList = bs
  rw [String.toByteArray_ofList]
  unfold List.utf8Encode
  rw [hf bs h, List.data_toByteArray]

/-! ## base64 -/

namespace Base64

/-- the `i`-th character of the alphabet -/
def sym (i : Nat) : UInt8 :=
  if i < 26 then UInt8.ofNat (65 + i)
  else if i < 52 then UInt8.ofNat (97 + (i - 26))
  else if i < 62 then UInt8.ofNat (48 + (i - 52))
  else if i = 62 then 43 else 47

/-- the value of a character of the alphabet -/
def val (c : UInt8) : Option Nat :=
  if 65 ≤ c.toNat ∧ c.toNat ≤ 90 then some (c.toNat - 65)
  else if 97 ≤ c.toNat ∧ c.toNat ≤ 122 then some (c.toNat - 97 + 26)
  else if 48 ≤ c.toNat ∧ c.toNat ≤ 57 then some (c.toNat - 48 + 52)
  else if c.toNat = 43 then some 62
  else if c.toNat = 47 then some 63
  else none

/-- the padding character -/
def pad : UInt8 := 61

def encodeBytes : Bytes → Bytes
  | a :: b :: c :: rest =>
    sym (a.toNat / 4) :: sym (a.toNat % 4 * 16 + b.toNat / 16) ::
      sym (b.toNat % 16 * 4 + c.toNat / 64) :: sym (c.toNat % 64) :: encodeBytes rest
  | [a, b] =>
    [sym (a.toNat / 4), sym (a.toNat % 4 * 16 + b.toNat / 16), sym (b.toNat % 16 * 4), pad]
  | [a] => [sym (a.toNat / 4), sym (a.toNat % 4 * 16), pad, pad]
  | [] => []

/-- four characters without padding -/
def quad (p q r s : UInt8) : Option Bytes := do
  let i ← val p
  let j ← val q
  let k ← val r
  let l ← val s
  return [UInt8.ofNat (i * 4 + j / 16), UInt8.ofNat (j % 16 * 16 + k / 4),
    UInt8.ofNat (k % 4 * 64 + l)]

/-- the last four characters: zero, one or two of them padding -/
def lastQuad (p q r s : UInt8) : Option Bytes :=
  if s = pad then
    if r = pad then do
      let i ← val p
      let j ← val q
      if j % 16 = 0 then return [UInt8.ofNat (i * 4 + j / 16)] else none
    else do
      let i ← val p
      let j ← val q
      let k ← val r
      if k % 4 = 0 then
        return [UInt8.ofNat (i * 4 + j / 16), UInt8.ofNat (j % 16 * 16 + k / 4)]
      else none
  else quad p q r s

def decodeBytes : Bytes → Option Bytes
  | [] => some []
  | [p, q, r, s] => lastQuad p q r s
  | p :: q :: r :: s :: rest => do
    let bs ← quad p q r s
    let bs' ← decodeBytes rest
    return bs ++ bs'
  | _ => none

def encode (bs : Bytes) : String := ofAscii (encodeBytes bs)

def decode (s : String) : Option Bytes := decodeBytes (asBytes s)

theorem sym_lt (i : Nat) : (sym i).toNat < 128 := by
  unfold sym
  split
  · rw [UInt8.toNat_ofNat']; omega
  · split
    · rw [UInt8.toNat_ofNat']; omega
    · split
      · rw [UInt8.toNat_ofNat']; omega
      · split <;> decide

theorem val_sym (i : Nat) (hi : i < 64) : val (sym i) = some i := by
  interval_cases i <;> rfl

theorem sym_ne_pad (i : Nat) (hi : i < 64) : sym i ≠ pad := by
  intro h
  have := val_sym i hi
  rw [h] at this
  cases this

theorem quad_sym {i j k l : Nat} (hi : i < 64) (hj : j < 64) (hk : k < 64) (hl : l < 64) :
    quad (sym i) (sym j) (sym k) (sym l) =
      some [UInt8.ofNat (i * 4 + j / 16), UInt8.ofNat (j % 16 * 16 + k / 4),
        UInt8.ofNat (k % 4 * 64 + l)] := by
  unfold quad
  rw [val_sym i hi, val_sym j hj, val_sym k hk, val_sym l hl]
  rfl

theorem ofNat_eq {b : UInt8} {n : Nat} (h : n = b.toNat) : UInt8.ofNat n = b := by
  rw [h]
  exact UInt8.ofNat_toNat

/-- the four characters of three bytes -/
theorem quad_encode (a b c : UInt8) :
    quad (sym (a.toNat / 4)) (sym (a.toNat % 4 * 16 + b.toNat / 16))
      (sym (b.toNat % 16 * 4 + c.toNat / 64)) (sym (c.toNat % 64)) = some [a, b, c] := by
  have ha := a.toNat_lt
  have hb := b.toNat_lt
  have hc := c.toNat_lt
  rw [quad_sym (by omega) (by omega) (by omega) (by omega)]
  rw [ofNat_eq (b := a) (by omega), ofNat_eq (b := b) (by omega), ofNat_eq (b := c) (by omega)]

theorem decodeBytes_cons (p q r s : UInt8) (rest : Bytes) (h : rest ≠ []) :
    decodeBytes (p :: q :: r :: s :: rest) =
      (do let bs ← quad p q r s; let bs' ← decodeBytes rest; return bs ++ bs') := by
  cases rest with
  | nil => exact absurd rfl h
  | cons t rest => rfl

theorem lastQuad_of_ne {p q r s : UInt8} (hs : s ≠ pad) : lastQuad p q r s = quad p q r s :=
  if_neg hs

theorem decodeBytes_encodeBytes (bs : Bytes) : decodeBytes (encodeBytes bs) = some bs := by
  induction bs using encodeBytes.induct with
  | case1 a b c rest ih =>
    have hq := quad_encode a b c
    unfold encodeBytes
    by_cases hr : encodeBytes rest = []
    · rw [hr] at ih ⊢
      cases ih
      show lastQuad _ _ _ _ = _
      rw [lastQuad_of_ne (sym_ne_pad _ (by omega)), hq]
    · rw [decodeBytes_cons _ _ _ _ _ hr, hq, ih]
      rfl
  | case2 a b =>
    have ha := a.toNat_lt
    have hb := b.toNat_lt
    show lastQuad _ _ _ _ = _
    unfold lastQuad
    rw [if_pos rfl, if_neg (sym_ne_pad _ (by omega)), val_sym _ (by omega), val_sym _ (by omega),
      val_sym _ (by omega)]
    show (if b.toNat % 16 * 4 % 4 = 0 then _ else _) = _
    rw [if_pos (by omega), ofNat_eq (b := a) (by omega), ofNat_eq (b := b) (by omega)]
    rfl
  | case3 a =>
    have ha := a.toNat_lt
    show lastQuad _ _ _ _ = _
    unfold lastQuad
    rw [if_pos rfl, if_pos rfl, val_sym _ (by omega), val_sym _ (by omega)]
    show (if a.toNat % 4 * 16 % 16 = 0 then _ else _) = _
    rw [if_pos (by omega), ofNat_eq (b := a) (by omega)]
    rfl
  | case4 => rfl

/-- what holds of the alphabet and of the padding holds of every character of an encoding -/
theorem encodeBytes_forall {P : UInt8 → Prop} (hsym : ∀ i, P (sym i)) (hpad : P pad) (bs : Bytes) :
    ∀ c ∈ encodeBytes bs, P c := by
  induction bs using encodeBytes.induct with
  | case1 a b c rest ih =>
    intro x hx
    unfold encodeBytes at hx
    simp only [List.mem_cons] at hx
    rcases hx with rfl | rfl | rfl | rfl | hx
    · exact hsym _
    · exact hsym _
    · exact hsym _
    · exact hsym _
    · exact ih x hx
  | case2 a b =>
    intro x hx
    simp only [encodeBytes, List.mem_cons, List.not_mem_nil, or_false] at hx
    rcases hx with rfl | rfl | rfl | rfl
    · exact hsym _
    · exact hsym _
    · exact hsym _
    · exact hpad
  | case3 a =>
    intro x hx
    simp only [encodeBytes, List.mem_cons, List.not_mem_nil, or_false] at hx
    rcases hx with rfl | rfl | rfl | rfl
    · exact hsym _
    · exact hsym _
    · exact hpad
    · exact hpad
  | case4 => intro x hx; cases hx

theorem encodeBytes_ascii (bs : Bytes) : ∀ c ∈ encodeBytes bs, c.toNat < 128 :=
  encodeBytes_forall sym_lt (by decide) bs

theorem decode_encode (bs : Bytes) : decode (encode bs) = some bs := by
  unfold decode encode
  rw [asBytes_ofAscii _ (encodeBytes_ascii bs), decodeBytes_encodeBytes]

/-- a text that starts outside the alphabet is no base64 -/
theorem decode_of_not_symbol {s : String} {b : UInt8} {bs : Bytes} (hs : asBytes s = b :: bs)
    (hb : val b = none) : decode s = none := by
  have hquad : ∀ q r t, quad b q r t = none := by
    intro q r t
    unfold quad
    rw [hb]
    rfl
  unfold decode
  rw [hs]
  match bs with
  | [] => rfl
  | [_] => rfl
  | [_, _] => rfl
  | [q, r, t] =>
    show lastQuad b q r t = none
    unfold lastQuad
    rw [hb, hquad]
    simp
  | q :: r :: t :: u :: rest =>
    rw [decodeBytes_cons _ _ _ _ _ (by simp), hquad]
    rfl

/-! ### the loose reading -/

/-- ASCII white space -/
def isSpace (c : UInt8) : Bool := c = 9 || c = 10 || c = 12 || c = 13 || c = 32

/-- two characters that may be followed by padding -/
def loosePair (p q : UInt8) : Option Bytes := do
  let i ← val p
  let j ← val q
  return [UInt8.ofNat (i * 4 + j / 16)]

/-- three characters that may be followed by padding -/
def looseTriple (p q r : UInt8) : Option Bytes := do
  let i ← val p
  let j ← val q
  let k ← val r
  return [UInt8.ofNat (i * 4 + j / 16), UInt8.ofNat (j % 16 * 16 + k / 4)]

def looseQuad (p q r s : UInt8) : Option Bytes :=
  if s = pad then if r = pad then loosePair p q else looseTriple p q r else quad p q r s

def decodeLooseBytes : Bytes → Option Bytes
  | [] => some []
  | [p, q] => loosePair p q
  | [p, q, r] => looseTriple p q r
  | [p, q, r, s] => looseQuad p q r s
  | p :: q :: r :: s :: rest => do
    let bs ← quad p q r s
    let bs' ← decodeLooseBytes rest
    return bs ++ bs'
  | _ => none

def decodeLoose (s : String) : Option Bytes := decodeLooseBytes ((asBytes s).filter fun c => !isSpace c)

theorem decodeLooseBytes_cons (p q r s : UInt8) (rest : Bytes) (h : rest ≠ []) :
    decodeLooseBytes (p :: q :: r :: s :: rest) =
      (do let bs ← quad p q r s; let bs' ← decodeLooseBytes rest; return bs ++ bs') := by
  cases rest with
  | nil => exact absurd rfl h
  | cons t rest => rfl

theorem decodeLooseBytes_encodeBytes (bs : Bytes) : decodeLooseBytes (encodeBytes bs) = some bs := by
  induction bs using encodeBytes.induct with
  | case1 a b c rest ih =>
    have hq := quad_encode a b c
    unfold encodeBytes
    by_cases hr : encodeBytes rest = []
    · rw [hr] at ih ⊢
      cases ih
      show looseQuad _ _ _ _ = _
      unfold looseQuad
      rw [if_neg (sym_ne_pad _ (by omega)), hq]
    · rw [decodeLooseBytes_cons _ _ _ _ _ hr, hq, ih]
      rfl
  | case2 a b =>
    have ha := a.toNat_lt
    have hb := b.toNat_lt
    show looseQuad _ _ _ _ = _
    unfold looseQuad looseTriple
    rw [if_pos rfl, if_neg (sym_ne_pad _ (by omega)), val_sym _ (by omega), val_sym _ (by omega),
      val_sym _ (by omega)]
    show some [UInt8.ofNat _, UInt8.ofNat _] = _
    rw [ofNat_eq (b := a) (by omega), ofNat_eq (b := b) (by omega)]
  | case3 a =>
    have ha := a.toNat_lt
    show looseQuad _ _ _ _ = _
    unfold looseQuad loosePair
    rw [if_pos rfl, if_pos rfl, val_sym _ (by omega), val_sym _ (by omega)]
    show some [UInt8.ofNat _] = _
    rw [ofNat_eq (b := a) (by omega)]
  | case4 => rfl

theorem isSpace_sym (i : Nat) : isSpace (sym i) = false := by
  unfold sym
  split
  · rename_i hi
    interval_cases i <;> rfl
  · split
    · rename_i _ hi
      interval_cases i <;> rfl
    · split
      · rename_i _ _ hi
        interval_cases i <;> rfl
      · split <;> rfl

theorem decodeLoose_encode (bs : Bytes) : decodeLoose (encode bs) = some bs := by
  have hspace : ∀ c ∈ encodeBytes bs, isSpace c = false :=
    encodeBytes_forall (P := fun c => isSpace c = false) isSpace_sym rfl bs
  unfold decodeLoose encode
  rw [asBytes_ofAscii _ (encodeBytes_ascii bs), List.filter_eq_self.mpr fun c hc => by rw [hspace c hc]; rfl,
    decodeLooseBytes_encodeBytes]

end Base64

/-! ## hexadecimal -/

namespace Hex

/-- the lower-case digit of a value below 16 -/
def digit (n : Nat) : Char := if n < 10 then Char.ofNat (48 + n) else Char.ofNat (87 + n)

def val (c : Char) : Option Nat :=
  let n := c.toNat
  if 48 ≤ n ∧ n ≤ 57 then some (n - 48)
  else if 97 ≤ n ∧ n ≤ 102 then some (n - 87)
  else if 65 ≤ n ∧ n ≤ 70 then some (n - 55)
  else none

def encodeBytes : Bytes → List Char
  | [] => []
  | b :: bs => digit (b.toNat / 16) :: digit (b.toNat % 16) :: encodeBytes bs

def decodeChars : List Char → Option Bytes
  | [] => some []
  | a :: b :: rest => do
    let i ← val a
    let j ← val b
    let bs ← decodeChars rest
    return UInt8.ofNat (i * 16 + j) :: bs
  | [_] => none

def encode (bs : Bytes) : String := String.ofList (encodeBytes bs)

def decode (s : String) : Option Bytes := decodeChars s.toList

theorem val_digit (n : Nat) (hn : n < 16) : val (digit n) = some n := by
  interval_cases n <;> rfl

theorem decodeChars_encodeBytes (bs : Bytes) : decodeChars (encodeBytes bs) = some bs := by
  induction bs with
  | nil => rfl
  | cons b bs ih =>
    have hb := b.toNat_lt
    unfold encodeBytes decodeChars
    rw [val_digit _ (by omega), val_digit _ (by omega), ih]
    show some (UInt8.ofNat (b.toNat / 16 * 16 + b.toNat % 16) :: bs) = _
    rw [Base64.ofNat_eq (b := b) (by omega)]

theorem decode_encode (bs : Bytes) : decode (encode bs) = some bs := by
  unfold decode encode
  rw [String.toList_ofList, decodeChars_encodeBytes]

end Hex

end Encoding
