import ProtonDrive.App.Account
import ProtonDrive.Lib.Crc

/-!
# Armor, written and read

`armor` is written by the crypto crate, `dearmorPgp` reads it in the account.

* `ArmorHeader`, `Dressed`   the text of an armored message with header lines, with line ends of either
                             kind, between white space;
* `starts_encodeBytes`       padding never stands where a line of 64 columns begins;
* `dearmorBody_armored`      what is left of the lines is the base64;
* `crc24_eq`                 the loop of `crc24` is the register of `Crc`.
-/

set_option linter.unusedVariables false

namespace ProtonDrive
open Encoding

/-! ## the lines of an armored text -/

/-- `Key: value`, the key being a word -/
structure ArmorHeader where
  key : List Char
  value : List Char
  word : ' ' ∉ key ∧ '\n' ∉ key
  oneLine : '\n' ∉ value

def ArmorHeader.line (h : ArmorHeader) : List Char := h.key ++ ": ".toList ++ h.value

def beginLine (kind : ArmorKind) : List Char := ("-----BEGIN " ++ kind.label ++ "-----").toList

def endLine (kind : ArmorKind) : List Char := ("-----END " ++ kind.label ++ "-----").toList

def bodyLines (binary : Bytes) : List (List Char) :=
  (chunks64 (Base64.encodeBytes binary).length (Base64.encodeBytes binary)).map (·.map ascii)

/-- the three bytes of the checksum -/
def checksumBytes (binary : Bytes) : Bytes :=
  [(crc24 binary >>> 16).toUInt8, (crc24 binary >>> 8).toUInt8, (crc24 binary).toUInt8]

def checksumLine (binary : Bytes) : List Char := '=' :: (Base64.encode (checksumBytes binary)).toList

def armoredLines (binary : Bytes) (kind : ArmorKind) (headers : List ArmorHeader) :
    List (List Char) :=
  beginLine kind :: headers.map (·.line) ++ [] :: bodyLines binary ++
    [checksumLine binary, endLine kind]

/-- the text of an armored message with more header lines, each line ending as it likes, between
white space -/
structure Dressed (binary : Bytes) (kind : ArmorKind) (text : String) where
  headers : List ArmorHeader
  lines : List (List Char × Bool)
  before : List Char
  after : List Char
  lines_eq : lines.map Prod.fst = armoredLines binary kind headers
  before_blank : ∀ c ∈ before, Strings.isWhitespace c = true
  after_blank : ∀ c ∈ after, Strings.isWhitespace c = true
  text_eq : text.toList = before ++ Strings.joined lines ++ after

section
variable (binary : Bytes) (kind : ArmorKind)

theorem joined_bodyLines : Strings.joined ((bodyLines binary).map fun l => (l, false)) =
    (armorLines (Base64.encodeBytes binary)).toList := by
  unfold bodyLines armorLines
  rw [String.toList_join]
  induction chunks64 _ (Base64.encodeBytes binary) with
  | nil => rfl
  | cons chunk chunks ih =>
    simp only [List.map_cons, Strings.joined, List.flatMap_cons, ← ih, String.toList_append]
    show chunk.map ascii ++ ['\n'] ++ _ = (ofAscii chunk).toList ++ ['\n'] ++ _
    unfold ofAscii
    rw [String.toList_ofList]

/-- armor as it is written: its lines, each with a line feed -/
theorem armor_toList : (armor binary kind).toList =
    Strings.joined ((armoredLines binary kind []).map fun l => (l, false)) := by
  have hjoined (ls ms : List (List Char × Bool)) :
      Strings.joined (ls ++ ms) = Strings.joined ls ++ Strings.joined ms := by
    induction ls with
    | nil => rfl
    | cons l ls ih => simp only [List.cons_append, Strings.joined, ih, List.append_assoc]
  have hlines : (armoredLines binary kind []).map (fun l => (l, false)) =
      [(beginLine kind, false), ([], false)] ++ (bodyLines binary).map (fun l => (l, false)) ++
        [(checksumLine binary, false), (endLine kind, false)] := by
    unfold armoredLines
    simp
  rw [hlines, hjoined, hjoined, joined_bodyLines]
  simp only [armor, armorHead, armorTail, String.toList_append, beginLine, endLine, checksumLine,
    Strings.joined, Strings.lineEnd, List.append_assoc, List.nil_append, List.append_nil]
  rfl

variable {kind} in
/-- the lines of an armored message, all ending alike -/
def Dressed.uniform (headers : List ArmorHeader) (e : Bool) (before after : List Char)
    (hbefore : ∀ c ∈ before, Strings.isWhitespace c = true)
    (hafter : ∀ c ∈ after, Strings.isWhitespace c = true) {text : String}
    (htext : text.toList = before ++
      Strings.joined ((armoredLines binary kind headers).map fun l => (l, e)) ++ after) :
    Dressed binary kind text where
  headers := headers
  lines := (armoredLines binary kind headers).map fun l => (l, e)
  before := before
  after := after
  lines_eq := by
    rw [List.map_map]
    exact List.map_id _
  before_blank := hbefore
  after_blank := hafter
  text_eq := htext

/-- armor as it is written is such a text -/
def dressed_armor : Dressed binary kind (armor binary kind) :=
  .uniform binary [] false [] [] (fun _ h => nomatch h) (fun _ h => nomatch h) (by
    rw [armor_toList, List.nil_append, List.append_nil])

/-! ## where padding stands -/

/-- a text whose every fourth character, from the first on, is one of the alphabet -/
def Aligned (bs : Bytes) : Prop := ∀ k c, bs[4 * k]? = some c → ∃ i < 64, c = Base64.sym i

theorem aligned_encodeBytes : Aligned (Base64.encodeBytes binary) := by
  have hcons {p q r s : UInt8} {rest : Bytes} (hp : ∃ i < 64, p = Base64.sym i)
      (hrest : Aligned rest) : Aligned (p :: q :: r :: s :: rest) := by
    intro k c hc
    cases k with
    | zero =>
      obtain rfl : p = c := Option.some.inj hc
      exact hp
    | succ k => exact hrest k c hc
  have hnil : Aligned [] := fun _ _ h => nomatch h
  have hbyte (a : UInt8) : ∃ i < 64, Base64.sym (a.toNat / 4) = Base64.sym i := by
    have ha := a.toNat_lt
    exact ⟨a.toNat / 4, by omega, rfl⟩
  induction binary using Base64.encodeBytes.induct with
  | case1 a b c rest ih => exact hcons (hbyte a) ih
  | case2 a b => exact hcons (hbyte a) hnil
  | case3 a => exact hcons (hbyte a) hnil
  | case4 => exact hnil

variable {binary kind}

theorem Aligned.drop {bs : Bytes} (h : Aligned bs) : Aligned (bs.drop 64) := by
  intro k c hc
  rw [List.getElem?_drop, show 64 + 4 * k = 4 * (16 + k) by omega] at hc
  exact h _ c hc

/-- a line of 64 columns begins with a character of the alphabet -/
theorem starts_chunks64 {bs : Bytes} (h : Aligned bs) (fuel : Nat) :
    ∀ chunk ∈ chunks64 fuel bs, ∃ i < 64, ∃ rest, chunk = Base64.sym i :: rest := by
  induction fuel generalizing bs with
  | zero => exact fun _ h => nomatch h
  | succ fuel ih =>
    cases bs with
    | nil => exact fun _ h => nomatch h
    | cons b bs =>
      intro chunk hchunk
      obtain rfl | hchunk := List.mem_cons.mp hchunk
      · obtain ⟨i, hi, hb⟩ := h 0 b rfl
        exact ⟨i, hi, bs.take 63, by rw [← hb]; rfl⟩
      · exact ih h.drop chunk hchunk

/-- the characters of base64 -/
theorem mem_chunks64 {bs : Bytes} (fuel : Nat) {chunk : Bytes} (h : chunk ∈ chunks64 fuel bs) :
    chunk ⊆ bs := by
  induction fuel generalizing bs with
  | zero => cases h
  | succ fuel ih =>
    cases bs with
    | nil => cases h
    | cons b bs =>
      obtain rfl | h := List.mem_cons.mp h
      · exact List.take_subset _ _
      · exact fun c hc => List.drop_subset _ _ (ih h hc)

/-- no white space, no hyphen -/
def Solid (c : Char) : Prop := Strings.isWhitespace c = false ∧ c ≠ '\n' ∧ c ≠ '-'

theorem solid_sym (i : Nat) : Solid (ascii (Base64.sym i)) ∧ ascii (Base64.sym i) ≠ '=' := by
  have hbelow : ∀ i < 64, Solid (ascii (Base64.sym i)) ∧ ascii (Base64.sym i) ≠ '=' := by
    intro i hi
    interval_cases i <;> exact ⟨⟨rfl, by decide, by decide⟩, by decide⟩
  by_cases hi : i < 64
  · exact hbelow i hi
  · have hslash : Base64.sym i = Base64.sym 63 := by
      unfold Base64.sym
      rw [if_neg (by omega), if_neg (by omega), if_neg (by omega), if_neg (by omega)]
      rfl
    rw [hslash]
    exact hbelow 63 (by omega)

theorem solid_encodeBytes (bs : Bytes) : ∀ c ∈ Base64.encodeBytes bs, Solid (ascii c) :=
  Base64.encodeBytes_forall (P := fun c => Solid (ascii c)) (fun i => (solid_sym i).1)
    ⟨rfl, by decide, by decide⟩ bs

/-- a line of the body: solid, and it begins neither with padding nor with a hyphen -/
theorem bodyLines_spec {line : List Char} (h : line ∈ bodyLines binary) :
    (∀ c ∈ line, Solid c) ∧ ∃ c rest, line = c :: rest ∧ c ≠ '=' := by
  obtain ⟨chunk, hchunk, rfl⟩ := List.mem_map.mp h
  constructor
  · intro c hc
    obtain ⟨b, hb, rfl⟩ := List.mem_map.mp hc
    exact solid_encodeBytes binary b (mem_chunks64 _ hchunk hb)
  · obtain ⟨i, _, rest, rfl⟩ := starts_chunks64 (aligned_encodeBytes binary) _ chunk hchunk
    exact ⟨_, _, rfl, (solid_sym i).2⟩

theorem flatten_bodyLines :
    (bodyLines binary).flatten = (Base64.encodeBytes binary).map ascii := by
  unfold bodyLines
  rw [← List.map_flatten, flatten_chunks64 _ _ (Nat.le_refl _)]

/-! ## the reading of the lines -/

theorem dearmorBody_congr {ls ms : List (List Char)}
    (h : ls.map Strings.trimEnd = ms.map Strings.trimEnd) (inBody seenBlank : Bool)
    (body : List Char) : dearmorBody inBody seenBlank body ls = dearmorBody inBody seenBlank body ms := by
  induction ls generalizing ms inBody seenBlank body with
  | nil =>
    rw [List.map_eq_nil_iff.mp h.symm]
  | cons l ls ih =>
    cases ms with
    | nil => cases h
    | cons m ms =>
      obtain ⟨hline, hrest⟩ := List.cons.inj h
      simp only [dearmorBody, hline, ih hrest]

theorem not_prefix_of_head {a c : Char} {part rest : List Char} (h : c ≠ a) :
    (a :: part).isPrefixOf (c :: rest) = false := by
  rw [List.isPrefixOf_cons_cons, beq_eq_false_iff_ne.mpr h.symm, Bool.false_and]

/-- a part with a blank and no colon is no prefix of a header line -/
theorem ArmorHeader.not_prefix (header : ArmorHeader) (part : List Char) (hblank : ' ' ∈ part)
    (hcolon : ':' ∉ part) : part.isPrefixOf (Strings.trimEnd header.line) = false := by
  refine Bool.eq_false_iff.mpr fun h => ?_
  have hline : part <+: header.key ++ ':' :: (' ' :: header.value) := by
    have hbegins := (List.isPrefixOf_iff_prefix.mp h).trans (Strings.trimEnd_prefix header.line)
    have hsplit : header.line = header.key ++ ':' :: (' ' :: header.value) := List.append_assoc _ _ _
    rw [hsplit] at hbegins
    exact hbegins
  obtain hkey | hkey := List.prefix_or_prefix_of_prefix hline (List.prefix_append header.key _)
  · exact header.word.1 (hkey.subset hblank)
  · obtain ⟨rest, rfl⟩ := hkey
    have hrest := (List.prefix_append_right_inj header.key).mp hline
    cases rest with
    | nil =>
      rw [List.append_nil] at hblank
      exact header.word.1 hblank
    | cons c rest =>
      obtain rfl : c = ':' := (List.cons_prefix_cons.mp hrest).1
      exact hcolon (List.mem_append_right _ List.mem_cons_self)

variable (body : List Char) (rest : List (List Char))

theorem dearmorBody_begin (kind : ArmorKind) :
    dearmorBody false false body (beginLine kind :: rest) = dearmorBody true false body rest := by
  have hbegin : "-----BEGIN PGP".toList.isPrefixOf (Strings.trimEnd (beginLine kind)) = true := by
    cases kind <;> decide
  simp only [dearmorBody, hbegin, if_true]

theorem dearmorBody_header (header : ArmorHeader) :
    dearmorBody true false body (header.line :: rest) = dearmorBody true false body rest := by
  have hbegin := header.not_prefix "-----BEGIN PGP".toList (by decide) (by decide)
  have hend := header.not_prefix "-----END PGP".toList (by decide) (by decide)
  have hne : (Strings.trimEnd header.line).isEmpty = false := by
    have hcolon : ':' ∈ header.line :=
      List.mem_append_left _ (List.mem_append_right _ List.mem_cons_self)
    exact List.isEmpty_eq_false_iff.mpr (Strings.trimEnd_ne_nil hcolon rfl)
  simp only [dearmorBody, hbegin, hend, hne, Bool.not_true, Bool.not_false, Bool.false_eq_true,
    if_false, if_true]

theorem dearmorBody_headers (headers : List ArmorHeader) :
    dearmorBody true false body (headers.map (·.line) ++ [] :: rest) =
      dearmorBody true true body rest := by
  induction headers with
  | nil => rfl
  | cons header headers ih =>
    rw [List.map_cons, List.cons_append, dearmorBody_header, ih]

theorem dearmorBody_line {line : List Char} (h : line ∈ bodyLines binary) :
    dearmorBody true true body (line :: rest) = dearmorBody true true (body ++ line) rest := by
  obtain ⟨hsolid, c, rest', rfl, hpad⟩ := bodyLines_spec h
  have htrim : Strings.trimEnd (c :: rest') = c :: rest' :=
    Strings.trimEnd_of_solid fun x hx => (hsolid x hx).1
  have hhyphen : c ≠ '-' := (hsolid c List.mem_cons_self).2.2
  have hbegin : "-----BEGIN PGP".toList.isPrefixOf (c :: rest') = false :=
    not_prefix_of_head hhyphen
  have hend : "-----END PGP".toList.isPrefixOf (c :: rest') = false := not_prefix_of_head hhyphen
  have hsum : "=".toList.isPrefixOf (c :: rest') = false := not_prefix_of_head hpad
  simp only [dearmorBody, htrim, hbegin, hend, hsum, Bool.not_true, Bool.false_eq_true, if_false]

theorem dearmorBody_lines {lines : List (List Char)} (h : lines ⊆ bodyLines binary) :
    dearmorBody true true body (lines ++ rest) =
      dearmorBody true true (body ++ lines.flatten) rest := by
  induction lines generalizing body with
  | nil => rw [List.flatten_nil, List.append_nil, List.nil_append]
  | cons line lines ih =>
    rw [List.cons_append, dearmorBody_line body _ (h List.mem_cons_self),
      ih _ fun l hl => h (List.mem_cons_of_mem _ hl), List.flatten_cons, List.append_assoc]

/-- the checksum is passed over, and the end line ends -/
theorem dearmorBody_end (kind : ArmorKind) :
    dearmorBody true true body [checksumLine binary, endLine kind] = body := by
  have hsolid : ∀ c ∈ checksumLine binary, Strings.isWhitespace c = false := by
    intro c hc
    obtain rfl | hc := List.mem_cons.mp hc
    · rfl
    · unfold Base64.encode ofAscii at hc
      rw [String.toList_ofList] at hc
      obtain ⟨b, hb, rfl⟩ := List.mem_map.mp hc
      exact (solid_encodeBytes _ b hb).1
  have htrim : Strings.trimEnd (checksumLine binary) = checksumLine binary :=
    Strings.trimEnd_of_solid hsolid
  have hbegin : "-----BEGIN PGP".toList.isPrefixOf (checksumLine binary) = false :=
    not_prefix_of_head (by decide)
  have hend : "-----END PGP".toList.isPrefixOf (checksumLine binary) = false :=
    not_prefix_of_head (by decide)
  have hsum : "=".toList.isPrefixOf (checksumLine binary) = true := by
    unfold checksumLine
    rw [List.isPrefixOf_iff_prefix]
    exact List.prefix_append ['='] _
  have hlast : "-----BEGIN PGP".toList.isPrefixOf (Strings.trimEnd (endLine kind)) = false ∧
      "-----END PGP".toList.isPrefixOf (Strings.trimEnd (endLine kind)) = true := by
    cases kind <;> decide
  simp only [dearmorBody, htrim, hbegin, hend, hsum, hlast.1, hlast.2, Bool.not_true,
    Bool.false_eq_true, if_false, if_true]

theorem dearmorBody_armored (headers : List ArmorHeader) :
    dearmorBody false false [] (armoredLines binary kind headers) =
      (Base64.encodeBytes binary).map ascii := by
  unfold armoredLines
  rw [List.append_assoc, List.cons_append, List.cons_append, dearmorBody_begin,
    dearmorBody_headers, dearmorBody_lines _ _ (List.Subset.refl _), dearmorBody_end,
    flatten_bodyLines, List.nil_append]

/-! ## the whole text -/

theorem armoredLines_oneLine (headers : List ArmorHeader) :
    ∀ line ∈ armoredLines binary kind headers, '\n' ∉ line := by
  intro line hline
  have hchecksum : '\n' ∉ checksumLine binary := by
    intro hn
    have hn := (List.mem_cons.mp hn).resolve_left (by decide)
    unfold Base64.encode ofAscii at hn
    rw [String.toList_ofList] at hn
    obtain ⟨b, hb, heq⟩ := List.mem_map.mp hn
    exact (solid_encodeBytes _ b hb).2.1 heq
  simp only [armoredLines, List.cons_append, List.append_assoc, List.mem_cons, List.mem_append,
    List.not_mem_nil, or_false] at hline
  obtain rfl | hheader | rfl | hbody | rfl | rfl := hline
  · cases kind <;> decide
  · obtain ⟨header, _, rfl⟩ := List.mem_map.mp hheader
    intro hn
    obtain hn | hn := List.mem_append.mp hn
    · obtain hn | hn := List.mem_append.mp hn
      · exact header.word.2 hn
      · exact absurd hn (by decide)
    · exact header.oneLine hn
  · exact List.not_mem_nil
  · exact fun hn => ((bodyLines_spec hbody).1 _ hn).2.1 rfl
  · exact hchecksum
  · cases kind <;> decide

/-- a dressed text without what is around it: its lines up to the end line, which has no end -/
theorem Dressed.trimmed {text : String} (d : Dressed binary kind text) :
    ∃ (e : Bool) (middle : List (List Char × Bool)),
      beginLine kind :: middle.map Prod.fst ++ [endLine kind] =
        armoredLines binary kind d.headers ∧
      Strings.trim text.toList =
        Strings.joined ((beginLine kind, e) :: middle) ++ endLine kind := by
  have hsplit : d.lines.map Prod.fst = beginLine kind :: (d.headers.map (·.line) ++
      [] :: bodyLines binary ++ [checksumLine binary]) ++ [endLine kind] := by
    rw [d.lines_eq]
    unfold armoredLines
    simp only [List.cons_append, List.append_assoc, List.nil_append]
  obtain ⟨front, last, hlines, hfront, hlast⟩ := List.map_eq_append_iff.mp hsplit
  obtain ⟨⟨begin', e⟩, middle, rfl, rfl, hmiddle⟩ := List.map_eq_cons_iff.mp hfront
  obtain ⟨⟨end', e'⟩, rfl, rfl⟩ := List.map_eq_singleton_iff.mp hlast
  refine ⟨e, middle, ?_, ?_⟩
  · rw [← d.lines_eq, hlines, List.map_append]
    rfl
  · have hends : ∀ c ∈ Strings.lineEnd e' ++ d.after, Strings.isWhitespace c = true := by
      intro c hc
      obtain hc | hc := List.mem_append.mp hc
      · cases e' with
        | false =>
          obtain rfl := List.mem_singleton.mp hc
          rfl
        | true =>
          obtain rfl | hc := List.mem_cons.mp hc
          · rfl
          · obtain rfl := List.mem_singleton.mp hc
            rfl
      · exact d.after_blank c hc
    obtain ⟨rest, hbegin⟩ : ∃ rest, beginLine kind = '-' :: rest := by
      cases kind <;> exact ⟨_, rfl⟩
    obtain ⟨most, hend⟩ : ∃ most, endLine kind = most ++ ['-'] := by
      cases kind with
      | message => exact ⟨"-----END PGP MESSAGE----".toList, by decide⟩
      | signature => exact ⟨"-----END PGP SIGNATURE----".toList, by decide⟩
    have hjoined (ls : List (List Char × Bool)) (l : List Char × Bool) :
        Strings.joined (ls ++ [l]) = Strings.joined ls ++ (l.1 ++ Strings.lineEnd l.2) := by
      induction ls with
      | nil => simp only [List.nil_append, Strings.joined, List.append_nil]
      | cons l' ls ih => simp only [List.cons_append, Strings.joined, ih, List.append_assoc]
    have htext : text.toList = d.before ++ (('-' :: (rest ++ Strings.lineEnd e ++
        Strings.joined middle ++ most)) ++ ['-'] ++ (Strings.lineEnd e' ++ d.after)) := by
      rw [d.text_eq, hlines, hjoined]
      simp only [Strings.joined, hbegin, hend, List.cons_append, List.append_assoc]
    rw [htext, Strings.trim_around d.before_blank hends rfl rfl]
    simp only [Strings.joined, hbegin, hend, List.cons_append, List.append_assoc]

theorem dearmorPgp_dressed (K : Crates) {text : String} (d : Dressed binary kind text) :
    dearmorPgp K text = .ok binary := by
  obtain ⟨e, middle, hlines, htrim⟩ := d.trimmed
  have hfront : ∀ l ∈ (beginLine kind, e) :: middle, '\n' ∉ l.1 := fun l hl =>
    armoredLines_oneLine d.headers l.1 (by
      rw [← hlines]
      exact List.mem_append_left _ (List.mem_map_of_mem hl))
  have hend : '\n' ∉ endLine kind ∧ endLine kind ≠ [] := by cases kind <;> decide
  -- read line by line, it is the armor
  have hread : (Strings.lines (Strings.trim text.toList)).map Strings.trimEnd =
      (armoredLines binary kind d.headers).map Strings.trimEnd := by
    rw [htrim, Strings.lines_joined hfront, Strings.lines_last hend.1 hend.2, ← hlines]
    simp only [List.map_append, List.map_cons, List.map_map, List.map_nil]
    rfl
  have hcontains : Strings.contains "-----BEGIN PGP".toList (Strings.trim text.toList) = true := by
    obtain ⟨rest, hbegin⟩ : ∃ rest, beginLine kind = "-----BEGIN PGP".toList ++ rest := by
      cases kind with
      | message => exact ⟨" MESSAGE-----".toList, by decide⟩
      | signature => exact ⟨" SIGNATURE-----".toList, by decide⟩
    rw [htrim, Strings.joined, hbegin, List.append_assoc, List.append_assoc, List.append_assoc]
    exact Strings.contains_prefix _ _
  have hdecode : Base64.decode (String.ofList ((Base64.encodeBytes binary).map ascii)) =
      some binary := Base64.decode_encode binary
  unfold dearmorPgp
  simp only [hcontains, Bool.not_true, Bool.false_eq_true, if_false, dearmorBody_congr hread,
    dearmorBody_armored, hdecode]

end

/-! ## the checksum -/

/-- the generator of the checksum of an armored text -/
def armorGenerator : Crc.Generator where
  width := 24
  bits := 0x01864CFB
  byteFits := by decide
  top := by decide
  fits := by decide

theorem crc24Shift_toNat {c : UInt32} (h : c.toNat < 2 ^ 24) :
    (crc24Shift c).toNat = armorGenerator.shift c.toNat := by
  have hdouble : (c <<< 1).toNat = c.toNat <<< 1 := by
    rw [UInt32.toNat_shiftLeft]
    show c.toNat <<< 1 % 2 ^ 32 = c.toNat <<< 1
    rw [Nat.shiftLeft_eq]
    omega
  have hand : ((c <<< 1) &&& 0x01000000 ≠ 0) ↔ (c.toNat <<< 1).testBit 24 = true := by
    have hbits : ((c <<< 1) &&& 0x01000000).toNat = ((c.toNat <<< 1).testBit 24).toNat * 2 ^ 24 := by
      rw [UInt32.toNat_and, hdouble]
      exact Nat.and_two_pow _ 24
    rw [Ne, ← UInt32.toNat_inj, hbits]
    cases (c.toNat <<< 1).testBit 24 <;> decide
  unfold crc24Shift Crc.Generator.shift
  show (if (c <<< 1) &&& 0x01000000 ≠ 0 then (c <<< 1) ^^^ 0x01864CFB else c <<< 1).toNat =
    if (c.toNat <<< 1).testBit 24 = true then c.toNat <<< 1 ^^^ 0x01864CFB else c.toNat <<< 1
  by_cases htop : (c.toNat <<< 1).testBit 24 = true
  · rw [if_pos (hand.mpr htop), if_pos htop, UInt32.toNat_xor, hdouble]
    rfl
  · rw [if_neg (fun h => htop (hand.mp h)), if_neg htop, hdouble]

theorem crc24Byte_toNat {c : UInt32} (h : c.toNat < 2 ^ 24) (b : UInt8) :
    (crc24Byte c b).toNat = armorGenerator.feed c.toNat b := by
  have hbyte : (c ^^^ b.toUInt32 <<< 16).toNat = c.toNat ^^^ b.toNat <<< 16 := by
    have hb := b.toNat_lt
    rw [UInt32.toNat_xor, UInt32.toNat_shiftLeft, UInt8.toNat_toUInt32]
    show c.toNat ^^^ b.toNat <<< 16 % 2 ^ 32 = _
    rw [Nat.mod_eq_of_lt]
    rw [Nat.shiftLeft_eq]
    omega
  have hlt : c.toNat ^^^ b.toNat <<< 16 < 2 ^ 24 := by
    have hb := b.toNat_lt
    refine Nat.xor_lt_two_pow h ?_
    rw [Nat.shiftLeft_eq]
    omega
  have hshifts (n : Nat) : (Nat.repeat crc24Shift n (c ^^^ b.toUInt32 <<< 16)).toNat =
      Nat.repeat armorGenerator.shift n (c.toNat ^^^ b.toNat <<< 16) := by
    induction n with
    | zero => exact hbyte
    | succ n ih =>
      have hregister : (Nat.repeat crc24Shift n (c ^^^ b.toUInt32 <<< 16)).toNat < 2 ^ 24 := by
        rw [ih]
        exact (Crc.Generator.shifts (g := armorGenerator) n hlt).1
      show (crc24Shift (Nat.repeat crc24Shift n _)).toNat = armorGenerator.shift _
      rw [crc24Shift_toNat hregister, ih]
  exact hshifts 8

theorem crc24_toNat (binary : Bytes) :
    (crc24 binary).toNat = armorGenerator.crc 0x00B704CE binary := by
  have hfold : ∀ (bs : Bytes) (c : UInt32), c.toNat < 2 ^ 24 →
      (bs.foldl crc24Byte c).toNat = armorGenerator.crc c.toNat bs := by
    intro bs
    induction bs with
    | nil => exact fun _ _ => rfl
    | cons b bs ih =>
      intro c hc
      have hfed : (crc24Byte c b).toNat < 2 ^ 24 := by
        rw [crc24Byte_toNat hc]
        exact (Crc.Generator.feed_spec (g := armorGenerator) hc b).1
      rw [List.foldl_cons, ih _ hfed, crc24Byte_toNat hc]
      rfl
  have hinit : (0x00B704CE : UInt32).toNat < 2 ^ 24 := by decide
  have hregister : armorGenerator.crc 0x00B704CE binary < 2 ^ 24 :=
    (Crc.Generator.crc_spec (g := armorGenerator) hinit binary).1
  unfold crc24
  rw [UInt32.toNat_and, hfold binary _ hinit]
  exact Nat.and_two_pow_sub_one_of_lt_two_pow hregister

/-- the three bytes are the checksum, the highest first -/
theorem checksumBytes_eq (binary : Bytes) : ∃ a b c : UInt8, checksumBytes binary = [a, b, c] ∧
    a.toNat * 65536 + b.toNat * 256 + c.toNat = (crc24 binary).toNat := by
  have hlt : (crc24 binary).toNat < 2 ^ 24 := by
    rw [crc24_toNat]
    exact (Crc.Generator.crc_spec (g := armorGenerator) (by decide) binary).1
  refine ⟨_, _, _, rfl, ?_⟩
  rw [UInt32.toNat_toUInt8, UInt32.toNat_toUInt8, UInt32.toNat_toUInt8, UInt32.toNat_shiftRight,
    UInt32.toNat_shiftRight]
  show (crc24 binary).toNat >>> 16 % 256 * 65536 + (crc24 binary).toNat >>> 8 % 256 * 256 +
    (crc24 binary).toNat % 256 = _
  rw [Nat.shiftRight_eq_div_pow, Nat.shiftRight_eq_div_pow]
  omega

/-- the checksum is the remainder of the bytes behind the initial register -/
theorem crc24_remainder (binary : Bytes) : Crc.poly (armorGenerator.crc 0x00B704CE binary) =
    (Polynomial.X ^ (8 * binary.length) * Crc.poly 0x00B704CE +
      Polynomial.X ^ 24 * Crc.Generator.text binary) %ₘ Crc.poly 0x1864CFB := by
  have hwidth : armorGenerator.width = 24 := rfl
  have hmodulus : armorGenerator.modulus = Crc.poly 0x1864CFB := rfl
  have hinit : 0x00B704CE < 2 ^ armorGenerator.width := by
    rw [hwidth]
    decide
  have hremainder := Crc.Generator.poly_crc hinit binary
  rw [hwidth, hmodulus] at hremainder
  exact hremainder

/-! ## the codec -/

/-- what is armored is read back, whatever header lines, line ends and white space are added; the
lines are the base64 of the bytes and their CRC-24; and a reader that tries base64 first tells
armor from base64 -/
theorem armor_codec (K : Crates) (binary : Bytes) (kind : ArmorKind) :
    dearmorPgp K (armor binary kind) = .ok binary ∧
      (∀ text, Dressed binary kind text → dearmorPgp K text = .ok binary) ∧
      (armor binary kind).toList =
        Strings.joined ((armoredLines binary kind []).map fun l => (l, false)) ∧
      (∀ line ∈ bodyLines binary, line.head? ≠ some '=') ∧
      (∃ a b c : UInt8, checksumLine binary = '=' :: (Base64.encode [a, b, c]).toList ∧
        Crc.poly (a.toNat * 65536 + b.toNat * 256 + c.toNat) =
          (Polynomial.X ^ (8 * binary.length) * Crc.poly 0xB704CE +
            Polynomial.X ^ 24 * Crc.Generator.text binary) %ₘ Crc.poly 0x1864CFB) ∧
      base64OrRaw (armor binary kind) = asBytes (armor binary kind) ∧
      Base64.decode (armor binary kind) = none ∧ base64OrRaw (Base64.encode binary) = binary := by
  refine ⟨dearmorPgp_dressed K (dressed_armor binary kind), fun _ => dearmorPgp_dressed K,
    armor_toList binary kind, ?_, ?_, base64OrRaw_armor binary kind, decode_armor binary kind,
    base64OrRaw_encode binary⟩
  · intro line hline hhead
    obtain ⟨_, c, rest, rfl, hpad⟩ := bodyLines_spec hline
    exact hpad (Option.some.inj hhead)
  · obtain ⟨a, b, c, hbytes, hsum⟩ := checksumBytes_eq binary
    refine ⟨a, b, c, ?_, ?_⟩
    · unfold checksumLine
      rw [hbytes]
    · rw [hsum, crc24_toNat]
      exact crc24_remainder binary

/-- a message of two bytes with a version line and the line ends of the network -/
theorem armor_codec_dressed (K : Crates) : dearmorPgp K (String.ofList ([' '] ++ Strings.joined
    ((armoredLines [104, 105] .message
      [⟨"Version".toList, "1".toList, by decide, by decide⟩]).map fun l => (l, true)) ++ [])) =
    .ok [104, 105] := by
  obtain ⟨_, hdressed, _⟩ := armor_codec K [104, 105] .message
  refine hdressed _ (.uniform _ _ true [' '] [] ?_ (fun _ h => nomatch h) String.toList_ofList)
  intro c hc
  obtain rfl := List.mem_singleton.mp hc
  rfl

end ProtonDrive
