import ProtonDrive.Lib.Utf8
import ProtonDrive.Upload.Counted

/-!
# The panics of an upload

* `fromUtf8Lossy_text` what `from_utf8_lossy` returns is text;
* `StraddlesLimit`     a character of it lies across byte 512;
* `bodySnippet_none`   `body_snippet` panics just on such bodies, and quotes all the others
                       (`bodySnippet_cut`);
* `readBlocks_cut`     the loop makes a turn for each full block, so it comes to the end of a stream
                       that ends;
* `runUpload_panics`   an upload of such a stream returns, and it returns `Ok` or `Err` unless one of the
                       two probed `POST`s is answered with a body that is neither what was asked for nor
                       can be quoted;
* `cutRun_panics`      such an answer.
-/

set_option linter.unusedVariables false

namespace ProtonDrive
open Encoding Encoding.Utf8 Effects Api

/-! ## the text of a body -/

section
variable {a b c d : UInt8} {rest : Bytes}

theorem next_within {i lo hi : Nat}
    (h : (rest[i]?).any (fun b => decide (lo ≤ b.toNat ∧ b.toNat ≤ hi)) = true) :
    ∃ b, rest[i]? = some b ∧ lo ≤ b.toNat ∧ b.toNat ≤ hi := by
  rw [Option.any_eq_true] at h
  obtain ⟨b, hb, hbounds⟩ := h
  exact ⟨b, hb, of_decide_eq_true hbounds⟩

theorem take_two (hb : rest[0]? = some b) : (a :: rest).take 2 = [a, b] := by
  rw [List.take_succ_cons, List.take_add_one, hb]
  rfl

theorem take_three (hb : rest[0]? = some b) (hc : rest[1]? = some c) :
    (a :: rest).take 3 = [a, b, c] := by
  rw [List.take_succ_cons, List.take_add_one, List.take_add_one, hb, hc]
  rfl

theorem take_four (hb : rest[0]? = some b) (hc : rest[1]? = some c) (hd : rest[2]? = some d) :
    (a :: rest).take 4 = [a, b, c, d] := by
  rw [List.take_succ_cons, List.take_add_one, List.take_add_one, List.take_add_one, hb, hc, hd]
  rfl

/-- the bounds of a second byte, which depend on the first -/
theorem second_within {x y z w lo hi : Nat} (hlo : (if a.toNat = x then y else 0x80) = lo)
    (hhi : (if a.toNat = z then w else 0xBF) = hi) (h : lo ≤ b.toNat ∧ b.toNat ≤ hi)
    (hy : 0x80 ≤ y) (hw : w ≤ 0xBF) :
    Continues b ∧ (a.toNat = x → y ≤ b.toNat) ∧ (a.toNat = z → b.toNat ≤ w) := by
  unfold Continues
  split at hlo
  · split at hhi
    · omega
    · omega
  · split at hhi
    · omega
    · omega

end

/-- what the decoder takes for a character is one -/
theorem utf8Chunk_character {bs : Bytes} (hne : bs ≠ []) (h : (utf8Chunk bs).2 = true) :
    ∃ c, bs.take (utf8Chunk bs).1 = String.utf8EncodeChar c := by
  cases bs with
  | nil => exact absurd rfl hne
  | cons a rest =>
    simp only [utf8Chunk] at h ⊢
    by_cases hone : a.toNat < 0x80
    · rw [if_pos hone]
      exact ⟨ascii a, (utf8Encode_ascii a hone).symm⟩
    rw [if_neg hone] at h ⊢
    by_cases htwo : 0xC2 ≤ a.toNat ∧ a.toNat ≤ 0xDF
    · rw [if_pos htwo] at h ⊢
      split at h
      · next hcont =>
        obtain ⟨b, hb, hbounds⟩ := next_within hcont
        obtain ⟨ch, hch⟩ := character_two htwo hbounds
        rw [if_pos hcont]
        exact ⟨ch, (take_two hb).trans hch.symm⟩
      · cases h
    rw [if_neg htwo] at h ⊢
    by_cases hthree : 0xE0 ≤ a.toNat ∧ a.toNat ≤ 0xEF
    · rw [if_pos hthree] at h ⊢
      generalize hlo : (if a.toNat = 0xE0 then 0xA0 else 0x80) = lo at h ⊢
      generalize hhi : (if a.toNat = 0xED then 0x9F else 0xBF) = hi at h ⊢
      split at h
      · next hsecond =>
        rw [if_pos hsecond]
        split at h
        · next hcont =>
          rw [if_pos hcont]
          obtain ⟨b, hb, hbounds⟩ := next_within hsecond
          obtain ⟨c, hc, hcbounds⟩ := next_within hcont
          obtain ⟨hbcont, hlow, hhigh⟩ := second_within hlo hhi hbounds (by omega) (by omega)
          obtain ⟨ch, hch⟩ := character_three hthree hbcont hlow hhigh hcbounds
          exact ⟨ch, (take_three hb hc).trans hch.symm⟩
        · cases h
      · cases h
    rw [if_neg hthree] at h ⊢
    by_cases hfour : 0xF0 ≤ a.toNat ∧ a.toNat ≤ 0xF4
    · rw [if_pos hfour] at h ⊢
      generalize hlo : (if a.toNat = 0xF0 then 0x90 else 0x80) = lo at h ⊢
      generalize hhi : (if a.toNat = 0xF4 then 0x8F else 0xBF) = hi at h ⊢
      split at h
      · next hsecond =>
        rw [if_pos hsecond]
        split at h
        · next hcont =>
          rw [if_pos hcont]
          split at h
          · next hlast =>
            rw [if_pos hlast]
            obtain ⟨b, hb, hbounds⟩ := next_within hsecond
            obtain ⟨c, hc, hcbounds⟩ := next_within hcont
            obtain ⟨d, hd, hdbounds⟩ := next_within hlast
            obtain ⟨hbcont, hlow, hhigh⟩ := second_within hlo hhi hbounds (by omega) (by omega)
            obtain ⟨ch, hch⟩ := character_four hfour hbcont hlow hhigh hcbounds hdbounds
            exact ⟨ch, (take_four hb hc hd).trans hch.symm⟩
          · cases h
        · cases h
      · cases h
    · rw [if_neg hfour] at h
      cases h

theorem lossyBytes_text (fuel : Nat) (bs : Bytes) : ∃ cs, lossyBytes fuel bs = encode cs := by
  induction fuel generalizing bs with
  | zero => exact ⟨[], rfl⟩
  | succ fuel ih =>
    cases bs with
    | nil => exact ⟨[], rfl⟩
    | cons b bs =>
      obtain ⟨cs, hcs⟩ := ih ((b :: bs).drop (utf8Chunk (b :: bs)).1)
      show ∃ cs, (if (utf8Chunk (b :: bs)).2 then _ else _) ++ lossyBytes fuel _ = encode cs
      rw [hcs]
      by_cases hvalid : (utf8Chunk (b :: bs)).2 = true
      · obtain ⟨c, hc⟩ := utf8Chunk_character (List.cons_ne_nil b bs) hvalid
        refine ⟨c :: cs, ?_⟩
        rw [if_pos hvalid, hc, encode_cons]
      · refine ⟨'\uFFFD' :: cs, ?_⟩
        rw [if_neg hvalid, encode_cons]
        rfl

theorem fromUtf8Lossy_text (body : Bytes) : ∃ cs, fromUtf8Lossy body = encode cs :=
  lossyBytes_text _ _

/-- a character of the text lies across byte 512 -/
def StraddlesLimit (body : Bytes) : Prop :=
  ∃ cs, fromUtf8Lossy body = encode cs ∧ Inside cs SNIPPET_MAX

/-- `is_char_boundary` on a text -/
theorem isCharBoundary_encode {cs : List Char} {i : Nat} (hi : i < (encode cs).length) :
    isCharBoundary (encode cs) i = false ↔ Inside cs i := by
  unfold isCharBoundary
  rw [inside_iff, List.getElem?_eq_getElem hi]
  constructor
  · intro h
    exact ⟨_, rfl, of_decide_eq_true ((Bool.not_eq_false' _).mp h)⟩
  · intro ⟨b, hb, hcont⟩
    cases hb
    exact (Bool.not_eq_false' _).mpr (decide_eq_true hcont)

theorem straddlesLimit_iff {body : Bytes} {cs : List Char} (h : fromUtf8Lossy body = encode cs) :
    StraddlesLimit body ↔ Inside cs SNIPPET_MAX := by
  constructor
  · intro ⟨ds, hds, hinside⟩
    rw [inside_iff] at hinside ⊢
    rw [← h, hds]
    exact hinside
  · intro hinside
    exact ⟨cs, h, hinside⟩

theorem bodySnippet_none {body : Bytes} : bodySnippet body = none ↔ StraddlesLimit body := by
  obtain ⟨cs, hcs⟩ := fromUtf8Lossy_text body
  rw [straddlesLimit_iff hcs]
  unfold bodySnippet
  rw [hcs]
  by_cases hlong : (encode cs).length > SNIPPET_MAX
  · simp only [if_pos hlong]
    rw [← isCharBoundary_encode hlong]
    cases isCharBoundary (encode cs) SNIPPET_MAX with
    | true => exact iff_of_false nofun nofun
    | false => exact iff_of_true rfl rfl
  · simp only [if_neg hlong]
    refine iff_of_false nofun ?_
    intro hinside
    exact hlong (inside_lt hinside)

/-- the bodies that are cut: the quote is the characters before byte 512 -/
theorem bodySnippet_cut {body : Bytes} {pre post : List Char}
    (htext : fromUtf8Lossy body = encode (pre ++ post)) (hpost : post ≠ [])
    (hpre : (encode pre).length = SNIPPET_MAX) : bodySnippet body = some (String.ofList pre ++ "…") := by
  have hlong : (encode (pre ++ post)).length > SNIPPET_MAX := by
    rw [encode_append, List.length_append, hpre]
    have hpos := encode_length_pos hpost
    omega
  have hboundary : isCharBoundary (encode (pre ++ post)) SNIPPET_MAX = true := by
    rw [← Bool.not_eq_false, isCharBoundary_encode hlong, ← hpre]
    exact not_inside_append
  have htake : (encode (pre ++ post)).take SNIPPET_MAX = encode pre := by
    rw [encode_append, ← hpre, List.take_left]
  unfold bodySnippet
  rw [htext]
  simp only [if_pos hlong, if_pos hboundary]
  rw [htake, fromUtf8_encode]
  rfl

/-- and those that are not -/
theorem bodySnippet_whole {body : Bytes} {cs : List Char} (htext : fromUtf8Lossy body = encode cs)
    (hshort : (encode cs).length ≤ SNIPPET_MAX) : bodySnippet body = some (String.ofList cs) := by
  have hshort : ¬ (encode cs).length > SNIPPET_MAX := by omega
  unfold bodySnippet
  rw [htext]
  simp only [if_neg hshort]
  rw [fromUtf8_encode]
  rfl

/-! ## the end of the loop -/

section
variable {K : Crates} {up : ProtonFileUploader} {d : Draft} {fuel : Nat} {tr : Trace host}

theorem cutFree_call (c : HostCall) : CutFree (call c).run := fun _ => trivial

theorem cutFree_random {α : Type} (op : Coins → Except CryptoError α) : CutFree (random op).run :=
  CutFree.bindE (cutFree_call .coins) fun _ => (ofExcept_atMost _ _).cutFree

theorem cutFree_parseOrSnip {α : Type} {what sep type : String} {dec : Json → Option α} {body : Bytes} :
    CutFree (parseOrSnip K what sep type dec body).run := by
  unfold parseOrSnip
  split
  · trivial
  · split
    · trivial
    · trivial

theorem cutFree_postProbed {α : Type} {probeWhat what sep type path : String} {dec : Json → Option α}
    {body : Json} : CutFree (postProbed K probeWhat what sep type dec path body).run := by
  refine CutFree.bindE (requestJson_atMost _).cutFree fun _ => ?_
  refine CutFree.bindE cutFree_parseOrSnip fun _ => ?_
  refine CutFree.bindE (require_atMost _ _).cutFree fun _ => ?_
  exact CutFree.bindE cutFree_parseOrSnip fun _ => trivial

theorem cutFree_resolveParentContext (shareId : String) :
    CutFree (resolveParentContext K up shareId).run := by
  refine CutFree.bindE (getJson_atMost _).cutFree fun _ => ?_
  refine CutFree.bindE (ofExcept_atMost _ _).cutFree fun _ => ?_
  refine CutFree.bindE (ofExcept_atMost _ _).cutFree fun _ => ?_
  refine CutFree.bindE (getJson_atMost _).cutFree fun _ => ?_
  refine CutFree.bindE (ofExcept_atMost _ _).cutFree fun _ => ?_
  refine CutFree.bindE (ofExcept_atMost _ _).cutFree fun _ => ?_
  refine CutFree.bindE (ofExcept_atMost _ _).cutFree fun _ => ?_
  exact CutFree.bindE (ofExcept_atMost _ _).cutFree fun _ => trivial

theorem cutFree_generateNode : CutFree (generateNode K up).run := by
  refine CutFree.bindE (CutFree.bindE (getJson_atMost _).cutFree fun _ => trivial) fun _ => ?_
  refine CutFree.bindE (ofExcept_atMost _ _).cutFree fun _ => ?_
  refine CutFree.bindE (cutFree_call .coins) fun _ => ?_
  refine CutFree.bindE (cutFree_random _) fun _ => ?_
  refine CutFree.bindE (cutFree_resolveParentContext _) fun _ => ?_
  refine CutFree.bindE (ofExcept_atMost _ _).cutFree fun _ => ?_
  refine CutFree.bindE (cutFree_random _) fun _ => ?_
  refine CutFree.bindE (cutFree_random _) fun _ => ?_
  refine CutFree.bindE (cutFree_random _) fun _ => ?_
  refine CutFree.bindE (cutFree_random _) fun _ => ?_
  refine CutFree.bindE (cutFree_random _) fun _ => ?_
  refine CutFree.bindE (cutFree_random _) fun _ => ?_
  refine CutFree.bindE (cutFree_random _) fun _ => ?_
  refine CutFree.bindE (cutFree_random _) fun _ => ?_
  exact CutFree.bindE (ofExcept_atMost _ _).cutFree fun _ => trivial

theorem cutFree_createDraft : CutFree (createDraft K up).run := by
  refine CutFree.bindE cutFree_generateNode fun _ => ?_
  refine CutFree.bindE (CutFree.bindE cutFree_postProbed fun _ => trivial) fun _ => ?_
  refine CutFree.bindE (CutFree.bindE (getJson_atMost _).cutFree fun resp => ?_) fun _ => trivial
  split
  · trivial
  · trivial

theorem cutFree_fillBuffer (fuel remaining : Nat) (buf : Bytes) :
    CutFree (fillBuffer fuel remaining buf).run := by
  induction fuel generalizing remaining buf with
  | zero => trivial
  | succ fuel ih =>
    refine CutFree.bindE (cutFree_call (.read remaining)) fun r => ?_
    split
    · trivial
    · split
      · trivial
      · split
        · trivial
        · exact ih _ _

theorem cutFree_encryptBlock (plaintext : Bytes) : CutFree (encryptBlock up d plaintext).run := by
  refine CutFree.bindE (cutFree_random _) fun _ => ?_
  refine CutFree.bindE (cutFree_random _) fun _ => ?_
  exact CutFree.bindE (cutFree_random _) fun _ => trivial

theorem cutFree_putBlocks (pairs : List (EncryptedBlock K × Upload.UploadLink)) :
    CutFree (putBlocks K pairs).run := by
  induction pairs with
  | nil => trivial
  | cons pair rest ih =>
    refine CutFree.bindE (cutFree_call (.isCancelled .upload)) fun _ => ?_
    refine CutFree.bindE (require_atMost _ _).cutFree fun _ => ?_
    refine CutFree.bindE (CutFree.bindE (CutFree.bindE (cutFree_call _) fun _ =>
      (ofExcept_atMost _ _).cutFree) fun _ => (require_atMost _ _).cutFree) fun _ => ?_
    exact ih

theorem cutFree_afterBlocks (s : Chunks K) : CutFree (afterBlocks K up d s).run := by
  refine CutFree.bindE ?_ fun sorted => ?_
  · refine CutFree.bindE (require_atMost _ _).cutFree fun _ => ?_
    refine CutFree.bindE (require_atMost _ _).cutFree fun _ => ?_
    refine CutFree.bindE (ofExcept_atMost _ _).cutFree fun _ => ?_
    refine CutFree.bindE (CutFree.bindE cutFree_postProbed fun _ => trivial) fun _ => ?_
    exact CutFree.bindE (require_atMost _ _).cutFree fun _ => trivial
  refine CutFree.bindE (cutFree_putBlocks _) fun _ => ?_
  refine CutFree.bindE ?_ fun req => ?_
  · refine CutFree.bindE (cutFree_random _) fun _ => ?_
    refine CutFree.bindE (cutFree_random _) fun _ => ?_
    exact CutFree.bindE (cutFree_random _) fun _ => trivial
  refine CutFree.bindE ?_ fun _ => cutFree_call _
  refine CutFree.bindE (requestJson_atMost _).cutFree fun _ => ?_
  refine CutFree.bindE (ofExcept_atMost _ _).cutFree fun _ => ?_
  exact (require_atMost _ _).cutFree

/-- a turn of the loop that is not the last takes a full block off the stream -/
theorem readBlocks_cut {s : Chunks K} (h : Runs (readBlocks K up d fuel s).run tr .cut) :
    fuel * BLOCK_SIZE ≤ (delivered tr).length := by
  induction fuel generalizing s tr with
  | zero => omega
  | succ fuel ih =>
    rw [readBlocks_succ] at h
    obtain ⟨_, t₁, u₁, rfl, _, k₁⟩ := h.bindE_cut (cutFree_call _)
    obtain ⟨_, t₂, u₂, rfl, _, k₂⟩ := k₁.bindE_cut (require_atMost _ _).cutFree
    obtain ⟨plaintext, t₃, u₃, rfl, hfill, k₃⟩ := k₂.bindE_cut (cutFree_fillBuffer _ _ _)
    have hplain : plaintext = delivered t₃ := fillBuffer_ok hfill
    unfold afterFill at k₃
    by_cases hnil : plaintext = []
    · rw [if_pos hnil] at k₃
      exact absurd trivial k₃.not_cut
    · rw [if_neg hnil] at k₃
      obtain ⟨_, t₄, u₄, rfl, _, k₄⟩ := k₃.bindE_cut (cutFree_encryptBlock _)
      obtain ⟨_, t₅, u₅, rfl, _, k₅⟩ := k₄.bindE_cut (cutFree_call _)
      split at k₅
      · exact absurd trivial k₅.not_cut
      · have hrest := ih k₅
        rw [hplain] at *
        simp only [delivered_append, List.length_append]
        rw [Nat.succ_mul]
        omega

theorem runUpload_cut (h : Runs (runUpload K up fuel).run tr .cut) :
    fuel * BLOCK_SIZE ≤ (delivered tr).length := by
  obtain ⟨d, t₁, u₁, rfl, _, k₁⟩ := h.bindE_cut cutFree_createDraft
  rw [delivered_append, List.length_append]
  rcases k₁.bindE_inv with ⟨s, t, u, _, _, k⟩ | ⟨o₁, ho, hread⟩
  · exact absurd (cutFree_afterBlocks s) k.not_cut
  · rw [ho.cut] at hread
    have hcut := readBlocks_cut hread
    omega

/-- the stream delivers at most `n` bytes -/
def EndsAfter (n : Nat) (serve : Trace host → (c : HostCall) → c.Ans) : Prop :=
  ∀ h cap, (delivered h).length ≤ n →
    (delivered h).length + (readBytes (serve h (.read cap))).length ≤ n

theorem exec_delivered {α : Type} {n : Nat} {serve : Trace host → (c : HostCall) → c.Ans}
    (hends : EndsAfter n serve) (p : Prog host α) {h : Trace host} (hh : (delivered h).length ≤ n) :
    (delivered (h ++ (exec serve h p).1)).length ≤ n := by
  induction p generalizing h with
  | ret a =>
    show (delivered (h ++ [])).length ≤ n
    rwa [List.append_nil]
  | call c k ih =>
    have hstep : (delivered (h ++ [⟨c, serve h c⟩])).length ≤ n := by
      rw [delivered_append, List.length_append]
      cases c with
      | read cap =>
        have hread := hends h cap hh
        simpa [deliveredBy] using hread
      | _ => simpa [deliveredBy] using hh
    have hrest := ih (serve h c) hstep
    rw [List.append_assoc] at hrest
    exact hrest
  | cut =>
    show (delivered (h ++ [])).length ≤ n
    rwa [List.append_nil]

/-- an upload of a stream that ends returns -/
theorem runUpload_returns {n : Nat} {serve : Trace host → (c : HostCall) → c.Ans}
    (hends : EndsAfter n serve) (hfuel : n < fuel * BLOCK_SIZE) :
    ∃ tr r, exec serve [] (runUpload K up fuel).run = (tr, some r) := by
  cases hr : (exec serve [] (runUpload K up fuel).run).2 with
  | some r => exact ⟨_, r, Prod.ext rfl hr⟩
  | none =>
    have hcut := runUpload_cut (exec_cut serve [] _ hr)
    have hdelivered := exec_delivered hends (runUpload K up fuel).run (h := []) (Nat.zero_le n)
    rw [List.nil_append] at hdelivered
    omega

/-- the counters of the loop fit their types, a `u32` and a `u64`, for every stream shorter than 2⁵³
bytes -/
theorem counters_fit {s : Chunks K} (h : Runs (readBlocks K up d fuel (Chunks.empty K)).run tr (.done (.ok s)))
    (hsmall : (delivered tr).length < 2 ^ 53) : s.blockIndex < 2 ^ 32 ∧ s.totalBytes < 2 ^ 64 := by
  obtain ⟨chunks, hexact, hflat, hsizes⟩ := readBlocks_sizes h
  have hcount : s.blocks.length = chunks.length := by
    rw [← s.sized, hsizes, List.length_append, List.length_map]
    exact Nat.zero_add _
  have htotal : s.totalBytes = (delivered tr).length := by
    have hsum : s.blockSizes = chunks.map List.length := hsizes
    rw [s.total, hsum, ← List.length_flatten, hflat]
  have hlength := hexact.length_lt BLOCK_SIZE_pos
  rw [hflat] at hlength
  unfold BLOCK_SIZE at hlength
  rw [s.next, hcount, htotal]
  omega

end

/-! ## the answers that make it panic -/

/-- the body is neither an error of the server nor the record that was asked for -/
def Unread (K : Crates) {α : Type} (dec : Json → Option α) (body : Bytes) : Prop :=
  (K.jsonParse body).bind EnvelopeProbe.ofJson = none ∨
    ∃ probe, (K.jsonParse body).bind EnvelopeProbe.ofJson = some probe ∧ probe.code = CODE_OK ∧
      (K.jsonParse body).bind (ResponseEnvelope.ofJson dec) = none

/-- an answer to one of the two probed `POST`s that is not read, with a character across byte 512 -/
def StraddlingAnswer (K : Crates) (e : Event host) : Prop :=
  ∃ path body resp, e = ⟨.requestJson (.bare .post path (some body)), .ok resp⟩ ∧
    StraddlesLimit resp.body ∧
    if path = blocksPath then Unread K Upload.RequestBlockUploadResponse.ofJson resp.body
    else Unread K Upload.CreateFileResponse.ofJson resp.body

section
variable {K : Crates} {up : ProtonFileUploader} {fuel : Nat} {tr : Trace host}

theorem unquotable_iff {α : Type} {dec : Json → Option α} {body : Bytes} :
    Unquotable K dec body ↔ StraddlesLimit body ∧ Unread K dec body := by
  unfold Unquotable Unread
  rw [bodySnippet_none]

theorem cutsCharacter_iff {e : Event host} : CutsCharacter K e ↔ StraddlingAnswer K e := by
  unfold CutsCharacter StraddlingAnswer
  constructor
  · intro ⟨path, body, resp, he, hbad⟩
    refine ⟨path, body, resp, he, ?_⟩
    split at hbad
    · next hpath =>
      rw [if_pos hpath]
      exact unquotable_iff.mp hbad
    · next hpath =>
      rw [if_neg hpath]
      exact unquotable_iff.mp hbad
  · intro ⟨path, body, resp, he, hlimit, hbad⟩
    refine ⟨path, body, resp, he, ?_⟩
    split at hbad
    · next hpath =>
      rw [if_pos hpath]
      exact unquotable_iff.mpr ⟨hlimit, hbad⟩
    · next hpath =>
      rw [if_neg hpath]
      exact unquotable_iff.mpr ⟨hlimit, hbad⟩

/-- a run that has ended returned `Ok` or `Err`, or met such an answer -/
theorem returned_iff {r : Except Fault Unit} (h : Runs (runUpload K up fuel).run tr (.done r)) :
    (r = .ok () ∨ ∃ e, r = .error (.error e)) ↔ ∀ e ∈ tr, ¬ StraddlingAnswer K e := by
  have htold := panicsTold_runUpload tr r h
  have hanswers : (∃ e ∈ tr, CutsCharacter K e) ↔ ∃ e ∈ tr, StraddlingAnswer K e := by
    simp only [cutsCharacter_iff]
  rw [hanswers] at htold
  constructor
  · intro hreturned e he hbad
    obtain ⟨f, hf, hpanic⟩ := htold.mpr ⟨e, he, hbad⟩
    rcases hreturned with hok | ⟨e, herror⟩
    · rw [hf] at hok
      cases hok
    · rw [hf] at herror
      cases herror
      exact hpanic trivial
  · intro hnone
    match r, htold with
    | .ok (), _ => exact .inl rfl
    | .error (.error e), _ => exact .inr ⟨e, rfl⟩
    | .error (.panicked msg), htold =>
      obtain ⟨e, he, hbad⟩ := htold.mp ⟨_, rfl, id⟩
      exact absurd hbad (hnone e he)

/-- whatever the server answers: a quote can be made unless a character lies across its end, an upload
that has ended returned `Ok` or `Err` unless it needed such a quote, and an upload of a stream that ends
does end -/
theorem runUpload_panics :
    (∀ body, (∃ text, bodySnippet body = some text) ↔ ¬ StraddlesLimit body) ∧
      (∀ tr r, Runs (runUpload K up fuel).run tr (.done r) →
        ((r = .ok () ∨ ∃ e, r = .error (.error e)) ↔ ∀ e ∈ tr, ¬ StraddlingAnswer K e)) ∧
      ∀ serve n, EndsAfter n serve → n < fuel * BLOCK_SIZE →
        ∃ tr r, exec serve [] (runUpload K up fuel).run = (tr, some r) := by
  refine ⟨?_, fun tr r h => returned_iff h, fun serve n hends hfuel => runUpload_returns hends hfuel⟩
  intro body
  rw [← bodySnippet_none, ← ne_eq, Option.ne_none_iff_exists']

end

/-- the answer to the create request is 511 blanks and "é" -/
theorem cutRun_panics : smallUploader.metadata.validate = .ok () ∧ bodySnippet cutBody = none ∧
    ∃ msg, Runs (runUpload cutCrates smallUploader 1).run cutRun.1 (.done (.error (.panicked msg))) := by
  obtain ⟨msg, _, hrun⟩ := cutRun_runs
  exact ⟨rfl, by decide +kernel, msg, hrun⟩

theorem script_endsAfter (s : Script) : EndsAfter s.stream.length s.serve := by
  intro h cap hh
  show (delivered h).length + ((s.stream.drop (delivered h).length).take cap).length ≤ _
  rw [List.length_take, List.length_drop]
  omega

/-- the upload that is refused returns, and what it returns is told by its answers -/
theorem refusedUpload_returns : ∃ tr r,
    exec refusedUpload.serve [] (runUpload goodCrates smallUploader 1).run = (tr, some r) ∧
      ((r = .ok () ∨ ∃ e, r = .error (.error e)) ↔ ∀ e ∈ tr, ¬ StraddlingAnswer goodCrates e) := by
  obtain ⟨_, htold, hends⟩ := @runUpload_panics goodCrates smallUploader 1
  obtain ⟨tr, r, hexec⟩ := hends _ 1 (script_endsAfter refusedUpload) (by decide)
  refine ⟨tr, r, hexec, htold tr r ?_⟩
  have hrun := exec_runs refusedUpload.serve [] (runUpload goodCrates smallUploader 1).run r
    (congrArg Prod.snd hexec)
  rwa [hexec] at hrun

end ProtonDrive
