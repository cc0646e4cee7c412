import ProtonDrive.Lib.Chunks
import ProtonDrive.Lib.Triples
import ProtonDrive.Upload.Checksum

/-!
# The blocks of a stream

`Reads` is what `AsyncRead` may answer while it delivers a stream: at each read some of the bytes that are
left, and nothing only at the end.

* `fillBuffer_triple`    a filled buffer holds the next bytes of the stream, as many as there is room for,
                         however they came;
* `readBlocks_triple`    so the loop turns the stream into its chunks of `BLOCK_SIZE`;
* `readBlocks_runs`      and it has a run that returns for each way in which they can come.
-/

set_option linter.unusedVariables false

namespace ProtonDrive
open Encoding Effects Paths Chunking

/-- the environment of the loop is what the stream has still to deliver -/
inductive Reads : Bytes → Event host → Bytes → Prop
  | read {cap : Nat} (bs rest : Bytes) (hcap : bs.length ≤ cap) (hend : bs = [] → rest = []) :
      Reads (bs ++ rest) ⟨.read cap, .ok ⟨bs, hcap⟩⟩ rest
  | other {content : Bytes} {e : Event host} (h : isRead e.call = false) : Reads content e content

theorem Reads.read_inv {cap : Nat} {content rest : Bytes} {a : ReadAnswer cap}
    (h : Reads content ⟨.read cap, a⟩ rest) :
    ∃ bs hcap, a = .ok ⟨bs, hcap⟩ ∧ content = bs ++ rest ∧ (bs = [] → rest = []) := by
  cases h with
  | read bs rest hcap hend => exact ⟨bs, hcap, rfl, rfl, hend⟩
  | other h => cases h

theorem Reads.other_inv {content rest : Bytes} {e : Event host} (he : isRead e.call = false)
    (h : Reads content e rest) : rest = content := by
  cases h with
  | read bs rest hcap hend => cases he
  | other h => rfl

/-- the failures of the loop that the stream has no part in -/
def Interrupts (f : Fault) : Prop :=
  f = .error (.internal "upload cancelled") ∨ ∃ e : CryptoError, f = .error (.crypto e)

section
variable {K : Crates} {up : ProtonFileUploader} {d : Draft}

theorem fillBuffer_triple {fuel remaining : Nat} {content buf : Bytes} (hpos : 0 < remaining)
    (hfuel : remaining ≤ fuel) :
    Triple Reads content (fillBuffer fuel remaining buf)
      (fun rest out => out = buf ++ content.take remaining ∧ rest = content.drop remaining)
      Interrupts := by
  induction fuel generalizing remaining content buf with
  | zero => omega
  | succ fuel ih =>
    refine Triple.bind (Q := fun rest a => ∃ bs hcap, a = .ok ⟨bs, hcap⟩ ∧ content = bs ++ rest ∧
      (bs = [] → rest = [])) (Triple.perform fun a rest h => h.read_inv) ?_
    rintro rest a ⟨bs, hcap, rfl, rfl, hend⟩
    show Triple _ _ (if bs = [] then _ else if bs.length = remaining then _ else _) _ _
    refine Triple.ite (fun hnil => ?_) fun hnil => Triple.ite (fun hfull => ?_) fun hfull => ?_
    · -- the end of the stream
      have hrest := hend hnil
      subst hnil hrest
      exact Triple.pure ⟨by simp, by simp⟩
    · refine Triple.pure ⟨?_, ?_⟩
      · rw [← hfull, List.take_left]
      · rw [← hfull, List.drop_left]
    · have hlt : bs.length < remaining := by omega
      have hbs : 0 < bs.length := List.length_pos_of_ne_nil hnil
      refine (ih (by omega) (by omega)).mono fun rest' out h => ?_
      obtain ⟨hout, hrest⟩ := h
      refine ⟨?_, ?_⟩
      · rw [hout, List.append_assoc, List.take_append, List.take_of_length_le hcap]
      · rw [hrest, List.drop_append, List.drop_of_length_le hcap, List.nil_append]

theorem random_triple {α : Type} {op : Coins → Except CryptoError α} {content : Bytes} :
    Triple Reads content (random op) (fun rest a => rest = content ∧ ∃ c, op c = .ok a)
      Interrupts := by
  refine Triple.bind (Q := fun rest _ => rest = content)
    (Triple.perform fun a rest h => h.other_inv rfl) ?_
  rintro rest c rfl
  cases hop : op c with
  | error e => exact Triple.throw (.inr ⟨e, rfl⟩)
  | ok a => exact Triple.pure ⟨rfl, c, hop⟩

theorem encryptBlock_triple {plaintext content : Bytes} :
    Triple Reads content (encryptBlock up d plaintext)
      (fun rest b => rest = content ∧
        ∃ c, up.openpgp.encryptAndSign plaintext d.contentSessionKey [] d.addressPriv {} c =
          .ok b.ciphertext) Interrupts := by
  refine Triple.bind random_triple fun rest ciphertext h => ?_
  obtain ⟨rfl, hcipher⟩ := h
  refine Triple.bind random_triple fun rest blockSig h => ?_
  obtain ⟨rfl, _⟩ := h
  refine Triple.bind random_triple fun rest encSig h => ?_
  obtain ⟨rfl, _⟩ := h
  exact Triple.pure ⟨rfl, hcipher⟩

/-- the loop has gone from `s` to `s'` over the plaintext blocks `chunks` -/
structure CutInto (up : ProtonFileUploader) (d : Draft) (s s' : Chunks K) (chunks : List Bytes) :
    Prop where
  blocks : ∃ new, s'.blocks = s.blocks ++ new ∧ List.Forall₂ (Sealed up d) chunks new
  sizes : s'.blockSizes = s.blockSizes ++ chunks.map List.length
  hashed : s'.hashed = s.hashed ++ chunks.flatten

theorem CutInto.nil {s : Chunks K} : CutInto up d s s [] where
  blocks := ⟨[], (List.append_nil _).symm, .nil⟩
  sizes := (List.append_nil _).symm
  hashed := (List.append_nil _).symm

theorem CutInto.cons {s s' : Chunks K} {plaintext : Bytes} {b : SealedBlock} {chunks : List Bytes}
    (hb : Sealed up d plaintext (b.numbered K s.blockIndex))
    (h : CutInto up d (s.push plaintext b) s' chunks) :
    CutInto up d s s' (plaintext :: chunks) := by
  obtain ⟨⟨new, hblocks, hsealed⟩, hsizes, hhashed⟩ := h
  refine ⟨⟨b.numbered K s.blockIndex :: new, ?_, .cons hb hsealed⟩, ?_, ?_⟩
  · simp [hblocks, Chunks.push]
  · simp [hsizes, Chunks.push]
  · simp [hhashed, Chunks.push]

/-- an iteration of the loop once the buffer is filled -/
def afterFill (K : Crates) (up : ProtonFileUploader) (d : Draft) (fuel : Nat) (s : Chunks K)
    (plaintext : Bytes) : Sdk (Chunks K) :=
  if plaintext = [] then return s
  else do
    let b ← encryptBlock up d plaintext
    call (.sendProgress (s.push plaintext b).totalBytes)
    if plaintext.length < BLOCK_SIZE then return s.push plaintext b
    else readBlocks K up d fuel (s.push plaintext b)

theorem readBlocks_succ (fuel : Nat) (s : Chunks K) :
    readBlocks K up d (fuel + 1) s = (do
      let cancelled ← call (.isCancelled .upload)
      require (!cancelled) (.internal "upload cancelled")
      let plaintext ← fillBuffer BLOCK_SIZE BLOCK_SIZE []
      afterFill K up d fuel s plaintext) := rfl

/-- an iteration takes the next bytes off the stream -/
theorem readBlocks_step {fuel : Nat} {s : Chunks K} {content : Bytes} {Q : Bytes → Chunks K → Prop}
    (h : Triple Reads (content.drop BLOCK_SIZE)
      (afterFill K up d fuel s (content.take BLOCK_SIZE)) Q Interrupts) :
    Triple Reads content (readBlocks K up d (fuel + 1) s) Q Interrupts := by
  rw [readBlocks_succ]
  have hcheck : ∀ cancelled : Bool, Triple Reads content
      (require (!cancelled) (.internal "upload cancelled")) (fun rest _ => rest = content)
      Interrupts := by
    intro cancelled
    exact Triple.ite (fun _ => Triple.pure rfl) fun _ => Triple.throw (.inl rfl)
  refine Triple.bind (Q := fun rest _ => rest = content)
    (Triple.perform fun a rest h => h.other_inv rfl) fun rest cancelled hrest => ?_
  subst hrest
  refine Triple.bind (hcheck cancelled) fun rest' _ hrest => ?_
  subst hrest
  refine Triple.bind (fillBuffer_triple BLOCK_SIZE_pos le_rfl) fun rest plaintext hfill => ?_
  obtain ⟨hplain, hrest⟩ := hfill
  rw [List.nil_append] at hplain
  rw [hplain, hrest]
  exact h

/-- on the chunks that the stream has still to deliver: an iteration takes one of them off -/
theorem readBlocks_triple {chunks : List Bytes} (hexact : Exact BLOCK_SIZE chunks) {fuel : Nat}
    (hfuel : chunks.length < fuel) (s : Chunks K) :
    Triple Reads chunks.flatten (readBlocks K up d fuel s)
      (fun rest s' => rest = [] ∧ CutInto up d s s' chunks) Interrupts := by
  obtain ⟨fuel, rfl⟩ : ∃ m, fuel = m + 1 := ⟨fuel - 1, by omega⟩
  induction chunks generalizing fuel s with
  | nil =>
    apply readBlocks_step
    rw [List.flatten_nil, List.take_nil, List.drop_nil]
    unfold afterFill
    rw [if_pos rfl]
    exact Triple.pure ⟨rfl, .nil⟩
  | cons c cs ih =>
    have hlength := hexact.head_length BLOCK_SIZE_pos
    have hne : c ≠ [] := List.ne_nil_of_length_pos hlength.1
    apply readBlocks_step
    rw [hexact.take_flatten BLOCK_SIZE_pos, hexact.drop_flatten BLOCK_SIZE_pos]
    unfold afterFill
    rw [if_neg hne]
    refine Triple.bind encryptBlock_triple fun rest b h => ?_
    obtain ⟨rfl, hsealed⟩ := h
    refine Triple.bind (Q := fun rest _ => rest = cs.flatten)
      (Triple.perform fun a rest h => h.other_inv rfl) fun rest _ hrest => ?_
    subst hrest
    refine Triple.ite (fun hshort => ?_) fun _ => ?_
    · -- a short block is the last one
      rw [hexact.of_short hshort]
      exact Triple.pure ⟨rfl, .cons hsealed .nil⟩
    · rw [List.length_cons] at hfuel
      obtain ⟨fuel, rfl⟩ : ∃ m, fuel = m + 1 := ⟨fuel - 1, by omega⟩
      refine (ih hexact.tail _ fuel (by omega)).mono fun rest s' h => ?_
      exact ⟨h.1, h.2.cons hsealed⟩

/-- the blocks of a stream are its chunks, whichever reads delivered it: the chunks are there before
the run is -/
theorem readBlocks_chunks (K : Crates) (up : ProtonFileUploader) (content : Bytes) :
    ∃ chunks : List Bytes, chunks.flatten = content ∧ Exact BLOCK_SIZE chunks ∧
      (content = [] → chunks = []) ∧
      ∀ (d : Draft) (fuel : Nat) (tr : Trace host) (rest : Bytes)
        (o : Outcome (Except Fault (Chunks K))), chunks.length < fuel →
        Path Reads content tr rest →
        Runs (readBlocks K up d fuel (Chunks.empty K)).run tr o →
        o.Meets (fun s => rest = [] ∧ List.Forall₂ (Sealed up d) chunks s.blocks ∧
          s.blocks.map (·.index) = List.range' 1 chunks.length ∧
          s.blockSizes = chunks.map List.length ∧ s.blockSizes.sum = s.totalBytes ∧
          s.hashed = content) Interrupts := by
  obtain ⟨chunks, hexact, hflat⟩ := exists_exact BLOCK_SIZE_pos content
  refine ⟨chunks, hflat, hexact, fun hnil => ?_, fun d fuel tr rest o hfuel hpath hrun => ?_⟩
  · subst hnil
    exact hexact.unique BLOCK_SIZE_pos exact_nil hflat
  · rw [← hflat] at hpath
    refine (readBlocks_triple hexact hfuel _ tr rest o hrun hpath).mono fun s h => ?_
    obtain ⟨hrest, ⟨new, hblocks, hsealed⟩, hsizes, hhashed⟩ := h
    have hnew : s.blocks = new := hblocks
    have hcount : s.blocks.length = chunks.length := hnew ▸ hsealed.length_eq.symm
    refine ⟨hrest, hnew ▸ hsealed, ?_, hsizes, s.total.symm, ?_⟩
    · rw [s.numbered, hcount]
    · rw [hhashed, hflat]
      exact List.nil_append content

end

/-! ## a run for each way to read -/

section
variable {K : Crates} {up : ProtonFileUploader} {d : Draft}

/-- the reads that deliver `parts` into a buffer with room for `room` bytes; if they do not fill it the
stream is at its end -/
def reads : Nat → List Bytes → Trace host
  | room, [] => if room = 0 then [] else [⟨.read room, .ok ⟨[], Nat.zero_le room⟩⟩]
  | room, part :: parts =>
    if h : part.length ≤ room then ⟨.read room, .ok ⟨part, h⟩⟩ :: reads (room - part.length) parts
    else []

/-- the coins for one block -/
def sealCoins : Trace host := List.replicate 3 ⟨.coins, (0 : Nat)⟩

/-- the calls of the loop over blocks that arrive in `parts` each -/
def blockReads : Nat → List (List Bytes) → Trace host
  | _, [] => ⟨.isCancelled .upload, false⟩ :: reads BLOCK_SIZE []
  | total, parts :: rest =>
    ⟨.isCancelled .upload, false⟩ :: (reads BLOCK_SIZE parts ++ (sealCoins ++
      ⟨.sendProgress (total + parts.flatten.length), ()⟩ ::
      if parts.flatten.length < BLOCK_SIZE then [] else blockReads (total + parts.flatten.length) rest))

theorem fillBuffer_runs (parts : List Bytes) {room fuel : Nat} (buf : Bytes)
    (hparts : ∀ part ∈ parts, part ≠ []) (hle : parts.flatten.length ≤ room) (hpos : 0 < room)
    (hfuel : room ≤ fuel) :
    Runs (fillBuffer fuel room buf).run (reads room parts) (.done (.ok (buf ++ parts.flatten))) := by
  induction parts generalizing room fuel buf with
  | nil =>
    obtain ⟨fuel, rfl⟩ : ∃ m, fuel = m + 1 := ⟨fuel - 1, by omega⟩
    unfold reads
    rw [if_neg (by omega), List.flatten_nil, List.append_nil]
    exact .call (.ret _)
  | cons part parts ih =>
    obtain ⟨fuel, rfl⟩ : ∃ m, fuel = m + 1 := ⟨fuel - 1, by omega⟩
    rw [List.forall_mem_cons] at hparts
    obtain ⟨hne, hparts⟩ := hparts
    rw [List.flatten_cons, List.length_append] at hle
    have hlength : 0 < part.length := List.length_pos_of_ne_nil hne
    have hcap : part.length ≤ room := by omega
    unfold reads
    rw [dif_pos hcap]
    refine .call ?_
    show Runs (ExceptT.run (if part = [] then _ else if part.length = room then _ else _)) _ _
    rw [if_neg hne]
    by_cases hfull : part.length = room
    · -- the buffer is full and nothing is left
      have hnil : parts = [] := by
        rcases List.eq_nil_or_concat parts with h | ⟨_, p, rfl⟩
        · exact h
        · have := List.length_pos_of_ne_nil (hparts p (by simp))
          simp at hle
          omega
      subst hnil
      rw [if_pos hfull, hfull, Nat.sub_self]
      simp only [reads, if_true, List.flatten_cons, List.flatten_nil, List.append_nil]
      exact .ret _
    · rw [if_neg hfull, List.flatten_cons, ← List.append_assoc]
      exact ih _ hparts (by omega) (by omega) (by omega)

theorem reads_path (parts : List Bytes) {room : Nat} {rest : Bytes}
    (hle : parts.flatten.length ≤ room) (hparts : ∀ part ∈ parts, part ≠ [])
    (hend : parts.flatten.length < room → rest = []) :
    Path Reads (parts.flatten ++ rest) (reads room parts) rest := by
  induction parts generalizing room with
  | nil =>
    unfold reads
    split
    · exact .nil _
    · next hroom =>
      obtain rfl := hend (Nat.pos_of_ne_zero hroom)
      exact .one (.read [] [] _ fun _ => rfl)
  | cons part parts ih =>
    rw [List.forall_mem_cons] at hparts
    obtain ⟨hne, hparts⟩ := hparts
    rw [List.flatten_cons, List.length_append] at hle hend
    have hcap : part.length ≤ room := by omega
    unfold reads
    rw [dif_pos hcap, List.flatten_cons, List.append_assoc]
    exact .cons (.read part _ hcap fun h => absurd h hne)
      (ih (by omega) hparts fun h => hend (by omega))

/-- every block can be made with these coins -/
def SealsAll (up : ProtonFileUploader) (d : Draft) : Prop :=
  ∀ plaintext, ∃ b, Runs (encryptBlock up d plaintext).run sealCoins (.done (.ok b))

/-- however the blocks of a stream arrive, the loop has a run that returns -/
theorem readBlocks_runs {splits : List (List Bytes)} (hseals : SealsAll up d)
    (hexact : Exact BLOCK_SIZE (splits.map List.flatten))
    (hparts : ∀ parts ∈ splits, ∀ part ∈ parts, part ≠ []) {fuel : Nat}
    (hfuel : splits.length < fuel) (s : Chunks K) :
    ∃ s', Runs (readBlocks K up d fuel s).run (blockReads s.totalBytes splits) (.done (.ok s')) := by
  obtain ⟨fuel, rfl⟩ : ∃ m, fuel = m + 1 := ⟨fuel - 1, by omega⟩
  induction splits generalizing fuel s with
  | nil =>
    have hfill := fillBuffer_runs [] [] nofun (Nat.zero_le _) BLOCK_SIZE_pos le_rfl
    refine ⟨s, ?_⟩
    rw [readBlocks_succ]
    refine .bindE_one (.call (.ret _)) (.bindE_nil (.ret _) ?_)
    rw [← List.append_nil (reads _ _)]
    exact .bindE hfill (.ret _)
  | cons parts rest ih =>
    rw [List.forall_mem_cons] at hparts
    obtain ⟨hne, hle, htail, hshort⟩ := hexact.of_map_cons BLOCK_SIZE_pos
    have hfill := fillBuffer_runs parts [] hparts.1 hle BLOCK_SIZE_pos le_rfl
    rw [List.nil_append] at hfill
    obtain ⟨b, hb⟩ := hseals parts.flatten
    have htotal : (s.push parts.flatten b).totalBytes = s.totalBytes + parts.flatten.length := rfl
    have hrest : ∃ s', Runs (ExceptT.run (if parts.flatten.length < BLOCK_SIZE then
          pure (s.push parts.flatten b) else readBlocks K up d fuel (s.push parts.flatten b)))
        (if parts.flatten.length < BLOCK_SIZE then []
          else blockReads (s.totalBytes + parts.flatten.length) rest) (.done (.ok s')) := by
      by_cases hlt : parts.flatten.length < BLOCK_SIZE
      · rw [if_pos hlt, if_pos hlt]
        exact ⟨_, .ret _⟩
      · rw [if_neg hlt, if_neg hlt, ← htotal]
        rw [List.length_cons] at hfuel
        obtain ⟨fuel, rfl⟩ : ∃ m, fuel = m + 1 := ⟨fuel - 1, by omega⟩
        exact ih htail hparts.2 _ fuel (by omega)
    obtain ⟨s', hs'⟩ := hrest
    refine ⟨s', ?_⟩
    rw [readBlocks_succ]
    refine .bindE_one (.call (.ret _)) (.bindE_nil (.ret _) ?_)
    refine .bindE hfill ?_
    unfold afterFill
    rw [if_neg hne]
    exact .bindE hb (.bindE_one (.call (.ret _)) hs')

theorem blockReads_path {splits : List (List Bytes)} (total : Nat)
    (hexact : Exact BLOCK_SIZE (splits.map List.flatten))
    (hparts : ∀ parts ∈ splits, ∀ part ∈ parts, part ≠ []) :
    Path Reads (splits.map List.flatten).flatten (blockReads total splits) [] := by
  induction splits generalizing total with
  | nil => exact .cons (.other rfl) (reads_path [] (Nat.zero_le _) nofun fun _ => rfl)
  | cons parts rest ih =>
    rw [List.forall_mem_cons] at hparts
    obtain ⟨_, hle, htail, hshort⟩ := hexact.of_map_cons BLOCK_SIZE_pos
    rw [List.map_cons, List.flatten_cons]
    have hend : parts.flatten.length < BLOCK_SIZE → (rest.map List.flatten).flatten = [] := by
      intro hlt
      rw [hshort hlt]
      rfl
    have hcoins : Path Reads (rest.map List.flatten).flatten sealCoins
        (rest.map List.flatten).flatten :=
      .cons (.other rfl) (.cons (.other rfl) (.one (.other rfl)))
    refine .cons (.other rfl) ((reads_path parts hle hparts.1 hend).append (hcoins.append ?_))
    refine .cons (.other rfl) ?_
    by_cases hlt : parts.flatten.length < BLOCK_SIZE
    · rw [if_pos hlt, hend hlt]
      exact .nil _
    · rw [if_neg hlt]
      exact ih _ htail hparts.2

end

/-! ## two ways to read two blocks -/

def sevens (n : Nat) : Bytes := List.replicate n 7

theorem sevens_length (n : Nat) : (sevens n).length = n := List.length_replicate

def wholeBlock : Bytes := sevens BLOCK_SIZE

theorem wholeBlock_length : wholeBlock.length = BLOCK_SIZE := sevens_length BLOCK_SIZE

def atOnce : List (List Bytes) := [[wholeBlock], [[1, 2, 3]]]

/-- the first block comes a megabyte at a time -/
def inParts : List (List Bytes) := [List.replicate 4 (sevens 1048576), [[1], [2, 3]]]

def smallDraft : Draft where
  volumeId := "v"
  linkId := "l"
  revisionId := "r"
  addressEmail := "me"
  addressPriv := addressKey
  nodePub := { armored := "node", fingerprintHex := "node" }
  contentSessionKey := smallKey
  verificationCode := []

theorem smallDraft_seals : SealsAll smallUploader smallDraft :=
  fun _ => ⟨_, .call (.call (.call (.ret _)))⟩

theorem twoBlocks_exact : Exact BLOCK_SIZE [wholeBlock, [1, 2, 3]] :=
  exact_cons_cons.mpr ⟨wholeBlock_length, exact_singleton.mpr (by decide)⟩

theorem atOnce_blocks : atOnce.map List.flatten = [wholeBlock, [1, 2, 3]] := by
  simp [atOnce]

theorem inParts_blocks : inParts.map List.flatten = [wholeBlock, [1, 2, 3]] := by
  have hwhole : (List.replicate 4 (sevens 1048576)).flatten = wholeBlock :=
    List.flatten_replicate_replicate
  exact congrArg (fun block => [block, [1, 2, 3]]) hwhole

theorem atOnce_parts : ∀ parts ∈ atOnce, ∀ part ∈ parts, part ≠ [] := by
  have hwhole : wholeBlock ≠ [] := List.ne_nil_of_length_pos (wholeBlock_length ▸ BLOCK_SIZE_pos)
  simp [atOnce, hwhole]

theorem inParts_parts : ∀ parts ∈ inParts, ∀ part ∈ parts, part ≠ [] := by
  have hpart : sevens 1048576 ≠ [] :=
    List.ne_nil_of_length_pos ((sevens_length _).symm ▸ Nat.succ_pos 1048575)
  simp [inParts, hpart]

/-- what the two runs return has the same plaintext blocks -/
theorem twoBlocks_chunks : ∃ s s' : Chunks goodCrates,
    Runs (readBlocks goodCrates smallUploader smallDraft 3 (Chunks.empty goodCrates)).run
      (blockReads 0 atOnce) (.done (.ok s)) ∧
    Runs (readBlocks goodCrates smallUploader smallDraft 3 (Chunks.empty goodCrates)).run
      (blockReads 0 inParts) (.done (.ok s')) ∧
    List.Forall₂ (Sealed smallUploader smallDraft) [wholeBlock, [1, 2, 3]] s.blocks ∧
    List.Forall₂ (Sealed smallUploader smallDraft) [wholeBlock, [1, 2, 3]] s'.blocks ∧
    s.blockSizes = [BLOCK_SIZE, 3] ∧ s'.blockSizes = [BLOCK_SIZE, 3] := by
  obtain ⟨chunks, hflat, hexact, _, hall⟩ :=
    readBlocks_chunks goodCrates smallUploader [wholeBlock, [1, 2, 3]].flatten
  obtain rfl : chunks = [wholeBlock, [1, 2, 3]] := hexact.unique BLOCK_SIZE_pos twoBlocks_exact hflat
  have hfuel : [wholeBlock, [1, 2, 3]].length < 3 := Nat.lt_succ_self 2
  obtain ⟨s, hs⟩ := readBlocks_runs smallDraft_seals (atOnce_blocks ▸ twoBlocks_exact) atOnce_parts
    hfuel (Chunks.empty goodCrates)
  obtain ⟨s', hs'⟩ := readBlocks_runs smallDraft_seals (inParts_blocks ▸ twoBlocks_exact) inParts_parts
    hfuel (Chunks.empty goodCrates)
  have hpath := blockReads_path 0 (atOnce_blocks ▸ twoBlocks_exact) atOnce_parts
  have hpath' := blockReads_path 0 (inParts_blocks ▸ twoBlocks_exact) inParts_parts
  rw [atOnce_blocks] at hpath
  rw [inParts_blocks] at hpath'
  have h := hall smallDraft 3 _ [] _ hfuel hpath hs
  have h' := hall smallDraft 3 _ [] _ hfuel hpath' hs'
  have hsizes : [wholeBlock, [1, 2, 3]].map List.length = [BLOCK_SIZE, 3] :=
    congrArg (fun n => [n, 3]) wholeBlock_length
  exact ⟨s, s', hs, hs', h.2.1, h'.2.1, h.2.2.2.1.trans hsizes, h'.2.2.2.1.trans hsizes⟩

end ProtonDrive
