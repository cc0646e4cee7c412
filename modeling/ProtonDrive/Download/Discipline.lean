import ProtonDrive.Download.Authentic

/-!
# What a download writes, however far it comes

* `handed`               the pieces given to the writer, in their order;
* `Streamed`             what the loop over the blocks has done when it is observed at any point: it has
                         fetched and decrypted the first blocks of the list, and has handed on their
                         plaintexts in that order, all but perhaps the last;
* `StreamedFile`         the same for a download, whose list is that of the revision sorted by index;
* `download_discipline`  every run of a download, at every moment, is before its first block or is a
                         `StreamedFile`, and one that returns `Ok` counts what it wrote as far as its
                         counters go;
* `manyBlocks_miscounted`
                         which is one block of 2³² + 1.
-/

set_option linter.unusedVariables false

namespace ProtonDrive
open Encoding Effects Api

/-! ## what the writer was given -/

def handedBy : Event host → Option Bytes
  | ⟨.writeAll data, _⟩ => some data
  | _ => none

def handed (tr : Trace host) : List Bytes := tr.filterMap handedBy

section
variable {tr tr' : Trace host}

@[simp] theorem handed_append : handed (tr ++ tr') = handed tr ++ handed tr' :=
  List.filterMap_append

theorem handed_eq_nil (h : ∀ e ∈ tr, isWrite e.call = false) : handed tr = [] := by
  refine List.filterMap_eq_nil_iff.mpr fun e he => ?_
  have hwrite := h e he
  obtain ⟨c, a⟩ := e
  cases c with
  | writeAll data => cases hwrite
  | _ => rfl

/-- neither the storage nor the writer was called -/
def Untouched (tr : Trace host) : Prop := blobs tr = [] ∧ handed tr = [] ∧ written tr = []

theorem untouched_of (hblob : ∀ e ∈ tr, isBlob e.call = false)
    (hwrite : ∀ e ∈ tr, isWrite e.call = false) : Untouched tr :=
  ⟨blobs_eq_nil hblob, handed_eq_nil hwrite, written_eq_nil hwrite⟩

end

/-! ## the loop over the blocks -/

section
variable {K : Crates} {dl : FileDownloader} {sk : SessionKey}

/-- the first blocks of `blocks` were decrypted, and their plaintexts handed on in this order -/
structure Streamed (tr : Trace host) (blocks : List Download.BlockResponse)
    (bs : List (DecryptedBlock K dl sk)) : Prop where
  sorted : bs.map (·.block) <+: blocks
  asked : (blobs tr).map Prod.fst <+: blocks.map blockGet
  served : bs.map (·.fetch) <+: blobs tr
  handed : handed tr <+: bs.map (·.plaintext)
  taken : written tr <+: (ProtonDrive.handed tr).flatten

theorem Streamed.nil (blocks : List Download.BlockResponse) :
    @Streamed K dl sk [] blocks [] where
  sorted := List.nil_prefix
  asked := List.nil_prefix
  served := List.nil_prefix
  handed := List.nil_prefix
  taken := List.nil_prefix

/-- a block that was fetched and handed on, and then the blocks after it -/
theorem Streamed.cons {tr : Trace host} {rest : List Download.BlockResponse}
    {bs : List (DecryptedBlock K dl sk)} (b : DecryptedBlock K dl sk)
    (h : Streamed tr rest bs) :
    Streamed (⟨.requestBlob (blockGet b.block), .ok b.resp⟩ :: ⟨.writeAll b.plaintext, .ok ()⟩ :: tr)
      (b.block :: rest) (b :: bs) where
  sorted := (List.prefix_cons_inj _).mpr h.sorted
  asked := (List.prefix_cons_inj _).mpr h.asked
  served := (List.prefix_cons_inj _).mpr h.served
  handed := (List.prefix_cons_inj _).mpr h.handed
  taken := (List.prefix_append_right_inj b.plaintext).mpr h.taken

/-- a fetch that did not lead to a plaintext -/
theorem fetchAndDecryptBlock_aborts {block : Download.BlockResponse} {tr : Trace host}
    {o : Outcome (Except Fault Bytes)} (h : Runs (fetchAndDecryptBlock K dl sk block).run tr o) :
    (blobs tr).map Prod.fst <+: [blockGet block] ∧ handed tr = [] ∧ written tr = [] := by
  have hwrite : ∀ e ∈ tr, isWrite e.call = false :=
    h.only (within_fetchAndDecryptBlock (A := fun c => isWrite c = false) (Q := fun _ => True)
      (fun _ => trivial) rfl).1
  refine ⟨?_, handed_eq_nil hwrite, written_eq_nil hwrite⟩
  have hQ : ∀ e : Error, (fun _ : Fault => True) (.error e) := fun _ => trivial
  rcases h.bindE_inv with ⟨resp, t, u, rfl, h₁, k⟩ | ⟨o₁, _, h₁⟩
  · obtain rfl := requestBlob_ok h₁
    -- the hash and the decryption make no request
    have hsilent : blobs u = [] := by
      refine blobs_eq_nil (k.only (Within.bind (A := fun c => isBlob c = false) (Q := fun _ => True)
        (within_require hQ _ _) fun _ => ?_).1)
      exact Within.bind (within_ofExcept hQ _ _) fun _ => Within.pure _
    rw [blobs_append, hsilent]
    exact List.prefix_rfl
  · rcases Runs.call_inv h₁ with ⟨rfl, _⟩ | ⟨a, u, rfl, k⟩
    · exact List.nil_prefix
    · have hu : u = [] := by
        cases a with
        | ok resp => exact (Runs.ret_inv k).1
        | error e => exact (Runs.ret_inv k).1
      rw [hu]
      exact List.prefix_rfl

/-- a block that was fetched and of which the writer took what `r` says, if it was given it at all -/
theorem Streamed.last (b : DecryptedBlock K dl sk) (rest : List Download.BlockResponse)
    (r : Except WriteError Unit) :
    Streamed [⟨.requestBlob (blockGet b.block), .ok b.resp⟩] (b.block :: rest) [b] ∧
      Streamed [⟨.requestBlob (blockGet b.block), .ok b.resp⟩, ⟨.writeAll b.plaintext, r⟩]
        (b.block :: rest) [b] := by
  have h := (@Streamed.nil K dl sk rest).cons b
  refine ⟨⟨h.sorted, h.asked, h.served, List.nil_prefix, List.nil_prefix⟩,
    ⟨h.sorted, h.asked, h.served, h.handed, ?_⟩⟩
  show takenBytes b.plaintext r ++ [] <+: b.plaintext ++ []
  rw [List.append_nil, List.append_nil]
  cases r with
  | ok _ => exact List.prefix_rfl
  | error e => exact List.take_prefix _ _

theorem writeBlocks_streamed {blocks : List Download.BlockResponse} {t : Tally} {tr : Trace host}
    {o : Outcome (Except Fault Tally)} (h : Runs (writeBlocks K dl sk blocks t).run tr o) :
    ∃ bs : List (DecryptedBlock K dl sk), Streamed tr blocks bs := by
  induction blocks generalizing t tr with
  | nil =>
    obtain ⟨rfl, _⟩ := Runs.ret_inv h
    exact ⟨[], Streamed.nil []⟩
  | cons block rest ih =>
    rcases h.bindE_inv with ⟨plaintext, t₁, u₁, rfl, h₁, k₁⟩ | ⟨o₁, _, h₁⟩
    · obtain ⟨b, rfl, rfl, rfl⟩ := fetchAndDecryptBlock_ok h₁
      rcases k₁.bindE_inv with ⟨r, t₂, u₂, rfl, h₂, k₂⟩ | ⟨o₂, _, h₂⟩
      · obtain rfl := call_ok h₂
        rcases k₂.bindE_inv with ⟨_, t₃, u₃, rfl, h₃, k₃⟩ | ⟨o₃, _, h₃⟩
        · obtain ⟨rfl, rfl⟩ := ofExcept_ok h₃
          obtain ⟨bs, hbs⟩ := ih k₃
          exact ⟨b :: bs, hbs.cons b⟩
        · obtain rfl := ofExcept_silent h₃
          exact ⟨[b], (Streamed.last b rest r).2⟩
      · rcases call_runs h₂ with rfl | ⟨r, rfl⟩
        · exact ⟨[b], (Streamed.last b rest (.ok ())).1⟩
        · exact ⟨[b], (Streamed.last b rest r).2⟩
    · obtain ⟨hasked, hhanded, hwritten⟩ := fetchAndDecryptBlock_aborts h₁
      refine ⟨[], ⟨List.nil_prefix, ?_, List.nil_prefix, ?_, ?_⟩⟩
      · exact hasked.trans ⟨rest.map blockGet, rfl⟩
      · rw [hhanded]
        exact List.nil_prefix
      · rw [hwritten]
        exact List.nil_prefix

/-- a loop that came to its end has decrypted every block, and counts what it handed on -/
theorem writeBlocks_streams {blocks : List Download.BlockResponse} {t t' : Tally} {tr : Trace host}
    (h : Runs (writeBlocks K dl sk blocks t).run tr (.done (.ok t'))) :
    ∃ bs : List (DecryptedBlock K dl sk), bs.map (·.block) = blocks ∧ Streamed tr blocks bs ∧
      t'.totalBlocks = (t.totalBlocks + (handed tr).length) % 2 ^ 32 := by
  induction blocks generalizing t tr with
  | nil =>
    obtain ⟨rfl, rfl⟩ := pure_ok h
    exact ⟨[], rfl, Streamed.nil [], (Nat.mod_eq_of_lt t'.fits).symm⟩
  | cons block rest ih =>
    obtain ⟨plaintext, t₁, u₁, rfl, h₁, k₁⟩ := h.bindE_ok
    obtain ⟨r, t₂, u₂, rfl, h₂, k₂⟩ := k₁.bindE_ok
    obtain ⟨_, t₃, u₃, rfl, h₃, k₃⟩ := k₂.bindE_ok
    obtain ⟨b, rfl, rfl, rfl⟩ := fetchAndDecryptBlock_ok h₁
    obtain rfl := call_ok h₂
    obtain ⟨rfl, rfl⟩ := ofExcept_ok h₃
    obtain ⟨bs, hmap, hbs, hcount⟩ := ih k₃
    refine ⟨b :: bs, congrArg (b.block :: ·) hmap, hbs.cons b, ?_⟩
    rw [hcount]
    show ((t.totalBlocks + 1) % 2 ^ 32 + (handed u₃).length) % 2 ^ 32 =
      (t.totalBlocks + ((handed u₃).length + 1)) % 2 ^ 32
    omega

def isFlush : HostCall → Bool
  | .flush => true
  | _ => false

theorem within_writeBlocks {A : HostCall → Prop} {Q : Fault → Prop} (hQ : ∀ e, Q (.error e))
    (hblob : ∀ block, A (.requestBlob (blockGet block))) (hwrite : ∀ data, A (.writeAll data))
    {blocks : List Download.BlockResponse} {t : Tally} :
    Within (S := host) A Q (writeBlocks K dl sk blocks t) := by
  induction blocks generalizing t with
  | nil => exact Within.pure t
  | cons block rest ih =>
    refine Within.bind (within_fetchAndDecryptBlock hQ (hblob block)) fun plaintext => ?_
    refine Within.bind (within_call (hwrite plaintext)) fun r => ?_
    exact Within.bind (within_ofExcept hQ _ r) fun _ => ih

theorem only_writeBlocks {A : HostCall → Prop} (hblob : ∀ block, A (.requestBlob (blockGet block)))
    (hwrite : ∀ data, A (.writeAll data)) {blocks : List Download.BlockResponse} {t : Tally} :
    Only (S := host) A (writeBlocks K dl sk blocks t).run :=
  (within_writeBlocks (Q := fun _ => True) (fun _ => trivial) hblob hwrite).1

end

/-! ## the download -/

/-- a download that has come as far as its blocks -/
structure StreamedFile (K : Crates) (dl : FileDownloader) (tr : Trace host) where
  revision : Download.RevisionWithBlocks
  resp : JsonResponse
  signature : String
  sessionKey : SessionKey
  order : List Download.BlockResponse
  blocks : List (DecryptedBlock K dl sessionKey)
  asked : ∃ rest, tr = ⟨.requestJson (.bare .get dl.revisionPath none), .ok resp⟩ :: rest
  answered : K.Envelopes Download.GetRevisionResponse.ofJson resp.body ⟨revision⟩
  nonempty : revision.blocks ≠ []
  signed : revision.manifestSignature = some signature
  key : contentSessionKey dl revision = .ok sessionKey
  permuted : order.Perm revision.blocks
  ascending : order.Pairwise fun a b => a.index ≤ b.index
  stable : ∀ i, order.filter (·.index = i) = revision.blocks.filter (·.index = i)
  streamed : Streamed tr order blocks
  /-- the manifest is checked once the writer is flushed: then no hash is left that cannot be decoded -/
  manifest : ⟨.flush, .ok ()⟩ ∈ tr → blocks.map (·.block) = order ∧
    manifestOf K order = .ok (blocks.flatMap fun b => (K.sha256 b.ciphertext).1)

section
variable {K : Crates} {dl : FileDownloader}

theorem Streamed.of_eq {sk : SessionKey} {tr tr' : Trace host} {blocks : List Download.BlockResponse}
    {bs : List (DecryptedBlock K dl sk)} (h : Streamed tr blocks bs) (hblobs : blobs tr' = blobs tr)
    (hhanded : ProtonDrive.handed tr' = ProtonDrive.handed tr) (hwritten : written tr' = written tr) :
    Streamed tr' blocks bs where
  sorted := h.sorted
  asked := by rw [hblobs]; exact h.asked
  served := by rw [hblobs]; exact h.served
  handed := by rw [hhanded]; exact h.handed
  taken := by rw [hwritten, hhanded]; exact h.taken

theorem fetchRevision_untouched {tr : Trace host}
    {o : Outcome (Except Fault Download.RevisionWithBlocks)}
    (h : Runs (fetchRevision K dl).run tr o) : Untouched tr :=
  untouched_of
    (h.only (only_fetchRevision (A := fun c => isBlob c = false) fun _ => rfl))
    (h.only (only_fetchRevision (A := fun c => isWrite c = false) fun _ => rfl))

/-- a download at any moment -/
theorem downloadToWriter_streams {tr : Trace host} {o : Outcome (Except Fault DownloadStats)}
    (h : Runs (downloadToWriter K dl).run tr o) : Untouched tr ∨ Nonempty (StreamedFile K dl tr) := by
  rcases h.bindE_inv with ⟨revision, t₁, u₁, rfl, h₁, k₁⟩ | ⟨_, _, h₁⟩
  swap
  · exact .inl (fetchRevision_untouched h₁)
  obtain ⟨⟨r⟩, t₀, u₀, rfl, h₀, k₀⟩ := h₁.bindE_ok
  obtain ⟨rfl, rfl⟩ := pure_ok k₀
  obtain ⟨resp, rfl, henv⟩ := getJsonOr_ok h₀
  rcases k₁.bindE_inv with ⟨_, t₂, u₂, rfl, h₂, k₂⟩ | ⟨_, _, h₂⟩
  swap
  · obtain rfl := require_silent h₂
    exact .inl ⟨rfl, rfl, rfl⟩
  obtain ⟨rfl, hne⟩ := require_ok h₂
  rcases k₂.bindE_inv with ⟨_, t₃, u₃, rfl, h₃, k₃⟩ | ⟨_, _, h₃⟩
  swap
  · obtain rfl := require_silent h₃
    exact .inl ⟨rfl, rfl, rfl⟩
  obtain ⟨rfl, hsig⟩ := require_ok h₃
  rcases k₃.bindE_inv with ⟨sk, t₄, u₄, rfl, h₄, k₄⟩ | ⟨_, _, h₄⟩
  swap
  · obtain rfl := ofExcept_silent h₄
    exact .inl ⟨rfl, rfl, rfl⟩
  obtain ⟨rfl, hkey⟩ := ofExcept_ok h₄
  obtain ⟨sig, hsig⟩ := Option.isSome_iff_exists.mp hsig
  have hne : revision.blocks ≠ [] := by
    intro hnil
    rw [hnil] at hne
    cases hne
  -- what is left to show for either end of the loop
  have hfile : ∀ (bs : List (DecryptedBlock K dl sk)) (rest : Trace host),
      Streamed rest (Sorting.sortByKey (·.index) revision.blocks) bs →
      (⟨.flush, .ok ()⟩ ∈ rest → bs.map (·.block) = Sorting.sortByKey (·.index) revision.blocks) →
      Nonempty (StreamedFile K dl (⟨.requestJson (.bare .get dl.revisionPath none), .ok resp⟩ ::
        rest)) := by
    intro bs rest hbs hall
    exact ⟨{
      revision, resp, signature := sig, sessionKey := sk, blocks := bs
      order := Sorting.sortByKey (·.index) revision.blocks
      asked := ⟨rest, rfl⟩
      answered := henv
      nonempty := hne
      signed := hsig
      key := hkey
      permuted := Sorting.sortByKey_perm _ _
      ascending := Sorting.sortByKey_pairwise _ _
      stable := fun i => Sorting.filter_sortByKey _ i _
      streamed := hbs.of_eq rfl rfl rfl
      manifest := by
        intro hflush
        have hmap := hall ((List.mem_cons.mp hflush).resolve_left nofun)
        refine ⟨hmap, ?_⟩
        rw [← hmap]
        exact manifestOf_blocks bs }⟩
  rcases k₄.bindE_inv with ⟨t, t₅, u₅, rfl, h₅, k₅⟩ | ⟨_, _, h₅⟩
  · obtain ⟨bs, hmap, hbs, _⟩ := writeBlocks_streams h₅
    have hrest : u₅ = [] ∨ ∃ a, u₅ = [⟨.flush, a⟩] := by
      rcases k₅.bindE_inv with ⟨flushed, t₆, u₆, rfl, h₆, k₆⟩ | ⟨_, _, h₆⟩
      · obtain rfl := call_ok h₆
        have hsilent : Within (S := host) (fun _ => False) (fun _ => True) (do
            ofExcept (fun e => .internal ("flush error: " ++ e)) flushed
            let signatureVerified ← ofExcept id (verifyManifest K dl
              (Sorting.sortByKey (·.index) revision.blocks) revision.manifestSignature)
            return { bytes := t.totalBytes, blocks := t.totalBlocks,
                     lastModificationTime :=
                       verifyXattr K dl revision.xAttr t.totalBytes (K.sha1 t.hashed).1,
                     signatureVerified } : Sdk DownloadStats) :=
          Within.bind (within_ofExcept (fun _ => trivial) _ _) fun _ =>
            Within.bind (within_ofExcept (fun _ => trivial) _ _) fun _ => Within.pure _
        obtain rfl := within_silent hsilent k₆
        exact .inr ⟨flushed, rfl⟩
      · exact call_runs h₆
    rcases hrest with rfl | ⟨a, rfl⟩
    · simp only [List.append_nil, List.nil_append, List.singleton_append]
      exact .inr (hfile bs t₅ hbs fun _ => hmap)
    · simp only [List.append_nil, List.nil_append, List.singleton_append]
      refine .inr (hfile bs (t₅ ++ [⟨.flush, a⟩]) (hbs.of_eq ?_ ?_ ?_) fun _ => hmap)
      · rw [blobs_append]
        exact List.append_nil _
      · rw [handed_append]
        exact List.append_nil _
      · rw [written_append]
        exact List.append_nil _
  · obtain ⟨bs, hbs⟩ := writeBlocks_streamed h₅
    refine .inr (hfile bs _ hbs fun hflush => ?_)
    have hcalls := h₅.only
      (only_writeBlocks (A := fun c => isFlush c = false) (fun _ => rfl) fun _ => rfl)
    exact absurd (hcalls _ hflush) nofun

/-- a download that returned `Ok` counts what it wrote, as far as its counters go -/
theorem downloadToWriter_counts {tr : Trace host} {stats : DownloadStats}
    (h : Runs (downloadToWriter K dl).run tr (.done (.ok stats))) :
    stats.bytes = (written tr).length % 2 ^ 64 ∧ stats.blocks = (handed tr).length % 2 ^ 32 := by
  obtain ⟨f⟩ := downloadToWriter_ok h
  refine ⟨f.bytes, ?_⟩
  obtain ⟨revision, sk, t, verified, fetching, writing, rfl, hfetch, _, _, _, hwrite, _, rfl⟩ :=
    downloadToWriter_parts h
  obtain ⟨bs, _, _, hcount⟩ := writeBlocks_streams hwrite
  have hnone : handed fetching = [] := (fetchRevision_untouched hfetch).2.1
  have hflush : handed [⟨.flush, .ok ()⟩] = [] := rfl
  simp only [handed_append, hnone, hflush, List.nil_append, List.append_nil]
  exact hcount.trans (congrArg (· % 2 ^ 32) (Nat.zero_add _))

/-- of blocks that were all decrypted, only the crypto can fail the manifest check -/
theorem verifyManifest_error {sk : SessionKey} (bs : List (DecryptedBlock K dl sk)) {sig : String}
    {e : Error} (h : verifyManifest K dl (bs.map (·.block)) (some sig) = .error e) :
    ∃ ce, e = .crypto ce := by
  unfold verifyManifest at h
  simp only [manifestOf_blocks] at h
  cases hkeys : dl.verificationKeys with
  | error e' =>
    rw [hkeys] at h
    cases h
    unfold FileDownloader.verificationKeys at hkeys
    split at hkeys
    · split at hkeys
      · cases hkeys
        exact ⟨_, rfl⟩
      · cases hkeys
    · cases hkeys
  | ok keys =>
    rw [hkeys] at h
    simp only [bind, Except.bind] at h
    split at h
    · cases h
      exact ⟨_, rfl⟩
    · cases h

/-- a download that fails after the writer was flushed fails in the crypto: at that point neither the
signature nor a hash that can be decoded is missing -/
theorem downloadToWriter_flushed {tr : Trace host} {e : Error}
    (h : Runs (downloadToWriter K dl).run tr (.done (.error (.error e))))
    (hflush : ⟨.flush, .ok ()⟩ ∈ tr) : ∃ ce, e = .crypto ce := by
  have hno : ∀ a : HostCall, isFlush a = true → ¬ isFlush a = false := fun a ha => by
    rw [ha]
    exact Bool.false_ne_true.symm
  obtain ⟨revision, t₁, u₁, rfl, h₁, k₁, he₁⟩ := h.reach
    (only_fetchRevision (A := fun c => isFlush c = false) fun _ => rfl) hflush (hno _ rfl)
  obtain ⟨_, t₂, u₂, rfl, h₂, k₂, he₂⟩ := k₁.reach
    (only_require (A := fun _ => False) _ _) he₁ id
  obtain ⟨_, t₃, u₃, rfl, h₃, k₃, he₃⟩ := k₂.reach
    (only_require (A := fun _ => False) _ _) he₂ id
  obtain ⟨sk, t₄, u₄, rfl, h₄, k₄, he₄⟩ := k₃.reach
    (only_ofExcept (A := fun _ => False) _ _) he₃ id
  obtain ⟨t, t₅, u₅, rfl, h₅, k₅, he₅⟩ := k₄.reach
    (only_writeBlocks (A := fun c => isFlush c = false) (fun _ => rfl) fun _ => rfl) he₄ (hno _ rfl)
  obtain ⟨sig, hsig⟩ := Option.isSome_iff_exists.mp (require_ok h₃).2
  obtain ⟨bs, hmap, _, _⟩ := writeBlocks_streams h₅
  rcases k₅.bindE_error with ⟨flushed, t₆, u₆, rfl, h₆, k₆⟩ | hcall
  · obtain rfl := call_ok h₆
    rcases k₆.bindE_error with ⟨_, t₇, u₇, rfl, h₇, k₇⟩ | hfailed
    · rcases k₇.bindE_error with ⟨_, t₈, u₈, rfl, h₈, k₈⟩ | hverify
      · obtain ⟨_, k₈ | k₈⟩ := Runs.ret_inv k₈ <;> cases k₈
      · have hres := (ofExcept_fault hverify).2
        rw [hsig, ← hmap] at hres
        obtain ⟨e', hres, hf⟩ := hres
        cases hf
        exact verifyManifest_error bs hres
    · -- the flush that failed is the only one
      obtain ⟨rfl, e', rfl, _⟩ := ofExcept_fault hfailed
      rw [List.append_nil] at he₅
      cases List.mem_singleton.mp he₅
  · exact absurd hcall call_not_error

/-- every run of a download, at every moment -/
theorem download_discipline {tr : Trace host} {o : Outcome (Except Fault DownloadStats)}
    (h : Runs (downloadToWriter K dl).run tr o) :
    (Untouched tr ∨ Nonempty (StreamedFile K dl tr)) ∧
      (∀ resp rest revision,
        tr = ⟨.requestJson (.bare .get dl.revisionPath none), .ok resp⟩ :: rest →
        K.Envelopes Download.GetRevisionResponse.ofJson resp.body ⟨revision⟩ →
        revision.blocks = [] ∨ revision.manifestSignature = none → Untouched tr) ∧
      (∀ e, o = .done (.error (.error e)) → ⟨.flush, .ok ()⟩ ∈ tr → ∃ ce, e = .crypto ce) ∧
      ∀ stats, o = .done (.ok stats) →
        stats.bytes = (written tr).length % 2 ^ 64 ∧ stats.blocks = (handed tr).length % 2 ^ 32 := by
  refine ⟨downloadToWriter_streams h, ?_, ?_, ?_⟩
  · intro resp rest revision htr henv hmissing
    rcases downloadToWriter_streams h with huntouched | hfile
    · exact huntouched
    · obtain ⟨f⟩ := hfile
      obtain ⟨rest', hasked⟩ := f.asked
      obtain ⟨hhead, _⟩ := List.cons.inj (htr.symm.trans hasked)
      cases hhead
      obtain rfl := Download.GetRevisionResponse.mk.inj (envelopes_unique henv f.answered)
      rcases hmissing with hblocks | hsig
      · exact absurd hblocks f.nonempty
      · rw [f.signed] at hsig
        cases hsig
  · rintro e rfl hflush
    exact downloadToWriter_flushed h hflush
  · rintro stats rfl
    exact downloadToWriter_counts h

end

/-- the download of two blocks, listed in the wrong order -/
theorem pairRun_discipline : ∃ stats, pairRun.2 = some (.ok stats) ∧
    written pairRun.1 = [65, 66] ∧ stats.bytes = (written pairRun.1).length % 2 ^ 64 ∧
      stats.blocks = (handed pairRun.1).length % 2 ^ 32 := by
  obtain ⟨stats, hok, _, hwritten, _⟩ := endsVerified_spec pairRun_ends
  have hcounts := (download_discipline (Script.play_runs (R := pairRun) rfl hok)).2.2.2 stats rfl
  exact ⟨stats, hok, hwritten, hcounts⟩

/-! ## a revision with many blocks -/

section
variable {K : Crates} {dl : FileDownloader} {r : Download.RevisionWithBlocks}

theorem handed_events {sk : SessionKey} (bs : List (DecryptedBlock K dl sk)) :
    handed (bs.flatMap (·.events)) = bs.map (·.plaintext) := by
  induction bs with
  | nil => rfl
  | cons b bs ih =>
    rw [List.flatMap_cons, handed_append, ih]
    rfl

/-- one piece is handed on for each block -/
theorem Delivery.handed_length (a : Delivery K dl r) : (handed a.trace).length = r.blocks.length := by
  have hsorted := congrArg List.length a.sorted
  rw [List.length_map, Sorting.length_sortByKey] at hsorted
  have hask : handed [⟨.requestJson (.bare .get dl.revisionPath none), .ok a.resp⟩] = [] := rfl
  have hflush : handed [⟨.flush, .ok ()⟩] = [] := rfl
  unfold Delivery.trace
  rw [handed_append, handed_append, hask, hflush, handed_events, List.nil_append, List.append_nil,
    List.length_map, hsorted]

/-- a revision with a signature and blocks, all of which arrive, is downloaded -/
theorem Delivery.succeeds {D : List Json} {blocks : List Download.BlockResponse} {signed : Bytes}
    (a : Delivery (smallCrates D) smallDownloader (smallRecord blocks (smallSignature signed)))
    (hne : blocks ≠ []) :
    ∃ stats, Runs (downloadToWriter (smallCrates D) smallDownloader).run a.trace
      (.done (.ok stats)) := by
  have hpayload := manifestOf_blocks a.blocks
  rw [a.sorted] at hpayload
  obtain ⟨stats, hrun, _⟩ := a.runs hne rfl (smallSignature_checked hpayload signed)
  exact ⟨stats, hrun⟩

end

/-- one block, listed `n` times -/
def manyBlocks (n : Nat) : List Download.BlockResponse := List.replicate n (smallBlock 1)

def manyRevision (n : Nat) : Json := smallRevision [] (manyBlocks n) (smallSignature smallDigest)

def manyDelivery (n : Nat) : Delivery (smallCrates [manyRevision n]) smallDownloader
    (smallRecord (manyBlocks n) (smallSignature smallDigest)) :=
  smallDelivery (D := [manyRevision n]) (List.nodup_singleton _) (List.mem_singleton.mpr rfl)
    (fun b hb => by
      rw [List.eq_of_mem_replicate hb]
      exact ⟨by decide, rfl, rfl⟩)
    (fun b hb => by
      rw [List.eq_of_mem_replicate hb]
      rfl)

theorem manyBlocks_counted {n : Nat} (hn : 0 < n) :
    ∃ tr stats, Runs (downloadToWriter (smallCrates [manyRevision n]) smallDownloader).run tr
        (.done (.ok stats)) ∧
      (handed tr).length = n ∧ stats.blocks = n % 2 ^ 32 := by
  have hlength : (manyBlocks n).length = n := List.length_replicate
  have hne : manyBlocks n ≠ [] := by
    rw [← List.length_pos_iff, hlength]
    exact hn
  obtain ⟨stats, hrun⟩ := (manyDelivery n).succeeds hne
  have hhanded : (handed (manyDelivery n).trace).length = n :=
    (manyDelivery n).handed_length.trans hlength
  refine ⟨_, stats, hrun, hhanded, ?_⟩
  rw [(downloadToWriter_counts hrun).2, hhanded]

/-- a revision that lists its block 2³² + 1 times; every time it is fetched, checked and handed on, and the
count is one -/
theorem manyBlocks_miscounted :
    ∃ tr stats, Runs (downloadToWriter (smallCrates [manyRevision 4294967297]) smallDownloader).run tr
        (.done (.ok stats)) ∧
      (handed tr).length = 4294967297 ∧ stats.blocks = 1 := by
  obtain ⟨tr, stats, hrun, hhanded, hblocks⟩ := manyBlocks_counted (n := 4294967297) (by decide)
  exact ⟨tr, stats, hrun, hhanded, hblocks⟩

end ProtonDrive
