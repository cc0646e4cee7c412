import ProtonDrive.Lib.Follows
import ProtonDrive.Upload.Chunking

/-!
# The bytes an upload has counted

* `acceptedBytes`      the bytes of the blocks whose `POST` was answered with 200
                       (`acceptedBytes_blocks`);
* `CountsAccepted`     no value is more than the bytes accepted when it is sent, the values never decrease,
                       and those of a run that returns `Ok` end with the total;
* `progress_counts`    every value is the number of the bytes read so far, so the second holds of every
                       run, and so does the third;
* `FirstBlock`         a run that has read and encrypted a first block and went on;
* `runUpload_countsAccepted`
                       what is counted was accepted just in the runs that do not come so far;
* `refusedRun_counted` one that does: all its bytes are counted, and none is accepted.

So a bar is full when nothing has been sent yet.
-/

set_option linter.unusedVariables false

namespace ProtonDrive
open Encoding Effects Paths Chunking Api

/-! ## what is counted -/

/-- the storage answered the `POST` of a block with 200 -/
def isAccepted (post : BlobRequest × Except Error JsonResponse) : Bool :=
  match post.2 with
  | .ok resp => resp.status = 200
  | .error _ => false

/-- the blocks are posted in their order, and every block but the last is full -/
def acceptedBytes (tr : Trace host) : Nat :=
  min ((blobs tr).countP isAccepted * BLOCK_SIZE) (delivered tr).length

structure CountsAccepted (tr : Trace host) (o : Outcome (Except Fault Unit)) : Prop where
  accepted : ∀ pre n post, tr = pre ++ ⟨.sendProgress n, ()⟩ :: post → n ≤ acceptedBytes pre
  grows : (progressSent tr).Pairwise (· ≤ ·)
  total : o = .done (.ok ()) → (progressSent tr).getLast? = some (delivered tr).length

/-- before the first post nothing has been accepted -/
theorem acceptedBytes_eq_zero {tr : Trace host} (h : blobs tr = []) : acceptedBytes tr = 0 := by
  unfold acceptedBytes
  rw [h, List.countP_nil, Nat.zero_mul, Nat.zero_min]

/-! ## the sizes of the blocks -/

section
variable {K : Crates} {up : ProtonFileUploader} {d : Draft} {fuel : Nat} {tr : Trace host}

theorem fillBuffer_fits {remaining : Nat} {buf out : Bytes}
    (h : Runs (fillBuffer fuel remaining buf).run tr (.done (.ok out))) :
    out.length ≤ buf.length + remaining := by
  induction fuel generalizing remaining buf tr with
  | zero =>
    obtain ⟨_, rfl⟩ := pure_ok h
    omega
  | succ fuel ih =>
    obtain ⟨r, t, u, rfl, hread, hk⟩ := h.bindE_ok
    match r, hk with
    | .error e, hk => exact absurd hk fail_ok
    | .ok ⟨bs, hcap⟩, hk =>
      change Runs (ExceptT.run (if bs = [] then _ else if bs.length = remaining then _ else _)) u _ at hk
      split at hk
      · obtain ⟨_, rfl⟩ := pure_ok hk
        omega
      · split at hk
        · obtain ⟨_, rfl⟩ := pure_ok hk
          rw [List.length_append]
          omega
        · have hfits := ih hk
          rw [List.length_append] at hfits
          omega

/-- the loop cuts what it reads into full blocks and a last one -/
theorem readBlocks_sizes {s s' : Chunks K}
    (h : Runs (readBlocks K up d fuel s).run tr (.done (.ok s'))) :
    ∃ chunks, Exact BLOCK_SIZE chunks ∧ chunks.flatten = delivered tr ∧
      s'.blockSizes = s.blockSizes ++ chunks.map List.length := by
  induction fuel generalizing s tr with
  | zero => cases h
  | succ fuel ih =>
    rw [readBlocks_succ] at h
    obtain ⟨cancelled, t₁, u₁, rfl, h₁, k₁⟩ := h.bindE_ok
    obtain ⟨_, t₂, u₂, rfl, h₂, k₂⟩ := k₁.bindE_ok
    obtain ⟨plaintext, t₃, u₃, rfl, h₃, k₃⟩ := k₂.bindE_ok
    obtain rfl := call_ok h₁
    obtain ⟨rfl, _⟩ := require_ok h₂
    have hplain : plaintext = delivered t₃ := fillBuffer_ok h₃
    have hfits : plaintext.length ≤ BLOCK_SIZE := by
      have hfits := fillBuffer_fits h₃
      rw [List.length_nil, Nat.zero_add] at hfits
      exact hfits
    have hread : delivered ([⟨.isCancelled .upload, cancelled⟩] ++ ([] ++ (t₃ ++ u₃))) =
        plaintext ++ delivered u₃ := by
      rw [hplain]
      simp [deliveredBy]
    rw [hread]
    unfold afterFill at k₃
    by_cases hnil : plaintext = []
    · rw [if_pos hnil] at k₃
      obtain ⟨rfl, rfl⟩ := pure_ok k₃
      exact ⟨[], exact_nil, by rw [hnil]; rfl, (List.append_nil _).symm⟩
    · rw [if_neg hnil] at k₃
      have hpos := List.length_pos_of_ne_nil hnil
      obtain ⟨b, t₄, u₄, rfl, h₄, k₄⟩ := k₃.bindE_ok
      obtain ⟨_, t₅, u₅, rfl, h₅, k₅⟩ := k₄.bindE_ok
      obtain rfl := call_ok h₅
      have hrest : delivered (t₄ ++ ([⟨.sendProgress (s.push plaintext b).totalBytes, ()⟩] ++ u₅)) =
          delivered u₅ := by
        rw [delivered_append, delivered_encryptBlock h₄]
        simp [deliveredBy]
      rw [hrest]
      split at k₅
      · obtain ⟨rfl, rfl⟩ := pure_ok k₅
        exact ⟨[plaintext], exact_singleton.mpr ⟨hpos, hfits⟩, by simp, rfl⟩
      · obtain ⟨chunks, hexact, hflat, hsizes⟩ := ih k₅
        refine ⟨plaintext :: chunks, hexact.cons BLOCK_SIZE_pos (by omega), ?_, ?_⟩
        · rw [List.flatten_cons, hflat]
        · rw [hsizes]
          simp [Chunks.push]

/-- so `acceptedBytes` adds up the sizes of the blocks that were accepted -/
theorem acceptedBytes_blocks {reading : Trace host} {s : Chunks K}
    (h : Runs (readBlocks K up d fuel (Chunks.empty K)).run reading (.done (.ok s)))
    (hread : delivered tr = delivered reading) :
    acceptedBytes tr = (s.blockSizes.take ((blobs tr).countP isAccepted)).sum := by
  obtain ⟨chunks, hexact, hflat, hsizes⟩ := readBlocks_sizes h
  have hsizes : s.blockSizes = chunks.map List.length := hsizes
  unfold acceptedBytes
  rw [hread, ← hflat, ← hexact.take_length BLOCK_SIZE_pos, hsizes, ← List.map_take, List.length_flatten]

end

/-! ## the values count the bytes read -/

/-- the number of the bytes delivered so far, which is what is sent -/
inductive Counts : Nat → Event host → Nat → Prop
  | sends (n : Nat) : Counts n ⟨.sendProgress n, ()⟩ n
  | other {n : Nat} {e : Event host} (h : isProgress e.call = false) :
      Counts n e (n + (deliveredBy e).length)

section
variable {K : Crates} {up : ProtonFileUploader} {d : Draft} {fuel n m : Nat} {tr : Trace host}
  {o : Outcome (Except Fault Unit)}

theorem Counts.rests {e : Event host} (h : isProgress e.call = false ∧ isRead e.call = false) :
    Counts n e n := by
  have hother := Counts.other (n := n) h.1
  rw [deliveredBy_eq_nil h.2, List.length_nil, Nat.add_zero] at hother
  exact hother

theorem Counts.step {e : Event host} (h : Counts n e m) :
    m = n + (deliveredBy e).length ∧ ∀ x ∈ progressOf e, x = n := by
  cases h with
  | sends =>
    refine ⟨rfl, ?_⟩
    intro x hx
    cases hx
    rfl
  | other h =>
    refine ⟨rfl, ?_⟩
    intro x hx
    rw [progressOf_eq_none h] at hx
    cases hx

/-- the counter only grows, and the values that were sent lie between its ends -/
theorem counted_of_path (h : Path Counts n tr m) :
    m = n + (delivered tr).length ∧ (progressSent tr).Pairwise (· ≤ ·) ∧
      ∀ x ∈ progressSent tr, n ≤ x := by
  induction h with
  | nil =>
    refine ⟨rfl, .nil, ?_⟩
    intro x hx
    cases hx
  | @cons n e q tr m hstep _ ih =>
    obtain ⟨hq, hsent⟩ := hstep.step
    obtain ⟨hm, hgrows, hlow⟩ := ih
    refine ⟨?_, ?_, ?_⟩
    · rw [delivered_cons, List.length_append]
      omega
    · unfold progressSent
      cases hof : progressOf e with
      | none =>
        rw [List.filterMap_cons_none hof]
        exact hgrows
      | some x =>
        rw [List.filterMap_cons_some hof]
        have hx := hsent x hof
        refine List.pairwise_cons.mpr ⟨?_, hgrows⟩
        intro y hy
        have hy := hlow y hy
        omega
    · intro x hx
      obtain ⟨e', he', hof⟩ := List.mem_filterMap.mp hx
      rcases List.mem_cons.mp he' with rfl | he'
      · have hx := hsent x hof
        omega
      · have hx := hlow x (List.mem_filterMap.mpr ⟨e', he', hof⟩)
        omega

/-- a part of the upload that neither reads nor counts -/
theorem counts_only {α : Type} {p : Sdk α}
    (hp : Only (fun c => isProgress c = false ∧ isRead c = false) p.run) :
    Follows Counts n p fun _ q => q = n := follows_only hp fun _ h => .rests h

theorem fillBuffer_counts {remaining : Nat} {buf : Bytes} :
    Follows Counts n (fillBuffer fuel remaining buf)
      fun r q => ∀ out, r = .ok out → q + buf.length = n + out.length := by
  induction fuel generalizing n remaining buf with
  | zero =>
    apply follows_pure
    intro out hout
    cases hout
    rfl
  | succ fuel ih =>
    refine follows_call (fun a => .other rfl) fun a => ?_
    cases a with
    | error e =>
      apply follows_pure
      intro out hout
      cases hout
    | ok bs =>
      obtain ⟨bs, hcap⟩ := bs
      show Follows _ (n + bs.length) (if bs = [] then _ else if bs.length = remaining then _ else _) _
      by_cases hnil : bs = []
      · rw [if_pos hnil, hnil]
        apply follows_pure
        intro out hout
        cases hout
        rfl
      · rw [if_neg hnil]
        by_cases hfull : bs.length = remaining
        · rw [if_pos hfull]
          apply follows_pure
          intro out hout
          cases hout
          rw [List.length_append]
          omega
        · rw [if_neg hfull]
          intro tr o hrun
          obtain ⟨q, hpath, hq⟩ := ih tr o hrun
          refine ⟨q, hpath, ?_⟩
          intro r hr out hout
          have hlength := hq r hr out hout
          rw [List.length_append] at hlength
          omega

theorem readBlocks_counts {s : Chunks K} :
    Follows Counts s.totalBytes (readBlocks K up d fuel s)
      fun r q => ∀ s', r = .ok s' → q = s'.totalBytes := by
  induction fuel generalizing s with
  | zero => exact follows_cut
  | succ fuel ih =>
    rw [readBlocks_succ]
    refine follows_call (fun _ => .rests ⟨rfl, rfl⟩) fun cancelled => ?_
    refine Follows.bind (counts_only (only_require _ _)) ?_ fun _ _ _ => nofun
    intro _ q hq
    subst hq
    refine Follows.bind fillBuffer_counts ?_ fun _ _ _ => nofun
    intro plaintext q hq
    have hread : q = s.totalBytes + plaintext.length := hq plaintext rfl
    unfold afterFill
    by_cases hnil : plaintext = []
    · rw [if_pos hnil]
      apply follows_pure
      intro s' hs'
      cases hs'
      rw [hread, hnil]
      rfl
    · rw [if_neg hnil]
      refine Follows.bind (counts_only (only_encryptBlock ⟨rfl, rfl⟩)) ?_ fun _ _ _ => nofun
      intro b q' hq'
      have htotal : q' = (s.push plaintext b).totalBytes := hq'.trans hread
      subst htotal
      refine follows_call (fun _ => .sends _) fun _ => ?_
      show Follows _ _ (if plaintext.length < BLOCK_SIZE then _ else _) _
      by_cases hlast : plaintext.length < BLOCK_SIZE
      · rw [if_pos hlast]
        apply follows_pure
        intro s' hs'
        cases hs'
        rfl
      · rw [if_neg hlast]
        exact ih

theorem within_putCommitRevision {volumeId linkId revisionId : String}
    {req : Upload.CommitRevisionRequest} :
    Within (S := host) (fun c => isProgress c = false ∧ isRead c = false) (fun _ => True)
      (putCommitRevision K volumeId linkId revisionId req) := by
  refine Within.bind (within_requestJson (fun _ => trivial) ⟨rfl, rfl⟩) fun resp => ?_
  refine Within.bind (within_ofExcept (fun _ => trivial) _ _) fun _ => ?_
  exact within_require (fun _ => trivial) _ _

theorem runUpload_counts : Follows Counts 0 (runUpload K up fuel) fun _ _ => True := by
  refine Follows.bind (counts_only (only_createDraft (fun _ => ⟨rfl, rfl⟩) (fun _ _ => ⟨rfl, rfl⟩)
    ⟨rfl, rfl⟩)) ?_ fun _ _ _ => trivial
  intro d q hq
  subst hq
  refine Follows.bind (readBlocks_counts (s := Chunks.empty K)) ?_ fun _ _ _ => trivial
  intro s q hq
  have hq := hq s rfl
  subst hq
  refine Follows.bind (counts_only (only_requestBlocks fun _ => ⟨rfl, rfl⟩)) ?_ fun _ _ _ => trivial
  intro sorted q hq
  subst hq
  refine Follows.bind (counts_only (only_putBlocks ⟨rfl, rfl⟩ fun _ _ => ⟨rfl, rfl⟩)) ?_
    fun _ _ _ => trivial
  intro _ q hq
  subst hq
  refine Follows.bind (counts_only (only_commitRequest ⟨rfl, rfl⟩)) ?_ fun _ _ _ => trivial
  intro req q hq
  subst hq
  refine Follows.bind (counts_only within_putCommitRevision.1) ?_ fun _ _ _ => trivial
  intro _ q hq
  subst hq
  exact follows_call (fun _ => .sends _) fun _ => follows_pure trivial

/-- the last value of a run that returns `Ok` -/
theorem progressSent_of_ok (h : Runs (runUpload K up fuel).run tr (.done (.ok ()))) :
    ∃ pre, tr = pre ++ [⟨.sendProgress (delivered tr).length, ()⟩] := by
  obtain ⟨p, post, rfl, hcommit⟩ := runUpload_ok h
  obtain ⟨_, put, sent, rfl, hput, hsent⟩ := hcommit.bindE_ok
  obtain rfl := call_ok hsent
  have hsilent : delivered put = [] :=
    delivered_eq_nil fun e he => (hput.only within_putCommitRevision.1 e he).2
  refine ⟨p.trace ++ put, ?_⟩
  have htotal : (delivered (p.trace ++ (put ++ [⟨.sendProgress p.chunks.totalBytes, ()⟩]))).length =
      p.chunks.totalBytes := by
    rw [p.totalBytes, delivered_append, delivered_append, hsilent]
    simp [deliveredBy]
  rw [htotal, List.append_assoc]

/-- what is always so: the values are the numbers of the bytes read -/
theorem progress_counts (h : Runs (runUpload K up fuel).run tr o) :
    (∀ pre n post, tr = pre ++ ⟨.sendProgress n, ()⟩ :: post → n = (delivered pre).length) ∧
      (progressSent tr).Pairwise (· ≤ ·) ∧
      (o = .done (.ok ()) → (progressSent tr).getLast? = some (delivered tr).length) := by
  obtain ⟨q, hpath, _⟩ := runUpload_counts tr o h
  refine ⟨?_, (counted_of_path hpath).2.1, ?_⟩
  · rintro pre n post rfl
    obtain ⟨m, hpre, hpost⟩ := hpath.append_inv
    have hm := (counted_of_path hpre).1
    cases hpost with
    | cons hstep _ =>
      have hn := hstep.step.2 n rfl
      omega
  · rintro rfl
    obtain ⟨pre, htr⟩ := progressSent_of_ok h
    have hlast : progressSent tr = progressSent pre ++ [(delivered tr).length] := by
      calc progressSent tr
          = progressSent (pre ++ [⟨.sendProgress (delivered tr).length, ()⟩]) := congrArg _ htr
        _ = progressSent pre ++ [(delivered tr).length] := progressSent_append _ _
    rw [hlast, List.getLast?_concat]

end

/-! ## the first block -/

/-- the first block has been read and encrypted, and the run has gone on -/
structure FirstBlock (K : Crates) (up : ProtonFileUploader) (tr : Trace host) where
  draft : Draft
  plaintext : Bytes
  block : SealedBlock
  drafting : Trace host
  filling : Trace host
  sealing : Trace host
  next : Event host
  rest : Trace host
  trace : tr =
    drafting ++ (⟨.isCancelled .upload, false⟩ :: (filling ++ (sealing ++ next :: rest)))
  drafted : Runs (createDraft K up).run drafting (.done (.ok draft))
  filled : Runs (fillBuffer BLOCK_SIZE BLOCK_SIZE []).run filling (.done (.ok plaintext))
  nonempty : plaintext ≠ []
  encrypted : Runs (encryptBlock up draft plaintext).run sealing (.done (.ok block))

section
variable {K : Crates} {up : ProtonFileUploader} {d : Draft} {fuel : Nat} {tr : Trace host}
  {o : Outcome (Except Fault Unit)}

/-- the steps after the loop -/
def afterBlocks (K : Crates) (up : ProtonFileUploader) (d : Draft) (s : Chunks K) : Sdk Unit := do
  let sortedLinks ← requestBlocks K up d s
  putBlocks K (s.blocks.zip sortedLinks)
  let commitReq ← commitRequest K up d s
  commitRevision K d s.totalBytes commitReq

/-- the first turn of the loop -/
theorem runUpload_succ : runUpload K up (fuel + 1) = (do
    let d ← createDraft K up
    let cancelled ← call (.isCancelled .upload)
    require (!cancelled) (.internal "upload cancelled")
    let plaintext ← fillBuffer BLOCK_SIZE BLOCK_SIZE []
    let s ← afterFill K up d fuel (Chunks.empty K) plaintext
    afterBlocks K up d s) := by
  show (createDraft K up >>= fun d => readBlocks K up d (fuel + 1) (Chunks.empty K) >>= fun s =>
    afterBlocks K up d s) = _
  simp only [readBlocks_succ, bind_assoc]

/-- an unrolling without a turn is given up where the loop begins -/
theorem runUpload_zero {e : Event host} {t u : Trace host}
    (hdraft : Runs (createDraft K up).run t (.done (.ok d)))
    (h : Runs (runUpload K up 0).run (t ++ e :: u) o) : False := by
  have hcut := Runs.bindE_after hdraft h
  cases hcut

/-- an empty stream ends the run with the first check of step 5 -/
theorem afterBlocks_empty {t : Trace host} (h : Runs (afterBlocks K up d (Chunks.empty K)).run t o) :
    t = [] := by
  unfold afterBlocks requestBlocks at h
  rw [bind_assoc] at h
  rcases h.bindE_inv with ⟨_, t₁, t₂, _, hrequire, _⟩ | ⟨o₁, _, hrequire⟩
  · exact absurd (require_ok hrequire).2 Bool.false_ne_true
  · exact require_silent hrequire

/-- the calls that neither count nor post -/
def IsQuiet (c : HostCall) : Prop := isProgress c = false ∧ isBlob c = false

theorem quiet_createDraft : Only (S := host) IsQuiet (createDraft K up).run :=
  only_createDraft (fun _ => ⟨rfl, rfl⟩) (fun _ _ => ⟨rfl, rfl⟩) ⟨rfl, rfl⟩

theorem quiet_fillBuffer : Only (S := host) IsQuiet (fillBuffer BLOCK_SIZE BLOCK_SIZE []).run :=
  only_fillBuffer (fun _ => ⟨rfl, rfl⟩) _ _ _

theorem quiet_encryptBlock {plaintext : Bytes} :
    Only (S := host) IsQuiet (encryptBlock up d plaintext).run :=
  only_encryptBlock ⟨rfl, rfl⟩

theorem quiet_cancelled : Only (S := host) IsQuiet (call (.isCancelled .upload)).run :=
  (within_call (Q := fun _ => True) ⟨rfl, rfl⟩).1

theorem blobs_quiet {t : Trace host} (h : ∀ e ∈ t, IsQuiet e.call) : blobs t = [] :=
  blobs_eq_nil fun e he => (h e he).2

/-- a run that has sent a value has come so far -/
theorem firstBlock_of_progress (h : Runs (runUpload K up fuel).run tr o) {e : Event host} (he : e ∈ tr)
    (hsent : isProgress e.call = true) : Nonempty (FirstBlock K up tr) := by
  have hno : ¬ IsQuiet e.call := by
    intro hquiet
    rw [hquiet.1] at hsent
    cases hsent
  cases fuel with
  | zero =>
    obtain ⟨d, drafting, u₁, rfl, hdraft, _, he⟩ := h.reach quiet_createDraft he hno
    cases u₁ with
    | nil => cases he
    | cons e' u => exact (runUpload_zero hdraft h).elim
  | succ fuel =>
    rw [runUpload_succ] at h
    obtain ⟨d, drafting, u₁, rfl, hdraft, k₁, he₁⟩ := h.reach quiet_createDraft he hno
    obtain ⟨cancelled, t₂, u₂, rfl, hcancel, k₂, he₂⟩ := k₁.reach quiet_cancelled he₁ hno
    obtain ⟨_, t₃, u₃, rfl, hrequire, k₃, he₃⟩ := k₂.reach (only_require _ _) he₂ hno
    obtain ⟨plaintext, filling, u₄, rfl, hfill, k₄, he₄⟩ := k₃.reach quiet_fillBuffer he₃ hno
    obtain rfl := call_ok hcancel
    obtain ⟨rfl, hlive⟩ := require_ok hrequire
    have hlive : cancelled = false := (Bool.not_eq_true' _).mp hlive
    subst hlive
    unfold afterFill at k₄
    by_cases hnil : plaintext = []
    · rw [if_pos hnil, pure_bind] at k₄
      have hend := afterBlocks_empty k₄
      rw [hend] at he₄
      cases he₄
    · rw [if_neg hnil, bind_assoc] at k₄
      obtain ⟨b, sealing, u₅, rfl, hseal, _, he₅⟩ := k₄.reach quiet_encryptBlock he₄ hno
      cases u₅ with
      | nil => cases he₅
      | cons next rest =>
        exact ⟨{ draft := d, plaintext := plaintext, block := b, drafting := drafting,
                 filling := filling, sealing := sealing, next := next, rest := rest, trace := by simp,
                 drafted := hdraft, filled := hfill, nonempty := hnil, encrypted := hseal }⟩

theorem firstBlock_of_sent (h : Runs (runUpload K up fuel).run tr o) {n : Nat}
    (hn : n ∈ progressSent tr) : Nonempty (FirstBlock K up tr) := by
  obtain ⟨e, he, hof⟩ := List.mem_filterMap.mp hn
  apply firstBlock_of_progress h he
  by_contra hno
  rw [progressOf_eq_none (Bool.not_eq_true _ ▸ hno)] at hof
  cases hof

/-- the value sent then is the size of the block, and no block has been posted -/
theorem FirstBlock.sends (b : FirstBlock K up tr) (h : Runs (runUpload K up fuel).run tr o) :
    ∃ pre post, tr = pre ++ ⟨.sendProgress b.plaintext.length, ()⟩ :: post ∧ blobs pre = [] := by
  obtain ⟨d, plaintext, block, drafting, filling, sealing, next, rest, rfl, hdraft, hfill, hnil, hseal⟩ := b
  cases fuel with
  | zero => exact (runUpload_zero hdraft h).elim
  | succ fuel =>
    rw [runUpload_succ] at h
    have k₁ := Runs.bindE_after hdraft h
    have hcancel : Runs (call (.isCancelled .upload)).run [⟨.isCancelled .upload, false⟩]
        (.done (.ok false)) := .call (.ret _)
    have k₂ := Runs.bindE_after hcancel
      (show Runs _ ([⟨.isCancelled .upload, false⟩] ++ (filling ++ (sealing ++ next :: rest))) o from k₁)
    have k₃ := Runs.bindE_after (.ret _)
      (show Runs _ ([] ++ (filling ++ (sealing ++ next :: rest))) o from k₂)
    have k₄ := Runs.bindE_after hfill k₃
    unfold afterFill at k₄
    rw [if_neg hnil, bind_assoc] at k₄
    have k₅ := Runs.bindE_after hseal k₄
    rcases Runs.call_inv k₅ with ⟨hstop, _⟩ | ⟨a, rest', hnext, _⟩
    · cases hstop
    · obtain ⟨rfl, rfl⟩ := List.cons.inj hnext
      have hvalue : ((Chunks.empty K).push plaintext block).totalBytes = plaintext.length :=
        Nat.zero_add _
      have hdrafting := blobs_quiet (hdraft.only quiet_createDraft)
      have hfilling := blobs_quiet (hfill.only quiet_fillBuffer)
      have hsealing := blobs_quiet (hseal.only quiet_encryptBlock)
      refine ⟨drafting ++ (⟨.isCancelled .upload, false⟩ :: (filling ++ sealing)), rest, ?_, ?_⟩
      · rw [← hvalue]
        simp only [List.append_assoc, List.cons_append]
        rfl
      · rw [blobs_append, hdrafting, List.nil_append]
        show blobs ([⟨.isCancelled .upload, false⟩] ++ (filling ++ sealing)) = []
        rw [blobs_append, blobs_append, hfilling, hsealing]
        rfl

theorem FirstBlock.not_accepted (b : FirstBlock K up tr) (h : Runs (runUpload K up fuel).run tr o) :
    ¬ CountsAccepted tr o := by
  intro hcounts
  obtain ⟨pre, post, htr, hnone⟩ := b.sends h
  have hle := hcounts.accepted pre _ post htr
  rw [acceptedBytes_eq_zero hnone] at hle
  have hpos := List.length_pos_of_ne_nil b.nonempty
  omega

/-- every value counts more than was accepted, unless there is none -/
theorem runUpload_countsAccepted (h : Runs (runUpload K up fuel).run tr o) :
    CountsAccepted tr o ↔ ¬ Nonempty (FirstBlock K up tr) := by
  constructor
  · intro hcounts ⟨b⟩
    exact b.not_accepted h hcounts
  · intro hnone
    obtain ⟨_, hgrows, htotal⟩ := progress_counts h
    refine ⟨?_, hgrows, htotal⟩
    intro pre n post htr
    exact absurd (firstBlock_of_sent h (mem_progressSent htr)) hnone

end

/-! ## an upload that counts what was refused -/

/-- the storage has no room for the block -/
def refusedUpload : Script :=
  { smallUpload [goodLink] with blob := fun _ => { status := 507, headers := [], body := [] } }

def refusedRun : Trace host × Option (Except Fault Unit) :=
  refusedUpload.play (runUpload goodCrates smallUploader 1)

def endsCounted (R : Trace host × Option (Except Fault Unit)) : Bool :=
  match R.2 with
  | some (.error (.error _)) => progressSent R.1 = [1] && acceptedBytes R.1 = 0
  | _ => false

theorem endsCounted_spec {R : Trace host × Option (Except Fault Unit)} (h : endsCounted R = true) :
    ∃ e, R.2 = some (.error (.error e)) ∧ progressSent R.1 = [1] ∧ acceptedBytes R.1 = 0 := by
  obtain ⟨tr, r⟩ := R
  match r, h with
  | some (.error (.error e)), h =>
    obtain ⟨hsent, hnone⟩ := Bool.and_eq_true_iff.mp h
    exact ⟨e, rfl, of_decide_eq_true hsent, of_decide_eq_true hnone⟩

/-- all its bytes are counted, and none is accepted -/
theorem refusedRun_counted : ∃ e,
    Runs (runUpload goodCrates smallUploader 1).run refusedRun.1 (.done (.error (.error e))) ∧
      progressSent refusedRun.1 = [1] ∧ acceptedBytes refusedRun.1 = 0 := by
  have hends : endsCounted refusedRun = true := by decide +kernel
  obtain ⟨e, hr, hsent, hnone⟩ := endsCounted_spec hends
  exact ⟨e, Script.play_runs (R := refusedRun) rfl hr, hsent, hnone⟩

theorem refusedRun_overcounts : smallUploader.metadata.validate = .ok () ∧ ∃ e,
    Runs (runUpload goodCrates smallUploader 1).run refusedRun.1 (.done (.error (.error e))) ∧
      ¬ CountsAccepted refusedRun.1 (.done (.error (.error e))) := by
  obtain ⟨e, hrun, hsent, hnone⟩ := refusedRun_counted
  refine ⟨rfl, e, hrun, ?_⟩
  have hmem : 1 ∈ progressSent refusedRun.1 := by
    rw [hsent]
    exact List.mem_singleton.mpr rfl
  obtain ⟨b⟩ := firstBlock_of_sent hrun hmem
  exact b.not_accepted hrun

/-- the same upload of a stream that is empty after all -/
def emptyRun : Trace host × Option (Except Fault Unit) :=
  { refusedUpload with stream := [] }.play (runUpload goodCrates smallUploader 1)

def endsUncounted (R : Trace host × Option (Except Fault Unit)) : Bool :=
  match R.2 with
  | some (.error (.error _)) => progressSent R.1 = []
  | _ => false

theorem endsUncounted_spec {R : Trace host × Option (Except Fault Unit)} (h : endsUncounted R = true) :
    ∃ e, R.2 = some (.error (.error e)) ∧ progressSent R.1 = [] := by
  obtain ⟨tr, r⟩ := R
  match r, h with
  | some (.error (.error e)), h => exact ⟨e, rfl, of_decide_eq_true h⟩

theorem emptyRun_countsAccepted : ∃ e,
    Runs (runUpload goodCrates smallUploader 1).run emptyRun.1 (.done (.error (.error e))) ∧
      CountsAccepted emptyRun.1 (.done (.error (.error e))) := by
  have hends : endsUncounted emptyRun = true := by decide +kernel
  obtain ⟨e, hr, hnone⟩ := endsUncounted_spec hends
  have hrun := Script.play_runs (R := emptyRun) rfl hr
  refine ⟨e, hrun, (runUpload_countsAccepted hrun).mpr ?_⟩
  intro ⟨b⟩
  obtain ⟨pre, post, htr, _⟩ := b.sends hrun
  have hsent := mem_progressSent htr
  rw [hnone] at hsent
  cases hsent

end ProtonDrive
