import ProtonDrive.Upload.Steps

/-!
# The runs of an upload

* `CommitPoint`          the steps 0 to 8 have all returned: their results, their traces and what is then
                         known of the draft, the blocks, the links, the posts and the request to be sent;
* `runUpload_commit`     a run that shows a commit passed a `CommitPoint`, and the commit is the
                         call right after it;
* `runUpload_ok`         so did a run that returned `Ok`;
* `panicsTold_runUpload` a run that ended panicked exactly if the answer to one of the two probed
                         `POST`s cannot be read and cannot be quoted (`CutsCharacter`).
-/

set_option linter.unusedVariables false

namespace ProtonDrive
open Encoding Effects Api

section
variable {K : Crates} {up : ProtonFileUploader} {fuel : Nat} {tr : Trace host}

theorem filesPath_ne_blocksPath (volumeId : String) : filesPath volumeId ≠ blocksPath := by
  intro h
  have hf : (asBytes (filesPath volumeId))[7]? = some 118 := by
    unfold filesPath
    rw [asBytes_append, asBytes_append, List.append_assoc]
    rfl
  rw [h] at hf
  exact absurd hf (by decide)

theorem isPostTo_files (volumeId : String) (body : Json) :
    isPostTo blocksPath (.requestJson (.bare .post (filesPath volumeId) (some body))) = false := by
  have hne : ¬ (HttpMethod.post = .post ∧ filesPath volumeId = blocksPath) :=
    fun h => filesPath_ne_blocksPath volumeId h.2
  exact decide_eq_false hne

/-- the steps 0 to 8 have returned -/
structure CommitPoint (K : Crates) (up : ProtonFileUploader) (fuel : Nat) where
  draft : Draft
  chunks : Chunks K
  sorted : List Upload.UploadLink
  request : Upload.CommitRevisionRequest
  drafting : Trace host
  reading : Trace host
  linking : Trace host
  posting : Trace host
  signing : Trace host
  drafted : Runs (createDraft K up).run drafting (.done (.ok draft))
  read : Runs (readBlocks K up draft fuel (Chunks.empty K)).run reading (.done (.ok chunks))
  linked : Runs (requestBlocks K up draft chunks).run linking (.done (.ok sorted))
  posted : Runs (putBlocks K (chunks.blocks.zip sorted)).run posting (.done (.ok ()))
  signed : Runs (commitRequest K up draft chunks).run signing (.done (.ok request))

namespace CommitPoint

def trace (p : CommitPoint K up fuel) : Trace host :=
  p.drafting ++ (p.reading ++ (p.linking ++ (p.posting ++ p.signing)))

/-- the step that is left -/
def commit (p : CommitPoint K up fuel) : Sdk Unit :=
  commitRevision K p.draft p.chunks.totalBytes p.request

/-! ## what a commit point knows -/

section
variable (p : CommitPoint K up fuel) (A : HostCall → Prop)

theorem drafting_only (hget : ∀ path, A (.requestJson (.bare .get path none)))
    (hpost : ∀ v body, A (.requestJson (.bare .post (filesPath v) (some body))))
    (hcoins : A .coins) : ∀ e ∈ p.drafting, A e.call :=
  p.drafted.only (only_createDraft hget hpost hcoins)

theorem reading_only (hread : ∀ cap, A (.read cap)) (hcoins : A .coins)
    (hcancel : A (.isCancelled .upload)) (hprogress : ∀ n, A (.sendProgress n)) :
    ∀ e ∈ p.reading, A e.call :=
  p.read.only (only_readBlocks hread hcoins hcancel hprogress _ _)

theorem linking_only (hpost : ∀ body, A (.requestJson (.bare .post blocksPath (some body)))) :
    ∀ e ∈ p.linking, A e.call :=
  p.linked.only (only_requestBlocks hpost)

theorem posting_only (hcancel : A (.isCancelled .upload)) (hblob : ∀ req, A (.requestBlob req)) :
    ∀ e ∈ p.posting, A e.call :=
  p.posted.only (only_putBlocks hcancel fun _ _ => hblob _)

theorem signing_only (hcoins : A .coins) : ∀ e ∈ p.signing, A e.call :=
  p.signed.only (only_commitRequest hcoins)

end

theorem commits_eq_nil (p : CommitPoint K up fuel) : commits p.trace = [] := by
  have h₁ := ProtonDrive.commits_eq_nil
    (p.drafting_only (isCommit · = false) (fun _ => rfl) (fun _ _ => rfl) rfl)
  have h₂ := ProtonDrive.commits_eq_nil
    (p.reading_only (isCommit · = false) (fun _ => rfl) rfl rfl fun _ => rfl)
  have h₃ := ProtonDrive.commits_eq_nil (p.linking_only (isCommit · = false) fun _ => rfl)
  have h₄ := ProtonDrive.commits_eq_nil (p.posting_only (isCommit · = false) rfl fun _ => rfl)
  have h₅ := ProtonDrive.commits_eq_nil (p.signing_only (isCommit · = false) rfl)
  simp only [trace, commits_append, h₁, h₂, h₃, h₄, h₅, List.append_nil]

/-- the posts are the blob requests -/
theorem accepted (p : CommitPoint K up fuel) :
    List.Forall₂ Accepted (p.chunks.blocks.zip p.sorted) (blobs p.trace) := by
  have h₁ := blobs_eq_nil
    (p.drafting_only (isBlob · = false) (fun _ => rfl) (fun _ _ => rfl) rfl)
  have h₂ := blobs_eq_nil (p.reading_only (isBlob · = false) (fun _ => rfl) rfl rfl fun _ => rfl)
  have h₃ := blobs_eq_nil (p.linking_only (isBlob · = false) fun _ => rfl)
  have h₅ := blobs_eq_nil (p.signing_only (isBlob · = false) rfl)
  simp only [trace, blobs_append, h₁, h₂, h₃, h₅, List.nil_append, List.append_nil]
  exact putBlocks_ok p.posted

/-- the reads are those of step 4 -/
theorem delivered_eq (p : CommitPoint K up fuel) : delivered p.trace = delivered p.reading := by
  have h₁ := delivered_eq_nil
    (p.drafting_only (isRead · = false) (fun _ => rfl) (fun _ _ => rfl) rfl)
  have h₃ := delivered_eq_nil (p.linking_only (isRead · = false) fun _ => rfl)
  have h₄ := delivered_eq_nil (p.posting_only (isRead · = false) rfl fun _ => rfl)
  have h₅ := delivered_eq_nil (p.signing_only (isRead · = false) rfl)
  simp only [trace, delivered_append, h₁, h₃, h₄, h₅, List.nil_append, List.append_nil]

/-- the request for links is the one of step 5 -/
theorem posts_eq (p : CommitPoint K up fuel) :
    posts blocksPath p.trace = posts blocksPath p.linking := by
  have h₁ := posts_eq_nil (p.drafting_only (isPostTo blocksPath · = false) (fun _ => rfl)
    isPostTo_files rfl)
  have h₂ := posts_eq_nil
    (p.reading_only (isPostTo blocksPath · = false) (fun _ => rfl) rfl rfl fun _ => rfl)
  have h₄ := posts_eq_nil (p.posting_only (isPostTo blocksPath · = false) rfl fun _ => rfl)
  have h₅ := posts_eq_nil (p.signing_only (isPostTo blocksPath · = false) rfl)
  simp only [trace, posts_append, h₁, h₂, h₄, h₅, List.nil_append, List.append_nil]

theorem readOff (p : CommitPoint K up fuel) :
    ∃ chunks, ReadOff up p.draft p.reading (Chunks.empty K) p.chunks chunks :=
  readBlocks_ok p.read

/-- what was hashed, counted and cut into blocks is what the stream delivered -/
theorem hashed (p : CommitPoint K up fuel) : p.chunks.hashed = delivered p.trace := by
  obtain ⟨chunks, h⟩ := p.readOff
  rw [p.delivered_eq, ← h.stream, h.hashed]
  rfl

theorem totalBytes (p : CommitPoint K up fuel) :
    p.chunks.totalBytes = (delivered p.trace).length := by
  rw [← p.hashed, p.chunks.fed]

theorem linksOrigin (p : CommitPoint K up fuel) :
    Nonempty (LinksOrigin K up p.trace p.draft p.chunks.blocks p.chunks.totalBytes p.sorted) := by
  obtain ⟨o⟩ := requestBlocks_ok p.linked
  exact ⟨{ o with asked := p.posts_eq.trans o.asked }⟩

theorem draftOrigin (p : CommitPoint K up fuel) : Nonempty (DraftOrigin K up p.trace p.draft) := by
  obtain ⟨o⟩ := createDraft_ok p.drafted
  have hs : p.drafting ⊆ p.trace := fun e he => by simp [trace, he]
  exact ⟨{ o with origin := o.origin.mono hs, created := o.created.mono hs }⟩

theorem commitOrigin (p : CommitPoint K up fuel) :
    Nonempty (CommitOrigin K up p.draft p.chunks p.request) := commitRequest_ok p.signed

end CommitPoint

/-! ## runs that reach the commit -/

theorem runUpload_commit {o : Outcome (Except Fault Unit)}
    (h : Runs (runUpload K up fuel).run tr o) {e : Event host} (he : e ∈ tr)
    (hc : isCommit e.call = true) :
    ∃ (p : CommitPoint K up fuel) (ans : Except Error JsonResponse) (post : Trace host),
      tr = p.trace ++ ⟨.requestJson (commitPut p.draft p.request), ans⟩ :: post ∧
      commits post = [] ∧
      Runs p.commit.run (⟨.requestJson (commitPut p.draft p.request), ans⟩ :: post) o := by
  have hne : ¬ isCommit e.call = false := by rw [hc]; exact Bool.noConfusion
  obtain ⟨d, t₁, u₁, rfl, h₁, k₁, he⟩ := h.reach (only_createDraft
    (A := fun c => isCommit c = false) (fun _ => rfl) (fun _ _ => rfl) rfl) he hne
  obtain ⟨s, t₂, u₂, rfl, h₂, k₂, he⟩ := k₁.reach (only_readBlocks
    (A := fun c => isCommit c = false) (fun _ => rfl) rfl rfl (fun _ => rfl) _ _) he hne
  obtain ⟨sorted, t₃, u₃, rfl, h₃, k₃, he⟩ := k₂.reach (only_requestBlocks
    (A := fun c => isCommit c = false) fun _ => rfl) he hne
  obtain ⟨_, t₄, u₄, rfl, h₄, k₄, he⟩ := k₃.reach (only_putBlocks
    (A := fun c => isCommit c = false) rfl fun _ _ => rfl) he hne
  obtain ⟨req, t₅, u₅, rfl, h₅, k₅, he⟩ := k₄.reach (only_commitRequest
    (A := fun c => isCommit c = false) rfl) he hne
  rcases commitRevision_inv k₅ with ⟨rfl, _⟩ | ⟨a, post, rfl, hpost⟩
  · cases he
  · refine ⟨{ draft := d, chunks := s, sorted := sorted, request := req,
                drafting := t₁, reading := t₂, linking := t₃, posting := t₄, signing := t₅,
                drafted := h₁, read := h₂, linked := h₃, posted := h₄, signed := h₅ },
      a, post, ?_, hpost, k₅⟩
    simp only [CommitPoint.trace, List.append_assoc]

theorem runUpload_ok (h : Runs (runUpload K up fuel).run tr (.done (.ok ()))) :
    ∃ (p : CommitPoint K up fuel) (post : Trace host), tr = p.trace ++ post ∧
      Runs p.commit.run post (.done (.ok ())) := by
  obtain ⟨d, t₁, u₁, rfl, h₁, k₁⟩ := h.bindE_ok
  obtain ⟨s, t₂, u₂, rfl, h₂, k₂⟩ := k₁.bindE_ok
  obtain ⟨sorted, t₃, u₃, rfl, h₃, k₃⟩ := k₂.bindE_ok
  obtain ⟨_, t₄, u₄, rfl, h₄, k₄⟩ := k₃.bindE_ok
  obtain ⟨req, t₅, u₅, rfl, h₅, k₅⟩ := k₄.bindE_ok
  refine ⟨{ draft := d, chunks := s, sorted := sorted, request := req,
            drafting := t₁, reading := t₂, linking := t₃, posting := t₄, signing := t₅,
            drafted := h₁, read := h₂, linked := h₃, posted := h₄, signed := h₅ }, u₅, ?_, k₅⟩
  simp only [CommitPoint.trace, List.append_assoc]

/-! ## runs that panic -/

def isPost : HostCall → Bool
  | .requestJson req => req.method = .post
  | _ => false

/-- the event is an answer to one of the two probed `POST`s that makes the code panic: it is not
the record asked for, and its text has a character across byte 512 -/
def CutsCharacter (K : Crates) (e : Event host) : Prop :=
  ∃ path body resp, e = ⟨.requestJson (.bare .post path (some body)), .ok resp⟩ ∧
    if path = blocksPath then Unquotable K Upload.RequestBlockUploadResponse.ofJson resp.body
    else Unquotable K Upload.CreateFileResponse.ofJson resp.body

theorem CutsCharacter.isPost {e : Event host} (h : CutsCharacter K e) : isPost e.call = true := by
  obtain ⟨path, body, resp, rfl, _⟩ := h
  rfl

/-- a run of `p` that ended panicked exactly if it met such an answer -/
def PanicsTold (K : Crates) {α : Type} (p : Sdk α) : Prop :=
  ∀ (tr : Trace host) (r : Except Fault α), Runs p.run tr (.done r) →
    ((∃ f, r = .error f ∧ ¬ f.IsError) ↔ ∃ e ∈ tr, CutsCharacter K e)

theorem PanicsTold.bind {α β : Type} {p : Sdk α} {f : α → Sdk β} (hp : PanicsTold K p)
    (hf : ∀ a, PanicsTold K (f a)) : PanicsTold K (p >>= f) := by
  intro tr r h
  rcases h.bindE_inv with ⟨a, t₁, t₂, rfl, h₁, h₂⟩ | ⟨o₁, ho, h₁⟩
  · have hnone : ¬ ∃ e ∈ t₁, CutsCharacter K e := by
      rw [← hp t₁ (.ok a) h₁]
      intro ⟨f, hf, _⟩
      cases hf
    rw [hf a t₂ r h₂]
    constructor
    · intro ⟨e, he, hc⟩
      exact ⟨e, List.mem_append_right _ he, hc⟩
    · intro ⟨e, he, hc⟩
      rcases List.mem_append.mp he with he | he
      · exact absurd ⟨e, he, hc⟩ hnone
      · exact ⟨e, he, hc⟩
  · cases r with
    | ok b => exact absurd ho Outcome.Aborts.not_ok
    | error f =>
      rw [ho.error] at h₁
      rw [← hp tr (.error f) h₁]
      simp

theorem PanicsTold.of_within {α : Type} {p : Sdk α}
    (hp : Within (S := host) (fun c => isPost c = false) Fault.IsError p) : PanicsTold K p := by
  intro tr r h
  constructor
  · rintro ⟨f, rfl, hf⟩
    exact absurd (hp.error h) hf
  · intro ⟨e, he, hc⟩
    have hno := h.only hp.1 e he
    rw [hc.isPost] at hno
    cases hno

/-- an answer that was read is not one that makes the code panic -/
theorem not_unquotable {α : Type} {dec : Json → Option α} {body : Bytes} {a : α}
    (h : K.Envelopes dec body a) : ¬ Unquotable K dec body := by
  obtain ⟨error, henv⟩ := h
  rintro ⟨_, hprobe | ⟨_, _, _, hnone⟩⟩
  · cases hj : K.jsonParse body with
    | none => rw [hj] at henv; cases henv
    | some j =>
      rw [hj] at henv hprobe
      simp only [Option.bind_some, ResponseEnvelope.ofJson, Option.bind_eq_bind,
        Option.bind_eq_some_iff, Option.pure_def, Option.some.injEq] at henv
      obtain ⟨c, hc, i, _, e, he, _⟩ := henv
      simp [EnvelopeProbe.ofJson_eq hc, EnvelopeProbe.ofMembers, hc, he] at hprobe
  · rw [henv] at hnone
    cases hnone

theorem panicsTold_postProbed {α : Type} {probeWhat what sep type path : String}
    {dec : Json → Option α} {body : Json}
    (hdec : ∀ bs, (if path = blocksPath then Unquotable K Upload.RequestBlockUploadResponse.ofJson bs
      else Unquotable K Upload.CreateFileResponse.ofJson bs) ↔ Unquotable K dec bs) :
    PanicsTold K (postProbed K probeWhat what sep type dec path body) := by
  intro tr r h
  -- the only call of the program is this `POST`
  have hcalls := h.only (within_postProbed (Q := fun _ => True) (fun _ => trivial)
    (A := fun c => c = .requestJson (.bare .post path (some body))) rfl).1
  have hiff : (∃ e ∈ tr, CutsCharacter K e) ↔
      ∃ resp, ⟨.requestJson (.bare .post path (some body)), .ok resp⟩ ∈ tr ∧
        Unquotable K dec resp.body := by
    constructor
    · rintro ⟨e, he, path', body', resp, rfl, hbad⟩
      have hcall := hcalls _ he
      cases hcall
      exact ⟨resp, he, (hdec _).mp hbad⟩
    · intro ⟨resp, hm, hbad⟩
      exact ⟨_, hm, path, body, resp, rfl, (hdec _).mpr hbad⟩
  rw [hiff]
  cases r with
  | ok a =>
    obtain ⟨resp, rfl, henv⟩ := postProbed_ok h
    constructor
    · intro ⟨f, hf, _⟩
      cases hf
    · intro ⟨resp', hm, hbad⟩
      cases List.mem_singleton.mp hm
      exact absurd hbad (not_unquotable henv)
  | error f =>
    rw [← postProbed_fault h]
    simp

theorem panicsTold_createDraft : PanicsTold K (createDraft K up) := by
  refine PanicsTold.bind (PanicsTold.of_within (within_generateNode (fun _ => trivial)
    (fun _ => rfl) rfl)) fun node => ?_
  refine PanicsTold.bind (PanicsTold.bind (panicsTold_postProbed fun bs => ?_) fun _ =>
    PanicsTold.of_within (Within.pure _)) fun file => ?_
  · rw [if_neg (filesPath_ne_blocksPath node.volumeId)]
  refine PanicsTold.bind (PanicsTold.of_within (within_getVerificationCode (fun _ => trivial)
    (fun _ => rfl))) fun _ => ?_
  exact PanicsTold.of_within (Within.pure _)

theorem panicsTold_requestBlocks {d : Draft} {s : Chunks K} :
    PanicsTold K (requestBlocks K up d s) := by
  refine PanicsTold.bind (PanicsTold.of_within (within_require (fun _ => trivial) _ _))
    fun _ => ?_
  refine PanicsTold.bind (PanicsTold.of_within (within_require (fun _ => trivial) _ _))
    fun _ => ?_
  refine PanicsTold.bind (PanicsTold.of_within (within_ofExcept (fun _ => trivial) _ _))
    fun _ => ?_
  refine PanicsTold.bind (PanicsTold.bind (panicsTold_postProbed fun bs => ?_) fun _ =>
    PanicsTold.of_within (Within.pure _)) fun links => ?_
  · rw [if_pos rfl]
  refine PanicsTold.bind (PanicsTold.of_within (within_require (fun _ => trivial) _ _))
    fun _ => ?_
  exact PanicsTold.of_within (Within.pure _)

theorem panicsTold_runUpload : PanicsTold K (runUpload K up fuel) := by
  refine PanicsTold.bind panicsTold_createDraft fun d => ?_
  refine PanicsTold.bind (PanicsTold.of_within (within_readBlocks
    (A := fun c => isPost c = false) (fun _ => trivial) (fun _ => rfl) rfl rfl (fun _ => rfl) _ _))
    fun s => ?_
  refine PanicsTold.bind panicsTold_requestBlocks fun sorted => ?_
  refine PanicsTold.bind (PanicsTold.of_within (within_putBlocks
    (A := fun c => isPost c = false) (fun _ => trivial) rfl fun _ _ => rfl)) fun _ => ?_
  refine PanicsTold.bind (PanicsTold.of_within (within_commitRequest (fun _ => trivial) rfl))
    fun req => ?_
  exact PanicsTold.of_within (within_commitRevision (fun _ => trivial) (fun _ _ => rfl)
    fun _ => rfl)

end

end ProtonDrive
