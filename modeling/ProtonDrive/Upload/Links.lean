import ProtonDrive.Core.Scripted
import ProtonDrive.Upload.Runs

/-!
# The links of an upload

* `LinkPoint`         the request for links has been answered: the draft, the blocks, the links, and
                      the program that is left (`LinkPoint.rest`);
* `runUpload_links`   a run that shows an answer with links went through a `LinkPoint`;
* `LinkPairing`       each ciphertext is posted to a link with the index of its block, and labels
                      other than `1..n` end in a protocol violation before anything is posted;
* `runUpload_linkPairing`
                      a run that ended did so exactly if the number of links is wrong or the labels
                      are right: the client checks the number, sorts and trusts the labels.
-/

set_option linter.unusedVariables false

namespace ProtonDrive
open Encoding Effects Api

/-! ## the answer to the request for links -/

section
variable {K : Crates} {α : Type} {probeWhat what sep type path : String} {dec : Json → Option α}
  {body : Json} {tr : Trace host}

/-- a probed `POST` whose answer is an envelope returns what is in it -/
theorem postProbed_answered {o : Outcome (Except Fault α)} {resp : JsonResponse} {a : α}
    (h : Runs (postProbed K probeWhat what sep type dec path body).run tr o)
    (he : ⟨.requestJson (.bare .post path (some body)), .ok resp⟩ ∈ tr)
    (henv : K.Envelopes dec resp.body a) :
    tr = [⟨.requestJson (.bare .post path (some body)), .ok resp⟩] ∧
      (o = .done (.ok a) ∨ o = .running) := by
  rcases Runs.call_inv h with ⟨rfl, _⟩ | ⟨ans, tr', rfl, hk⟩
  · cases he
  have hsilent := Runs.only hk (Within.bind (A := fun c => False) (Q := fun _ => True)
    (within_ofExcept (fun _ => trivial) id ans) fun _ =>
      Within.bind (within_parseOrSnip fun _ => trivial) fun _ =>
      Within.bind (within_require (fun _ => trivial) _ _) fun _ =>
      Within.bind (within_parseOrSnip fun _ => trivial) fun _ => Within.pure _).1
  have hnil : tr' = [] := List.eq_nil_iff_forall_not_mem.mpr hsilent
  subst hnil
  cases List.mem_singleton.mp he
  obtain ⟨error, hparse⟩ := henv
  obtain ⟨error', hprobe⟩ := probe_of_envelopes ⟨error, hparse⟩
  refine ⟨rfl, ?_⟩
  change Runs (ExceptT.run (parseOrSnip K probeWhat sep _ EnvelopeProbe.ofJson resp.body >>= _))
    _ _ at hk
  rw [parseOrSnip_eq hprobe, pure_bind] at hk
  change Runs (ExceptT.run (parseOrSnip K what sep _ (ResponseEnvelope.ofJson dec) resp.body >>= _))
    _ _ at hk
  rw [parseOrSnip_eq hparse, pure_bind] at hk
  exact (Runs.ret_inv hk).2

end

section
variable {K : Crates} {up : ProtonFileUploader} {fuel : Nat} {tr : Trace host}

theorem postRequestBlocks_answered {req : Upload.RequestBlockUploadRequest}
    {o : Outcome (Except Fault (List Upload.UploadLink))} {resp : JsonResponse}
    {links : List Upload.UploadLink} (h : Runs (postRequestBlocks K req).run tr o)
    (he : ⟨.requestJson (.bare .post blocksPath (some req.toJson)), .ok resp⟩ ∈ tr)
    (henv : K.Envelopes Upload.RequestBlockUploadResponse.ofJson resp.body ⟨links⟩) :
    tr = [⟨.requestJson (.bare .post blocksPath (some req.toJson)), .ok resp⟩] ∧
      (o = .done (.ok links) ∨ o = .running) := by
  rcases h.bindE_inv with ⟨a, t, u, rfl, h₁, h₂⟩ | ⟨o₁, ho, h₁⟩
  · obtain ⟨rfl, ho⟩ := Runs.ret_inv h₂
    rw [List.append_nil] at he ⊢
    obtain ⟨rfl, ha | ha⟩ := postProbed_answered h₁ he henv
    · cases ha
      exact ⟨rfl, ho⟩
    · cases ha
  · obtain ⟨rfl, rfl | rfl⟩ := postProbed_answered h₁ he henv
    · exact absurd ho Outcome.Aborts.src_not_ok
    · match o, ho with
      | .running, _ => exact ⟨rfl, .inr rfl⟩

/-- a program that asks for links and then posts to other paths only -/
theorem postRequestBlocks_bind {req : Upload.RequestBlockUploadRequest}
    {f : List Upload.UploadLink → Sdk Unit} {o : Outcome (Except Fault Unit)} {body : Json}
    {resp : JsonResponse} {links : List Upload.UploadLink}
    (hf : ∀ links, Only (fun c => isPostTo blocksPath c = false) (f links).run)
    (h : Runs (postRequestBlocks K req >>= f).run tr o)
    (he : ⟨.requestJson (.bare .post blocksPath (some body)), .ok resp⟩ ∈ tr)
    (henv : K.Envelopes Upload.RequestBlockUploadResponse.ofJson resp.body ⟨links⟩) :
    body = req.toJson ∧ ∃ post, tr =
      ⟨.requestJson (.bare .post blocksPath (some body)), .ok resp⟩ :: post ∧
        Runs (f links).run post o := by
  have hcalls : Within (S := host) (fun c => c = .requestJson (.bare .post blocksPath
      (some req.toJson))) (fun _ => True) (postRequestBlocks K req) :=
    within_postRequestBlocks (fun _ => trivial) rfl
  rcases h.bindE_inv with ⟨links', t, u, rfl, h₁, h₂⟩ | ⟨o₁, ho, h₁⟩
  · -- the rest of the program does not post to this path
    have ht : ⟨.requestJson (.bare .post blocksPath (some body)), .ok resp⟩ ∈ t := by
      rcases List.mem_append.mp he with he | he
      · exact he
      · have hno := h₂.only (hf links') _ he
        rw [isPostTo_self] at hno
        cases hno
    cases h₁.only hcalls.1 _ ht
    obtain ⟨rfl, ho | ho⟩ := postRequestBlocks_answered h₁ ht henv
    · cases ho
      exact ⟨rfl, u, rfl, h₂⟩
    · cases ho
  · cases h₁.only hcalls.1 _ he
    obtain ⟨rfl, rfl | rfl⟩ := postRequestBlocks_answered h₁ he henv
    · exact absurd ho Outcome.Aborts.src_not_ok
    · match o, ho with
      | .running, _ => exact ⟨rfl, [], rfl, .stop _⟩

/-- the program once the links are there -/
def afterLinks (K : Crates) (up : ProtonFileUploader) (d : Draft) (s : Chunks K)
    (links : List Upload.UploadLink) : Sdk Unit := do
  require (links.length = s.blocks.length)
    (.protocolViolation ("server returned " ++ toString links.length ++
      " upload links but " ++ toString s.blocks.length ++ " blocks were requested"))
  putBlocks K (s.blocks.zip (Sorting.sortByKey (·.index) links))
  let commitReq ← commitRequest K up d s
  commitRevision K d s.totalBytes commitReq

theorem within_afterLinks {A : HostCall → Prop} {Q : Fault → Prop} (hQ : ∀ e, Q (.error e))
    {d : Draft} {s : Chunks K} {links : List Upload.UploadLink} (hcancel : A (.isCancelled .upload))
    (hblob : ∀ req, A (.requestBlob req)) (hcoins : A .coins)
    (hput : ∀ path body, A (.requestJson (.bare .put path body)))
    (hprogress : ∀ n, A (.sendProgress n)) :
    Within (S := host) A Q (afterLinks K up d s links) := by
  refine Within.bind (within_require hQ _ _) fun _ => ?_
  refine Within.bind (within_putBlocks hQ hcancel fun _ _ => hblob _) fun _ => ?_
  refine Within.bind (within_commitRequest hQ hcoins) fun _ => ?_
  exact within_commitRevision hQ hput hprogress

/-- the request for links has been answered -/
structure LinkPoint (K : Crates) (up : ProtonFileUploader) (fuel : Nat) where
  draft : Draft
  chunks : Chunks K
  addressId : String
  resp : JsonResponse
  links : List Upload.UploadLink
  drafting : Trace host
  reading : Trace host
  drafted : Runs (createDraft K up).run drafting (.done (.ok draft))
  read : Runs (readBlocks K up draft fuel (Chunks.empty K)).run reading (.done (.ok chunks))
  nonempty : chunks.blocks ≠ []
  answered : K.Envelopes Upload.RequestBlockUploadResponse.ofJson resp.body ⟨links⟩

namespace LinkPoint

def body (p : LinkPoint K up fuel) : Json :=
  (blockUploadRequest K p.draft p.addressId p.chunks.blocks).toJson

def trace (p : LinkPoint K up fuel) : Trace host :=
  p.drafting ++ (p.reading ++
    [⟨.requestJson (.bare .post blocksPath (some p.body)), .ok p.resp⟩])

/-- the blocks with the links they go to -/
def pairs (p : LinkPoint K up fuel) : List (EncryptedBlock K × Upload.UploadLink) :=
  p.chunks.blocks.zip (Sorting.sortByKey (·.index) p.links)

/-- what is left to do -/
def rest (p : LinkPoint K up fuel) : Sdk Unit := afterLinks K up p.draft p.chunks p.links

theorem blobs_trace (p : LinkPoint K up fuel) : blobs p.trace = [] := by
  have h₁ := blobs_eq_nil (p.drafted.only
    (only_createDraft (A := fun c => isBlob c = false) (fun _ => rfl) (fun _ _ => rfl) rfl))
  have h₂ := blobs_eq_nil (p.read.only
    (only_readBlocks (A := fun c => isBlob c = false) (fun _ => rfl) rfl rfl (fun _ => rfl) _ _))
  simp only [trace, blobs_append, h₁, h₂, List.nil_append]
  rfl

end LinkPoint

theorem runUpload_links {o : Outcome (Except Fault Unit)} {body : Json} {resp : JsonResponse}
    {links : List Upload.UploadLink} (h : Runs (runUpload K up fuel).run tr o)
    (he : ⟨.requestJson (.bare .post blocksPath (some body)), .ok resp⟩ ∈ tr)
    (henv : K.Envelopes Upload.RequestBlockUploadResponse.ofJson resp.body ⟨links⟩) :
    ∃ (p : LinkPoint K up fuel) (post : Trace host), p.links = links ∧ p.body = body ∧
      tr = p.trace ++ post ∧ Runs p.rest.run post o := by
  have hpost : ¬ isPostTo blocksPath (.requestJson (.bare .post blocksPath (some body))) = false := by
    rw [isPostTo_self]
    exact Bool.noConfusion
  obtain ⟨d, t₁, u₁, rfl, h₁, k₁, he⟩ := h.reach (only_createDraft
    (A := fun c => isPostTo blocksPath c = false) (fun _ => rfl) isPostTo_files rfl) he hpost
  obtain ⟨s, t₂, u₂, rfl, h₂, k₂, he⟩ := k₁.reach (only_readBlocks
    (A := fun c => isPostTo blocksPath c = false) (fun _ => rfl) rfl rfl (fun _ => rfl) _ _) he hpost
  unfold requestBlocks at k₂
  simp only [bind_assoc, pure_bind] at k₂
  obtain ⟨_, t₃, u₃, rfl, h₃, k₃, he⟩ := k₂.reach (only_require (A := fun _ => False) _ _) he id
  obtain ⟨_, t₄, u₄, rfl, h₄, k₄, he⟩ := k₃.reach (only_require (A := fun _ => False) _ _) he id
  obtain ⟨addressId, t₅, u₅, rfl, h₅, k₅, he⟩ := k₄.reach (only_ofExcept (A := fun _ => False) _ _) he id
  obtain ⟨rfl, hne⟩ := require_ok h₃
  obtain ⟨rfl, _⟩ := require_ok h₄
  obtain ⟨rfl, _⟩ := ofExcept_ok h₅
  have honly : ∀ links, Only (fun c => isPostTo blocksPath c = false)
      (afterLinks K up d s links).run := fun links =>
    (within_afterLinks (A := fun c => isPostTo blocksPath c = false) (Q := fun _ => True)
      (fun _ => trivial) rfl (fun _ => rfl) rfl (fun _ _ => rfl) fun _ => rfl).1
  obtain ⟨rfl, post, rfl, hrest⟩ := postRequestBlocks_bind honly k₅ he henv
  exact ⟨{ draft := d, chunks := s, addressId := addressId, resp := resp, links := links,
           drafting := t₁, reading := t₂, drafted := h₁, read := h₂,
           nonempty := by
             intro hnil
             rw [hnil] at hne
             cases hne
           answered := henv }, post, rfl, rfl, by simp [LinkPoint.trace, LinkPoint.body], hrest⟩

/-! ## the pairing -/

/-- the labels of the links are `1..n`, each once -/
def Labelled (links : List Upload.UploadLink) (n : Nat) : Prop :=
  (links.map (·.index)).Perm (List.range' 1 n)

/-- every ciphertext that was posted went to a link with the index of its block -/
def PairedByIndex (blocks : List (EncryptedBlock K)) (links : List Upload.UploadLink)
    (tr : Trace host) : Prop :=
  ∀ post ∈ blobs tr, ∃ b ∈ blocks, ∃ link ∈ links, link.index = b.index ∧
    post.1 = blockPost (b, link)

/-- the pairing, and a protocol violation before any post if the labels are not `1..n` -/
def LinkPairing (blocks : List (EncryptedBlock K)) (links : List Upload.UploadLink)
    (tr : Trace host) (r : Except Fault Unit) : Prop :=
  PairedByIndex blocks links tr ∧
    (¬ Labelled links blocks.length →
      blobs tr = [] ∧ ∃ msg, r = .error (.error (.protocolViolation msg)))

theorem zip_of_map_eq {α β : Type} {f : α → Nat} {g : β → Nat} {l : List α} {m : List β}
    (h : l.map f = m.map g) : ∀ p ∈ l.zip m, f p.1 = g p.2 := by
  induction l generalizing m with
  | nil => intro p hp; cases hp
  | cons a l ih =>
    cases m with
    | nil => intro p hp; cases hp
    | cons b m =>
      obtain ⟨hab, hlm⟩ := List.cons.inj h
      intro p hp
      rcases List.mem_cons.mp hp with rfl | hp
      · exact hab
      · exact ih hlm p hp

/-- sorted by their labels, links labelled `1..n` stand beside the blocks of their labels -/
theorem pairs_index {s : Chunks K} {links : List Upload.UploadLink}
    (h : Labelled links s.blocks.length) :
    ∀ pair ∈ s.blocks.zip (Sorting.sortByKey (·.index) links), pair.1.index = pair.2.index := by
  refine zip_of_map_eq (s.numbered.trans ?_)
  exact (Sorting.map_key_sortByKey _ h (List.pairwise_lt_range' ..)).symm

theorem putBlocks_posts {pairs : List (EncryptedBlock K × Upload.UploadLink)}
    {o : Outcome (Except Fault Unit)} (h : Runs (putBlocks K pairs).run tr o) :
    ∀ post ∈ blobs tr, ∃ pair ∈ pairs, post.1 = blockPost pair := by
  intro post hpost
  obtain ⟨e, he, hblob⟩ := List.mem_filterMap.mp hpost
  have hcall := h.only (only_putBlocks
    (A := fun c => ∀ req, c = .requestBlob req → ∃ pair ∈ pairs, req = blockPost pair) nofun
    fun pair hp req hreq => ⟨pair, hp, by cases hreq; rfl⟩) e he
  obtain ⟨c, a⟩ := e
  match c, a, hblob, hcall with
  | .requestBlob req, a, hblob, hcall =>
    cases hblob
    exact hcall req rfl

/-- a run that posted nothing of what there was to post was cancelled, or is not over -/
theorem putBlocks_silent {pairs : List (EncryptedBlock K × Upload.UploadLink)} (hne : pairs ≠ [])
    {o : Outcome (Except Fault Unit)} (h : Runs (putBlocks K pairs).run tr o)
    (hnone : blobs tr = []) :
    o = .running ∨ o = .done (.error (.error (.internal "upload cancelled"))) := by
  cases pairs with
  | nil => exact absurd rfl hne
  | cons pair rest =>
    rcases h.bindE_inv with ⟨c, t₁, u₁, rfl, h₁, k₁⟩ | ⟨o₁, ho, h₁⟩
    · rcases k₁.bindE_inv with ⟨_, t₂, u₂, rfl, h₂, k₂⟩ | ⟨o₁, ho, h₂⟩
      · rcases Runs.call_inv k₂ with ⟨rfl, rfl⟩ | ⟨ans, u₃, rfl, _⟩
        · exact .inl rfl
        · simp only [blobs_append, List.append_eq_nil_iff] at hnone
          cases hnone.2.2
      · obtain ⟨rfl, hrun | ⟨_, herr⟩⟩ := require_aborts h₂ ho
        · exact .inl hrun
        · exact .inr herr
    · exact .inl (call_aborts h₁ ho)

/-- the posts of a program that posts its blocks first -/
theorem putBlocks_bind {pairs : List (EncryptedBlock K × Upload.UploadLink)} {f : Unit → Sdk Unit}
    {o : Outcome (Except Fault Unit)} (hf : ∀ u, Only (fun c => isBlob c = false) (f u).run)
    (h : Runs (putBlocks K pairs >>= f).run tr o) :
    ∃ t o', Runs (putBlocks K pairs).run t o' ∧ blobs tr = blobs t ∧
      (o' = .done (.ok ()) ∨ Outcome.Aborts o' o) := by
  rcases h.bindE_inv with ⟨u, t₁, u₁, rfl, h₁, k₁⟩ | ⟨o₁, ho, h₁⟩
  · refine ⟨t₁, _, h₁, ?_, .inl rfl⟩
    rw [blobs_append, blobs_eq_nil (k₁.only (hf u)), List.append_nil]
  · exact ⟨tr, o₁, h₁, rfl, .inr ho⟩

/-- what a run of the program that has the links does, by their number and their labels -/
theorem afterLinks_pairing {d : Draft} {s : Chunks K} {links : List Upload.UploadLink}
    {o : Outcome (Except Fault Unit)} (hne : s.blocks ≠ [])
    (h : Runs (afterLinks K up d s links).run tr o) :
    ((links.length ≠ s.blocks.length ∨ Labelled links s.blocks.length) →
      PairedByIndex s.blocks links tr) ∧
    ∀ r, o = .done r → (LinkPairing s.blocks links tr r ↔
      (links.length ≠ s.blocks.length ∨ Labelled links s.blocks.length)) := by
  rcases h.bindE_inv with ⟨_, t₁, u₁, rfl, h₁, k₁⟩ | ⟨o₁, ho, h₁⟩
  · obtain ⟨rfl, hcount⟩ := require_ok h₁
    have hcount : links.length = s.blocks.length := of_decide_eq_true hcount
    obtain ⟨t, o', hput, hblobs, hends⟩ := putBlocks_bind (fun _ => (Within.bind
      (A := fun c => isBlob c = false) (Q := fun _ => True)
      (within_commitRequest (fun _ => trivial) rfl) fun _ => within_commitRevision
      (fun _ => trivial) (fun _ _ => rfl) fun _ => rfl).1) k₁
    rw [List.nil_append]
    have hpaired : Labelled links s.blocks.length → PairedByIndex s.blocks links u₁ := by
      intro hlabels post hpost
      rw [hblobs] at hpost
      obtain ⟨pair, hpair, hreq⟩ := putBlocks_posts hput post hpost
      obtain ⟨hb, hl⟩ := List.of_mem_zip hpair
      exact ⟨pair.1, hb, pair.2, (Sorting.mem_sortByKey _).mp hl,
        (pairs_index hlabels pair hpair).symm, hreq⟩
    refine ⟨fun hcond => hpaired (hcond.resolve_left fun hne => hne hcount), ?_⟩
    rintro r rfl
    refine ⟨fun hpairing => .inr ?_, fun hcond => ?_⟩
    · by_contra hlabels
      obtain ⟨hnone, msg, rfl⟩ := hpairing.2 hlabels
      -- there was something to post, so a run that posted nothing was cancelled
      have hpairs : s.blocks.zip (Sorting.sortByKey (·.index) links) ≠ [] := by
        intro hnil
        have hlen := congrArg List.length hnil
        rw [List.length_zip, Sorting.length_sortByKey, hcount, Nat.min_self] at hlen
        exact hne (List.length_eq_zero_iff.mp hlen)
      rcases putBlocks_silent hpairs hput (hblobs ▸ hnone) with rfl | rfl
      · rcases hends with hend | hend
        · cases hend
        · cases hend.of_running
      · rcases hends with hend | hend
        · cases hend
        · cases hend.of_error
    · have hlabels := hcond.resolve_left fun hne => hne hcount
      exact ⟨hpaired hlabels, fun hno => absurd hlabels hno⟩
  · -- the number of links is wrong, or the check is still to come
    obtain ⟨rfl, hends⟩ := require_aborts h₁ ho
    have hpaired : PairedByIndex s.blocks links [] := fun post hpost => nomatch hpost
    refine ⟨fun _ => hpaired, ?_⟩
    rintro r rfl
    rcases hends with hrun | ⟨hcount, herr⟩
    · cases hrun
    · cases herr
      exact ⟨fun _ => .inl (of_decide_eq_false hcount), fun _ => ⟨hpaired, fun _ => ⟨rfl, _, rfl⟩⟩⟩

/-- the run asked for links for `p.chunks.blocks` and was given `links`: a finished run pairs
blocks and links by index exactly if there are not as many links as blocks, or they are labelled
`1..n` -/
theorem runUpload_linkPairing {o : Outcome (Except Fault Unit)} {body : Json}
    {resp : JsonResponse} {links : List Upload.UploadLink}
    (h : Runs (runUpload K up fuel).run tr o)
    (he : ⟨.requestJson (.bare .post blocksPath (some body)), .ok resp⟩ ∈ tr)
    (henv : K.Envelopes Upload.RequestBlockUploadResponse.ofJson resp.body ⟨links⟩) :
    ∃ p : LinkPoint K up fuel, p.links = links ∧ p.body = body ∧ p.trace <+: tr ∧
      ((links.length ≠ p.chunks.blocks.length ∨ Labelled links p.chunks.blocks.length) →
        PairedByIndex p.chunks.blocks links tr) ∧
      ∀ r, o = .done r → (LinkPairing p.chunks.blocks links tr r ↔
        (links.length ≠ p.chunks.blocks.length ∨ Labelled links p.chunks.blocks.length)) := by
  obtain ⟨p, post, rfl, rfl, rfl, hrest⟩ := runUpload_links h he henv
  have hblobs : blobs (p.trace ++ post) = blobs post := by
    rw [blobs_append, p.blobs_trace, List.nil_append]
  obtain ⟨hpaired, hiff⟩ := afterLinks_pairing p.nonempty hrest
  refine ⟨p, rfl, rfl, List.prefix_append _ _, ?_, ?_⟩
  · unfold PairedByIndex at hpaired ⊢
    rwa [hblobs]
  · unfold LinkPairing PairedByIndex at hiff ⊢
    rwa [hblobs]

end

/-! ## labels that start at zero -/

/-- one link, labelled 0, for the one block, numbered 1 -/
def zeroLink : Upload.UploadLink := { index := 0, bareUrl := "storage", token := "t" }

def zeroCrates : Crates := smallCrates (smallDocs [zeroLink])

def zeroRun : Trace host × Option (Except Fault Unit) :=
  (smallUpload [zeroLink]).play (runUpload zeroCrates smallUploader 1)

def zeroAnswer : JsonResponse := { status := 200, headers := [], body := textOf (smallLinks [zeroLink]) }

def isZeroAnswer : Event host → Bool
  | ⟨.requestJson { method := .post, path, query := [], headers := [], body := some _ }, .ok resp⟩ =>
    path = blocksPath ∧ resp = zeroAnswer
  | _ => false

theorem isZeroAnswer_spec {e : Event host} (h : isZeroAnswer e = true) :
    ∃ body, e = ⟨.requestJson (.bare .post blocksPath (some body)), .ok zeroAnswer⟩ := by
  unfold isZeroAnswer at h
  split at h
  · next path body resp =>
    obtain ⟨rfl, rfl⟩ := of_decide_eq_true h
    exact ⟨body, rfl⟩
  · cases h

/-- the run ended `Ok` after it had posted something and seen `zeroAnswer` -/
def endsPosted (run : Trace host × Option (Except Fault Unit)) : Bool :=
  match run.2 with
  | some (.ok ()) => blobs run.1 ≠ [] ∧ run.1.any isZeroAnswer
  | _ => false

theorem endsPosted_spec {run : Trace host × Option (Except Fault Unit)} (h : endsPosted run = true) :
    run.2 = some (.ok ()) ∧ blobs run.1 ≠ [] ∧
      ∃ body, ⟨.requestJson (.bare .post blocksPath (some body)), .ok zeroAnswer⟩ ∈ run.1 := by
  unfold endsPosted at h
  split at h
  · next hok =>
    obtain ⟨hposted, hseen⟩ := of_decide_eq_true h
    obtain ⟨e, he, hzero⟩ := List.any_eq_true.mp hseen
    obtain ⟨body, rfl⟩ := isZeroAnswer_spec hzero
    exact ⟨hok, hposted, body, he⟩
  · cases h

theorem zeroAnswer_envelopes :
    zeroCrates.Envelopes Upload.RequestBlockUploadResponse.ofJson zeroAnswer.body ⟨[zeroLink]⟩ :=
  smallCrates_envelopes (by decide +kernel) (by simp [smallDocs]) rfl

theorem zeroRun_runs :
    Runs (runUpload zeroCrates smallUploader 1).run zeroRun.1 (.done (.ok ())) ∧
      blobs zeroRun.1 ≠ [] ∧ ∃ body,
        ⟨.requestJson (.bare .post blocksPath (some body)), .ok zeroAnswer⟩ ∈ zeroRun.1 := by
  have hends : endsPosted zeroRun = true := by decide +kernel
  obtain ⟨hok, hposted, hseen⟩ := endsPosted_spec hends
  exact ⟨Script.play_runs (R := zeroRun) rfl hok, hposted, hseen⟩

theorem zeroRun_linkPairing :
    ∃ p : LinkPoint zeroCrates smallUploader 1, p.links = [zeroLink] ∧
      (LinkPairing p.chunks.blocks [zeroLink] zeroRun.1 (.ok ()) ↔
        ([zeroLink].length ≠ p.chunks.blocks.length ∨
          Labelled [zeroLink] p.chunks.blocks.length)) := by
  obtain ⟨hrun, _, body, he⟩ := zeroRun_runs
  obtain ⟨p, hlinks, _, _, _, hiff⟩ := runUpload_linkPairing hrun he zeroAnswer_envelopes
  exact ⟨p, hlinks, hiff _ rfl⟩

/-- the block, numbered 1, is posted to the link labelled 0, and the run returns `Ok` -/
theorem zeroRun_breaks_linkPairing :
    Runs (runUpload zeroCrates smallUploader 1).run zeroRun.1 (.done (.ok ())) ∧
    ∃ p : LinkPoint zeroCrates smallUploader 1, p.links = [zeroLink] ∧ p.trace <+: zeroRun.1 ∧
      ¬ LinkPairing p.chunks.blocks [zeroLink] zeroRun.1 (.ok ()) := by
  obtain ⟨hrun, hposted, body, he⟩ := zeroRun_runs
  obtain ⟨p, post, hlinks, _, htrace, _⟩ := runUpload_links hrun he zeroAnswer_envelopes
  refine ⟨hrun, p, hlinks, ⟨post, htrace.symm⟩, fun hpairing => hposted ?_⟩
  -- no numbering of blocks starts at zero
  refine (hpairing.2 fun hlabels => ?_).1
  have hmem : 0 ∈ List.range' 1 p.chunks.blocks.length :=
    hlabels.mem_iff.mp (List.mem_singleton.mpr rfl)
  obtain ⟨i, _, hi⟩ := List.mem_range'.mp hmem
  omega

end ProtonDrive
