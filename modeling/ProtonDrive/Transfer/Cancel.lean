import ProtonDrive.App.Transfer
import ProtonDrive.Upload.Chunking

/-!
# Uploads that are cancelled

`upload_from_stream` makes a cancellation token for itself that nobody else holds (`OwnToken`), and the
token of a transfer is looked at only twice, before the upload proper begins (`doUpload_cases`).

* `After task tr t`      what can happen to a task and its transfer from a moment on;
* `StopsAtCheck`         a check that comes up after the cancellation ends the task, and nothing is committed;
* `upload_stops_iff`     this is so exactly if the second check of `do_upload` was still ahead.
-/

set_option linter.unusedVariables false

namespace ProtonDrive
open Encoding Effects Api

/-! ## from a moment on -/

/-- `post` are the calls that the task makes after it has made the calls `tr` -/
inductive After (task : Task Unit) (tr : Trace host) (t : Transfer) : Trace host → Transfer → Prop
  | here : After task tr t [] t
  | call {post : Trace host} {t' : Transfer} {e : Event host} (h : After task tr t post t')
      (hrun : Runs task.run (tr ++ (post ++ [e])) .running) (hfit : t'.Fits e) :
      After task tr t (post ++ [e]) (t'.hear e.call)
  | finish {post : Trace host} {t' : Transfer} {r : Except TaskFault Unit} (h : After task tr t post t')
      (hrun : Runs task.run (tr ++ post) (.done r)) : After task tr t post (t'.report r)
  | poll {post : Trace host} {t' : Transfer} (h : After task tr t post t') :
      After task tr t post t'.poll.1
  | cancel {post : Trace host} {t' : Transfer} (h : After task tr t post t') :
      After task tr t post t'.cancel

/-- the token of `upload_from_stream` is never cancelled -/
def OwnToken (tr : Trace host) : Prop := ∀ a, ⟨.isCancelled .upload, a⟩ ∈ tr → a = false

theorem OwnToken.append {tr tr' : Trace host} (h : OwnToken tr) (h' : OwnToken tr') :
    OwnToken (tr ++ tr') :=
  fun a ha => (List.mem_append.mp ha).elim (h a) (h' a)

def isTransferCheck : HostCall → Bool
  | .isCancelled .transfer => true
  | _ => false

/-- the check before each chunk and the one before each block `POST` -/
def isUploadCheck : HostCall → Bool
  | .isCancelled .upload => true
  | _ => false

section
variable {task : Task Unit} {tr post : Trace host} {t t' : Transfer}

theorem Transfer.poll_cancelled (t : Transfer) : t.poll.1.cancelled = t.cancelled := by
  unfold Transfer.poll
  by_cases hterm : t.state.isTerminal = true
  · rw [if_pos hterm]
  · rw [if_neg hterm]
    by_cases hbytes : t.progressRx = t.bytesDone
    · simp only [hbytes, ne_eq, not_true_eq_false, decide_false, Bool.false_eq_true, if_false]
      split <;> rfl
    · simp only [hbytes, ne_eq, not_false_eq_true, decide_true, if_true]
      split <;> rfl

theorem Transfer.hear_cancelled (t : Transfer) (c : HostCall) :
    (t.hear c).cancelled = t.cancelled := by
  cases c <;> rfl

theorem Transfer.report_cancelled (t : Transfer) (r : Except TaskFault Unit) :
    (t.report r).cancelled = t.cancelled := by
  match r with
  | .ok () => rfl
  | .error (.failed _) => rfl
  | .error (.panicked _) => rfl

theorem Transfer.cancel_cancelled {t : Transfer} (h : t.cancelled = true) :
    t.cancel.cancelled = true := by
  unfold Transfer.cancel
  by_cases hterm : t.state.isTerminal = true
  · rw [if_pos hterm]
    exact h
  · rw [if_neg hterm]

/-- a token stays cancelled, and is seen cancelled from then on -/
theorem After.cancelled (h : After task tr t post t') (hcancelled : t.cancelled = true) :
    t'.cancelled = true ∧ ∀ a, ⟨.isCancelled .transfer, a⟩ ∈ post → a = true := by
  induction h with
  | here => exact ⟨hcancelled, fun a ha => absurd ha List.not_mem_nil⟩
  | @call post t' e _ _ hfit ih =>
    refine ⟨(t'.hear_cancelled _).trans ih.1, fun a ha => ?_⟩
    rcases List.mem_append.mp ha with ha | ha
    · exact ih.2 a ha
    · cases List.mem_singleton.mp ha
      exact hfit.trans ih.1
  | @finish post t' r _ _ ih => exact ⟨(t'.report_cancelled r).trans ih.1, ih.2⟩
  | @poll post t' _ ih => exact ⟨t'.poll_cancelled.trans ih.1, ih.2⟩
  | cancel _ ih => exact ⟨Transfer.cancel_cancelled ih.1, ih.2⟩

theorem After.runs (hrun : Runs task.run tr .running) (h : After task tr t post t') :
    Runs task.run (tr ++ post) .running := by
  induction h with
  | here => rwa [List.append_nil]
  | call _ hrun _ _ => exact hrun
  | finish _ _ ih => exact ih
  | poll _ ih => exact ih
  | cancel _ ih => exact ih

theorem Reached.runs (h : Reached task tr t) : Runs task.run tr .running := by
  induction h with
  | spawn => exact .stop _
  | call _ hrun _ _ => exact hrun
  | finish _ _ ih => exact ih
  | poll _ ih => exact ih
  | cancel _ ih => exact ih

/-- calls that do not look at the token of the transfer can be made at any time -/
theorem After.of_runs (hrun : Runs task.run (tr ++ post) .running)
    (hfree : ∀ e ∈ post, isTransferCheck e.call = false) : ∃ t', After task tr t post t' := by
  induction post using List.reverseRecOn with
  | nil => exact ⟨t, .here⟩
  | append_singleton post e ih =>
    have hpost : Runs task.run (tr ++ post) .running := by
      rw [← List.append_assoc] at hrun
      exact hrun.take _
    obtain ⟨t', ht'⟩ := ih hpost fun e' he' => hfree e' (List.mem_append_left _ he')
    have hcall := hfree e (List.mem_append_right _ (List.mem_singleton.mpr rfl))
    refine ⟨t'.hear e.call, .call ht' hrun ?_⟩
    obtain ⟨c, a⟩ := e
    cases c with
    | isCancelled token =>
      cases token with
      | transfer => cases hcall
      | _ => trivial
    | _ => trivial

end

/-! ## the calls of an upload -/

section
variable {K : Crates} {client : ProtonDriveClient} {task : UploadTask} {fuel : Nat}
  {tr post : Trace host} {t t' : Transfer} {up : ProtonFileUploader}

/-- the upload proper does not look at the token of the transfer -/
theorem within_runUpload : Within (S := host) (fun c => isTransferCheck c = false)
    (fun _ => True) (runUpload K up fuel) := by
  have hQ : ∀ f : Fault, True := fun _ => trivial
  refine Within.bind (within_createDraft hQ (fun _ => rfl) (fun _ _ => rfl) rfl) fun d => ?_
  have hread : Within (S := host) (fun c => isTransferCheck c = false) (fun _ => True)
      (readBlocks K up d fuel (Chunks.empty K)) := by
    exact within_readBlocks (A := fun c => isTransferCheck c = false) (fun _ => trivial) (fun _ => rfl)
      rfl rfl (fun _ => rfl) _ _
  refine Within.bind hread fun s => ?_
  refine Within.bind (within_requestBlocks hQ fun _ => rfl) fun sorted => ?_
  refine Within.bind (within_putBlocks (A := fun c => isTransferCheck c = false) (fun _ => trivial) rfl
    fun _ _ => rfl) fun _ => ?_
  refine Within.bind (within_commitRequest (fun _ => trivial) rfl) fun req => ?_
  exact within_commitRevision (fun _ => trivial) (fun _ _ => rfl) fun _ => rfl

/-- the answer of a check that lets the upload go on -/
def passedCheck : Event host := ⟨.isCancelled .upload, false⟩

theorem lastCall_unchecked {α : Type} {p : Sdk α}
    (hp : Within (S := host) (fun c => isUploadCheck c = false) (fun _ => True) p) :
    LastCall (· ≠ passedCheck) p.run := by
  refine LastCall.of_only hp.1 ?_
  rintro e he rfl
  cases he

/-- a check is passed only to go on with a call -/
theorem lastCall_guarded {α : Type} {e : Error} {rest : Sdk α} (hcalls : Calls rest.run)
    (hrest : LastCall (· ≠ passedCheck) rest.run) :
    LastCall (· ≠ passedCheck) (do
      let cancelled ← call (.isCancelled .upload)
      require (!cancelled) e
      rest : Sdk α).run := by
  rintro tr e r h rfl
  rcases h.bindE_inv with ⟨a, t, u, heq, h₁, h₂⟩ | ⟨o₁, ho, h₁⟩
  · obtain rfl := call_ok h₁
    change Bool at a
    cases a with
    | true =>
      obtain ⟨rfl, _⟩ := Runs.ret_inv h₂
      rw [List.append_nil] at heq
      have hsplit : tr ++ [passedCheck] = [] ++ [⟨.isCancelled .upload, true⟩] := heq
      obtain ⟨_, hlast⟩ := List.append_inj' hsplit rfl
      have hans : (⟨.isCancelled .upload, false⟩ : Event host) = ⟨.isCancelled .upload, true⟩ :=
        List.singleton_inj.mp hlast
      cases hans
    | false =>
      rcases List.eq_nil_or_concat' u with rfl | ⟨u', e', rfl⟩
      · exact hcalls r h₂
      · rw [← List.append_assoc] at heq
        obtain ⟨_, hlast⟩ := List.append_inj' heq rfl
        cases hlast
        exact hrest u' _ r h₂ rfl
  · cases r with
    | ok b => exact absurd ho Outcome.Aborts.not_ok
    | error f =>
      rw [ho.error] at h₁
      exact call_not_error h₁

theorem lastCall_readBlocks {d : Draft} (s : Chunks K) :
    LastCall (· ≠ passedCheck) (readBlocks K up d fuel s).run := by
  induction fuel generalizing s with
  | zero => exact lastCall_unchecked ⟨trivial, trivial⟩
  | succ fuel ih =>
    rw [readBlocks_succ]
    refine lastCall_guarded Calls.call ?_
    refine LastCall.bindE (lastCall_unchecked
      (within_fillBuffer (fun _ => trivial) (fun _ => rfl) _ _ _)) fun plaintext => ?_
    unfold afterFill
    split
    · exact lastCall_unchecked (Within.pure _)
    · refine LastCall.bindE (lastCall_unchecked
        (within_encryptBlock (fun _ => trivial) rfl)) fun b => ?_
      refine LastCall.bindE (lastCall_unchecked (within_call rfl)) fun _ => ?_
      split
      · exact lastCall_unchecked (Within.pure _)
      · exact ih _

theorem lastCall_putBlocks (pairs : List (EncryptedBlock K × Upload.UploadLink)) :
    LastCall (· ≠ passedCheck) (putBlocks K pairs).run := by
  induction pairs with
  | nil => exact lastCall_unchecked (Within.pure _)
  | cons pair rest ih =>
    refine lastCall_guarded Calls.call ?_
    refine LastCall.bindE (lastCall_unchecked ?_) fun _ => ih
    exact Within.bind (within_requestBlob (fun _ => trivial) rfl)
      fun _ => within_require (fun _ => trivial) _ _

theorem lastCall_runUpload : LastCall (· ≠ passedCheck) (runUpload K up fuel).run := by
  have hQ : ∀ f : Fault, True := fun _ => trivial
  refine LastCall.bindE (lastCall_unchecked
    (within_createDraft hQ (fun _ => rfl) (fun _ _ => rfl) rfl)) fun d => ?_
  refine LastCall.bindE (lastCall_readBlocks _) fun s => ?_
  refine LastCall.bindE (lastCall_unchecked (within_requestBlocks hQ fun _ => rfl)) fun sorted => ?_
  refine LastCall.bindE (lastCall_putBlocks _) fun _ => ?_
  refine LastCall.bindE (lastCall_unchecked (within_commitRequest (fun _ => trivial) rfl)) fun req => ?_
  exact lastCall_unchecked (within_commitRevision (fun _ => trivial) (fun _ _ => rfl) fun _ => rfl)

theorem unlessCancelled_cases {msg : String} {o : Outcome (Except TaskFault Unit)}
    (h : Runs (unlessCancelled msg).run tr o) :
    (tr = [] ∧ o = .running) ∨ ∃ a, tr = [⟨.isCancelled .transfer, a⟩] ∧
      (o = .running ∨ (a = false ∧ o = .done (.ok ())) ∨
        (a = true ∧ o = .done (.error (.failed msg)))) := by
  rcases Runs.call_inv h with ⟨rfl, rfl⟩ | ⟨a, t, rfl, hk⟩
  · exact .inl ⟨rfl, rfl⟩
  · change Bool at a
    refine .inr ⟨a, ?_⟩
    cases a with
    | true =>
      obtain ⟨rfl, rfl | rfl⟩ := Runs.ret_inv hk
      · exact ⟨rfl, .inr (.inr ⟨rfl, rfl⟩)⟩
      · exact ⟨rfl, .inl rfl⟩
    | false =>
      obtain ⟨rfl, rfl | rfl⟩ := Runs.ret_inv hk
      · exact ⟨rfl, .inr (.inl ⟨rfl, rfl⟩)⟩
      · exact ⟨rfl, .inl rfl⟩

theorem orFailed_silent {α : Type} {label : String} {r : Except String α}
    {o : Outcome (Except TaskFault α)} (h : Runs (orFailed label r).run tr o) : tr = [] := by
  cases r with
  | ok a => exact (Runs.ret_inv h).1
  | error e => exact (Runs.ret_inv h).1

theorem mapErr_ofExcept_silent {α : Type} {label : String} {r : Except Error α}
    {o : Outcome (Except TaskFault α)} (h : Runs (mapErr label (ofExcept id r)).run tr o) :
    tr = [] :=
  ofExcept_silent (Runs.adapt_inv h).1

/-- an upload is at its two looks at the token of its transfer, or has come to the upload proper -/
theorem doUpload_cases {o : Outcome (Except TaskFault Unit)}
    (h : Runs (doUpload K client task fuel).run tr o) :
    tr = [] ∨ (∃ a, tr = [⟨.isCancelled .transfer, a⟩]) ∨
      (tr = [⟨.isCancelled .transfer, false⟩, ⟨.isCancelled .transfer, true⟩] ∧
        Runs (doUpload K client task fuel).run tr (.done (.error (.failed "upload cancelled")))) ∨
      ∃ up body, tr = ⟨.isCancelled .transfer, false⟩ :: ⟨.isCancelled .transfer, false⟩ :: body ∧
        Runs (mapErr "upload_from_stream: " (uploadFromStream K up fuel)).run body o := by
  rcases h.bindE_inv with ⟨_, t₁, u₁, rfl, h₁, k₁⟩ | ⟨o₁, ho, h₁⟩
  swap
  · rcases unlessCancelled_cases h₁ with ⟨rfl, _⟩ | ⟨a, rfl, _⟩
    · exact .inl rfl
    · exact .inr (.inl ⟨a, rfl⟩)
  obtain rfl := unlessCancelled_ok h₁
  rcases k₁.bindE_inv with ⟨file, t₂, u₂, rfl, h₂, k₂⟩ | ⟨o₂, _, h₂⟩
  swap
  · obtain rfl := orFailed_silent h₂
    exact .inr (.inl ⟨false, rfl⟩)
  obtain rfl := orFailed_silent h₂
  by_cases hempty : file.len = 0
  · rw [if_pos hempty] at k₂
    obtain ⟨rfl, _⟩ := Runs.ret_inv k₂
    exact .inr (.inl ⟨false, rfl⟩)
  rw [if_neg hempty] at k₂
  rcases k₂.bindE_inv with ⟨uploader, t₃, u₃, rfl, h₃, k₃⟩ | ⟨o₃, _, h₃⟩
  swap
  · obtain rfl := mapErr_ofExcept_silent h₃
    exact .inr (.inl ⟨false, rfl⟩)
  obtain rfl := mapErr_ofExcept_silent h₃
  rcases k₃.bindE_inv with ⟨_, t₄, u₄, rfl, h₄, k₄⟩ | ⟨o₄, _, h₄⟩
  swap
  · obtain rfl := orFailed_silent h₄
    exact .inr (.inl ⟨false, rfl⟩)
  obtain rfl := orFailed_silent h₄
  -- the second look at the token
  rcases k₄.bindE_inv with ⟨_, t₅, u₅, rfl, h₅, k₅⟩ | ⟨o₅, ho₅, h₅⟩
  · obtain rfl := unlessCancelled_ok h₅
    exact .inr (.inr (.inr ⟨uploader, u₅, rfl, k₅⟩))
  · rcases unlessCancelled_cases h₅ with ⟨rfl, _⟩ | ⟨a, rfl, hends⟩
    · exact .inr (.inl ⟨false, rfl⟩)
    · cases a with
      | false =>
        have hrunning : o₅ = .running := by
          rcases hends with ho | ⟨_, rfl⟩ | ⟨htrue, _⟩
          · exact ho
          · exact absurd ho₅ Outcome.Aborts.src_not_ok
          · cases htrue
        subst hrunning
        rw [ho₅.of_running]
        exact .inr (.inr (.inr ⟨uploader, [], rfl, .stop _⟩))
      | true =>
        refine .inr (.inr (.inl ⟨rfl, ?_⟩))
        have hend : Runs (unlessCancelled "upload cancelled").run [⟨.isCancelled .transfer, true⟩]
            (.done (.error (.failed "upload cancelled"))) := .call (.ret _)
        refine Runs.bindE_one h₁ (Runs.bindE_none h₂ ?_)
        rw [if_neg hempty]
        exact Runs.bindE_none h₃ (Runs.bindE_none h₄ (Runs.bindE_fails hend))

/-! ## cancelling -/

def isCheck (c : HostCall) : Bool := isTransferCheck c || isUploadCheck c

/-- a check before a chunk or a block is still ahead of the task -/
def CheckAhead (task : Task Unit) (tr : Trace host) : Prop :=
  ∃ post o, Runs task.run (tr ++ post) o ∧ ∃ e ∈ post, isUploadCheck e.call = true

/-- what is asked of an upload that is cancelled now: the next check ends the task, and its revision is not
committed -/
structure StopsAtCheck (task : Task Unit) (tr : Trace host) (t : Transfer) : Prop where
  ends : ∀ p e t', After task tr t.cancel (p ++ [e]) t' → OwnToken (p ++ [e]) →
    isCheck e.call = true → ∃ msg, Runs task.run (tr ++ (p ++ [e])) (.done (.error (.failed msg)))
  uncommitted : ∀ post t', After task tr t.cancel post t' → OwnToken post → commits post = []

/-- how often the task has looked at the token of its transfer -/
def looks (tr : Trace host) : Nat := tr.countP fun e => isTransferCheck e.call

theorem Transfer.cancel_live (hlive : t.state.isTerminal = false) : t.cancel.cancelled = true := by
  unfold Transfer.cancel
  rw [hlive]
  rfl

/-- before its second look the task sees the cancellation -/
theorem stops_early (hrun : Runs (doUpload K client task fuel).run tr .running)
    (hlive : t.state.isTerminal = false) (hearly : looks tr < 2) :
    StopsAtCheck (doUpload K client task fuel) tr t := by
  have hcases : ∀ {post t'}, After (doUpload K client task fuel) tr t.cancel post t' →
      tr ++ post = [] ∨ (∃ a, tr ++ post = [⟨.isCancelled .transfer, a⟩]) ∨
        (tr ++ post = [⟨.isCancelled .transfer, false⟩, ⟨.isCancelled .transfer, true⟩] ∧
          Runs (doUpload K client task fuel).run (tr ++ post)
            (.done (.error (.failed "upload cancelled")))) := by
    intro post t' hafter
    rcases doUpload_cases (hafter.runs hrun) with h | h | h | ⟨up, body, h, _⟩
    · exact .inl h
    · exact .inr (.inl h)
    · exact .inr (.inr h)
    · -- the second look would have come after the cancellation, and would have seen it
      have hseen := (hafter.cancelled (Transfer.cancel_live hlive)).2
      match tr, h, hearly with
      | [], h, _ =>
        rw [List.nil_append] at h
        exact absurd (hseen false (h ▸ List.mem_cons_self)) Bool.false_ne_true
      | [x], h, _ =>
        have hpost : post = ⟨.isCancelled .transfer, false⟩ :: body := (List.cons.inj h).2
        exact absurd (hseen false (hpost ▸ List.mem_cons_self)) Bool.false_ne_true
      | x :: y :: rest, h, hearly =>
        obtain ⟨rfl, hrest⟩ := List.cons.inj h
        obtain ⟨rfl, _⟩ := List.cons.inj hrest
        have hlooks : 2 ≤ looks (⟨.isCancelled .transfer, false⟩ ::
            ⟨.isCancelled .transfer, false⟩ :: rest) := by
          unfold looks
          simp [isTransferCheck]
        omega
  refine ⟨fun p e t' hafter _ hcheck => ?_, fun post t' hafter _ => ?_⟩
  · rcases hcases hafter with h | ⟨a, h⟩ | ⟨_, hdone⟩
    · simp at h
    · have hlast : e = ⟨.isCancelled .transfer, a⟩ := by
        rw [← List.append_assoc, ← List.nil_append [(⟨.isCancelled .transfer, a⟩ : Event host)]] at h
        exact List.singleton_inj.mp (List.append_inj' h rfl).2
      obtain rfl : a = true := (hafter.cancelled (Transfer.cancel_live hlive)).2 a
        (hlast ▸ List.mem_append_right _ (List.mem_singleton.mpr rfl))
      have hend : Runs (unlessCancelled "upload cancelled before start").run
          [⟨.isCancelled .transfer, true⟩]
          (.done (.error (.failed "upload cancelled before start"))) := .call (.ret _)
      rw [h]
      exact ⟨_, Runs.bindE_fails hend⟩
    · exact ⟨_, hdone⟩
  · -- all that was called are looks at the token
    have hlooks : ∀ e ∈ tr ++ post, ∃ a, e = ⟨.isCancelled .transfer, a⟩ := by
      intro e he
      rcases hcases hafter with h | ⟨a, h⟩ | ⟨h, _⟩
      · rw [h] at he
        cases he
      · rw [h] at he
        exact ⟨a, List.mem_singleton.mp he⟩
      · rw [h] at he
        rcases List.mem_cons.mp he with rfl | he
        · exact ⟨false, rfl⟩
        · exact ⟨true, List.mem_singleton.mp he⟩
    refine commits_eq_nil fun e he => ?_
    obtain ⟨a, rfl⟩ := hlooks e (List.mem_append_right _ he)
    rfl

/-- an upload looks at the token of its transfer twice, and a check it has passed is not its last call -/
theorem doUpload_checks {e : Event host} {a : Bool}
    (h : Runs (doUpload K client task fuel).run (tr ++ [e]) .running)
    (he : e = ⟨.isCancelled .upload, a⟩) :
    looks tr = 2 ∧
      ∀ r, ¬ Runs (doUpload K client task fuel).run (tr ++ [passedCheck]) (.done r) := by
  subst he
  have hbody : ∀ (b : Bool) {o}, Runs (doUpload K client task fuel).run
      (tr ++ [⟨.isCancelled .upload, b⟩]) o → ∃ up body,
        tr = ⟨.isCancelled .transfer, false⟩ :: ⟨.isCancelled .transfer, false⟩ :: body ∧
          Runs (mapErr "upload_from_stream: " (uploadFromStream K up fuel)).run
            (body ++ [⟨.isCancelled .upload, b⟩]) o := by
    intro b o hrun
    have hlast : ∀ {pre : Trace host} {c : Bool}, tr ++ [⟨.isCancelled .upload, b⟩] ≠
        pre ++ [⟨.isCancelled .transfer, c⟩] := by
      intro pre c heq
      cases List.singleton_inj.mp (List.append_inj' heq rfl).2
    rcases doUpload_cases hrun with heq | ⟨c, heq⟩ | ⟨heq, _⟩ | ⟨up, body, heq, hrest⟩
    · simp at heq
    · exact absurd (heq.trans (List.nil_append _).symm) hlast
    · exact absurd (heq.trans (List.singleton_append).symm) hlast
    · rcases List.eq_nil_or_concat' body with rfl | ⟨body, e, rfl⟩
      · exact absurd (heq.trans (List.singleton_append).symm) hlast
      · have hsplit : tr ++ [⟨.isCancelled .upload, b⟩] = (⟨.isCancelled .transfer, false⟩ ::
            ⟨.isCancelled .transfer, false⟩ :: body) ++ [e] := heq
        obtain ⟨htr, he⟩ := List.append_inj' hsplit rfl
        rw [← List.singleton_inj.mp he] at hrest
        exact ⟨up, body, htr, hrest⟩
  obtain ⟨up, body, rfl, hrest⟩ := hbody a h
  refine ⟨?_, fun r hdone => ?_⟩
  · have hquiet : ∀ e ∈ body, isTransferCheck e.call = false := fun e he =>
      (Runs.adapt_inv hrest).1.only within_runUpload.1 e (List.mem_append_left _ he)
    have hnone : looks body = 0 := List.countP_eq_zero.mpr fun e he => by
      rw [hquiet e he]
      exact Bool.false_ne_true
    show looks ([⟨.isCancelled .transfer, false⟩, ⟨.isCancelled .transfer, false⟩] ++ body) = 2
    unfold looks at hnone ⊢
    rw [List.countP_append, hnone]
    rfl
  · obtain ⟨up', body', heq, hrest'⟩ := hbody false hdone
    obtain ⟨r', hr'⟩ := (Runs.adapt_inv hrest').2 r rfl
    exact lastCall_runUpload _ _ _ hr' rfl

/-- after its second look the task passes the next check -/
theorem not_stops_late (hrun : Runs (doUpload K client task fuel).run tr .running)
    (hlate : 2 ≤ looks tr) (hahead : CheckAhead (doUpload K client task fuel) tr) :
    ¬ StopsAtCheck (doUpload K client task fuel) tr t := by
  intro hstops
  obtain ⟨post, o, hpost, e, he, hcheck⟩ := hahead
  -- the first check that is ahead
  obtain ⟨e, hfind⟩ : ∃ e, post.find? (fun e => isUploadCheck e.call) = some e :=
    Option.isSome_iff_exists.mp (List.find?_isSome.mpr ⟨e, he, hcheck⟩)
  obtain ⟨hcheck, p, q, rfl, hfirst⟩ := List.find?_eq_some_iff_append.mp hfind
  obtain ⟨a, rfl⟩ : ∃ a, e = ⟨.isCancelled .upload, a⟩ := by
    obtain ⟨c, a⟩ := e
    cases c with
    | isCancelled token =>
      cases token with
      | upload => exact ⟨a, rfl⟩
      | _ => cases hcheck
    | _ => cases hcheck
  have hreach : Runs (doUpload K client task fuel).run
      ((tr ++ p) ++ [⟨.isCancelled .upload, a⟩]) .running := by
    have hsplit : tr ++ (p ++ ⟨.isCancelled .upload, a⟩ :: q) =
        ((tr ++ p) ++ [⟨.isCancelled .upload, a⟩]) ++ q := by simp
    rw [hsplit] at hpost
    exact hpost.take _
  obtain ⟨hlooks, hgoes⟩ := doUpload_checks hreach rfl
  have hquiet : ∀ e ∈ p, isTransferCheck e.call = false := by
    have hnone : looks p = 0 := by
      unfold looks at hlooks hlate ⊢
      rw [List.countP_append] at hlooks
      omega
    intro e he
    exact Bool.not_eq_true _ ▸ List.countP_eq_zero.mp hnone e he
  obtain ⟨t', hp⟩ := After.of_runs (t := t.cancel) (hreach.take (tr ++ p)) hquiet
  have hpassed : After (doUpload K client task fuel) tr t.cancel (p ++ [passedCheck])
      (t'.hear passedCheck.call) := by
    refine .call hp ?_ trivial
    rw [← List.append_assoc]
    exact hreach.reanswer false
  have hown : OwnToken (p ++ [passedCheck]) := by
    intro b hb
    rcases List.mem_append.mp hb with hb | hb
    · exact absurd (hfirst _ hb) (by simp [isUploadCheck])
    · cases List.mem_singleton.mp hb
      rfl
  obtain ⟨msg, hdone⟩ := hstops.ends p passedCheck _ hpassed hown rfl
  rw [← List.append_assoc] at hdone
  exact hgoes _ hdone

/-- a cancelled upload stops at its next check, and is not committed, exactly if `do_upload` had still to
look at the token for the second time -/
theorem upload_stops_iff (h : Reached (doUpload K client task fuel) tr t) (hown : OwnToken tr)
    (hlive : t.state.isTerminal = false) (hahead : CheckAhead (doUpload K client task fuel) tr) :
    StopsAtCheck (doUpload K client task fuel) tr t ↔ looks tr < 2 := by
  constructor
  · intro hstops
    by_contra hlate
    exact not_stops_late h.runs (by omega) hahead hstops
  · exact stops_early h.runs hlive

end

/-! ## a small upload that is cancelled -/

def smallUploadTask : UploadTask where
  localPath := "/tmp/f"
  parentUid := smallUploader.parent
  stat := .ok { len := 1, modified := none }
  opened := .ok ()

def smallTask : Task Unit := doUpload goodCrates smallClient smallUploadTask 1

/-- the run of the task against a server that accepts the file -/
def smallTaskRun : Trace host × Option (Except TaskFault Unit) :=
  exec (smallUpload [goodLink]).serve [] smallTask.run

def taskOk : Option (Except TaskFault Unit) → Bool
  | some (.ok ()) => true
  | _ => false

theorem taskOk_spec {r : Option (Except TaskFault Unit)} (h : taskOk r = true) :
    r = some (.ok ()) := by
  match r, h with
  | some (.ok ()), _ => rfl

theorem smallTaskRun_ends : (taskOk smallTaskRun.2 &&
    smallTaskRun.1.any fun e => isUploadCheck e.call) = true := by decide +kernel

theorem smallTask_runs : Runs smallTask.run smallTaskRun.1 (.done (.ok ())) := by
  obtain ⟨hok, _⟩ := Bool.and_eq_true_iff.mp smallTaskRun_ends
  exact exec_runs _ _ _ _ (taskOk_spec hok)

theorem smallTask_own : OwnToken smallTaskRun.1 := by
  intro a ha
  obtain ⟨h, hserved⟩ := exec_served (smallUpload [goodLink]).serve [] smallTask.run _ ha
  exact hserved

theorem smallTask_ahead : CheckAhead smallTask [] := by
  obtain ⟨_, hany⟩ := Bool.and_eq_true_iff.mp smallTaskRun_ends
  obtain ⟨e, he, hcheck⟩ := List.any_eq_true.mp hany
  exact ⟨smallTaskRun.1, _, smallTask_runs, e, he, hcheck⟩

/-- cancelled before it has begun -/
theorem smallTask_stops : StopsAtCheck smallTask [] .spawned := by
  have hnone : OwnToken [] := fun a ha => absurd ha List.not_mem_nil
  exact (upload_stops_iff .spawn hnone rfl smallTask_ahead).mpr (by decide)

/-- the two looks at the token, before the upload proper -/
def bothLooks : Trace host := [⟨.isCancelled .transfer, false⟩, ⟨.isCancelled .transfer, false⟩]

/-- cancelled right after its second look, with every check of the upload proper still ahead, the task
commits the revision -/
theorem smallTask_commits : ∃ t t' post, Reached smallTask bothLooks t ∧ OwnToken bothLooks ∧
    t.state = .running ∧ t.cancel.state = .cancelled ∧ CheckAhead smallTask bothLooks ∧
    After smallTask bothLooks t.cancel post t' ∧ OwnToken post ∧
    Runs smallTask.run (bothLooks ++ post) (.done (.ok ())) ∧ commits post ≠ [] := by
  obtain ⟨_, hany⟩ := Bool.and_eq_true_iff.mp smallTaskRun_ends
  obtain ⟨e, he, hcheck⟩ := List.any_eq_true.mp hany
  have hrun := smallTask_runs
  have hown := smallTask_own
  rcases doUpload_cases hrun with htr | ⟨a, htr⟩ | ⟨htr, _⟩ | ⟨up, body, htr, hbody⟩
  · rw [htr] at he
    cases he
  · rw [htr] at he
    cases List.mem_singleton.mp he
    cases hcheck
  · rw [htr] at he
    rcases List.mem_cons.mp he with rfl | he
    · cases hcheck
    · cases List.mem_singleton.mp he
      cases hcheck
  · have htr : smallTaskRun.1 = bothLooks ++ body := htr
    rw [htr] at hrun hown he
    have hlooks : Runs smallTask.run bothLooks .running := hrun.take _
    have hquiet : ∀ e ∈ body, isTransferCheck e.call = false :=
      (Runs.adapt_inv hbody).1.only within_runUpload.1
    have hbodyCheck : ∃ e ∈ body, isUploadCheck e.call = true := by
      rcases List.mem_append.mp he with he | he
      · rcases List.mem_cons.mp he with rfl | he
        · cases hcheck
        · cases List.mem_singleton.mp he
          cases hcheck
      · exact ⟨e, he, hcheck⟩
    have hfree : ∀ e ∈ bothLooks, ∀ a, e = ⟨.isCancelled .transfer, a⟩ → a = false := by
      rintro e he a rfl
      rcases List.mem_cons.mp he with heq | he
      · cases heq
        rfl
      · cases List.mem_singleton.mp he
        rfl
    obtain ⟨t, ht, hstate, _⟩ := Reached.of_runs hlooks hfree
    have hpartial : Runs smallTask.run (bothLooks ++ body) .running := by
      rw [← List.append_nil (bothLooks ++ body)] at hrun
      exact hrun.take _
    obtain ⟨t', hafter⟩ := After.of_runs (t := t.cancel) hpartial hquiet
    refine ⟨t, t', body, ht, fun a ha => hown a (List.mem_append_left _ ha), hstate, ?_,
      ⟨body, _, hrun, hbodyCheck⟩, hafter, fun a ha => hown a (List.mem_append_right _ ha), hrun,
      commits_of_ok (Runs.adapt_ok.mp hbody)⟩
    unfold Transfer.cancel
    rw [hstate]
    rfl

end ProtonDrive
