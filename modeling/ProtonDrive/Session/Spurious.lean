import ProtonDrive.Session.Cell
import ProtonDrive.Session.Clients
import ProtonDrive.Session.Rotation

/-!
# Rejected access tokens

Task 0 is the loop of the session, the other tasks are callers of the session-aware client.

* `Answers`              a server that accepts the last access token it has issued, and always refreshes;
* `Ledger`               the token of the last snapshot of each caller, and for each refresh that a caller
                         asked for the token whose rejection was the cause;
* `Orderly`              no refresh comes between the snapshot of a retry and its answer, every refresh is saved,
                         and a caller that gets the lock finds the token that was rejected;
* `no_spurious_rejection`
                         then no caller is handed a 401, and no token causes a second refresh;
* `twoCallers_rejected`  two callers with one stale token: the second refresh, which the stale token has caused
                         as well, makes the retry of the first a 401.
-/

set_option linter.unusedVariables false

namespace ProtonDrive
open Encoding Effects Api Paths

/-! ## the server -/

structure Server where
  latest : String
  issued : List String

def bearerOf (headers : List (String × String)) : Option String :=
  (headers.find? fun h => h.1 = "Authorization").map Prod.snd

/-- a request with a bearer token is rejected exactly if the token is not the latest; the one request
without, the refresh, is answered with a token that was never issued before -/
inductive Answers (K : Crates) : Server → Event sessionHost → Server → Prop
  | authed {s e headers handed bearer} (he : requestOf e = some (headers, handed))
      (hbearer : bearerOf headers = some bearer)
      (h : ∀ resp, handed = .ok resp → (resp.status = 401 ↔ bearer ≠ "Bearer " ++ s.latest)) :
      Answers K s e s
  | rotates {s req resp tok} (hbearer : bearerOf req.headers = none) (h : Rotates K resp tok)
      (hnew : tok.accessToken ∉ s.issued) : Answers K s ⟨.requestJson req, .ok resp⟩
      { latest := tok.accessToken, issued := tok.accessToken :: s.issued }
  | other {s e} (h : requestOf e = none) : Answers K s e s

structure ClientWorld where
  cell : Cell Nat
  server : Server

structure ClientStep (K : Crates) (w : ClientWorld) (x : Nat × Event sessionHost) (w' : ClientWorld) :
    Prop where
  locks : Locks w.cell x w'.cell
  answers : Answers K w.server x.2 w'.server

/-! ## causes -/

structure Ledger where
  /-- the access token of the last snapshot of each task -/
  seen : Nat → String
  /-- for each refresh of a caller, the token that it had been rejected with -/
  causes : List String

/-- a request of a caller without a bearer token is a refresh -/
def Ledger.asked (l : Ledger) (i : Nat) (headers : List (String × String)) : Ledger :=
  if i ≠ 0 ∧ bearerOf headers = none then { l with causes := l.seen i :: l.causes } else l

def Ledger.after (l : Ledger) : Nat × Event sessionHost → Ledger
  | (i, ⟨.readState, st⟩) => { l with seen := Function.update l.seen i (SessionState.accessToken st) }
  | (i, ⟨.requestJson req, _⟩) => l.asked i req.headers
  | _ => l

def ledger (H : List (Nat × Event sessionHost)) : Ledger :=
  H.foldl Ledger.after { seen := fun _ => "", causes := [] }

def isRelease : Event sessionHost → Bool
  | ⟨.release, _⟩ => true
  | _ => false

def isSnapshot : Event sessionHost → Bool
  | ⟨.readState, _⟩ => true
  | _ => false

/-- the caller has refreshed, has taken its second snapshot, and has no answer to its retry yet -/
def awaitsRetry (tr : Trace sessionHost) : Bool := tr.any isRelease && tr.getLast?.any isSnapshot

structure Orderly (H : List (Nat × Event sessionHost)) : Prop where
  /-- no refresh is answered between the snapshot of a retry and the answer to the retry -/
  retries : ∀ pre i req a post, H = pre ++ (i, ⟨.requestJson req, a⟩) :: post →
    bearerOf req.headers = none → ∀ j, j ≠ 0 → awaitsRetry (proj j pre) = false
  /-- every refresh can save its tokens -/
  saved : ∀ i path doc a, (i, ⟨.writeFile path doc, a⟩) ∈ H → a = .ok ()
  /-- a caller that gets the lock finds the token that was rejected -/
  current : ∀ pre i (st : SessionState) post, H = pre ++ (i, ⟨.acquire, st⟩) :: post → i ≠ 0 →
    (ledger pre).seen i = st.accessToken

section
variable {K : Crates} {s s' : Server} {l : Ledger} {i j : Nat} {e : Event sessionHost}
  {headers : List (String × String)} {handed : Handed} {bearer : String} {st : SessionState}

theorem bearerOf_carries (h : Carries st headers) : bearerOf headers = some ("Bearer " ++ st.accessToken) := by
  obtain ⟨own, rfl⟩ := h
  rfl

theorem bearerOf_refresh : bearerOf (refreshRequest st).headers = none := rfl

theorem bearer_inj {a b : String} (h : "Bearer " ++ a = "Bearer " ++ b) : a = b := by
  have hlist := congrArg String.toList h
  rw [String.toList_append, String.toList_append] at hlist
  exact String.toList_injective (List.append_cancel_left hlist)

theorem Answers.none_inv (h : Answers K s e s') (he : requestOf e = none) : s' = s := by
  cases h with
  | authed he' => cases he.symm.trans he'
  | rotates => cases he
  | other => rfl

theorem Answers.authed_inv (h : Answers K s e s') (he : requestOf e = some (headers, handed))
    (hst : Carries st headers) :
    s' = s ∧ ∀ resp, handed = .ok resp → (resp.status = 401 ↔ st.accessToken ≠ s.latest) := by
  have hbearer := bearerOf_carries hst
  cases h with
  | authed he' hbearer' hrule =>
    rw [he] at he'
    cases he'
    rw [hbearer] at hbearer'
    cases hbearer'
    exact ⟨rfl, fun resp hresp => (hrule resp hresp).trans
      (not_congr ⟨bearer_inj, fun htoken => by rw [htoken]⟩)⟩
  | rotates hbearer' =>
    cases he
    rw [hbearer] at hbearer'
    cases hbearer'
  | other hnone =>
    rw [he] at hnone
    cases hnone

theorem Answers.refresh_inv {a : Except Error JsonResponse}
    (h : Answers K s ⟨.requestJson (refreshRequest st), a⟩ s') :
    ∃ resp tok, a = .ok resp ∧ Rotates K resp tok ∧ tok.accessToken ∉ s.issued ∧
      s' = { latest := tok.accessToken, issued := tok.accessToken :: s.issued } := by
  cases h with
  | authed he hbearer =>
    cases he
    rw [bearerOf_refresh] at hbearer
    cases hbearer
  | rotates _ hrotates hnew => exact ⟨_, _, rfl, hrotates, hnew, rfl⟩
  | other he => cases he

theorem ledger_concat {pre : List (Nat × Event sessionHost)} {x : Nat × Event sessionHost} :
    ledger (pre ++ [x]) = (ledger pre).after x := by
  unfold ledger
  rw [List.foldl_append]
  rfl

theorem Ledger.asked_seen : (l.asked i headers).seen = l.seen := by
  unfold Ledger.asked
  split <;> rfl

theorem Ledger.after_seen (h : i ≠ j) : (l.after (i, e)).seen j = l.seen j := by
  obtain ⟨c, a⟩ := e
  cases c with
  | readState => exact Function.update_of_ne h.symm ..
  | requestJson req => exact congrFun Ledger.asked_seen j
  | _ => rfl

/-- only a snapshot and a refresh are entered -/
theorem Ledger.after_none (he : requestOf e = none) (hread : isSnapshot e = false) :
    l.after (i, e) = l := by
  obtain ⟨c, a⟩ := e
  cases c with
  | readState => cases hread
  | requestJson => cases he
  | _ => rfl

theorem Ledger.after_authed (he : requestOf e = some (headers, handed)) (hst : Carries st headers) :
    l.after (i, e) = l := by
  obtain ⟨c, a⟩ := e
  cases c with
  | requestJson req =>
    cases he
    refine if_neg ?_
    intro ⟨_, hnone⟩
    rw [bearerOf_carries hst] at hnone
    cases hnone
  | requestBlob req => rfl
  | _ => cases he

theorem Ledger.after_refresh (h : i ≠ 0) (a : Except Error JsonResponse) :
    l.after (i, ⟨.requestJson (refreshRequest st), a⟩) = { l with causes := l.seen i :: l.causes } :=
  if_pos (⟨h, rfl⟩ : i ≠ 0 ∧ bearerOf (refreshRequest st).headers = none)

theorem Ledger.after_loop (a : Except Error JsonResponse) :
    l.after (0, ⟨.requestJson (refreshRequest st), a⟩) = l := by
  show l.asked 0 (refreshRequest st).headers = l
  exact if_neg fun h => h.1 rfl

end

/-! ## what is known of the session and of each task -/

/-- the new access token that a refresh has got -/
def RefreshPhase.fresh : RefreshPhase → Option String
  | .answered _ tok => some tok.accessToken
  | .timed _ tok _ => some tok.accessToken
  | .keyed _ tok _ => some tok.accessToken
  | .secured _ tok _ => some tok.accessToken
  | .clocked _ tok _ _ => some tok.accessToken
  | .dated _ tok _ _ _ => some tok.accessToken
  | .ready st => some st.accessToken
  | _ => none

/-- the token is the latest, and has caused no refresh yet -/
structure Newest (l : Ledger) (w : ClientWorld) (token : String) : Prop where
  latest : token = w.server.latest
  unused : token ∉ l.causes

/-- the tokens that were used up, and the token of a session that nobody refreshes -/
structure Books (l : Ledger) (w : ClientWorld) : Prop where
  current : w.cell.st.accessToken ∈ w.server.issued
  latest : w.server.latest ∈ w.server.issued
  caused : ∀ a ∈ l.causes, a ∈ w.server.issued
  once : l.causes.Nodup
  free : w.cell.holder = none → w.cell.st.accessToken ∉ l.causes

/-- the token that was rejected has caused a refresh -/
def Caused (l : Ledger) (rejected : Option SessionState) : Prop :=
  ∀ st, rejected = some st → st.accessToken ∈ l.causes

/-- a refresh that sends its request next refreshes the session it has found, and a caller the token that
was rejected -/
structure Holding (l : Ledger) (w : ClientWorld) (i : Nat) (rejected : Option SessionState)
    (st : SessionState) : Prop where
  found : w.cell.st = st
  unused : st.accessToken ∉ l.causes
  loop : rejected = none → i = 0
  cause : ∀ r, rejected = some r → i ≠ 0 ∧ l.seen i = st.accessToken ∧ r.accessToken = st.accessToken

/-- one that has sent it has the newest token -/
def Sent (l : Ledger) (w : ClientWorld) (rejected : Option SessionState) (p : RefreshPhase) : Prop :=
  (∃ token, p.fresh = some token ∧ Newest l w token) ∧ Caused l rejected

def BusyHolds (l : Ledger) (w : ClientWorld) (i : Nat) (rejected : Option SessionState) :
    RefreshPhase → Prop
  | .holding st => Holding l w i rejected st
  | p => Sent l w rejected p

def TaskHolds (l : Ledger) (w : ClientWorld) (i : Nat) : ClientPhase → Prop
  | .idle => True
  | .sending st => l.seen i = st.accessToken
  | .rejected st => l.seen i = st.accessToken
  | .busy r p => w.cell.holder = some i ∧ BusyHolds l w i r p
  | .settled r => w.cell.holder = some i ∧ Newest l w w.cell.st.accessToken ∧ Caused l r
  | .retrying r =>
    (w.cell.holder = none → w.cell.st.accessToken = w.server.latest) ∧ Caused l (some r)
  | .resending r st => i ≠ 0 ∧ st.accessToken = w.server.latest ∧ Caused l (some r)
  | .failed _ => False
  | .finished r handed => (∀ resp, handed = .ok resp → resp.status ≠ 401) ∧ Caused l r

/-- what a step of the task `i` does to the session, the server and the ledger -/
inductive Effect (i : Nat) (l : Ledger) (w : ClientWorld) : Ledger → ClientWorld → Prop
  | quiet {l'} (hcauses : l'.causes = l.causes) : Effect i l w l' w
  | acquired (hfree : w.cell.holder = none) :
      Effect i l w l { w with cell := { w.cell with holder := some i } }
  | rotated {l'} (token) (hheld : w.cell.holder = some i) (hnew : token ∉ w.server.issued)
      (hcauses : l'.causes = l.causes ∨
        (l'.causes = w.cell.st.accessToken :: l.causes ∧ w.cell.st.accessToken ∉ l.causes)) :
      Effect i l w l'
        { w with server := { latest := token, issued := token :: w.server.issued } }
  | replaced (st) (hheld : w.cell.holder = some i) (hnew : Newest l w st.accessToken) :
      Effect i l w l { w with cell := { w.cell with st } }
  | released (hheld : w.cell.holder = some i) (hnew : Newest l w w.cell.st.accessToken) :
      Effect i l w l { w with cell := { w.cell with holder := none } }

section
variable {K : Crates} {l l' : Ledger} {w w' : ClientWorld} {i j : Nat} {e : Event sessionHost}
  {st : SessionState} {headers : List (String × String)} {handed : Handed} {q q' : ClientPhase}

theorem ClientStep.quiet (h : ClientStep K w (i, e) w') (hcell : leavesCell e.call = true)
    (he : requestOf e = none) : w' = w := by
  cases w'
  obtain rfl := h.locks.other_inv hcell
  obtain rfl := h.answers.none_inv he
  rfl

theorem leavesCell_request (he : requestOf e = some (headers, handed)) : leavesCell e.call = true := by
  obtain ⟨c, a⟩ := e
  cases c <;> first | rfl | cases he

theorem ClientStep.request (h : ClientStep K w (i, e) w') (he : requestOf e = some (headers, handed))
    (hst : Carries st headers) :
    w' = w ∧ ∀ resp, handed = .ok resp → (resp.status = 401 ↔ st.accessToken ≠ w.server.latest) := by
  cases w'
  obtain rfl := h.locks.other_inv (leavesCell_request he)
  obtain ⟨rfl, hrule⟩ := h.answers.authed_inv he hst
  exact ⟨rfl, hrule⟩

theorem ClientStep.refresh {a : Except Error JsonResponse}
    (h : ClientStep K w (i, ⟨.requestJson (refreshRequest st), a⟩) w') :
    ∃ resp tok, a = .ok resp ∧ Rotates K resp tok ∧ tok.accessToken ∉ w.server.issued ∧
      w' = { w with server := { latest := tok.accessToken, issued := tok.accessToken :: w.server.issued } } := by
  cases w'
  obtain rfl := h.locks.other_inv rfl
  obtain ⟨resp, tok, ha, hrotates, hnew, rfl⟩ := h.answers.refresh_inv
  exact ⟨resp, tok, ha, hrotates, hnew, rfl⟩

/-- an event of the lock has no answer of the server -/
theorem ClientStep.lock {c : Cell Nat} (h : ClientStep K w (i, e) w') (he : requestOf e = none)
    (hcell : w'.cell = c) : w' = { w with cell := c } := by
  cases w'
  obtain rfl := h.answers.none_inv he
  exact congrArg (ClientWorld.mk · _) hcell

/-- after its request a refresh leaves the session and the server alone until it is ready, and it does not
fail if it can save -/
theorem refreshTurn_fetched {p q : RefreshPhase} {token : String} (h : RefreshTurn K p e q)
    (hp : p.fresh = some token)
    (hsaved : ∀ path doc a, e = ⟨.writeFile path doc, a⟩ → a = .ok ()) :
    q.fresh = some token ∧ leavesCell e.call = true ∧ requestOf e = none ∧ isSnapshot e = false := by
  cases h with
  | unsecured => cases hsaved _ _ _ rfl
  | unsaved => cases hsaved _ _ _ rfl
  | times => exact ⟨hp, rfl, rfl, rfl⟩
  | keys => exact ⟨hp, rfl, rfl, rfl⟩
  | secures => exact ⟨hp, rfl, rfl, rfl⟩
  | clocks => exact ⟨hp, rfl, rfl, rfl⟩
  | dates => exact ⟨hp, rfl, rfl, rfl⟩
  | saves => exact ⟨hp, rfl, rfl, rfl⟩
  | _ => cases hp

theorem BusyHolds.of_fetched {r : Option SessionState} {p : RefreshPhase} (h : Sent l w r p) :
    BusyHolds l w i r p := by
  cases p with
  | holding =>
    obtain ⟨⟨_, hfresh, _⟩, _⟩ := h
    cases hfresh
  | _ => exact h

/-- a refresh under the lock -/
theorem refresh_holds {r : Option SessionState} {p p' : RefreshPhase} (hb : Books l w)
    (hheld : w.cell.holder = some i) (hs : BusyHolds l w i r p) (hturn : RefreshTurn K p e p')
    (hstep : ClientStep K w (i, e) w')
    (hsaved : ∀ path doc a, e = ⟨.writeFile path doc, a⟩ → a = .ok ()) :
    Effect i l w (l.after (i, e)) w' ∧ w'.cell.holder = some i ∧ BusyHolds (l.after (i, e)) w' i r p' := by
  have hfetched : ∀ p, Sent l w r p → RefreshTurn K p e p' →
      Effect i l w (l.after (i, e)) w' ∧ w'.cell.holder = some i ∧
        BusyHolds (l.after (i, e)) w' i r p' := by
    intro p ⟨⟨token, hfresh, hnew⟩, hcaused⟩ hturn
    obtain ⟨hfresh', hcell, he, hread⟩ := refreshTurn_fetched hturn hfresh hsaved
    rw [Ledger.after_none he hread]
    obtain rfl := hstep.quiet hcell he
    exact ⟨.quiet rfl, hheld, .of_fetched ⟨⟨token, hfresh', hnew⟩, hcaused⟩⟩
  cases p with
  | holding st =>
    cases hturn with
    | unanswered =>
      obtain ⟨_, _, ha, _⟩ := hstep.refresh
      cases ha
    | rejects _ hrejects =>
      obtain ⟨_, _, ha, hrotates, _⟩ := hstep.refresh
      cases ha
      exact absurd hrejects hrotates.1
    | unread _ _ hanswer =>
      obtain ⟨_, _, ha, hrotates, _⟩ := hstep.refresh
      cases ha
      cases hanswer.symm.trans hrotates.2
    | @answers _ resp tok hrotates' =>
      obtain ⟨_, tok', ha, hrotates, hnew, rfl⟩ := hstep.refresh
      cases ha
      obtain rfl : tok = tok' := Except.ok.inj (hrotates'.2.symm.trans hrotates.2)
      have hs : Holding l w i r st := hs
      have hunused : tok.accessToken ∉ l.causes := fun hmem => hnew (hb.caused _ hmem)
      by_cases hi : i = 0
      · subst hi
        rw [Ledger.after_loop]
        refine ⟨.rotated _ hheld hnew (.inl rfl), hheld, .of_fetched ⟨⟨_, rfl, rfl, hunused⟩, ?_⟩⟩
        intro r' hr
        exact absurd rfl (hs.cause r' hr).1
      · rw [Ledger.after_refresh hi]
        obtain ⟨r', rfl⟩ : ∃ r', r = some r' :=
          Option.ne_none_iff_exists'.mp fun hnone => hi (hs.loop hnone)
        obtain ⟨_, hseen, hrejected⟩ := hs.cause r' rfl
        have hcurrent : st.accessToken ∈ w.server.issued := by
          rw [← hs.found]
          exact hb.current
        have hother : tok.accessToken ∉ l.seen i :: l.causes := by
          intro hmem
          rcases List.mem_cons.mp hmem with hsame | hmem
          · rw [hsame, hseen] at hnew
            exact hnew hcurrent
          · exact hunused hmem
        refine ⟨.rotated _ hheld hnew (.inr ⟨?_, ?_⟩), hheld, .of_fetched ⟨⟨_, rfl, rfl, hother⟩, ?_⟩⟩
        · rw [hs.found, ← hseen]
        · rw [hs.found]
          exact hs.unused
        · intro r'' hr
          cases hr
          rw [hrejected, ← hseen]
          exact List.mem_cons_self
  | rejected st =>
    obtain ⟨⟨_, hfresh, _⟩, _⟩ := hs
    cases hfresh
  | ended e =>
    obtain ⟨⟨_, hfresh, _⟩, _⟩ := hs
    cases hfresh
  | _ => exact hfetched _ hs hturn

/-- a turn of a task: what it does to the others, and what is known of the task then -/
theorem turn_holds {kind : ClientKind} (hb : Books l w) (hs : TaskHolds l w i q)
    (hturn : ClientTurn K kind q e q') (hloop : kind = .loop ↔ i = 0) (hstep : ClientStep K w (i, e) w')
    (hsaved : ∀ path doc a, e = ⟨.writeFile path doc, a⟩ → a = .ok ())
    (hcurrent : ∀ st : SessionState, e = ⟨.acquire, st⟩ → i ≠ 0 → l.seen i = st.accessToken) :
    Effect i l w (l.after (i, e)) w' ∧ TaskHolds (l.after (i, e)) w' i q' := by
  have hcaller : kind = .caller → i ≠ 0 := by
    rintro rfl hi
    cases hloop.mpr hi
  cases hturn with
  | rests he =>
    obtain ⟨c, a⟩ := e
    cases c with
    | readState =>
      obtain ⟨hcell, _, _⟩ := hstep.locks.readState_inv
      obtain rfl := hstep.lock rfl hcell
      exact ⟨.quiet rfl, trivial⟩
    | acquire => cases he
    | replace => cases he
    | release => cases he
    | requestJson => cases he
    | requestBlob => cases he
    | _ =>
      obtain rfl := hstep.quiet rfl rfl
      exact ⟨.quiet rfl, trivial⟩
  | begins st =>
    obtain ⟨hcell, rfl, hfree⟩ := hstep.locks.acquire_inv
    obtain rfl := hstep.lock rfl hcell
    exact ⟨.acquired hfree, rfl, rfl, hb.free hfree, fun _ => hloop.mp rfl, nofun⟩
  | snapshots st =>
    obtain ⟨hcell, rfl, _⟩ := hstep.locks.readState_inv
    obtain rfl := hstep.lock rfl hcell
    exact ⟨.quiet rfl, Function.update_self ..⟩
  | refused he hst h401 =>
    obtain ⟨rfl, _⟩ := hstep.request he hst
    rw [Ledger.after_authed he hst]
    exact ⟨.quiet rfl, hs⟩
  | served he hst hno =>
    obtain ⟨rfl, _⟩ := hstep.request he hst
    rw [Ledger.after_authed he hst]
    exact ⟨.quiet rfl, hno, nofun⟩
  | acquires r st =>
    obtain ⟨hcell, rfl, hfree⟩ := hstep.locks.acquire_inv
    obtain rfl := hstep.lock rfl hcell
    have hseen := hcurrent _ rfl (hcaller rfl)
    refine ⟨.acquired hfree, rfl, rfl, hb.free hfree, nofun, fun r' hr => ?_⟩
    cases hr
    exact ⟨hcaller rfl, hseen, hs.symm.trans hseen⟩
  | refreshes hrefresh =>
    obtain ⟨heffect, hheld, hbusy⟩ := refresh_holds hb hs.1 hs.2 hrefresh hstep hsaved
    exact ⟨heffect, hheld, hbusy⟩
  | replaces _ r st =>
    obtain ⟨hheld, ⟨token, hfresh, hnew⟩, hcaused⟩ := hs
    cases hfresh
    obtain ⟨hcell, _⟩ := hstep.locks.replace_inv
    obtain rfl := hstep.lock rfl hcell
    exact ⟨.replaced st hheld hnew, hheld, ⟨hnew.latest, hnew.unused⟩, hcaused⟩
  | ends =>
    obtain ⟨hheld, hnew, _⟩ := hs
    obtain ⟨hcell, _⟩ := hstep.locks.release_inv
    obtain rfl := hstep.lock rfl hcell
    exact ⟨.released hheld hnew, trivial⟩
  | breaks e =>
    obtain ⟨_, ⟨_, hfresh, _⟩, _⟩ := hs
    cases hfresh
  | releases r =>
    obtain ⟨hheld, hnew, hcaused⟩ := hs
    obtain ⟨hcell, _⟩ := hstep.locks.release_inv
    obtain rfl := hstep.lock rfl hcell
    exact ⟨.released hheld hnew, fun _ => hnew.latest, hcaused⟩
  | fails r e =>
    obtain ⟨_, ⟨_, hfresh, _⟩, _⟩ := hs
    cases hfresh
  | resnapshots r st =>
    obtain ⟨hcell, rfl, hfree⟩ := hstep.locks.readState_inv
    obtain rfl := hstep.lock rfl hcell
    exact ⟨.quiet rfl, hcaller rfl, hs.1 hfree, hs.2⟩
  | reserved he hst =>
    obtain ⟨rfl, hrule⟩ := hstep.request he hst
    rw [Ledger.after_authed he hst]
    exact ⟨.quiet rfl, fun resp hresp h401 => (hrule resp hresp).mp h401 hs.2.1, hs.2.2⟩

/-! ## the others -/

theorem Effect.causes (h : Effect i l w l' w') {a : String} (ha : a ∈ l.causes) : a ∈ l'.causes := by
  cases h with
  | quiet hcauses => rwa [hcauses]
  | rotated _ _ _ hcauses =>
    rcases hcauses with hcauses | ⟨hcauses, _⟩
    · rwa [hcauses]
    · rw [hcauses]
      exact List.mem_cons_of_mem _ ha
  | _ => exact ha

theorem Books.step (hb : Books l w) (h : Effect i l w l' w') : Books l' w' := by
  cases h with
  | quiet hcauses =>
    refine ⟨hb.current, hb.latest, ?_, ?_, ?_⟩
    · rw [hcauses]
      exact hb.caused
    · rw [hcauses]
      exact hb.once
    · rw [hcauses]
      exact hb.free
  | acquired hfree => exact ⟨hb.current, hb.latest, hb.caused, hb.once, nofun⟩
  | rotated token hheld hnew hcauses =>
    refine ⟨List.mem_cons_of_mem _ hb.current, List.mem_cons_self, ?_, ?_, ?_⟩
    · intro a ha
      rcases hcauses with hcauses | ⟨hcauses, _⟩
      · rw [hcauses] at ha
        exact List.mem_cons_of_mem _ (hb.caused a ha)
      · rw [hcauses] at ha
        rcases List.mem_cons.mp ha with rfl | ha
        · exact List.mem_cons_of_mem _ hb.current
        · exact List.mem_cons_of_mem _ (hb.caused a ha)
    · rcases hcauses with hcauses | ⟨hcauses, hunused⟩
      · rw [hcauses]
        exact hb.once
      · rw [hcauses]
        exact List.nodup_cons.mpr ⟨hunused, hb.once⟩
    · intro hfree
      cases hheld.symm.trans hfree
  | replaced st hheld hnew =>
    refine ⟨?_, hb.latest, hb.caused, hb.once, ?_⟩
    · show st.accessToken ∈ w.server.issued
      rw [hnew.latest]
      exact hb.latest
    · intro hfree
      cases hheld.symm.trans hfree
  | released hheld hnew => exact ⟨hb.current, hb.latest, hb.caused, hb.once, fun _ => hnew.unused⟩

/-- while a task holds the lock, the others do nothing that matters -/
theorem Effect.of_held (h : Effect i l w l' w') (hij : i ≠ j) (hheld : w.cell.holder = some j) :
    w' = w ∧ l'.causes = l.causes := by
  have hnot : w.cell.holder ≠ some i := by
    intro hi
    exact hij (Option.some.inj (hi.symm.trans hheld))
  cases h with
  | quiet hcauses => exact ⟨rfl, hcauses⟩
  | acquired hfree => cases hfree.symm.trans hheld
  | rotated _ hi => exact absurd hi hnot
  | replaced _ hi => exact absurd hi hnot
  | released hi => exact absurd hi hnot

theorem Caused.step {r : Option SessionState} (hc : Caused l r) (h : Effect i l w l' w') : Caused l' r :=
  fun st hst => h.causes (hc st hst)

theorem Newest.of_causes {token : String} (hn : Newest l w token) (h : l'.causes = l.causes) :
    Newest l' w token := ⟨hn.latest, by rw [h]; exact hn.unused⟩

theorem BusyHolds.of_causes {r : Option SessionState} {p : RefreshPhase} (hb : BusyHolds l w j r p)
    (h : l'.causes = l.causes) (hseen : l'.seen j = l.seen j) : BusyHolds l' w j r p := by
  have hfetched : Sent l w r p → Sent l' w r p := by
    intro ⟨⟨token, hfresh, hnew⟩, hcaused⟩
    refine ⟨⟨token, hfresh, hnew.of_causes h⟩, fun st hst => ?_⟩
    rw [h]
    exact hcaused st hst
  cases p with
  | holding st =>
    have hb : Holding l w j r st := hb
    refine ⟨hb.found, by rw [h]; exact hb.unused, hb.loop, fun r' hr => ?_⟩
    rw [hseen]
    exact hb.cause r' hr
  | _ => exact hfetched hb

/-- a step of another task; no refresh comes while this one waits for the answer to its retry -/
theorem other_holds (hs : TaskHolds l w j q) (h : Effect i l w l' w') (hij : i ≠ j)
    (hseen : l'.seen j = l.seen j)
    (hretry : ∀ r st, q = .resending r st → w'.server.latest = w.server.latest) :
    TaskHolds l' w' j q := by
  cases q with
  | idle => trivial
  | sending st => exact hseen.trans hs
  | rejected st => exact hseen.trans hs
  | busy r p =>
    obtain ⟨rfl, hcauses⟩ := h.of_held hij hs.1
    exact ⟨hs.1, hs.2.of_causes hcauses hseen⟩
  | settled r =>
    obtain ⟨rfl, hcauses⟩ := h.of_held hij hs.1
    exact ⟨hs.1, hs.2.1.of_causes hcauses, hs.2.2.step h⟩
  | retrying r =>
    refine ⟨?_, hs.2.step h⟩
    cases h with
    | quiet => exact hs.1
    | acquired => nofun
    | rotated _ hheld =>
      intro hfree
      cases hheld.symm.trans hfree
    | replaced _ hheld =>
      intro hfree
      cases hheld.symm.trans hfree
    | released _ hnew => exact fun _ => hnew.latest
  | resending r st =>
    refine ⟨hs.1, ?_, hs.2.2.step h⟩
    rw [hretry r st rfl]
    exact hs.2.1
  | failed r => exact hs
  | finished r handed => exact ⟨hs.1, hs.2.step h⟩

end

/-! ## interleavings -/

/-- an interleaving of the loop with any number of callers, from a session whose token the server has
issued, if not last -/
structure ClientRun (K : Crates) (requests : Nat → Request) (w₀ : ClientWorld)
    (H : List (Nat × Event sessionHost)) (w : ClientWorld) : Prop where
  unlocked : w₀.cell.holder = none
  current : w₀.cell.st.accessToken ∈ w₀.server.issued
  latest : w₀.server.latest ∈ w₀.server.issued
  path : Path (ClientStep K) w₀ H w
  loop : ∃ fuel o, Runs (proactiveRefreshLoop K fuel).run (proj 0 H) o
  callers : ∀ i, i ≠ 0 → ∃ o, Runs ((requests i).send K).run (proj i H) o

/-- a caller whose first request was rejected, and its token -/
def RejectedWith (tr : Trace sessionHost) (token : String) : Prop :=
  ∃ (st : SessionState) (e : Event sessionHost) (headers : List (String × String)) (resp : JsonResponse)
    (rest : Trace sessionHost), tr = ⟨.readState, st⟩ :: e :: rest ∧
      requestOf e = some (headers, .ok resp) ∧ resp.status = 401 ∧ st.accessToken = token

def kindOf (i : Nat) : ClientKind := if i = 0 then .loop else .caller

/-- the state whose token was rejected, once a caller has seen it rejected -/
def ClientPhase.rejectedBy : ClientPhase → Option SessionState
  | .rejected st => some st
  | .busy r _ => r
  | .settled r => r
  | .retrying r => some r
  | .resending r _ => some r
  | .failed r => some r
  | .finished r _ => r
  | _ => none

section
variable {K : Crates} {requests : Nat → Request} {w₀ w : ClientWorld} {H : List (Nat × Event sessionHost)}
  {tr : Trace sessionHost} {q : ClientPhase} {i : Nat} {r st : SessionState}

theorem kindOf_loop : kindOf i = .loop ↔ i = 0 := by
  unfold kindOf
  by_cases hi : i = 0
  · simp [hi]
  · simp [hi]

theorem kindOf_caller (hi : i ≠ 0) : kindOf i = .caller := if_neg hi

/-- how a caller has come to its retry -/
theorem awaitsRetry_of_path (h : Path (ClientTurn K .caller) .idle tr (.resending r st)) :
    awaitsRetry tr = true := by
  rcases List.eq_nil_or_concat' tr with rfl | ⟨t, e, rfl⟩
  · cases h.nil_inv
  · obtain ⟨p, ht, hturn⟩ := h.concat_inv
    cases hturn with
    | resnapshots =>
      rcases List.eq_nil_or_concat' t with rfl | ⟨u, e', rfl⟩
      · cases ht.nil_inv
      · obtain ⟨_, _, hturn⟩ := ht.concat_inv
        cases hturn with
        | releases => simp [awaitsRetry, isRelease, isSnapshot]

theorem rejectedBy_turn {kind : ClientKind} {p : ClientPhase} {e : Event sessionHost} {st : SessionState}
    (h : ClientTurn K kind p e q) (hp : p.rejectedBy = some st) : q.rejectedBy = some st := by
  cases h with
  | rests => cases hp
  | begins => cases hp
  | snapshots => cases hp
  | refused => cases hp
  | served => cases hp
  | ends => cases hp
  | breaks => cases hp
  | _ => exact hp

/-- a caller does not forget the token that was rejected -/
theorem rejectedBy_of_path {token : String} (h : Path (ClientTurn K .caller) .idle tr q)
    (hrejected : RejectedWith tr token) : ∃ st, q.rejectedBy = some st ∧ st.accessToken = token := by
  obtain ⟨st, e, headers, resp, rest, rfl, he, h401, htoken⟩ := hrejected
  refine ⟨st, ?_, htoken⟩
  cases h with
  | cons h₁ h =>
    cases h₁ with
    | snapshots =>
      cases h with
      | cons h₂ h =>
        cases h₂ with
        | served he' _ hno =>
          cases he.symm.trans he'
          exact absurd h401 (hno resp rfl)
        | refused he' =>
          exact h.invariant (I := fun q => q.rejectedBy = some st)
            (fun p e q _ hp hturn => rejectedBy_turn hturn hp) rfl

theorem ClientRun.local (h : ClientRun K requests w₀ H w) (i : Nat) :
    ∃ q, Local (fun i => ClientTurn K (kindOf i)) (fun _ => .idle) H i q := by
  by_cases hi : i = 0
  · subst hi
    obtain ⟨fuel, o, hrun⟩ := h.loop
    obtain ⟨q, hpath, _⟩ := clientLoop_makes fuel _ _ hrun
    exact ⟨q, hpath⟩
  · obtain ⟨o, hrun⟩ := h.callers i hi
    obtain ⟨q, hpath, _⟩ := client_makes (requests i) _ _ hrun
    have hkind := kindOf_caller hi
    exact ⟨q, show Path (ClientTurn K (kindOf i)) .idle (proj i H) q from hkind ▸ hpath⟩

/-- in an orderly run the books are kept, and each task is where it should be -/
theorem ClientRun.holds (h : ClientRun K requests w₀ H w) (hord : Orderly H) :
    Holds (fun i => ClientTurn K (kindOf i)) (fun _ => .idle) (fun pre w => Books (ledger pre) w)
      (fun pre w i q => TaskHolds (ledger pre) w i q) H w := by
  refine interleaved h.local ?_ (fun _ => trivial) ?_ (List.append_nil H).symm h.path
  · exact ⟨h.current, h.latest, fun _ ha => absurd ha List.not_mem_nil, List.nodup_nil,
      fun _ => List.not_mem_nil⟩
  · intro pre i e w w' q q' hat hheld
    obtain ⟨post, hsplit⟩ := hat.split
    have hmem : (i, e) ∈ H := by
      rw [hsplit]
      exact List.mem_append_right _ List.mem_cons_self
    obtain ⟨heffect, hown⟩ := turn_holds hheld.1 (hheld.2 i q hat.here) hat.turn kindOf_loop hat.shared
      (by
        rintro path doc a rfl
        exact hord.saved i path doc a hmem)
      (by
        rintro st rfl hi
        exact hord.current pre i st post hsplit hi)
    rw [ledger_concat]
    refine ⟨hheld.1.step heffect, hown, fun j p hij hp => ?_⟩
    refine other_holds (hheld.2 j p hp) heffect hij (Ledger.after_seen hij) ?_
    rintro r st rfl
    have hj : j ≠ 0 := (hheld.2 j _ hp).1
    have hwaits : awaitsRetry (proj j pre) = true := by
      refine @awaitsRetry_of_path K _ r st ?_
      have hp : Path (ClientTurn K (kindOf j)) .idle (proj j pre) (.resending r st) := hp
      rwa [kindOf_caller hj] at hp
    obtain ⟨c, s'⟩ := w'
    have hanswers := hat.shared.answers
    cases hanswers with
    | authed => rfl
    | other => rfl
    | rotates hbearer => cases hwaits.symm.trans (hord.retries pre i _ _ post hsplit hbearer j hj)

/-- in an orderly run no caller is handed a 401, and each token that was rejected causes exactly one refresh -/
theorem no_spurious_rejection (h : ClientRun K requests w₀ H w) (hord : Orderly H) :
    (∀ i, i ≠ 0 → ∀ resp, Runs ((requests i).send K).run (proj i H) (.done (.ok resp)) →
        resp.status ≠ 401) ∧
      ∀ token, (ledger H).causes.count token ≤ 1 ∧
        ∀ i, i ≠ 0 → ∀ handed, Runs ((requests i).send K).run (proj i H) (.done handed) →
          RejectedWith (proj i H) token → (ledger H).causes.count token = 1 := by
  have hholds := h.holds hord
  have honce : ∀ token, (ledger H).causes.count token ≤ 1 := List.nodup_iff_count_le_one.mp hholds.1.once
  have hover : ∀ i, i ≠ 0 → ∀ handed, Runs ((requests i).send K).run (proj i H) (.done handed) →
      ∃ r, Path (ClientTurn K .caller) .idle (proj i H) (.finished r handed) ∧
        TaskHolds (ledger H) w i (.finished r handed) := by
    intro i hi handed hrun
    obtain ⟨q, hpath, hhanded⟩ := client_makes (requests i) _ _ hrun
    have hlocal : Path (ClientTurn K (kindOf i)) .idle (proj i H) q := by rwa [kindOf_caller hi]
    have htask := hholds.2 i q hlocal
    rcases hhanded handed rfl with ⟨r, rfl⟩ | ⟨⟨r, rfl⟩, _⟩
    · exact ⟨r, hpath, htask⟩
    · exact absurd htask id
  refine ⟨fun i hi resp hrun => ?_, fun token => ⟨honce token, fun i hi handed hrun hrejected => ?_⟩⟩
  · obtain ⟨r, _, htask⟩ := hover i hi _ hrun
    exact htask.1 resp rfl
  · obtain ⟨r, hpath, htask⟩ := hover i hi _ hrun
    obtain ⟨st, hst, htoken⟩ := rejectedBy_of_path hpath hrejected
    have hmem := htask.2 st hst
    rw [htoken] at hmem
    exact le_antisymm (honce token) (List.count_pos_iff.mpr hmem)

end

/-! ## two callers with one stale token -/

section
variable {K : Crates} {i : Nat} {s : Server}

def freeWorld (st : SessionState) (s : Server) : ClientWorld :=
  { cell := { st, holder := none }, server := s }

theorem ClientStep.reads (i : Nat) (st : SessionState) (s : Server) :
    ClientStep K (freeWorld st s) (i, ⟨.readState, st⟩) (freeWorld st s) :=
  ⟨.reads i rfl, .other rfl⟩

/-- a call of a refresh that neither the session nor the server answers -/
theorem ClientStep.other (i : Nat) (w : ClientWorld) {e : Event sessionHost}
    (hcell : leavesCell e.call = true) (he : requestOf e = none) : ClientStep K w (i, e) w :=
  ⟨.other _ i hcell, .other he⟩

def Server.issues (s : Server) (token : String) : Server :=
  { latest := token, issued := token :: s.issued }

theorem forcedTrace_path (i : Nat) (st : SessionState) {resp : JsonResponse} {tok : Auth.RefreshResponse}
    (hrotates : Rotates K resp tok) (now : Nat) (hnew : tok.accessToken ∉ s.issued) :
    Path (ClientStep K) (freeWorld st s) ((forcedTrace st resp tok now).map fun e => (i, e))
      (freeWorld (st.rotated tok (now + TOKEN_LIFE)) (s.issues tok.accessToken)) := by
  have hacquire : ClientStep K (freeWorld st s) (i, ⟨.acquire, st⟩)
      { cell := { st, holder := some i }, server := s } := ⟨.acquires i rfl, .other rfl⟩
  have hask : ClientStep K { cell := { st, holder := some i }, server := s } (i, answeredWith st resp)
      { cell := { st, holder := some i }, server := s.issues tok.accessToken } :=
    ⟨.other _ i rfl, .rotates rfl hrotates hnew⟩
  have hreplace : ClientStep K { cell := { st, holder := some i }, server := s.issues tok.accessToken }
      (i, ⟨.replace (st.rotated tok (now + TOKEN_LIFE)), ()⟩)
      { cell := { st := st.rotated tok (now + TOKEN_LIFE), holder := some i },
        server := s.issues tok.accessToken } := ⟨.replaces _ rfl, .other rfl⟩
  exact .cons hacquire (.cons hask (.cons (.other i _ rfl rfl) (.cons (.other i _ rfl rfl)
    (.cons (.other i _ rfl rfl) (.cons (.other i _ rfl rfl) (.cons (.other i _ rfl rfl)
      (.cons (.other i _ rfl rfl) (.cons hreplace (.one ⟨.releases rfl, .other rfl⟩)))))))))

end

def plainRequest : JsonRequest := { method := .get, path := "/test", query := [], headers := [], body := none }

/-- the request of a caller with the snapshot `st`, and its answer -/
def sentWith (st : SessionState) (status : Nat) : Event sessionHost :=
  ⟨.requestJson { plainRequest with headers := st.authHeaders ++ [] }, .ok { status, headers := [], body := [] }⟩

def againDoc : Json :=
  .obj [("Code", .num 1000), ("AccessToken", .str "a2"), ("RefreshToken", .str "r2")]

def againTokens : Auth.RefreshResponse := { accessToken := "a2", refreshToken := "r2" }

def againResponse : JsonResponse := { status := 200, headers := [], body := textOf againDoc }

def twiceCrates : Crates := smallCrates [rotatedDoc, againDoc]

theorem twiceDocs_nodup : ([rotatedDoc, againDoc].map textOf).Nodup := by decide +kernel

theorem once_rotates : Rotates twiceCrates rotatedResponse rotatedTokens :=
  smallCrates_rotates twiceDocs_nodup List.mem_cons_self rfl

theorem again_rotates : Rotates twiceCrates againResponse againTokens :=
  smallCrates_rotates twiceDocs_nodup (List.mem_cons_of_mem _ List.mem_cons_self) rfl

/-- a server that has issued a later token than the session's -/
def staleServer : Server := { latest := "b", issued := ["b", "a0"] }

/-- the session after one refresh -/
def onceState : SessionState := smallState.rotated rotatedTokens (0 + TOKEN_LIFE)

/-- the first request of a caller is rejected, and it refreshes the session that it finds as `st` -/
def refusedTrace (st : SessionState) (resp : JsonResponse) (tok : Auth.RefreshResponse) : Trace sessionHost :=
  ⟨.readState, smallState⟩ :: sentWith smallState 401 :: forcedTrace st resp tok 0

/-- it is handed the answer to its retry -/
def retriedTrace (status : Nat) : Trace sessionHost :=
  [⟨.readState, onceState⟩, sentWith onceState status]

/-- what a caller does with the outcome of its refresh -/
def plainRetry : Except SessionManagerError Unit → SessionAware JsonResponse
  | .ok _ => SessionAwareHttpClient.authHeaders >>= fun auth => SessionAwareHttpClient.innerJson
    { plainRequest with headers := auth ++ plainRequest.headers }
  | .error .sessionExpired => throw (.internal "session expired -- please log in again")
  | .error e => throw (.internal ("refresh failed: " ++ e.display))

/-- the rest of a caller's run after its refresh -/
theorem refusedTrace_runs {resp : JsonResponse} {tok : Auth.RefreshResponse} {st : SessionState}
    {t : Trace sessionHost} {o : Outcome (Except Error JsonResponse)}
    (hrotates : Rotates twiceCrates resp tok)
    (h : Runs (SessionAwareHttpClient.authHeaders >>= fun auth => SessionAwareHttpClient.innerJson
      { plainRequest with headers := auth ++ plainRequest.headers }).run t o) :
    Runs ((Request.json plainRequest).send twiceCrates).run (refusedTrace st resp tok ++ t) o := by
  have hrefresh : Runs (ExceptT.lift (forceRefresh twiceCrates).run >>= plainRetry).run
      (forcedTrace st resp tok 0 ++ t) o := by
    rw [ExceptT.run_bind_lift]
    exact Runs.bind (forcedTrace_runs st hrotates 0) h
  exact .call (.call hrefresh)

theorem retriedTrace_runs (status : Nat) :
    Runs (SessionAwareHttpClient.authHeaders >>= fun auth => SessionAwareHttpClient.innerJson
      { plainRequest with headers := auth ++ plainRequest.headers }).run (retriedTrace status)
        (.done (.ok { status, headers := [], body := [] })) :=
  .call (.call (.ret _))

theorem sentWith_step (i : Nat) {c : Cell Nat} {s : Server} {st : SessionState} {status : Nat}
    (h : status = 401 ↔ st.accessToken ≠ s.latest) :
    ClientStep twiceCrates { cell := c, server := s } (i, sentWith st status) { cell := c, server := s } := by
  refine ⟨.other _ i rfl, .authed rfl (bearerOf_carries ⟨[], rfl⟩) ?_⟩
  intro resp hresp
  cases hresp
  exact h.trans (not_congr ⟨fun htoken => by rw [htoken], bearer_inj⟩)

/-- both callers are rejected with the token `a0`; the first refreshes and takes its second snapshot; the
second refreshes as well; the retry of the first is rejected -/
def twoHistory : List (Nat × Event sessionHost) :=
  [⟨.readState, smallState⟩, sentWith smallState 401].map (fun e => (2, e)) ++
    (refusedTrace smallState rotatedResponse rotatedTokens).map (fun e => (1, e)) ++
    [(1, ⟨.readState, onceState⟩)] ++
    (forcedTrace onceState againResponse againTokens 0).map (fun e => (2, e)) ++
    [(1, sentWith onceState 401)]

theorem twoHistory_path : ∃ w, Path (ClientStep twiceCrates) (freeWorld smallState staleServer)
    twoHistory w := by
  have hfirst : Path (ClientStep twiceCrates) (freeWorld smallState staleServer)
      ((refusedTrace smallState rotatedResponse rotatedTokens).map fun e => (1, e))
      (freeWorld onceState (staleServer.issues "a1")) :=
    .cons (.reads 1 _ _) (.cons (sentWith_step 1 (by decide))
      (forcedTrace_path 1 smallState once_rotates 0 (by decide)))
  have hsecond := forcedTrace_path (s := staleServer.issues "a1") 2 onceState again_rotates 0 (by decide)
  exact ⟨_, (((Path.append (.cons (.reads 2 _ _) (.one (sentWith_step 2 (by decide)))) hfirst).append
    (.one (.reads 1 _ _))).append hsecond).append (.one (sentWith_step 1 (by decide)))⟩

theorem twoHistory_first : proj 1 twoHistory =
    refusedTrace smallState rotatedResponse rotatedTokens ++ retriedTrace 401 := by
  unfold twoHistory
  rw [proj_append, proj_append, proj_append, proj_append, proj_map_self, proj_map_other (by decide),
    proj_map_other (by decide), proj_self, proj_self]
  rfl

theorem twoHistory_second : proj 2 twoHistory = refusedTrace onceState againResponse againTokens ++ [] := by
  unfold twoHistory
  rw [proj_append, proj_append, proj_append, proj_append, proj_map_self, proj_map_self,
    proj_map_other (by decide), proj_other (by decide), proj_other (by decide)]
  rfl

theorem twoHistory_other {i : Nat} (h₁ : i ≠ 1) (h₂ : i ≠ 2) : proj i twoHistory = [] := by
  unfold twoHistory
  rw [proj_append, proj_append, proj_append, proj_append, proj_map_other h₂.symm, proj_map_other h₁.symm,
    proj_map_other h₂.symm, proj_other h₁.symm, proj_other h₁.symm]
  rfl

/-- the first caller is handed a 401, and the token has caused two refreshes -/
theorem twoCallers_rejected : ∃ requests w₀ H w, ClientRun twiceCrates requests w₀ H w ∧
    (∃ i resp, i ≠ 0 ∧ Runs ((requests i).send twiceCrates).run (proj i H) (.done (.ok resp)) ∧
      resp.status = 401) ∧ (ledger H).causes.count "a0" = 2 := by
  obtain ⟨w, hpath⟩ := twoHistory_path
  have hfirst : Runs ((Request.json plainRequest).send twiceCrates).run (proj 1 twoHistory)
      (.done (.ok { status := 401, headers := [], body := [] })) := by
    rw [twoHistory_first]
    exact refusedTrace_runs once_rotates (retriedTrace_runs 401)
  refine ⟨fun _ => .json plainRequest, _, twoHistory, w,
    ⟨rfl, by decide, by decide, hpath, ⟨0, .running, ?_⟩, fun i hi => ?_⟩,
    ⟨1, _, by decide, hfirst, rfl⟩, by decide⟩
  · rw [twoHistory_other (by decide) (by decide)]
    exact .stop _
  · by_cases h₁ : i = 1
    · subst h₁
      exact ⟨_, hfirst⟩
    · by_cases h₂ : i = 2
      · subst h₂
        rw [twoHistory_second]
        exact ⟨_, refusedTrace_runs again_rotates (.stop _)⟩
      · rw [twoHistory_other h₁ h₂]
        exact ⟨_, .stop _⟩

/-! ## one caller -/

/-- a caller is rejected with the token `a0`, refreshes, and is served -/
def oneHistory : List (Nat × Event sessionHost) :=
  (refusedTrace smallState rotatedResponse rotatedTokens ++ retriedTrace 200).map fun e => (1, e)

theorem oneHistory_path : ∃ w, Path (ClientStep twiceCrates) (freeWorld smallState staleServer)
    oneHistory w := by
  have hrefused : Path (ClientStep twiceCrates) (freeWorld smallState staleServer)
      ((refusedTrace smallState rotatedResponse rotatedTokens).map fun e => (1, e))
      (freeWorld onceState (staleServer.issues "a1")) :=
    .cons (.reads 1 _ _) (.cons (sentWith_step 1 (by decide))
      (forcedTrace_path 1 smallState once_rotates 0 (by decide)))
  unfold oneHistory
  rw [List.map_append]
  exact ⟨_, hrefused.append (.cons (.reads 1 _ _) (.one (sentWith_step 1 (by decide))))⟩

theorem oneHistory_other {j : Nat} (hj : j ≠ 1) (n : Nat) : proj j (oneHistory.take n) = [] := by
  unfold oneHistory
  rw [← List.map_take]
  exact proj_map_other hj.symm _

/-- the events of the history, one after the other -/
theorem oneHistory_split {P : List (Nat × Event sessionHost) → Nat × Event sessionHost → Prop}
    (h : ∀ n, n < 14 → ∀ x, oneHistory[n]? = some x → P (oneHistory.take n) x)
    {pre post : List (Nat × Event sessionHost)} {x : Nat × Event sessionHost}
    (hsplit : oneHistory = pre ++ x :: post) : P pre x := by
  have hlen : pre.length < 14 := by
    have := congrArg List.length hsplit
    rw [List.length_append, List.length_cons] at this
    have h14 : oneHistory.length = 14 := rfl
    omega
  have hat := h pre.length hlen x (by rw [hsplit]; simp)
  rwa [hsplit, List.take_left] at hat

/-- a write that failed -/
def failsWrite : Event sessionHost → Bool
  | ⟨.writeFile _ _, .error _⟩ => true
  | _ => false

theorem oneHistory_orderly : Orderly oneHistory where
  retries pre i req a post hsplit hbearer j hj := by
    refine oneHistory_split (P := fun pre x => ∀ i req a, x = (i, ⟨.requestJson req, a⟩) →
      bearerOf req.headers = none → awaitsRetry (proj j pre) = false) ?_ hsplit i req a rfl hbearer
    intro n hn x hx i req a hxe hbearer
    by_cases h1 : j = 1
    · subst h1 hxe
      interval_cases n <;> first | rfl | cases hx
      cases hbearer
    · rw [oneHistory_other h1]
      rfl
  saved i path doc a hmem := by
    cases a with
    | ok _ => rfl
    | error e =>
      have hfails : (oneHistory.any fun x => failsWrite x.2) = true :=
        List.any_eq_true.mpr ⟨_, hmem, rfl⟩
      cases hfails
  current pre i st post hsplit hi := by
    refine oneHistory_split (P := fun pre x => ∀ i (st : SessionState), x = (i, ⟨.acquire, st⟩) →
      (ledger pre).seen i = st.accessToken) ?_ hsplit i st rfl
    intro n hn x hx i st hxe
    subst hxe
    interval_cases n <;> cases hx
    rfl

/-- it is handed no 401, and its token has caused one refresh -/
theorem oneCaller_served : (∀ resp, Runs ((Request.json plainRequest).send twiceCrates).run (proj 1 oneHistory)
      (.done (.ok resp)) → resp.status ≠ 401) ∧ (ledger oneHistory).causes.count "a0" = 1 := by
  obtain ⟨w, hpath⟩ := oneHistory_path
  have hproj : proj 1 oneHistory = refusedTrace smallState rotatedResponse rotatedTokens ++ retriedTrace 200 :=
    proj_map_self _
  have hrun : Runs ((Request.json plainRequest).send twiceCrates).run (proj 1 oneHistory)
      (.done (.ok { status := 200, headers := [], body := [] })) := by
    rw [hproj]
    exact refusedTrace_runs once_rotates (retriedTrace_runs 200)
  have hnone : ∀ i, i ≠ 1 → proj i oneHistory = [] := fun i hi => proj_map_other hi.symm _
  have hclients : ClientRun twiceCrates (fun _ => .json plainRequest) (freeWorld smallState staleServer)
      oneHistory w := by
    refine ⟨rfl, by decide, by decide, hpath, ⟨0, .running, ?_⟩, fun i hi => ?_⟩
    · rw [hnone 0 (by decide)]
      exact .stop _
    · by_cases h1 : i = 1
      · subst h1
        exact ⟨_, hrun⟩
      · rw [hnone i h1]
        exact ⟨_, .stop _⟩
  obtain ⟨hserved, hcauses⟩ := no_spurious_rejection hclients oneHistory_orderly
  refine ⟨hserved 1 (by decide), (hcauses "a0").2 1 (by decide) _ hrun ?_⟩
  rw [hproj]
  exact ⟨smallState, _, _, _, _, rfl, rfl, rfl, rfl⟩

end ProtonDrive
