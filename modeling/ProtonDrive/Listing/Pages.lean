import ProtonDrive.Client.Chain
import ProtonDrive.Core.Listing
import ProtonDrive.Core.Scripted
import ProtonDrive.Core.Served
import ProtonDrive.Lib.Paging
import ProtonDrive.Lib.Results

/-!
# The children of a folder, page by page

* `ServesPages`         a server that answers each request for a page with that page of the children,
                        or not at all;
* `ResolvedKey`         the key that the names are decrypted with, if there is one;
* `FolderListing`       how `fetch_folder_children` ends: with all children in the order of the
                        server, or with an error if a page was not answered;
* `fetchFolderChildren_pages`
                        it ends so for folders of up to 2³² pages;
* `fetchFolderChildren_wraps`
                        the number of a page is a `u32`: in a larger folder the listing begins again at
                        page 0, and never ends.
-/

set_option linter.unusedVariables false

namespace ProtonDrive
open Encoding Effects Api

/-! ## one page -/

def childrenRequest (parent : NodeUid) (pageSize page : Nat) : JsonRequest where
  method := .get
  path := childrenPath parent
  query := [("Page", toString page), ("PageSize", toString pageSize)]
  headers := []
  body := none

/-- a page of the children, and whether more remain -/
structure PageOf (children : List Nodes.Link) (pageSize page : Nat)
    (resp : Nodes.GetChildrenResponse) : Prop where
  links : resp.links = Paging.page pageSize children page
  more : resp.more ≠ 0 ↔ (page + 1) * pageSize < children.length

/-- an answer that is no page: the request failed, or the answer cannot be read or has another code -/
def PageFails (K : Crates) (ans : Except Error JsonResponse) : Prop :=
  ∀ resp, ¬ Answered K Nodes.GetChildrenResponse.ofJson ans resp

def pageEvent (parent : NodeUid) (pageSize page : Nat) (ans : Except Error JsonResponse) :
    Event host :=
  ⟨.requestJson (childrenRequest parent pageSize page), ans⟩

/-- the event of a page that failed -/
def FailedPage (K : Crates) (parent : NodeUid) (pageSize : Nat) : Event host → Prop
  | ⟨.requestJson req, ans⟩ =>
    (∃ page < 2 ^ 32, req = childrenRequest parent pageSize page) ∧ PageFails K ans
  | _ => False

/-- `children` are listed by offset; any request may fail -/
def ServesPages (K : Crates) (serve : Trace host → (c : HostCall) → c.Ans) (parent : NodeUid)
    (pageSize : Nat) (children : List Nodes.Link) : Prop :=
  ∀ h page, page < 2 ^ 32 →
    PageFails K (serve h (.requestJson (childrenRequest parent pageSize page))) ∨
    ∃ resp, PageOf children pageSize page resp ∧ Answered K Nodes.GetChildrenResponse.ofJson
      (serve h (.requestJson (childrenRequest parent pageSize page))) resp

section
variable {K : Crates} {serve : Trace host → (c : HostCall) → c.Ans} {h : Trace host} {α : Type}
  {type : String} {dec : Json → Option α} {path : String} {query : List (String × String)}

/-- what is made of the answer to a request -/
def readAnswer (K : Crates) (type : String) (dec : Json → Option α) (ans : Except Error JsonResponse) :
    Except Error α := do
  let resp ← ans
  let env ← (K.fromSlice ("ResponseEnvelope<" ++ type ++ ">") (ResponseEnvelope.ofJson dec)
    resp.body).mapError fun e => .internal ("JSON parse: " ++ e)
  if env.code = CODE_OK then .ok env.inner else .error (mapApiError env.code env.error)

theorem readAnswer_ok {ans : Except Error JsonResponse} {a : α} :
    readAnswer K type dec ans = .ok a ↔ Answered K dec ans a := by
  unfold readAnswer
  simp only [Results.bind_ok, Results.mapError_ok]
  constructor
  · intro ⟨resp, hresp, env, henv, h⟩
    split at h
    · next hcode =>
      cases h
      refine ⟨resp, hresp, env.error, ?_⟩
      rw [fromSlice_ok henv, ← hcode]
    · cases h
  · intro ⟨resp, hresp, error, henv⟩
    exact ⟨resp, hresp, _, fromSlice_of_some henv, if_pos rfl⟩

theorem apiGetWithQuery_exec (serve : Trace host → (c : HostCall) → c.Ans) (h : Trace host)
    {ans : Except Error JsonResponse}
    (hans : serve h (.requestJson ⟨.get, path, query, [], none⟩) = ans) :
    exec serve h (apiGetWithQuery K type dec path query).run =
      ([⟨.requestJson ⟨.get, path, query, [], none⟩, ans⟩],
        some ((readAnswer K type dec ans).mapError .error)) := by
  have hcall : Yields serve h (call (.requestJson ⟨.get, path, query, [], none⟩))
      [⟨.requestJson ⟨.get, path, query, [], none⟩, ans⟩] ans := by
    rw [← hans]
    rfl
  unfold apiGetWithQuery requestJson
  simp only [bind_assoc]
  rw [exec_bindE serve h _ _ hcall]
  cases ans with
  | error e => rfl
  | ok resp =>
    -- behind the answer there are no calls
    show ([_] ++ (exec serve _ (ofExcept _ (K.fromSlice _ _ resp.body) >>= _).run).1,
      (exec serve _ (ofExcept _ (K.fromSlice _ _ resp.body) >>= _).run).2) =
        ([_], some ((Except.mapError _ (K.fromSlice _ _ resp.body) >>= _).mapError _))
    cases K.fromSlice ("ResponseEnvelope<" ++ type ++ ">") (ResponseEnvelope.ofJson dec) resp.body with
    | error e => rfl
    | ok env =>
      show ([_] ++ (exec serve _ (require (decide (env.code = CODE_OK)) _ >>= _).run).1,
        (exec serve _ (require (decide (env.code = CODE_OK)) _ >>= _).run).2) =
          ([_], some ((if env.code = CODE_OK then Except.ok env.inner else _).mapError _))
      unfold require
      by_cases hcode : env.code = CODE_OK
      · rw [decide_eq_true hcode, if_pos rfl, if_pos hcode]
        rfl
      · rw [decide_eq_false hcode, if_neg Bool.false_ne_true, if_neg hcode]
        rfl

end

/-! ## all pages -/

/-- how a listing of `links` ends -/
structure FolderListing (K : Crates) (client : ProtonDriveClient) (parent : NodeUid) (pageSize : Nat)
    (key : Option PrivateKey) (links : List Nodes.Link) (tr : Trace host)
    (r : Except Fault (List MaybeNode)) : Prop where
  complete : (∀ e ∈ tr, ¬ FailedPage K parent pageSize e) →
    r = .ok (links.map (childNode K client parent key))
  fails : (∃ e ∈ tr, FailedPage K parent pageSize e) → ∃ e, r = .error (.error e)

theorem nextPage_eq {page : Nat} (h : page + 1 < 2 ^ 32) : nextPage page = page + 1 :=
  Nat.mod_eq_of_lt h

section
variable {K : Crates} {client : ProtonDriveClient} {parent : NodeUid} {pageSize : Nat}
  {key : Option PrivateKey} {serve : Trace host → (c : HostCall) → c.Ans}
  {children links : List Nodes.Link} {tr : Trace host}

/-- a page that is answered stands in front of those that follow -/
theorem FolderListing.cons {page : Nat} {ans : Except Error JsonResponse} (hans : ¬ PageFails K ans)
    {front : List Nodes.Link} {r : Except Fault (List MaybeNode)}
    (hrest : FolderListing K client parent pageSize key links tr r) :
    FolderListing K client parent pageSize key (front ++ links)
      (pageEvent parent pageSize page ans :: tr)
      (r.map (front.map (childNode K client parent key) ++ ·)) where
  complete := by
    intro hno
    rw [hrest.complete fun e he => hno e (List.mem_cons_of_mem _ he), List.map_append]
    rfl
  fails := by
    intro ⟨e, he, hfailed⟩
    rcases List.mem_cons.mp he with rfl | he
    · exact absurd hfailed.2 hans
    · obtain ⟨error, hr⟩ := hrest.fails ⟨e, he, hfailed⟩
      exact ⟨error, by rw [hr]; rfl⟩

/-- a page that fails ends the loop -/
theorem childrenPages_failed {ans : Except Error JsonResponse} (fuel : Nat) {page : Nat}
    (h : Trace host) (hans : serve h (.requestJson (childrenRequest parent pageSize page)) = ans)
    (hfails : PageFails K ans) : ∃ e, exec serve h
      (childrenPages K client parent pageSize key (fuel + 1) page).run =
        ([pageEvent parent pageSize page ans], some (.error (.error e))) := by
  have hget : exec serve h (apiGetWithQuery K "GetChildrenResponse" Nodes.GetChildrenResponse.ofJson
      (childrenPath parent) [("Page", toString page), ("PageSize", toString pageSize)]).run =
        ([pageEvent parent pageSize page ans], _) := apiGetWithQuery_exec serve h hans
  cases hread : readAnswer K "GetChildrenResponse" Nodes.GetChildrenResponse.ofJson ans with
  | ok resp => exact absurd (readAnswer_ok.mp hread) (hfails resp)
  | error e =>
    rw [hread] at hget
    exact ⟨e, exec_bindE_error serve h _ _ hget⟩

section
variable {ans : Except Error JsonResponse} {resp : Nodes.GetChildrenResponse} (fuel : Nat) {page : Nat}
  (h : Trace host) (hans : serve h (.requestJson (childrenRequest parent pageSize page)) = ans)
  (hresp : Answered K Nodes.GetChildrenResponse.ofJson ans resp)
include hans hresp

theorem getPage_yields : Yields serve h (apiGetWithQuery K "GetChildrenResponse"
    Nodes.GetChildrenResponse.ofJson (childrenPath parent)
    [("Page", toString page), ("PageSize", toString pageSize)])
      [pageEvent parent pageSize page ans] resp := by
  have hget : exec serve h (apiGetWithQuery K "GetChildrenResponse" Nodes.GetChildrenResponse.ofJson
      (childrenPath parent) [("Page", toString page), ("PageSize", toString pageSize)]).run =
        ([pageEvent parent pageSize page ans], _) := apiGetWithQuery_exec serve h hans
  rw [readAnswer_ok.mpr hresp] at hget
  exact hget

/-- the last page ends it, too -/
theorem childrenPages_last (hmore : resp.more = 0) :
    exec serve h (childrenPages K client parent pageSize key (fuel + 1) page).run =
      ([pageEvent parent pageSize page ans],
        some (.ok (resp.links.map (childNode K client parent key)))) := by
  unfold childrenPages
  rw [exec_bindE serve h _ _ (getPage_yields h hans hresp), if_pos hmore]
  rfl

/-- behind any other page the loop goes on -/
theorem childrenPages_more (hmore : resp.more ≠ 0) {r : Except Fault (List MaybeNode)}
    (hrest : exec serve (h ++ [pageEvent parent pageSize page ans])
      (childrenPages K client parent pageSize key fuel (nextPage page)).run = (tr, some r)) :
    exec serve h (childrenPages K client parent pageSize key (fuel + 1) page).run =
      (pageEvent parent pageSize page ans :: tr,
        some (r.map (resp.links.map (childNode K client parent key) ++ ·))) := by
  unfold childrenPages
  rw [exec_bindE serve h _ _ (getPage_yields h hans hresp), if_neg hmore]
  cases r with
  | error f =>
    rw [exec_bindE_error serve _ _ _ hrest]
    rfl
  | ok rest =>
    rw [exec_bindE serve _ _ _ hrest]
    show ([_] ++ (tr ++ []), _) = _
    rw [List.append_nil]
    rfl

end

theorem folderListing_failed {ans : Except Error JsonResponse} {page : Nat} (hpage : page < 2 ^ 32)
    (hfails : PageFails K ans) (e : Error) :
    FolderListing K client parent pageSize key links [pageEvent parent pageSize page ans]
      (.error (.error e)) where
  complete := by
    intro hno
    exact absurd ⟨⟨page, hpage, rfl⟩, hfails⟩ (hno _ (List.mem_singleton_self _))
  fails := fun _ => ⟨e, rfl⟩

theorem folderListing_page {ans : Except Error JsonResponse} {page : Nat} (hans : ¬ PageFails K ans) :
    FolderListing K client parent pageSize key links [pageEvent parent pageSize page ans]
      (.ok (links.map (childNode K client parent key))) where
  complete := fun _ => rfl
  fails := by
    intro ⟨e, he, hfailed⟩
    rw [List.mem_singleton.mp he] at hfailed
    exact absurd hfailed.2 hans

/-- `following` pages follow the page `page`, and there is a number for each of them -/
theorem childrenPages_listing (hserver : ServesPages K serve parent pageSize children)
    {following fuel page : Nat} (hfuel : following < fuel) (hpage : page + following < 2 ^ 32)
    (hlen : children.length ≤ (page + following + 1) * pageSize) (h : Trace host) :
    ∃ tr r, exec serve h (childrenPages K client parent pageSize key fuel page).run = (tr, some r) ∧
      FolderListing K client parent pageSize key (Paging.rest pageSize children page) tr r := by
  induction fuel generalizing following page h with
  | zero => exact absurd hfuel (Nat.not_lt_zero _)
  | succ fuel ih =>
    rcases hserver h page (by omega) with hfails | ⟨resp, hof, hresp⟩
    · obtain ⟨e, hexec⟩ := childrenPages_failed fuel h rfl hfails
      exact ⟨_, _, hexec, folderListing_failed (by omega) hfails e⟩
    · have hans : ¬ PageFails K (serve h (.requestJson (childrenRequest parent pageSize page))) :=
        fun hfails => hfails resp hresp
      by_cases hmore : resp.more = 0
      · have hend : children.length ≤ (page + 1) * pageSize := by
          have hno := mt hof.more.mpr (not_not.mpr hmore)
          omega
        refine ⟨_, _, childrenPages_last fuel h rfl hresp hmore, ?_⟩
        rw [hof.links, Paging.page_last hend]
        exact folderListing_page hans
      · have hremain := hof.more.mp hmore
        -- some page follows this one
        obtain ⟨following, rfl⟩ : ∃ n, following = n + 1 := by
          cases following with
          | zero =>
            rw [Nat.add_zero] at hlen
            omega
          | succ n => exact ⟨n, rfl⟩
        have hnext : nextPage page = page + 1 := nextPage_eq (by omega)
        have hlen' : children.length ≤ (page + 1 + following + 1) * pageSize := by
          rw [Nat.add_right_comm page 1 following]
          exact hlen
        obtain ⟨tr, r, hexec, hlisting⟩ := ih (show following < fuel by omega)
          (show page + 1 + following < 2 ^ 32 by omega) hlen'
          (h ++ [pageEvent parent pageSize page
            (serve h (.requestJson (childrenRequest parent pageSize page)))])
        rw [← hnext] at hexec
        refine ⟨_, _, childrenPages_more fuel h rfl hresp hmore hexec, ?_⟩
        rw [hof.links, ← Paging.page_append_rest]
        exact hlisting.cons hans

end

/-! ## the key of the folder -/

section
variable {serve : Trace host → (c : HostCall) → c.Ans} {α : Type}

/-- a part that ends with a value or with an error is attempted -/
theorem attempt_exec {A : HostCall → Prop} {p : Sdk α} {n : Nat} (hmost : AtMost p.run n)
    (hwithin : Within (S := host) A Fault.IsError p) (h : Trace host) : ∃ tr result r,
      exec serve h p.run = (tr, some result) ∧ Yields serve h (attempt p) tr r ∧
      r.toOption = result.toOption ∧ ∀ e ∈ tr, A e.call := by
  obtain ⟨tr, r, hexec, _⟩ := hmost.exec serve h
  have hruns := exec_runs serve h p.run r (congrArg Prod.snd hexec)
  rw [hexec] at hruns
  have honly := hruns.only hwithin.1
  have hattempt : ∀ r', Yields serve h (attempt p) (tr ++ []) r' →
      Yields serve h (attempt p) tr r' := by
    intro r' hr'
    rw [List.append_nil] at hr'
    exact hr'
  cases r with
  | ok a =>
    exact ⟨tr, .ok a, .ok a, hexec, hattempt _ (exec_bind serve h p.run _ hexec), rfl, honly⟩
  | error f =>
    match f, hwithin.error hruns, hexec with
    | .error e, _, hexec =>
      exact ⟨tr, .error (.error e), .error e, hexec, hattempt _ (exec_bind serve h p.run _ hexec), rfl,
        honly⟩

end

/-- a request without a query -/
def IsBareGet (c : HostCall) : Prop := ∃ path, c = .requestJson (.bare .get path none)

section
variable {K : Crates} {client : ProtonDriveClient}

theorem resolveFolderNodeKey_atMost (parent : NodeUid) :
    AtMost (resolveFolderNodeKey K client parent).run 65 := by
  refine AtMost.bindE (m := 1) (n := 64) ?_ fun sharePriv => ?_
  · refine AtMost.bindE (m := 1) (n := 0) (getJson_atMost _) fun resp => ?_
    exact AtMost.bindE (m := 0) (n := 0) (ofExcept_atMost _ _) fun key => ofExcept_atMost _ _
  · exact AtMost.bindE (n := 0) (collectChain_atMost _ _) fun chain => ofExcept_atMost _ _

theorem within_resolveFolderNodeKey (parent : NodeUid) :
    Within (S := host) IsBareGet Fault.IsError (resolveFolderNodeKey K client parent) := by
  have hQ : ∀ e : Error, Fault.IsError (.error e) := fun _ => trivial
  refine Within.bind ?_ fun sharePriv => ?_
  · refine Within.bind (within_getJson hQ ⟨_, rfl⟩) fun resp => ?_
    exact Within.bind (within_ofExcept hQ _ _) fun key => within_ofExcept hQ _ _
  · refine Within.bind ⟨?_, (within_collectChain _ _).2⟩ fun chain => within_ofExcept hQ _ _
    refine Only.mono (fun c hc => ?_) (within_collectChain (K := K) _ _).1
    obtain ⟨id, rfl⟩ := hc
    exact ⟨_, rfl⟩

end

/-- the key that the names are decrypted with: what resolving the key of the folder gave -/
def ResolvedKey (K : Crates) (client : ProtonDriveClient)
    (serve : Trace host → (c : HostCall) → c.Ans) (h : Trace host) (parent : NodeUid)
    (key : Option PrivateKey) : Prop :=
  ∃ tr r, exec serve h (resolveFolderNodeKey K client parent).run = (tr, some r) ∧ key = r.toOption

/-! ## the listing -/

section
variable {K : Crates} {client : ProtonDriveClient} {parent : NodeUid} {pageSize : Nat}
  {serve : Trace host → (c : HostCall) → c.Ans} {children : List Nodes.Link}

/-- the requests for the key are no requests for pages -/
theorem not_failedPage_of_bare {e : Event host} (h : IsBareGet e.call) :
    ¬ FailedPage K parent pageSize e := by
  obtain ⟨call, ans⟩ := e
  obtain ⟨path, rfl⟩ := h
  intro ⟨⟨page, _, hreq⟩, _⟩
  exact absurd (congrArg JsonRequest.query hreq) (by simp [JsonRequest.bare, childrenRequest])

theorem FolderListing.append {key : Option PrivateKey} {tr₀ tr : Trace host}
    {r : Except Fault (List MaybeNode)} (hno : ∀ e ∈ tr₀, ¬ FailedPage K parent pageSize e)
    (h : FolderListing K client parent pageSize key children tr r) :
    FolderListing K client parent pageSize key children (tr₀ ++ tr) r where
  complete := fun hall => h.complete fun e he => hall e (List.mem_append_right _ he)
  fails := by
    intro ⟨e, he, hfailed⟩
    rcases List.mem_append.mp he with he | he
    · exact absurd hfailed (hno e he)
    · exact h.fails ⟨e, he, hfailed⟩

theorem fetchFolderChildren_lists (hserver : ServesPages K serve parent pageSize children)
    (hsize : 1 ≤ pageSize) (hlen : children.length ≤ 2 ^ 32 * pageSize) {fuel : Nat}
    (hfuel : Paging.lastPage pageSize children.length < fuel) (h : Trace host) : ∃ tr r key,
      exec serve h (fetchFolderChildren K client fuel parent pageSize).run = (tr, some r) ∧
      ResolvedKey K client serve h parent key ∧
      FolderListing K client parent pageSize key children tr r := by
  have hmost : AtMost (resolveFolderNodeKey K client parent).run 65 :=
    resolveFolderNodeKey_atMost parent
  obtain ⟨tr₀, result, key, hresolve, hattempt, hkey, hbare⟩ :=
    attempt_exec hmost (within_resolveFolderNodeKey parent) h
  have hlast : 0 + Paging.lastPage pageSize children.length < 2 ^ 32 := by
    rw [Nat.zero_add]
    exact Paging.lastPage_lt hsize (by decide) hlen
  have hcover : children.length ≤ (0 + Paging.lastPage pageSize children.length + 1) * pageSize := by
    rw [Nat.zero_add]
    exact Paging.le_lastPage hsize _
  have hpages : ∃ tr r, exec serve (h ++ tr₀)
      (childrenPages K client parent pageSize key.toOption fuel 0).run = (tr, some r) ∧
      FolderListing K client parent pageSize key.toOption (Paging.rest pageSize children 0) tr r :=
    childrenPages_listing hserver hfuel hlast hcover _
  obtain ⟨tr, r, hexec, hlisting⟩ := hpages
  rw [Paging.rest_zero] at hlisting
  refine ⟨tr₀ ++ tr, r, key.toOption, ?_, ⟨tr₀, result, hresolve, hkey⟩,
    hlisting.append fun e he => not_failedPage_of_bare (hbare e he)⟩
  unfold fetchFolderChildren
  rw [exec_bindE serve h _ _ hattempt, hexec]

/-- all pages are answered -/
def AnswersPages (K : Crates) (serve : Trace host → (c : HostCall) → c.Ans) (parent : NodeUid)
    (pageSize : Nat) : Prop :=
  ∀ h page, page < 2 ^ 32 →
    ¬ PageFails K (serve h (.requestJson (childrenRequest parent pageSize page)))

/-- a listing whose pages are all answered is complete -/
theorem FolderListing.answered {key : Option PrivateKey} {tr : Trace host}
    {r : Except Fault (List MaybeNode)} (h : FolderListing K client parent pageSize key children tr r)
    (hanswers : AnswersPages K serve parent pageSize) (hserved : ∀ e ∈ tr, ∃ h, e.ans = serve h e.call) :
    r = .ok (children.map (childNode K client parent key)) := by
  refine h.complete fun e he hfailed => ?_
  obtain ⟨h', hans⟩ := hserved e he
  obtain ⟨c, ans⟩ := e
  match c, ans, hans, hfailed with
  | .requestJson req, ans, hans, ⟨⟨page, hpage, hreq⟩, hfails⟩ =>
    refine hanswers h' page hpage ?_
    rw [← hreq, ← show ans = serve h' (.requestJson req) from hans]
    exact hfails

/-- in a folder of more pages than a `u32` can number each page is followed by another -/
theorem childrenPages_wraps (hserver : ServesPages K serve parent pageSize children)
    (hanswers : AnswersPages K serve parent pageSize)
    (hlen : 2 ^ 32 * pageSize < children.length) (key : Option PrivateKey) (fuel : Nat) {page : Nat}
    (hpage : page < 2 ^ 32) (h : Trace host) :
    (exec serve h (childrenPages K client parent pageSize key fuel page).run).2 = none := by
  induction fuel generalizing page h with
  | zero => rfl
  | succ fuel ih =>
    rcases hserver h page hpage with hfails | ⟨resp, hof, hresp⟩
    · exact absurd hfails (hanswers h page hpage)
    · have hmore : resp.more ≠ 0 := by
        rw [hof.more]
        exact Nat.lt_of_le_of_lt (Nat.mul_le_mul_right pageSize hpage) hlen
      unfold childrenPages
      rw [exec_bindE serve h _ _ (getPage_yields h rfl hresp), if_neg hmore]
      exact exec_bindE_none serve _ _ _ (ih (Nat.mod_lt _ (by decide)) _)

theorem fetchFolderChildren_wraps (hserver : ServesPages K serve parent pageSize children)
    (hanswers : AnswersPages K serve parent pageSize)
    (hlen : 2 ^ 32 * pageSize < children.length) (fuel : Nat) (h : Trace host) :
    (exec serve h (fetchFolderChildren K client fuel parent pageSize).run).2 = none := by
  have hmost : AtMost (resolveFolderNodeKey K client parent).run 65 :=
    resolveFolderNodeKey_atMost parent
  obtain ⟨tr₀, result, key, _, hattempt, _, _⟩ :=
    attempt_exec hmost (within_resolveFolderNodeKey parent) h
  unfold fetchFolderChildren
  rw [exec_bindE serve h _ _ hattempt]
  exact childrenPages_wraps hserver hanswers hlen _ fuel (by decide) _

/-- the node of a child stands for its link, under its name where that can be decrypted and under a
placeholder where it cannot -/
structure NamedChild (K : Crates) (client : ProtonDriveClient) (parent : NodeUid)
    (key : Option PrivateKey) (link : Nodes.Link) (n : Node) : Prop where
  uid : n.uid = { volumeId := parent.volumeId, nodeId := link.linkId }
  decrypted : ∀ k name, key = some k → decryptNodeName K client.openpgp link.name k = .ok name →
    n.name = name
  placeholder : (∀ k name, key = some k → decryptNodeName K client.openpgp link.name k ≠ .ok name) →
    n.name = "<encrypted-" ++ link.linkId ++ ">"

theorem childNode_named (key : Option PrivateKey) (link : Nodes.Link) :
    ∃ n, childNode K client parent key link = .node n ∧ NamedChild K client parent key link n := by
  refine ⟨_, rfl, rfl, ?_, ?_⟩
  · intro k name hkey hname
    show (key.bind fun k => (decryptNodeName K client.openpgp link.name k).toOption).getD _ = name
    rw [hkey, Option.bind_some, hname]
    rfl
  · intro hno
    show (key.bind fun k => (decryptNodeName K client.openpgp link.name k).toOption).getD _ = _
    cases key with
    | none => rfl
    | some k =>
      rw [Option.bind_some]
      cases hname : decryptNodeName K client.openpgp link.name k with
      | error e => rfl
      | ok name => exact absurd hname (hno k name rfl)

/-- a folder of up to 2³² pages is listed to its end: all children, once each and in the order of the
server, whatever can be decrypted; or an error if the request for a page fails -/
theorem fetchFolderChildren_pages (hserver : ServesPages K serve parent pageSize children)
    (hsize : 1 ≤ pageSize) (hlen : children.length ≤ 2 ^ 32 * pageSize) :
    (∀ fuel, Paging.lastPage pageSize children.length < fuel → ∀ h, ∃ tr r key,
      exec serve h (fetchFolderChildren K client fuel parent pageSize).run = (tr, some r) ∧
      ResolvedKey K client serve h parent key ∧
      FolderListing K client parent pageSize key children tr r) ∧
    ∀ key link, ∃ n, childNode K client parent key link = .node n ∧
      NamedChild K client parent key link n :=
  ⟨fun _ hfuel h => fetchFolderChildren_lists hserver hsize hlen hfuel h,
    fun key link => childNode_named key link⟩

end

/-! ## a folder with one child on a page -/

/-- an id of `p` letters -/
def longId (p : Nat) : String := String.ofList (List.replicate p 'a')

def longChild (p : Nat) : Nodes.Link where
  linkId := longId p
  parentLinkId := none
  type := 2
  name := ""
  nameSignatureEmail := none
  hash := none
  mimeType := none
  state := 1
  size := 0
  createdTime := 0
  modifyTime := 0
  trashed := none
  nodeKey := ""
  nodePassphrase := ""
  nodePassphraseSignature := ""
  signatureEmail := none
  fileProperties := none
  folderProperties := none

/-- page `p` of a folder of `n` children, one on each page -/
def longPage (n p : Nat) : Json :=
  .obj [("Code", .num 1000), ("Links", .arr [.obj [("LinkID", .str (longId p)), ("Type", .num 2),
    ("Name", .str ""), ("State", .num 1), ("Size", .num 0), ("CreateTime", .num 0),
    ("ModifyTime", .num 0), ("NodeKey", .str ""), ("NodePassphrase", .str ""),
    ("NodePassphraseSignature", .str "")]]), ("More", .num (if p + 1 < n then 1 else 0))]

theorem longPage_read (n p : Nat) :
    ResponseEnvelope.ofJson Nodes.GetChildrenResponse.ofJson (longPage n p) =
      some { code := CODE_OK, inner := { links := [longChild p], more := if p + 1 < n then 1 else 0 },
             error := none } := by
  unfold longPage
  by_cases h : p + 1 < n
  · rw [if_pos h, if_pos h]
    rfl
  · rw [if_neg h, if_neg h]
    rfl

theorem quote_longId (p : Nat) : (Json.quote (longId p)).length = p + 2 := by
  have hjoin : (String.join (List.replicate p "a")).length = p := by
    rw [String.length_join, List.map_replicate]
    induction p with
    | zero => rfl
    | succ p ih =>
      rw [List.replicate_succ, List.sum_cons, ih]
      exact Nat.add_comm 1 p
  unfold Json.quote longId
  rw [String.toList_ofList, List.map_replicate, show Json.escape 'a' = "a" from by decide,
    String.length_append, String.length_append, hjoin]
  show 1 + p + 1 = p + 2
  omega

theorem longPage_length (n p : Nat) :
    (longPage n p).render.length = (longPage n 0).render.length + p := by
  have hmore : ∀ c : Prop, [Decidable c] → (toString (if c then (1 : Int) else 0)).length = 1 := by
    intro c _
    split <;> decide
  simp only [longPage, Json.render, Json.renderMembers, Json.renderItems, String.length_append,
    quote_longId, hmore]
  omega
/-- the texts of two pages differ -/
theorem longPage_injective {n p q : Nat} (h : textOf (longPage n p) = textOf (longPage n q)) :
    p = q := by
  have hlen := congrArg String.length (asBytes_injective h)
  rw [longPage_length n p, longPage_length n q] at hlen
  omega

theorem find?_unique {α : Type} {l : List α} {P : α → Bool} {a : α} (ha : a ∈ l) (hPa : P a = true)
    (hunique : ∀ b, P b = true → b = a) : l.find? P = some a := by
  cases hfind : l.find? P with
  | none => exact absurd hPa (List.find?_eq_none.mp hfind a ha)
  | some b => rw [hunique b (List.find?_some hfind)]

/-- a reader that knows the pages by their texts -/
def longCrates (n : Nat) : Crates :=
  { smallCrates [] with
    jsonParse := fun bytes =>
      ((List.range n).find? fun p => textOf (longPage n p) = bytes).map (longPage n) }

def longParent : NodeUid := { volumeId := "s", nodeId := "root" }

def pageNumber (req : JsonRequest) : Nat :=
  match req.query with
  | (_, text) :: _ => Nat.ofDigitChars 10 text.toList 0
  | [] => 0

def longServe (n : Nat) (h : Trace host) : (c : HostCall) → c.Ans
  | .requestJson req =>
    if req.path = childrenPath longParent ∧ pageNumber req < n then
      .ok { status := 200, headers := [], body := textOf (longPage n (pageNumber req)) }
    else .error (.network "")
  | c => (smallDownload .null).serve h c

def longChildren (n : Nat) : List Nodes.Link := (List.range n).map longChild

theorem pageNumber_eq (parent : NodeUid) (pageSize page : Nat) :
    pageNumber (childrenRequest parent pageSize page) = page := by
  show Nat.ofDigitChars 10 (toString page).toList 0 = page
  rw [show toString page = page.repr from rfl, Nat.toList_repr]
  exact Nat.ofDigitChars_toDigits (by decide) (by decide)

theorem longServe_answered {n page : Nat} (hpage : page < n) (h : Trace host) :
    Answered (longCrates n) Nodes.GetChildrenResponse.ofJson
      (longServe n h (.requestJson (childrenRequest longParent 1 page)))
      { links := [longChild page], more := if page + 1 < n then 1 else 0 } := by
  have hnum := pageNumber_eq longParent 1 page
  refine ⟨{ status := 200, headers := [], body := textOf (longPage n page) }, ?_, none, ?_⟩
  · show (if _ ∧ _ then _ else _) = _
    rw [if_pos ⟨rfl, by rw [hnum]; exact hpage⟩, hnum]
  · have hfind : (List.range n).find? (fun p => textOf (longPage n p) = textOf (longPage n page)) =
        some page :=
      find?_unique (List.mem_range.mpr hpage) (decide_eq_true rfl) fun q hq =>
        longPage_injective (of_decide_eq_true hq)
    show (Option.map (longPage n) ((List.range n).find? _)).bind _ = _
    rw [hfind]
    exact longPage_read n page

theorem longServe_pages (n : Nat) :
    ServesPages (longCrates n) (longServe n) longParent 1 (longChildren n) := by
  intro h page _
  by_cases hpage : page < n
  · refine .inr ⟨_, ⟨?_, ?_⟩, longServe_answered hpage h⟩
    · unfold Paging.page Paging.rest longChildren
      rw [Nat.mul_one, List.take_one, List.head?_drop, List.getElem?_map, List.getElem?_range hpage]
      rfl
    · rw [longChildren, List.length_map, List.length_range, Nat.mul_one]
      split
      · next hmore => exact ⟨fun _ => hmore, fun _ => Nat.one_ne_zero⟩
      · next hmore => exact ⟨fun hne => absurd rfl hne, fun hlt => absurd hlt hmore⟩
  · refine .inl fun resp ⟨http, hhttp, _⟩ => ?_
    have hfails : longServe n h (.requestJson (childrenRequest longParent 1 page)) =
        .error (.network "") := by
      refine if_neg fun hin => hpage ?_
      rw [← pageNumber_eq longParent 1 page]
      exact hin.2
    rw [hfails] at hhttp
    cases hhttp

theorem longFolder_unlisted {n : Nat} (hn : 2 ^ 32 < n) :
    AnswersPages (longCrates n) (longServe n) longParent 1 ∧
    ∀ fuel h, (exec (longServe n) h
      (fetchFolderChildren (longCrates n) smallClient fuel longParent 1).run).2 = none := by
  have hanswers : AnswersPages (longCrates n) (longServe n) longParent 1 :=
    fun h page hpage hfails => hfails _ (longServe_answered (Nat.lt_trans hpage hn) h)
  refine ⟨hanswers, fun fuel h => ?_⟩
  refine fetchFolderChildren_wraps (longServe_pages n) hanswers ?_ fuel h
  rw [longChildren, List.length_map, List.length_range, Nat.mul_one]
  exact hn

/-- the honest listing of a folder of 2³² + 1 pages, each of which is answered, never ends -/
theorem largeFolder_unlisted :
    ServesPages (longCrates (2 ^ 32 + 1)) (longServe (2 ^ 32 + 1)) longParent 1
      (longChildren (2 ^ 32 + 1)) ∧
    AnswersPages (longCrates (2 ^ 32 + 1)) (longServe (2 ^ 32 + 1)) longParent 1 ∧
    ∀ fuel h, (exec (longServe (2 ^ 32 + 1)) h
      (fetchFolderChildren (longCrates (2 ^ 32 + 1)) smallClient fuel longParent 1).run).2 = none :=
  ⟨longServe_pages _, longFolder_unlisted (Nat.lt_add_one _)⟩

/-- a folder of three pages is listed -/
theorem fetchFolderChildren_pages_three : ∃ tr r key,
    exec (longServe 3) [] (fetchFolderChildren (longCrates 3) smallClient 3 longParent 1).run =
      (tr, some r) ∧
    FolderListing (longCrates 3) smallClient longParent 1 key (longChildren 3) tr r := by
  have hlen : (longChildren 3).length = 3 := rfl
  have hpages : (∀ fuel, _ < fuel → ∀ h, ∃ tr r key, exec (longServe 3) h
      (fetchFolderChildren (longCrates 3) smallClient fuel longParent 1).run = (tr, some r) ∧ _) ∧ _ :=
    fetchFolderChildren_pages (longServe_pages 3) (Nat.le_refl 1) (by rw [hlen]; decide)
  obtain ⟨tr, r, key, hexec, _, hlisting⟩ := hpages.1 3 (by rw [hlen]; decide) []
  exact ⟨tr, r, key, hexec, hlisting⟩

end ProtonDrive
