import ProtonDrive.Listing.Pages

/-!
# The filter of a folder iteration

* `FolderChildrenFilter.admits`   what the filter asks of a node;
* `HonoursFilter`                 the stream is the children that the filter admits, in the order of the
                                  server;
* `iterFolderChildren_all`        the stream is all of them, whatever the filter;
* `iterFolderChildren_filter`     so the filter is honoured just if there is nothing to be filtered out,
                                  in a folder of no more pages than can be numbered.
-/

set_option linter.unusedVariables false

namespace ProtonDrive
open Encoding Effects Api

/-! ## what the filter asks -/

def FolderChildrenFilter.admits (f : FolderChildrenFilter) : MaybeNode → Bool
  | .node n => (f.includeTrashed || !n.trashed) && f.onlyType.all fun t => t = n.nodeType
  | .degraded _ _ => true
  | .missing _ => true

/-- a child as its link describes it -/
def linkNode (parent : NodeUid) (link : Nodes.Link) : MaybeNode :=
  linkToMaybeNode link parent.volumeId none

/-- the children that the filter admits -/
def FolderChildrenFilter.select (f : FolderChildrenFilter) (parent : NodeUid)
    (children : List Nodes.Link) : List Nodes.Link :=
  children.filter fun link => f.admits (linkNode parent link)

/-- the filter asks nothing that the name decides -/
theorem admits_childNode (f : FolderChildrenFilter) (K : Crates) (client : ProtonDriveClient)
    (parent : NodeUid) (key : Option PrivateKey) (link : Nodes.Link) :
    f.admits (childNode K client parent key link) = f.admits (linkNode parent link) := rfl

section
variable (K : Crates) (client : ProtonDriveClient) (serve : Trace host → (c : HostCall) → c.Ans)
  (h : Trace host) (parent : NodeUid)

/-- the stream ends with the nodes of `links`, given `turns` turns of the loop -/
def Streams (f : FolderChildrenFilter) (turns : Nat) (links : List Nodes.Link) : Prop :=
  ∀ fuel, turns < fuel → ∃ tr key, ResolvedKey K client serve h parent key ∧
    Yields serve h (iterFolderChildren K client fuel parent f) tr
      ((links.map (childNode K client parent key)).map .ok)

/-- the stream holds the children that the filter admits, once each and in the order of the server -/
def HonoursFilter (f : FolderChildrenFilter) (children : List Nodes.Link) : Prop :=
  ∃ turns, Streams K client serve h parent f turns (f.select parent children)

end

/-! ## what the stream holds -/

section
variable {K : Crates} {client : ProtonDriveClient} {parent : NodeUid}
  {serve : Trace host → (c : HostCall) → c.Ans} {children : List Nodes.Link}

theorem attempt_yields {α : Type} {p : Sdk α} {tr : Trace host} {a : α} {h : Trace host}
    (hp : Yields serve h p tr a) : Yields serve h (attempt p) tr (.ok a) := by
  have hx : Yields serve h (attempt p) (tr ++ []) (.ok a) := exec_bind serve h p.run _ hp
  rw [List.append_nil] at hx
  exact hx

/-- all children, whatever the filter -/
theorem iterFolderChildren_all (hserver : ServesPages K serve parent 150 children)
    (hanswers : AnswersPages K serve parent 150) (hlen : children.length ≤ 2 ^ 32 * 150)
    (f : FolderChildrenFilter) (h : Trace host) :
    Streams K client serve h parent f (Paging.lastPage 150 children.length) children := by
  intro fuel hfuel
  have hlists : ∃ tr r key, exec serve h (fetchFolderChildren K client fuel parent 150).run =
      (tr, some r) ∧ ResolvedKey K client serve h parent key ∧
      FolderListing K client parent 150 key children tr r :=
    fetchFolderChildren_lists hserver (by decide) hlen hfuel h
  obtain ⟨tr, r, key, hexec, hkey, hlisting⟩ := hlists
  have hserved := exec_served serve h (fetchFolderChildren K client fuel parent 150).run
  rw [hexec] at hserved
  rw [hlisting.answered hanswers hserved] at hexec
  refine ⟨tr, key, hkey, ?_⟩
  have hstream : Yields serve h (iterFolderChildren K client fuel parent f) (tr ++ [])
      ((children.map (childNode K client parent key)).map .ok) :=
    (attempt_yields hexec).bind (Yields.pure _)
  rw [List.append_nil] at hstream
  exact hstream

/-- a folder of more pages than can be numbered has no stream -/
theorem iterFolderChildren_wraps (hserver : ServesPages K serve parent 150 children)
    (hanswers : AnswersPages K serve parent 150) (hlen : 2 ^ 32 * 150 < children.length)
    (f : FolderChildrenFilter) (fuel : Nat) (h : Trace host) :
    (exec serve h (iterFolderChildren K client fuel parent f).run).2 = none := by
  have hattempt : (exec serve h (attempt (fetchFolderChildren K client fuel parent 150)).run).2 = none :=
    exec_bind_none serve h _ _ (fetchFolderChildren_wraps hserver hanswers hlen fuel h)
  exact exec_bindE_none serve h _ _ hattempt

/-- a stream is what it is, so two accounts of it have as many items -/
theorem Streams.length_eq {f : FolderChildrenFilter} {h : Trace host} {m n : Nat}
    {xs ys : List Nodes.Link} (hxs : Streams K client serve h parent f m xs)
    (hys : Streams K client serve h parent f n ys) : xs.length = ys.length := by
  obtain ⟨tr, key, _, hx⟩ := hxs (max m n + 1) (by omega)
  obtain ⟨tr', key', _, hy⟩ := hys (max m n + 1) (by omega)
  have hsame := congrArg Prod.snd (hx.symm.trans hy)
  simp only [Option.some.injEq, Except.ok.injEq] at hsame
  have hlen := congrArg List.length hsame
  rw [List.length_map, List.length_map, List.length_map, List.length_map] at hlen
  exact hlen

/-- the filter is honoured just if it admits every child of the folder: it is not looked at; and there
must be a number for each page -/
theorem iterFolderChildren_filter (hserver : ServesPages K serve parent 150 children)
    (hanswers : AnswersPages K serve parent 150) (f : FolderChildrenFilter) (h : Trace host) :
    HonoursFilter K client serve h parent f children ↔
      (∀ link ∈ children, f.admits (linkNode parent link) = true) ∧
      children.length ≤ 2 ^ 32 * 150 := by
  constructor
  · intro ⟨turns, hstream⟩
    have hlen : children.length ≤ 2 ^ 32 * 150 := by
      by_contra hlong
      obtain ⟨tr, key, _, hyields⟩ := hstream (turns + 1) (Nat.lt_succ_self _)
      have hnone : (exec serve h (iterFolderChildren K client (turns + 1) parent f).run).2 = none :=
        iterFolderChildren_wraps hserver hanswers (not_le.mp hlong) f (turns + 1) h
      rw [hyields] at hnone
      cases hnone
    refine ⟨?_, hlen⟩
    have hall : (f.select parent children).length = children.length :=
      hstream.length_eq (iterFolderChildren_all hserver hanswers hlen f h)
    exact List.length_filter_eq_length_iff.mp hall
  · intro ⟨hadmits, hlen⟩
    refine ⟨Paging.lastPage 150 children.length, ?_⟩
    rw [FolderChildrenFilter.select, List.filter_eq_self.mpr hadmits]
    exact iterFolderChildren_all hserver hanswers hlen f h

end

/-! ## a folder with one file, in the trash -/

def trashedChild : Nodes.Link := { longChild 1 with trashed := some 7 }

def trashedPage : Json :=
  .obj [("Code", .num 1000), ("Links", .arr [.obj [("LinkID", .str "a"), ("Type", .num 2),
    ("Name", .str ""), ("State", .num 1), ("Size", .num 0), ("CreateTime", .num 0),
    ("ModifyTime", .num 0), ("Trashed", .num 7), ("NodeKey", .str ""), ("NodePassphrase", .str ""),
    ("NodePassphraseSignature", .str "")]]), ("More", .num 0)]

def emptyPage : Json := .obj [("Code", .num 1000), ("Links", .arr []), ("More", .num 0)]

def trashedCrates : Crates := smallCrates [trashedPage, emptyPage]

def trashedServe (h : Trace host) : (c : HostCall) → c.Ans
  | .requestJson req =>
    .ok { status := 200, headers := [],
          body := textOf (if pageNumber req = 0 then trashedPage else emptyPage) }
  | c => (smallDownload .null).serve h c

theorem trashedServe_answered (h : Trace host) (page : Nat) :
    Answered trashedCrates Nodes.GetChildrenResponse.ofJson
      (trashedServe h (.requestJson (childrenRequest longParent 150 page)))
      { links := Paging.page 150 [trashedChild] page, more := 0 } := by
  refine ⟨_, rfl, ?_⟩
  rw [pageNumber_eq]
  cases page with
  | zero => exact smallCrates_envelopes (by decide) (List.mem_cons_self ..) rfl
  | succ page =>
    have hempty : Paging.page 150 [trashedChild] (page + 1) = [] := by
      rw [Paging.page_last (by rw [List.length_singleton]; omega)]
      exact Paging.rest_eq_nil (by rw [List.length_singleton]; omega)
    rw [if_neg (Nat.succ_ne_zero page), hempty]
    exact smallCrates_envelopes (by decide) (List.mem_cons_of_mem _ (List.mem_singleton_self _)) rfl

theorem trashedServe_pages : ServesPages trashedCrates trashedServe longParent 150 [trashedChild] := by
  refine fun h page _ => .inr ⟨_, ⟨rfl, ?_⟩, trashedServe_answered h page⟩
  rw [List.length_singleton]
  exact ⟨fun hne => absurd rfl hne, fun hlt => absurd hlt (by omega)⟩

theorem trashedServe_answers : AnswersPages trashedCrates trashedServe longParent 150 :=
  fun h page _ hfails => hfails _ (trashedServe_answered h page)

/-- a filter that leaves out what is in the trash does not leave it out -/
theorem trashedChild_streamed :
    ServesPages trashedCrates trashedServe longParent 150 [trashedChild] ∧
    AnswersPages trashedCrates trashedServe longParent 150 ∧
    FolderChildrenFilter.admits {} (linkNode longParent trashedChild) = false ∧
    Streams trashedCrates smallClient trashedServe [] longParent {} 0 [trashedChild] ∧
    ¬ HonoursFilter trashedCrates smallClient trashedServe [] longParent {} [trashedChild] := by
  have hall : ∀ f, Streams trashedCrates smallClient trashedServe [] longParent f 0 [trashedChild] :=
    fun f => iterFolderChildren_all trashedServe_pages trashedServe_answers
      (by rw [List.length_singleton]; decide) f []
  refine ⟨trashedServe_pages, trashedServe_answers, rfl, hall {}, ?_⟩
  intro ⟨turns, hstream⟩
  exact absurd (hstream.length_eq (hall {})) (by decide)

/-- a filter that asks for what is in the trash, too, has its way -/
theorem iterFolderChildren_filter_trashed :
    HonoursFilter trashedCrates smallClient trashedServe [] longParent { includeTrashed := true }
      [trashedChild] := by
  refine (iterFolderChildren_filter trashedServe_pages trashedServe_answers _ []).mpr ⟨?_, ?_⟩
  · intro link hlink
    rw [List.mem_singleton.mp hlink]
    rfl
  · rw [List.length_singleton]
    decide

end ProtonDrive
