import ProtonDrive.Lib.Orbits
import ProtonDrive.Events.Delivery

/-!
# Drains that go round

* `AnsweredBy pages`     the server answers each request for events by a function of its cursor;
* `follow`               where a drain goes on from a cursor: to the id of a page that has events, says
                         that there are more, and names another cursor than the one it was asked for;
* `drain_turn`           a drain has done with its first page, or goes on where `follow` leads;
* `drain_ends_iff`       so over finitely many cursors a drain ends, and asks for no cursor twice, exactly
                         if following the pages from its first cursor never leads back.
-/

set_option linter.unusedVariables false

namespace ProtonDrive
open Encoding Effects Api Orbits

/-- the answers to the requests for events are those of a function of the cursor -/
def AnsweredBy (volumeId : String) (pages : String → Except Error JsonResponse) (tr : Trace host) :
    Prop :=
  ∀ c a, ⟨.requestJson (eventsGet volumeId c), a⟩ ∈ tr → a = pages c

def requestedCursor (volumeId : String) : HostCall → Option String
  | .requestJson req => some (cursorOf volumeId req)
  | _ => none

/-- the cursors the drain asked for -/
def requested (volumeId : String) (tr : Trace host) : List String :=
  tr.filterMap fun e => requestedCursor volumeId e.call

/-- the drain goes on after the page it got for `c` -/
def goesOn (c : String) (page : Events.GetVolumeEventsResponse) : Bool :=
  !page.refresh && !page.events.isEmpty && page.more && page.eventId ≠ c

def follow (K : Crates) (pages : String → Except Error JsonResponse) (c : String) : Option String :=
  match pages c with
  | .error _ => none
  | .ok resp => do
    let env ← (K.jsonParse resp.body).bind
      (ResponseEnvelope.ofJson Events.GetVolumeEventsResponse.ofJson)
    if env.code = CODE_OK ∧ goesOn c env.inner then some env.inner.eventId else none

section
variable {K : Crates} {volumeId : String} {pages : String → Except Error JsonResponse} {c : String}
  {tr t : Trace host}

theorem goesOn_iff {page : Events.GetVolumeEventsResponse} : goesOn c page = true ↔
    page.refresh = false ∧ page.events ≠ [] ∧ page.more = true ∧ page.eventId ≠ c := by
  unfold goesOn
  simp [and_assoc]

theorem follow_page {resp : JsonResponse} {page : Events.GetVolumeEventsResponse}
    (hresp : pages c = .ok resp)
    (henv : K.Envelopes Events.GetVolumeEventsResponse.ofJson resp.body page) :
    follow K pages c = if goesOn c page then some page.eventId else none := by
  obtain ⟨error, henv⟩ := henv
  have hread : ∀ {β : Type} (f : ResponseEnvelope Events.GetVolumeEventsResponse → Option β),
      ((K.jsonParse resp.body).bind
        (ResponseEnvelope.ofJson Events.GetVolumeEventsResponse.ofJson)).bind f =
        f { code := CODE_OK, inner := page, error } := by
    intro β f
    rw [henv, Option.bind_some]
  unfold follow
  rw [hresp]
  show Option.bind _ _ = _
  rw [hread]
  simp

theorem follow_none_of_error {e : Error} (hresp : pages c = .error e) : follow K pages c = none := by
  unfold follow
  rw [hresp]

/-- a page that cannot be read leads nowhere -/
theorem follow_none_of_unread (h : ∀ resp page, pages c = .ok resp →
    ¬ K.Envelopes Events.GetVolumeEventsResponse.ofJson resp.body page) :
    follow K pages c = none := by
  cases hpage : follow K pages c with
  | none => rfl
  | some c' =>
    unfold follow at hpage
    cases hresp : pages c with
    | error e =>
      rw [hresp] at hpage
      cases hpage
    | ok resp =>
      rw [hresp] at hpage
      obtain ⟨env, henv, hgo⟩ := Option.bind_eq_some_iff.mp hpage
      by_cases hcode : env.code = CODE_OK ∧ goesOn c env.inner = true
      · have hread : K.Envelopes Events.GetVolumeEventsResponse.ofJson resp.body env.inner :=
          ⟨env.error, by rw [henv, ← hcode.1]⟩
        exact absurd hread (h resp env.inner hresp)
      · rw [if_neg hcode] at hgo
        cases hgo

theorem requested_append : requested volumeId (tr ++ t) = requested volumeId tr ++ requested volumeId t :=
  List.filterMap_append

theorem requested_told (entries : List Events.VolumeEventEntry) :
    requested volumeId (told volumeId entries) = [] := by
  refine List.filterMap_eq_nil_iff.mpr fun e he => ?_
  obtain ⟨entry, _, rfl⟩ := List.mem_map.mp he
  rfl

theorem requested_page (a : Except Error JsonResponse) :
    requested volumeId (⟨.requestJson (eventsGet volumeId c), a⟩ :: t) = c :: requested volumeId t := by
  show cursorOf volumeId (eventsGet volumeId c) :: requested volumeId t = _
  rw [cursorOf_eventsGet]

theorem AnsweredBy.tail {e : Event host} (h : AnsweredBy volumeId pages (e :: t)) :
    AnsweredBy volumeId pages t :=
  fun c a ha => h c a (List.mem_cons_of_mem _ ha)

theorem AnsweredBy.right (h : AnsweredBy volumeId pages (tr ++ t)) : AnsweredBy volumeId pages t :=
  fun c a ha => h c a (List.mem_append_right _ ha)

theorem cutFree_getChecked {α : Type} {what type : String} {dec : Json → Option α}
    {req : JsonRequest} : CutFree (getChecked K what type dec req).run := by
  have hcheck : ∀ body, CutFree (checkCode K body).run := fun body =>
    CutFree.bindE (ofExcept_atMost _ _).cutFree fun _ => (require_atMost _ _).cutFree
  refine CutFree.bindE (requestJson_atMost req).cutFree fun resp => ?_
  refine CutFree.bindE (hcheck resp.body) fun _ => ?_
  exact CutFree.bindE (ofExcept_atMost _ _).cutFree fun _ => trivial

/-- what a page that does not lead on leaves of a run -/
theorem pageRun_last {page : Events.GetVolumeEventsResponse} {next : String → Sdk DrainResult}
    {o : Outcome (Except Fault DrainResult)} (h : PageRun volumeId c page next t o) :
    (requested volumeId t = [] ∧ o ≠ .cut ∧ (o ≠ .running → goesOn c page = false)) ∨
      ∃ u, goesOn c page = true ∧ t = told volumeId page.events ++ u ∧
        Runs (next page.eventId).run u o := by
  have hended : ∀ {r : Except Fault DrainResult}, (o = .running ∨ o = .done r) → o ≠ .cut := by
    rintro r (rfl | rfl) <;> exact nofun
  have hstays : ¬ (page.refresh = false ∧ page.events ≠ [] ∧ page.more = true ∧ page.eventId ≠ c) →
      goesOn c page = false := by
    intro hno
    rw [← goesOn_iff] at hno
    exact Bool.not_eq_true _ ▸ hno
  cases h with
  | refreshing hrefresh => exact .inl ⟨rfl, nofun, fun hrun => absurd rfl hrun⟩
  | refreshed hrefresh ho =>
    refine .inl ⟨rfl, hended ho, fun _ => hstays fun hgo => ?_⟩
    rw [hrefresh] at hgo
    exact Bool.noConfusion hgo.1
  | empty hrefresh hnone ht ho =>
    refine .inl ⟨?_, hended ho, fun _ => hstays fun hgo => hgo.2.1 hnone⟩
    rcases ht with rfl | rfl <;> rfl
  | dispatching hrefresh hsome ht =>
    refine .inl ⟨?_, nofun, fun hrun => absurd rfl hrun⟩
    have hsub : List.Sublist (requested volumeId t) (requested volumeId (told volumeId page.events)) :=
      ht.sublist.filterMap _
    rw [requested_told] at hsub
    exact List.sublist_nil.mp hsub
  | last hrefresh hsome hlast ho =>
    refine .inl ⟨requested_told _, hended ho, fun _ => hstays fun hgo => ?_⟩
    rcases hlast with hmore | hsame
    · rw [hmore] at hgo
      exact Bool.noConfusion hgo.2.2.1
    · exact hgo.2.2.2 hsame
  | more hrefresh hsome hmore hmoved hnext =>
    exact .inr ⟨_, goesOn_iff.mpr ⟨hrefresh, hsome, hmore, hmoved⟩, rfl, hnext⟩

/-- a drain has done with its first page, or goes on from where that page leads -/
theorem drain_turn {fuel : Nat} {o : Outcome (Except Fault DrainResult)}
    (h : Runs (drainVolumeEvents K volumeId (fuel + 1) c).run tr o)
    (hans : AnsweredBy volumeId pages tr) :
    ((requested volumeId tr = [] ∨ requested volumeId tr = [c]) ∧ o ≠ .cut ∧
        (o ≠ .running → follow K pages c = none)) ∨
      ∃ c' t, follow K pages c = some c' ∧ requested volumeId tr = c :: requested volumeId t ∧
        AnsweredBy volumeId pages t ∧ Runs (drainVolumeEvents K volumeId fuel c').run t o := by
  rcases h.bindE_inv with ⟨page, t₁, t, rfl, h₁, k⟩ | ⟨o₁, ho, h₁⟩
  · obtain ⟨resp, rfl, henv⟩ := getChecked_ok h₁
    have hresp : pages c = .ok resp := (hans c _ List.mem_cons_self).symm
    rw [List.singleton_append, requested_page, follow_page hresp henv]
    rcases pageRun_last (drainPage_cases k) with ⟨hnone, hcut, hlast⟩ | ⟨u, hgo, rfl, hnext⟩
    · refine .inl ⟨.inr (by rw [hnone]), hcut, fun hrun => ?_⟩
      rw [hlast hrun]
      rfl
    · have hrest : AnsweredBy volumeId pages (told volumeId page.events ++ u) := hans.tail
      refine .inr ⟨page.eventId, u, by rw [hgo]; rfl, ?_, hrest.right, hnext⟩
      rw [requested_append, requested_told, List.nil_append]
  · refine .inl ⟨?_, ?_, fun hrun => ?_⟩
    · rcases getChecked_trace h₁ with rfl | ⟨a, rfl⟩
      · exact .inl rfl
      · exact .inr (requested_page a)
    · rintro rfl
      rw [ho.cut] at h₁
      exact h₁.not_cut cutFree_getChecked
    · -- the request failed
      match o₁, ho, h₁ with
      | .running, ho, _ => exact absurd ho.of_running hrun
      | .cut, _, h₁ => exact absurd cutFree_getChecked h₁.not_cut
      | .done (.ok a), ho, _ => exact absurd ho Outcome.Aborts.src_not_ok
      | .done (.error f), _, h₁ =>
        have hwithin : Within (S := host) (fun _ => True) Fault.IsError
            (fetchVolumeEvents K volumeId c) := within_getChecked (fun _ => trivial) trivial
        match f, hwithin.error h₁, h₁ with
        | .error e, _, h₁ =>
          obtain ⟨ans, rfl, _, hunread⟩ := getChecked_fault h₁
          have hresp : ans = pages c := hans c ans List.mem_cons_self
          refine follow_none_of_unread fun resp page hok => ?_
          exact hunread resp page (hresp.trans hok)

/-! ## whole drains -/

/-- a drain asks for the first cursors of the orbit, in their order -/
theorem drain_requested {fuel : Nat} {o : Outcome (Except Fault DrainResult)}
    (h : Runs (drainVolumeEvents K volumeId fuel c).run tr o)
    (hans : AnsweredBy volumeId pages tr) :
    ∃ k, requested volumeId tr = trail (follow K pages) c k := by
  induction fuel generalizing c tr with
  | zero => cases h <;> exact ⟨0, rfl⟩
  | succ fuel ih =>
    rcases drain_turn h hans with ⟨hnone | hone, _, _⟩ | ⟨c', t, hfollow, hreq, hans', hrest⟩
    · exact ⟨0, hnone⟩
    · exact ⟨1, hone.trans trail_one.symm⟩
    · obtain ⟨k, hk⟩ := ih hrest hans'
      refine ⟨k + 1, ?_⟩
      rw [hreq, hk, trail_succ, hfollow]
      rfl

/-- a drain that returned has come to the end of the orbit -/
theorem drain_returned {fuel : Nat} {r : Except Fault DrainResult}
    (h : Runs (drainVolumeEvents K volumeId fuel c).run tr (.done r))
    (hans : AnsweredBy volumeId pages tr) : ∃ n, orbit (follow K pages) c n = none := by
  induction fuel generalizing c tr with
  | zero => cases h
  | succ fuel ih =>
    rcases drain_turn h hans with ⟨_, _, hlast⟩ | ⟨c', t, hfollow, _, hans', hrest⟩
    · exact ⟨1, hlast nofun⟩
    · obtain ⟨n, hn⟩ := ih hrest hans'
      refine ⟨n + 1, ?_⟩
      rw [orbit_succ, hfollow, Option.bind_some, hn]

/-- a drain that is cut short had still to go on -/
theorem drain_cut {fuel : Nat} (h : Runs (drainVolumeEvents K volumeId fuel c).run tr .cut)
    (hans : AnsweredBy volumeId pages tr) : orbit (follow K pages) c fuel ≠ none := by
  induction fuel generalizing c tr with
  | zero => exact Option.some_ne_none c
  | succ fuel ih =>
    rcases drain_turn h hans with ⟨_, hcut, _⟩ | ⟨c', t, hfollow, _, hans', hrest⟩
    · exact absurd rfl hcut
    · rw [orbit_succ, hfollow, Option.bind_some]
      exact ih hrest hans'

/-- the server with the given pages, to which a listener listens that does nothing -/
def feedServe (volumeId : String) (pages : String → Except Error JsonResponse) (h : Trace host) :
    (c : HostCall) → c.Ans
  | .requestJson req => pages (cursorOf volumeId req)
  | c => Script.serve { json := fun _ _ => [], blob := fun _ => ⟨200, [], []⟩, stream := [] } h c

theorem feedServe_answers {α : Type} {p : Sdk α} :
    AnsweredBy volumeId pages (exec (feedServe volumeId pages) [] p.run).1 := by
  intro c a ha
  obtain ⟨h, hserved⟩ := exec_served (feedServe volumeId pages) [] p.run _ ha
  have hanswer : a = pages (cursorOf volumeId (eventsGet volumeId c)) := hserved
  rwa [cursorOf_eventsGet] at hanswer

/-- where the orbit ends, a drain returns -/
theorem drain_returns {n : Nat} (h : orbit (follow K pages) c n = none) :
    ∃ tr r, AnsweredBy volumeId pages tr ∧
      Runs (drainVolumeEvents K volumeId n c).run tr (.done r) := by
  have hans : AnsweredBy volumeId pages
      (exec (feedServe volumeId pages) [] (drainVolumeEvents K volumeId n c).run).1 :=
    feedServe_answers
  cases hrun : (exec (feedServe volumeId pages) [] (drainVolumeEvents K volumeId n c).run).2 with
  | none => exact absurd h (drain_cut (exec_cut _ _ _ hrun) hans)
  | some r => exact ⟨_, r, hans, exec_runs _ _ _ r hrun⟩

/-- against the server with the given pages a drain from `c` makes finitely many requests, returns, and
asks for no cursor twice -/
structure Ends (K : Crates) (volumeId : String) (pages : String → Except Error JsonResponse)
    (c : String) : Prop where
  finite : ∃ n, ∀ fuel tr o, AnsweredBy volumeId pages tr →
    Runs (drainVolumeEvents K volumeId fuel c).run tr o → (requested volumeId tr).length ≤ n
  returns : ∃ fuel tr r, AnsweredBy volumeId pages tr ∧
    Runs (drainVolumeEvents K volumeId fuel c).run tr (.done r)
  once : ∀ fuel tr o, AnsweredBy volumeId pages tr →
    Runs (drainVolumeEvents K volumeId fuel c).run tr o → (requested volumeId tr).Nodup

theorem drain_ends_iff (cursors : Finset String) (start : String) (hstart : start ∈ cursors)
    (hclosed : ∀ c ∈ cursors, ∀ resp page, pages c = .ok resp →
      K.Envelopes Events.GetVolumeEventsResponse.ofJson resp.body page → page.eventId ∈ cursors) :
    Ends K volumeId pages start ↔ NeverBack (follow K pages) start := by
  have hmoves : ∀ c ∈ cursors, ∀ c', follow K pages c = some c' → c' ∈ cursors := by
    intro c hc c' hfollow
    by_contra hout
    have hunread : follow K pages c = none := by
      cases hresp : pages c with
      | error e => exact follow_none_of_error hresp
      | ok resp =>
        by_cases hread : ∃ page, K.Envelopes Events.GetVolumeEventsResponse.ofJson resp.body page
        · obtain ⟨page, henv⟩ := hread
          rw [follow_page hresp henv] at hfollow
          by_cases hgo : goesOn c page = true
          · rw [if_pos hgo] at hfollow
            exact absurd (Option.some.inj hfollow ▸ hclosed c hc resp page hresp henv) hout
          · rw [if_neg hgo] at hfollow
            cases hfollow
        · refine follow_none_of_unread fun resp' page hresp' henv => hread ⟨page, ?_⟩
          rw [hresp] at hresp'
          cases hresp'
          exact henv
    rw [hunread] at hfollow
    cases hfollow
  constructor
  · intro h
    obtain ⟨fuel, tr, r, hans, hrun⟩ := h.returns
    obtain ⟨n, hn⟩ := drain_returned hrun hans
    exact neverBack_of_ends hn
  · intro h
    obtain ⟨n, hn⟩ := ends_of_neverBack cursors hmoves hstart h
    refine ⟨⟨n, fun fuel tr o hans hrun => ?_⟩, ⟨n, drain_returns hn⟩, fun fuel tr o hans hrun => ?_⟩
    · obtain ⟨k, hk⟩ := drain_requested hrun hans
      rw [hk]
      exact trail_length_le hn k
    · obtain ⟨k, hk⟩ := drain_requested hrun hans
      rw [hk]
      exact h.trail_nodup k

end

/-! ## two pages -/

/-- the answers where the page after "0" is `first` and every other one is `second` -/
def twoPages (first second : Events.GetVolumeEventsResponse) (c : String) : Except Error JsonResponse :=
  .ok (pageResponse (if c = "0" then first else second))

theorem twoPages_closed {K : Crates} {first second : Events.GetVolumeEventsResponse}
    {cursors : Finset String} (hfirst : first.eventId ∈ cursors) (hsecond : second.eventId ∈ cursors)
    (hread : K.Envelopes Events.GetVolumeEventsResponse.ofJson (pageResponse first).body first)
    (hread' : K.Envelopes Events.GetVolumeEventsResponse.ofJson (pageResponse second).body second) :
    ∀ c ∈ cursors, ∀ resp page, twoPages first second c = .ok resp →
      K.Envelopes Events.GetVolumeEventsResponse.ofJson resp.body page → page.eventId ∈ cursors := by
  intro c _ resp page hresp henv
  cases hresp
  by_cases hc : c = "0"
  · rw [if_pos hc] at henv
    rwa [envelopes_unique henv hread]
  · rw [if_neg hc] at henv
    rwa [envelopes_unique henv hread']

theorem smallFeed_ends :
    Ends feedCrates "v" (twoPages firstPage secondPage) "0" := by
  have hfirst : follow feedCrates (twoPages firstPage secondPage) "0" = some "1" :=
    follow_page rfl firstPage_read
  have hsecond : follow feedCrates (twoPages firstPage secondPage) "1" = none :=
    follow_page rfl secondPage_read
  have hends : orbit (follow feedCrates (twoPages firstPage secondPage)) "0" 2 = none := by
    rw [orbit_succ, hfirst, Option.bind_some, orbit_succ, hsecond, Option.bind_none]
  refine (drain_ends_iff {"0", "1", "2"} "0" (by decide) ?_).mpr (neverBack_of_ends hends)
  exact twoPages_closed (by decide) (by decide) firstPage_read secondPage_read

/-- a page that leads back to the cursor "0" -/
def backPage : Events.GetVolumeEventsResponse :=
  { eventId := "0", events := [smallEntry "2" 3 "b"], more := true, refresh := false }

def cycleCrates : Crates := smallCrates [pageDoc firstPage, pageDoc backPage]

theorem cycleDocs_nodup : ([pageDoc firstPage, pageDoc backPage].map textOf).Nodup := by
  decide +kernel

theorem cycleFirst_read : cycleCrates.Envelopes Events.GetVolumeEventsResponse.ofJson
    (pageResponse firstPage).body firstPage :=
  smallCrates_envelopes cycleDocs_nodup List.mem_cons_self rfl

theorem backPage_read : cycleCrates.Envelopes Events.GetVolumeEventsResponse.ofJson
    (pageResponse backPage).body backPage :=
  smallCrates_envelopes cycleDocs_nodup (List.mem_cons_of_mem _ List.mem_cons_self) rfl

/-- over the cursors "0" and "1" the drain goes round for ever -/
theorem roundFeed_never_ends :
    ("0" ∈ ({"0", "1"} : Finset String)) ∧
      (∀ c ∈ ({"0", "1"} : Finset String), ∀ resp page,
        twoPages firstPage backPage c = .ok resp →
        cycleCrates.Envelopes Events.GetVolumeEventsResponse.ofJson resp.body page →
        page.eventId ∈ ({"0", "1"} : Finset String)) ∧
      ¬ Ends cycleCrates "v" (twoPages firstPage backPage) "0" := by
  refine ⟨by decide, ?_, fun h => ?_⟩
  · exact twoPages_closed (by decide) (by decide) cycleFirst_read backPage_read
  · have hfirst : follow cycleCrates (twoPages firstPage backPage) "0" = some "1" :=
      follow_page rfl cycleFirst_read
    have hback : follow cycleCrates (twoPages firstPage backPage) "1" = some "0" :=
      follow_page rfl backPage_read
    have hround : orbit (follow cycleCrates (twoPages firstPage backPage)) "0" 2 = some "0" := by
      rw [orbit_succ, hfirst, Option.bind_some, orbit_succ, hback, Option.bind_some]
      rfl
    obtain ⟨fuel, tr, r, hans, hrun⟩ := h.returns
    obtain ⟨n, hn⟩ := drain_returned hrun hans
    exact absurd (neverBack_of_ends hn 0 2 "0" rfl hround) (by decide)

end ProtonDrive
