import ProtonDrive.Core.Events
import ProtonDrive.Core.Traces

/-!
# The log behind an event feed

* `EventLog`             the events of a volume in the order the server logged them; an event id stands
                         for a place of the log, the number of events at or before it;
* `EventLog.Honest`      what a page for a cursor may show: the events up to its own id, or the first
                         ones after the cursor under the cursor's own id, or a request to refresh;
* `EventLog.Splits`      the pages that end with their last event;
* `passedFrom`, `passed` the node events a trace passes to the listener, each with its place in the log;
* `Covers`, `Accounted`  a refresh that makes up for all events before a place; every event between two
                         places was passed on or is made up for.
-/

set_option linter.unusedVariables false

namespace ProtonDrive
open Encoding Effects Api

/-- the items from the place `a` up to the place `b` -/
def between {α : Type} (l : List α) (a b : Nat) : List α := (l.drop a).take (b - a)

section
variable {α : Type} {l : List α} {a b c : Nat}

theorem between_append_drop (h : a ≤ b) : between l a b ++ l.drop b = l.drop a := by
  unfold between
  have hb : l.drop b = (l.drop a).drop (b - a) := by
    rw [List.drop_drop]
    congr 1
    omega
  rw [hb, List.take_append_drop]

theorem between_append (hab : a ≤ b) (hbc : b ≤ c) : between l a b ++ between l b c = between l a c := by
  unfold between
  have hc : c - a = (b - a) + (c - b) := by omega
  have hb : l.drop b = (l.drop a).drop (b - a) := by
    rw [List.drop_drop]
    congr 1
    omega
  rw [hc, hb, List.take_add]

theorem zipIdx_drop (l : List α) (a : Nat) : (l.drop a).zipIdx a = l.zipIdx.drop a := by
  apply List.ext_getElem?
  intro i
  simp [List.getElem?_zipIdx, List.getElem?_drop]

theorem zipIdx_take (l : List α) (a n : Nat) : (l.take n).zipIdx a = (l.zipIdx a).take n := by
  induction l generalizing a n with
  | nil => simp
  | cons x l ih =>
    cases n with
    | zero => rfl
    | succ n => simp [ih]

theorem zipIdx_between (l : List α) (a b : Nat) :
    (between l a b).zipIdx a = between l.zipIdx a b := by
  unfold between
  rw [zipIdx_take, zipIdx_drop]

end

/-! ## the log -/

structure EventLog where
  events : List Events.VolumeEventEntry
  /-- how many events of the log are at or before an id -/
  place : String → Nat

namespace EventLog

/-- a page that is true to the log, for a request that carried the cursor `c` -/
def Honest (log : EventLog) (c : String) (page : Events.GetVolumeEventsResponse) : Prop :=
  page.refresh = true ∨
    (log.place c ≤ log.place page.eventId ∧
      page.events = between log.events (log.place c) (log.place page.eventId)) ∨
    (page.eventId = c ∧ page.events <+: log.events.drop (log.place c))

/-- a page that ends with its last event: it shows what lies between the cursor and its own id -/
def Splits (log : EventLog) (c : String) (page : Events.GetVolumeEventsResponse) : Prop :=
  log.place c ≤ log.place page.eventId ∧ (page.refresh = true ∨
    page.events = between log.events (log.place c) (log.place page.eventId))

theorem Splits.honest {log : EventLog} {c : String} {page : Events.GetVolumeEventsResponse}
    (h : log.Splits c page) : log.Honest c page :=
  h.2.imp id fun hevents => .inl ⟨h.1, hevents⟩

/-- what the listener is to be told of the log, with the places -/
def dispatches (log : EventLog) (volumeId : String) : List (DriveEvent × Nat) :=
  (log.events.map (mapVolumeEvent volumeId)).zipIdx

end EventLog

/-- the cursor a request for events carries, behind the path of the feed -/
def cursorOf (volumeId : String) (req : JsonRequest) : String :=
  String.ofList (req.path.toList.drop (eventsPath volumeId "").toList.length)

theorem cursorOf_eventsGet (volumeId c : String) : cursorOf volumeId (eventsGet volumeId c) = c := by
  unfold cursorOf
  have hpath : (eventsGet volumeId c).path = eventsPath volumeId "" ++ c := by
    show eventsPath volumeId c = _
    unfold eventsPath
    rw [String.append_empty]
  rw [hpath, String.toList_append, List.drop_left, String.ofList_toList]

/-- every page of events in the trace, with the cursor of its request, satisfies `P` -/
def EachPage (P : String → Events.GetVolumeEventsResponse → Prop) (K : Crates) (volumeId : String)
    (tr : Trace host) : Prop :=
  ∀ c resp page, ⟨.requestJson (eventsGet volumeId c), .ok resp⟩ ∈ tr →
    K.Envelopes Events.GetVolumeEventsResponse.ofJson resp.body page → P c page

theorem eventsGet_injective {volumeId c c' : String}
    (h : eventsGet volumeId c = eventsGet volumeId c') : c = c' := by
  have hcursor := congrArg (cursorOf volumeId) h
  rwa [cursorOf_eventsGet, cursorOf_eventsGet] at hcursor

namespace EachPage
variable {P : String → Events.GetVolumeEventsResponse → Prop} {K : Crates} {volumeId : String}
  {tr tr' : Trace host}

theorem nil : EachPage P K volumeId [] :=
  fun _ _ _ hm _ => absurd hm List.not_mem_nil

theorem page {c : String} {resp : JsonResponse} {page : Events.GetVolumeEventsResponse}
    (henv : K.Envelopes Events.GetVolumeEventsResponse.ofJson resp.body page)
    (hpage : P c page) (h : EachPage P K volumeId tr) :
    EachPage P K volumeId (⟨.requestJson (eventsGet volumeId c), .ok resp⟩ :: tr) := by
  intro c' resp' page' hm henv'
  rcases List.mem_cons.mp hm with heq | hm
  · have hcall := congrArg Event.call heq
    injection hcall with hreq
    obtain rfl := eventsGet_injective hreq
    cases heq
    rw [envelopes_unique henv' henv]
    exact hpage
  · exact h c' resp' page' hm henv'

theorem failed {req : JsonRequest} {e : Error} (h : EachPage P K volumeId tr) :
    EachPage P K volumeId (⟨.requestJson req, .error e⟩ :: tr) := by
  intro c resp page hm henv
  rcases List.mem_cons.mp hm with heq | hm
  · cases heq
  · exact h c resp page hm henv

theorem other {e : Event host} (he : ∀ req, e.call ≠ .requestJson req)
    (h : EachPage P K volumeId tr) : EachPage P K volumeId (e :: tr) := by
  intro c resp page hm henv
  rcases List.mem_cons.mp hm with heq | hm
  · exact absurd (congrArg Event.call heq).symm (he _)
  · exact h c resp page hm henv

theorem append_iff : EachPage P K volumeId (tr ++ tr') ↔
    EachPage P K volumeId tr ∧ EachPage P K volumeId tr' := by
  constructor
  · intro h
    exact ⟨fun c resp page hm => h c resp page (List.mem_append_left _ hm),
      fun c resp page hm => h c resp page (List.mem_append_right _ hm)⟩
  · intro ⟨h, h'⟩ c resp page hm
    rcases List.mem_append.mp hm with hm | hm
    · exact h c resp page hm
    · exact h' c resp page hm

theorem mono {Q : String → Events.GetVolumeEventsResponse → Prop} (h : EachPage P K volumeId tr)
    (hPQ : ∀ c page, P c page → Q c page) : EachPage Q K volumeId tr :=
  fun c resp page hm henv => hPQ c page (h c resp page hm henv)

end EachPage

/-! ## what was passed on -/

/-- the node events passed on, each with the place it has in the log if the page that is being passed
on stands at the place `n`; a request begins a new page at the place of its cursor -/
def passedFrom (log : EventLog) (volumeId : String) : Nat → Trace host → List (DriveEvent × Nat)
  | _, [] => []
  | n, e :: tr =>
    match e.call with
    | .requestJson req => passedFrom log volumeId (log.place (cursorOf volumeId req)) tr
    | .onEvent (.node uid kind) => (.node uid kind, n) :: passedFrom log volumeId (n + 1) tr
    | _ => passedFrom log volumeId n tr

/-- where in the log the page stands that is being passed on -/
def standsAt (log : EventLog) (volumeId : String) : Nat → Trace host → Nat
  | n, [] => n
  | n, e :: tr =>
    match e.call with
    | .requestJson req => standsAt log volumeId (log.place (cursorOf volumeId req)) tr
    | .onEvent (.node _ _) => standsAt log volumeId (n + 1) tr
    | _ => standsAt log volumeId n tr

def passed (log : EventLog) (volumeId : String) (tr : Trace host) : List (DriveEvent × Nat) :=
  passedFrom log volumeId 0 tr

/-- the events of a page as they are passed on -/
def told (volumeId : String) (entries : List Events.VolumeEventEntry) : Trace host :=
  entries.map fun entry => ⟨.onEvent (mapVolumeEvent volumeId entry), ()⟩

section
variable {log : EventLog} {K : Crates} {volumeId : String} {tr tr' : Trace host} {n : Nat}

theorem passedFrom_append : passedFrom log volumeId n (tr ++ tr') =
    passedFrom log volumeId n tr ++ passedFrom log volumeId (standsAt log volumeId n tr) tr' := by
  induction tr generalizing n with
  | nil => rfl
  | cons e tr ih =>
    obtain ⟨c, a⟩ := e
    cases c with
    | requestJson req => exact ih
    | onEvent ev =>
      cases ev with
      | node uid kind => exact congrArg _ ih
      | _ => exact ih
    | _ => exact ih

theorem passedFrom_told (entries : List Events.VolumeEventEntry) :
    passedFrom log volumeId n (told volumeId entries ++ tr) =
      (entries.map (mapVolumeEvent volumeId)).zipIdx n ++
        passedFrom log volumeId (n + entries.length) tr := by
  induction entries generalizing n with
  | nil => rfl
  | cons entry entries ih =>
    have hrest := ih (n := n + 1)
    rw [Nat.add_assoc, Nat.add_comm 1] at hrest
    exact congrArg ((mapVolumeEvent volumeId entry, n) :: ·) hrest

/-- a call that tells the listener nothing about a node, and is no request either -/
def isNodeEvent : HostCall → Bool
  | .onEvent (.node _ _) => true
  | _ => false

theorem passedFrom_eq_nil (h : ∀ e ∈ tr, isNodeEvent e.call = false) :
    passedFrom log volumeId n tr = [] := by
  induction tr generalizing n with
  | nil => rfl
  | cons e tr ih =>
    have hrest := fun e he => h e (List.mem_cons_of_mem _ he)
    have hhead := h e List.mem_cons_self
    obtain ⟨c, a⟩ := e
    cases c with
    | onEvent ev =>
      cases ev with
      | node uid kind => cases hhead
      | _ => exact ih hrest
    | _ => exact ih hrest

end

/-! ## no event is lost -/

/-- the trace shows a refresh whose new cursor stands at `b` -/
def Covers (log : EventLog) (K : Crates) (volumeId : String) (tr : Trace host) (b : Nat) : Prop :=
  ∃ c resp page,
    [⟨.requestJson (eventsGet volumeId c), .ok resp⟩,
      ⟨.onEvent (.treeRefresh (volumeRoot volumeId)), ()⟩] <:+: tr ∧
    K.Envelopes Events.GetVolumeEventsResponse.ofJson resp.body page ∧ page.refresh = true ∧
    log.place page.eventId = b

/-- each event of the log from the place `a` up to the place `b` was passed on, or comes before the
place of a refresh -/
def Accounted (log : EventLog) (K : Crates) (volumeId : String) (tr : Trace host) (a b : Nat) : Prop :=
  ∀ x ∈ log.dispatches volumeId, a ≤ x.2 → x.2 < b →
    x ∈ passed log volumeId tr ∨ ∃ c, x.2 < c ∧ Covers log K volumeId tr c

section
variable {log : EventLog} {K : Crates} {volumeId : String} {tr tr' : Trace host} {a b c : Nat}

theorem Covers.append_left (h : Covers log K volumeId tr b) : Covers log K volumeId (tr ++ tr') b := by
  obtain ⟨c, resp, page, hin, hrest⟩ := h
  exact ⟨c, resp, page, hin.trans (List.prefix_append _ _).isInfix, hrest⟩

theorem Covers.append_right (h : Covers log K volumeId tr' b) : Covers log K volumeId (tr ++ tr') b := by
  obtain ⟨c, resp, page, hin, hrest⟩ := h
  exact ⟨c, resp, page, hin.trans (List.suffix_append _ _).isInfix, hrest⟩

theorem Accounted.append (h : Accounted log K volumeId tr a b) :
    Accounted log K volumeId (tr ++ tr') a b := by
  intro x hx hax hxb
  rcases h x hx hax hxb with hp | ⟨c, hc, hcov⟩
  · refine .inl ?_
    unfold passed
    rw [passedFrom_append]
    exact List.mem_append_left _ hp
  · exact .inr ⟨c, hc, hcov.append_left⟩

theorem Accounted.refl (a : Nat) : Accounted log K volumeId tr a a := by
  intro x _ hax hxb
  omega

end

end ProtonDrive
