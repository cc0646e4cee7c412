import ProtonDrive.Core.Actions

/-!
# What a trace shows

* `delivered`     the bytes the stream delivered;
* `written`       the bytes the writer took;
* `blobs`         the blob requests and their answers;
* `posts path`    the documents posted to `path` and their answers;
* `commits`       the `PUT` requests, which only the commit of a revision makes;
* `progressSent`  the values sent on the channel of the progress.

Each is a projection of the events, so it is computed piece by piece (`_nil`, `_append`), and a
trace without the calls it looks at shows nothing (`_eq_nil`).
-/

set_option linter.unusedVariables false

namespace ProtonDrive
open Encoding Effects

/-! ## projections of one event -/

def readBytes {cap : Nat} : ReadAnswer cap → Bytes
  | .ok bs => bs.1
  | .error _ => []

def takenBytes (data : Bytes) : Except WriteError Unit → Bytes
  | .ok _ => data
  | .error e => data.take e.accepted

def deliveredBy : Event host → Bytes
  | ⟨.read _, a⟩ => readBytes a
  | _ => []

def writtenBy : Event host → Bytes
  | ⟨.writeAll data, a⟩ => takenBytes data a
  | _ => []

def blobOf : Event host → Option (BlobRequest × Except Error JsonResponse)
  | ⟨.requestBlob req, a⟩ => some (req, a)
  | _ => none

/-- the document posted to `path` -/
def postTo (path : String) : Event host → Option (Option Json × Except Error JsonResponse)
  | ⟨.requestJson req, a⟩ => if req.method = .post ∧ req.path = path then some (req.body, a) else none
  | _ => none

def progressOf : Event host → Option Nat
  | ⟨.sendProgress n, _⟩ => some n
  | _ => none

def isRead : HostCall → Bool
  | .read _ => true
  | _ => false

def isWrite : HostCall → Bool
  | .writeAll _ => true
  | _ => false

def isBlob : HostCall → Bool
  | .requestBlob _ => true
  | _ => false

def isPostTo (path : String) : HostCall → Bool
  | .requestJson req => req.method = .post ∧ req.path = path
  | _ => false

/-- the only `PUT` of the core is the commit of a revision -/
def isCommit : HostCall → Bool
  | .requestJson req => req.method = .put
  | _ => false

def isProgress : HostCall → Bool
  | .sendProgress _ => true
  | _ => false

theorem isPostTo_self (path : String) (body : Option Json) :
    isPostTo path (.requestJson (.bare .post path body)) = true := by
  simp [isPostTo, JsonRequest.bare]

/-! ## projections of a trace -/

def delivered (tr : Trace host) : Bytes := tr.flatMap deliveredBy
def written (tr : Trace host) : Bytes := tr.flatMap writtenBy
def blobs (tr : Trace host) : List (BlobRequest × Except Error JsonResponse) := tr.filterMap blobOf
def posts (path : String) (tr : Trace host) : List (Option Json × Except Error JsonResponse) :=
  tr.filterMap (postTo path)
def commits (tr : Trace host) : Trace host := tr.filter fun e => isCommit e.call
def progressSent (tr : Trace host) : List Nat := tr.filterMap progressOf

section
variable (e : Event host) (tr tr' : Trace host)

@[simp] theorem delivered_nil : delivered [] = [] := rfl
@[simp] theorem written_nil : written [] = [] := rfl
@[simp] theorem blobs_nil : blobs [] = [] := rfl
@[simp] theorem commits_nil : commits [] = [] := rfl

@[simp] theorem delivered_append : delivered (tr ++ tr') = delivered tr ++ delivered tr' :=
  List.flatMap_append
@[simp] theorem written_append : written (tr ++ tr') = written tr ++ written tr' :=
  List.flatMap_append
@[simp] theorem blobs_append : blobs (tr ++ tr') = blobs tr ++ blobs tr' := List.filterMap_append
@[simp] theorem posts_append (path : String) :
    posts path (tr ++ tr') = posts path tr ++ posts path tr' := List.filterMap_append
@[simp] theorem commits_append : commits (tr ++ tr') = commits tr ++ commits tr' :=
  List.filter_append ..

@[simp] theorem progressSent_append :
    progressSent (tr ++ tr') = progressSent tr ++ progressSent tr' := List.filterMap_append

@[simp] theorem delivered_cons : delivered (e :: tr) = deliveredBy e ++ delivered tr := rfl
@[simp] theorem written_cons : written (e :: tr) = writtenBy e ++ written tr := rfl

end

section
variable {tr : Trace host}

theorem deliveredBy_eq_nil {e : Event host} (h : isRead e.call = false) : deliveredBy e = [] := by
  obtain ⟨c, a⟩ := e
  cases c with
  | read cap => cases h
  | _ => rfl

theorem writtenBy_eq_nil {e : Event host} (h : isWrite e.call = false) : writtenBy e = [] := by
  obtain ⟨c, a⟩ := e
  cases c with
  | writeAll data => cases h
  | _ => rfl

theorem blobOf_eq_none {e : Event host} (h : isBlob e.call = false) : blobOf e = none := by
  obtain ⟨c, a⟩ := e
  cases c with
  | requestBlob req => cases h
  | _ => rfl

theorem progressOf_eq_none {e : Event host} (h : isProgress e.call = false) : progressOf e = none := by
  obtain ⟨c, a⟩ := e
  cases c with
  | sendProgress n => cases h
  | _ => rfl

theorem delivered_eq_nil (h : ∀ e ∈ tr, isRead e.call = false) : delivered tr = [] :=
  List.flatMap_eq_nil_iff.mpr fun e he => deliveredBy_eq_nil (h e he)

theorem written_eq_nil (h : ∀ e ∈ tr, isWrite e.call = false) : written tr = [] :=
  List.flatMap_eq_nil_iff.mpr fun e he => writtenBy_eq_nil (h e he)

theorem blobs_eq_nil (h : ∀ e ∈ tr, isBlob e.call = false) : blobs tr = [] :=
  List.filterMap_eq_nil_iff.mpr fun e he => blobOf_eq_none (h e he)

theorem progressSent_eq_nil (h : ∀ e ∈ tr, isProgress e.call = false) : progressSent tr = [] :=
  List.filterMap_eq_nil_iff.mpr fun e he => progressOf_eq_none (h e he)

theorem mem_progressSent {n : Nat} {pre post : Trace host}
    (h : tr = pre ++ ⟨.sendProgress n, ()⟩ :: post) : n ∈ progressSent tr := by
  rw [h, progressSent_append]
  exact List.mem_append_right _ List.mem_cons_self

theorem postTo_eq_none {path : String} {e : Event host} (h : isPostTo path e.call = false) :
    postTo path e = none := by
  obtain ⟨c, a⟩ := e
  cases c with
  | requestJson req => exact if_neg (of_decide_eq_false h)
  | _ => rfl

theorem posts_eq_nil {path : String} (h : ∀ e ∈ tr, isPostTo path e.call = false) :
    posts path tr = [] :=
  List.filterMap_eq_nil_iff.mpr fun e he => postTo_eq_none (h e he)

/-- what was posted to `path` was the body of a request of the trace -/
theorem exists_of_mem_posts {path : String} {body : Option Json} {a : Except Error JsonResponse}
    (h : (body, a) ∈ posts path tr) :
    ∃ req : JsonRequest, ⟨.requestJson req, a⟩ ∈ tr ∧ req.method = .post ∧ req.path = path ∧
      req.body = body := by
  obtain ⟨e, he, hpost⟩ := List.mem_filterMap.mp h
  obtain ⟨c, b⟩ := e
  cases c with
  | requestJson req =>
    change (if req.method = .post ∧ req.path = path then some (req.body, b) else none) = _ at hpost
    by_cases hreq : req.method = .post ∧ req.path = path
    · rw [if_pos hreq] at hpost
      cases hpost
      exact ⟨req, he, hreq.1, hreq.2, rfl⟩
    · rw [if_neg hreq] at hpost
      cases hpost
  | _ => cases hpost

theorem posts_singleton (path : String) (body : Json) (a : Except Error JsonResponse) :
    posts path [⟨.requestJson (.bare .post path (some body)), a⟩] = [(some body, a)] := by
  have h : postTo path ⟨.requestJson (.bare .post path (some body)), a⟩ = some (some body, a) :=
    if_pos ⟨rfl, rfl⟩
  simp only [posts, List.filterMap_cons, h, List.filterMap_nil]

theorem commits_eq_nil (h : ∀ e ∈ tr, isCommit e.call = false) : commits tr = [] :=
  List.filter_eq_nil_iff.mpr fun e he => by rw [h e he]; exact Bool.false_ne_true

end

end ProtonDrive
