import Mathlib.Data.List.Basic
import Mathlib.Data.List.Infix
import Mathlib.Data.List.Induction
import Mathlib.Logic.Function.Iterate

/-!
# Routes through a file system

* `Dirs`                  the directories of a file system, as the resolution of a path sees them: where a
                          name leads, whether by a link or not, and where `..` leads;
* `Route`                 where a path begins, and the parts it goes through;
* `Dirs.dirOf`            the directory that a route leads to;
* `Dirs.place`            the directory and the name under which a file is opened for writing;
* `spread`                a file system in which different routes lead to different directories;
* `place_within_iff`      which files are the children of a given directory, in every file system.
-/

set_option linter.unusedVariables false

namespace Files

/-- `enter` follows links, so `..` need not lead back -/
structure Dirs where
  Dir : Type
  root : Dir
  cwd : Dir
  up : Dir → Dir
  enter : Dir → String → Option Dir
  up_root : up root = root
  up_reaches : ∀ d, ∃ n, up^[n] d = root

/-- a route begins at the root or at the working directory -/
structure Route where
  rooted : Bool
  parts : List String
  deriving DecidableEq

namespace Route

/-- above the root there is only the root -/
def normal (r : Route) : Route :=
  if r.rooted then { r with parts := r.parts.dropWhile (· = "..") } else r

def child (r : Route) (x : String) : Route := { r with parts := r.parts ++ [x] }

/-- the route begins as the other does and ends on its way, or with it -/
def OnWayTo (r r' : Route) : Prop := r.rooted = r'.rooted ∧ r.parts <+: r'.parts

instance (r r' : Route) : Decidable (r.OnWayTo r') := inferInstanceAs (Decidable (_ ∧ _))

theorem normal_rooted (r : Route) : r.normal.rooted = r.rooted := by
  unfold normal
  split <;> rfl

theorem dropWhile_concat {l : List String} {x : String} (hx : x ≠ "..") :
    (l ++ [x]).dropWhile (· = "..") = l.dropWhile (· = "..") ++ [x] := by
  induction l with
  | nil => exact List.dropWhile_cons_of_neg (by simpa using hx)
  | cons y l ih =>
    by_cases hy : y = ".."
    · rw [List.cons_append, List.dropWhile_cons_of_pos (by simpa using hy),
        List.dropWhile_cons_of_pos (by simpa using hy), ih]
    · rw [List.cons_append, List.dropWhile_cons_of_neg (by simpa using hy),
        List.dropWhile_cons_of_neg (by simpa using hy), List.cons_append]

theorem normal_child {x : String} (r : Route) (hx : x ≠ "..") :
    (r.child x).normal = r.normal.child x := by
  obtain ⟨rooted, parts⟩ := r
  cases rooted with
  | false => rfl
  | true => exact congrArg (Route.mk true) (dropWhile_concat hx)

/-- a normal route from the root does not begin with `..` -/
theorem normal_head {r : Route} (hrooted : r.rooted = true) (l : List String) :
    r.normal.parts ≠ ".." :: l := by
  obtain ⟨rooted, parts⟩ := r
  obtain rfl : rooted = true := hrooted
  show parts.dropWhile (· = "..") ≠ ".." :: l
  induction parts with
  | nil => exact nofun
  | cons y parts ih =>
    by_cases hy : y = ".."
    · rw [List.dropWhile_cons_of_pos (by simpa using hy)]
      exact ih
    · rw [List.dropWhile_cons_of_neg (by simpa using hy)]
      intro heq
      exact hy (List.cons.inj heq).1

end Route

namespace Dirs

variable (V : Dirs)

def follow (d : V.Dir) (part : String) : Option V.Dir :=
  if part = ".." then some (V.up d) else V.enter d part

def walk : V.Dir → List String → Option V.Dir
  | d, [] => some d
  | d, part :: rest => (V.follow d part).bind fun d => walk d rest

def start : Bool → V.Dir
  | true => V.root
  | false => V.cwd

def dirOf (r : Route) : Option V.Dir := V.walk (V.start r.rooted) r.parts

/-- a file is opened under the name `x` unless there is a directory of that name -/
def place (r : Route) (x : String) : Option (V.Dir × String) :=
  (V.dirOf r).bind fun d => if (V.enter d x).isSome then none else some (d, x)

section
variable {V}

theorem walk_append (d : V.Dir) (l l' : List String) :
    V.walk d (l ++ l') = (V.walk d l).bind fun d => V.walk d l' := by
  induction l generalizing d with
  | nil => rfl
  | cons part l ih =>
    show (V.follow d part).bind (fun d => V.walk d (l ++ l')) =
      ((V.follow d part).bind fun d => V.walk d l).bind fun d => V.walk d l'
    cases V.follow d part with
    | none => rfl
    | some d' => exact ih d'

theorem dirOf_child (r : Route) (x : String) :
    V.dirOf (r.child x) = (V.dirOf r).bind fun d => V.follow d x := by
  show V.walk _ (r.parts ++ [x]) = _
  rw [walk_append]
  congr 1
  funext d
  show (V.follow d x).bind some = V.follow d x
  cases V.follow d x <;> rfl

theorem dirOf_normal (r : Route) : V.dirOf r.normal = V.dirOf r := by
  obtain ⟨rooted, parts⟩ := r
  cases rooted with
  | false => rfl
  | true =>
    show V.walk V.root (parts.dropWhile (· = "..")) = V.walk V.root parts
    induction parts with
    | nil => rfl
    | cons part parts ih =>
      by_cases hpart : part = ".."
      · rw [List.dropWhile_cons_of_pos (by simpa using hpart), ih]
        show _ = (V.follow V.root part).bind fun d => V.walk d parts
        rw [follow, if_pos hpart, V.up_root]
        rfl
      · rw [List.dropWhile_cons_of_neg (by simpa using hpart)]

theorem place_some {r : Route} {x y : String} {d : V.Dir} (h : V.place r x = some (d, y)) :
    V.dirOf r = some d ∧ y = x ∧ V.enter d x = none := by
  obtain ⟨d', hd', hplace⟩ := Option.bind_eq_some_iff.mp h
  by_cases henter : (V.enter d' x).isSome = true
  · rw [if_pos henter] at hplace
    cases hplace
  · rw [if_neg henter] at hplace
    cases hplace
    exact ⟨hd', rfl, by simpa using henter⟩

theorem place_of {r : Route} {x : String} {d : V.Dir} (hd : V.dirOf r = some d)
    (hx : V.enter d x = none) : V.place r x = some (d, x) := by
  unfold place
  rw [hd, Option.bind_some, hx]
  rfl

/-- what leads on to a directory is no file -/
theorem place_onWay {p q : Route} {x : String} (hx : x ≠ "..") {D : V.Dir} (hD : V.dirOf p = some D)
    (hway : (q.child x).normal.OnWayTo p.normal) : V.place q x = none := by
  obtain ⟨hrooted, t, ht⟩ := hway
  have hp : V.walk (V.start p.normal.rooted) p.normal.parts = some D := by
    rw [← hD, ← dirOf_normal p]
    rfl
  rw [← ht, walk_append, ← hrooted] at hp
  obtain ⟨d, hd, _⟩ := Option.bind_eq_some_iff.mp hp
  have hchild : V.dirOf (q.child x) = some d := by
    rw [← dirOf_normal]
    exact hd
  rw [dirOf_child] at hchild
  obtain ⟨d', hd', hfollow⟩ := Option.bind_eq_some_iff.mp hchild
  rw [follow, if_neg hx] at hfollow
  unfold place
  rw [hd', Option.bind_some, hfollow]
  rfl

end

end Dirs

/-! ## different routes, different directories -/

/-- the directories are the routes up to the length `n`.  All names lead on, but for the one that is at
the end of `hole` -/
def spread (n : Nat) (hole : Route) : Dirs where
  Dir := Route
  root := ⟨true, []⟩
  cwd := ⟨false, []⟩
  up d := if d = ⟨true, []⟩ then d else if d.parts.length < n then d.child ".." else ⟨true, []⟩
  enter d x := if d.child x = hole then none else some (d.child x)
  up_root := if_pos rfl
  up_reaches := by
    -- by induction on how much longer the route can get
    intro d
    induction hk : n - d.parts.length generalizing d with
    | zero =>
      refine ⟨1, ?_⟩
      show (if _ then d else _) = _
      by_cases hroot : d = ⟨true, []⟩
      · rw [if_pos hroot, hroot]
      · rw [if_neg hroot, if_neg (by omega)]
    | succ k ih =>
      by_cases hroot : d = ⟨true, []⟩
      · exact ⟨0, hroot⟩
      · have hlen : (d.child "..").parts.length = d.parts.length + 1 := List.length_append ..
        obtain ⟨m, hm⟩ := ih (d.child "..") (by omega)
        refine ⟨m + 1, ?_⟩
        rw [Function.iterate_succ_apply, if_neg hroot, if_pos (by omega)]
        exact hm

theorem spread_up {n : Nat} {hole d : Route} (hroot : d ≠ ⟨true, []⟩) (hlen : d.parts.length < n) :
    (spread n hole).up d = d.child ".." := by
  show (if d = ⟨true, []⟩ then d else if d.parts.length < n then d.child ".." else ⟨true, []⟩) = _
  rw [if_neg hroot, if_pos hlen]

/-- a normal route leads to itself -/
theorem spread_dirOf {n : Nat} {hole r : Route} (hlen : r.parts.length ≤ n)
    (hnormal : r.rooted = true → ∀ l, r.parts ≠ ".." :: l) (hhole : ¬ hole.OnWayTo r) :
    (spread n hole).dirOf r = some r := by
  obtain ⟨rooted, parts⟩ := r
  induction parts using List.reverseRecOn with
  | nil => cases rooted <;> rfl
  | append_singleton l x ih =>
    have hlength : (l ++ [x]).length = l.length + 1 := List.length_append ..
    have hlen : l.length + 1 ≤ n := hlength ▸ hlen
    have hbefore : (spread n hole).dirOf ⟨rooted, l⟩ = some ⟨rooted, l⟩ := by
      refine ih (Nat.le_of_succ_le hlen) ?_ ?_
      · intro hrooted l' hl'
        exact hnormal hrooted (l' ++ [x]) (by rw [show l = ".." :: l' from hl']; rfl)
      · intro ⟨hrooted, hbegins⟩
        exact hhole ⟨hrooted, hbegins.trans (List.prefix_append _ _)⟩
    have hfollow : (spread n hole).follow ⟨rooted, l⟩ x = some ⟨rooted, l ++ [x]⟩ := by
      unfold Dirs.follow
      by_cases hx : x = ".."
      · have hroot : (⟨rooted, l⟩ : Route) ≠ ⟨true, []⟩ := by
          intro heq
          cases heq
          exact hnormal rfl [] (by rw [hx]; rfl)
        rw [if_pos hx, hx]
        exact congrArg some (spread_up hroot (Nat.lt_of_succ_le hlen))
      · have hne : (⟨rooted, l⟩ : Route).child x ≠ hole := by
          intro heq
          rw [← heq] at hhole
          exact hhole ⟨rfl, List.prefix_rfl⟩
        rw [if_neg hx]
        exact if_neg hne
    show (spread n hole).dirOf ((⟨rooted, l⟩ : Route).child x) = _
    rw [Dirs.dirOf_child, hbefore]
    exact hfollow

/-- files under the route `q` are children of the directory of `p`, whatever the file system, exactly if
`q` leads to it as `p` does; or there can be no file, since the route leads on to the directory -/
theorem place_within_iff {p q : Route} {x : String} (hx : x ≠ "..") :
    (∀ (V : Dirs) (D : V.Dir), V.dirOf p = some D → ∀ d y, V.place q x = some (d, y) → d = D) ↔
      q.normal = p.normal ∨ (q.child x).normal.OnWayTo p.normal := by
  constructor
  · intro hall
    by_contra hno
    obtain ⟨hne, hway⟩ := not_or.mp hno
    rw [Route.normal_child q hx] at hway
    let V := spread (p.normal.parts.length + q.normal.parts.length) (q.normal.child x)
    have hp : V.dirOf p.normal = some p.normal := by
      refine spread_dirOf (by omega) (fun hrooted => ?_) hway
      exact Route.normal_head (p.normal_rooted ▸ hrooted)
    have hq : V.dirOf q.normal = some q.normal := by
      refine spread_dirOf (by omega) (fun hrooted => ?_) ?_
      · exact Route.normal_head (q.normal_rooted ▸ hrooted)
      · intro ⟨_, hbegins⟩
        have hlength := hbegins.length_le
        rw [Route.child, List.length_append, List.length_singleton] at hlength
        omega
    rw [Dirs.dirOf_normal] at hp hq
    exact hne (hall V p.normal hp q.normal x (Dirs.place_of hq (if_pos rfl)))
  · intro hcond V D hD d y hplace
    rcases hcond with heq | hway
    · have hd := (Dirs.place_some hplace).1
      rw [← Dirs.dirOf_normal, heq, Dirs.dirOf_normal, hD] at hd
      exact (Option.some.inj hd).symm
    · rw [Dirs.place_onWay hx hD hway] at hplace
      cases hplace

end Files
