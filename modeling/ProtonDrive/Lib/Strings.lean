import Mathlib.Data.List.Basic
import Mathlib.Data.List.TakeWhile

/-!
# Pieces of texts

The operations of `str` that the code uses, on lists of characters: white space is cut at the ends
(`trim`, `trimEnd`), a text is cut into lines (`lines`) and searched (`contains`).

* `trim_around`      white space around a text that neither begins nor ends with it;
* `lines_joined`     the lines of a text whose lines end in either way (`joined`), up to white space
                     at their ends.
-/

namespace Strings

/-- the white space of Unicode -/
def isWhitespace (c : Char) : Bool :=
  let n := c.toNat
  (9 ≤ n && n ≤ 13) || n = 32 || n = 133 || n = 160 || n = 5760 || (8192 ≤ n && n ≤ 8202) ||
    n = 8232 || n = 8233 || n = 8239 || n = 8287 || n = 12288

def trimEnd (cs : List Char) : List Char := (cs.reverse.dropWhile isWhitespace).reverse

def trim (cs : List Char) : List Char := trimEnd (cs.dropWhile isWhitespace)

def contains (part : List Char) : List Char → Bool
  | [] => part.isEmpty
  | c :: cs => part.isPrefixOf (c :: cs) || contains part cs

/-- a line ends before a line feed, or before a carriage return and a line feed -/
def lines : List Char → List (List Char)
  | [] => []
  | '\n' :: cs => [] :: lines cs
  | '\r' :: '\n' :: cs => [] :: lines cs
  | c :: cs =>
    match lines cs with
    | [] => [[c]]
    | line :: rest => (c :: line) :: rest

/-! ## white space at the ends -/

theorem trimEnd_append {cs ws : List Char} (h : ∀ c ∈ ws, isWhitespace c = true) :
    trimEnd (cs ++ ws) = trimEnd cs := by
  have hws : ∀ c ∈ ws.reverse, isWhitespace c = true := fun c hc => h c (List.mem_reverse.mp hc)
  unfold trimEnd
  rw [List.reverse_append, List.dropWhile_append_of_pos hws]

theorem trimEnd_concat {cs : List Char} {c : Char} (h : isWhitespace c = false) :
    trimEnd (cs ++ [c]) = cs ++ [c] := by
  unfold trimEnd
  rw [List.reverse_append, List.reverse_singleton, List.singleton_append, List.dropWhile_cons_of_neg
    (by rw [h]; exact Bool.false_ne_true), List.reverse_cons, List.reverse_reverse]

theorem trimEnd_cons (c : Char) (cs : List Char) : trimEnd (c :: cs) =
    if trimEnd cs = [] then trimEnd [c] else c :: trimEnd cs := by
  have hcs : (trimEnd cs = []) ↔ cs.reverse.dropWhile isWhitespace = [] := by
    unfold trimEnd
    exact List.reverse_eq_nil_iff
  by_cases h : trimEnd cs = []
  · rw [if_pos h]
    have hall := List.dropWhile_eq_nil_iff.mp (hcs.mp h)
    unfold trimEnd
    rw [List.reverse_cons, List.dropWhile_append_of_pos hall]
    rfl
  · rw [if_neg h]
    have hne : cs.reverse.dropWhile isWhitespace ≠ [] := fun hnil => h (hcs.mpr hnil)
    unfold trimEnd
    rw [List.reverse_cons, List.dropWhile_append, if_neg (by simpa using hne), List.reverse_append]
    rfl

/-- a text without white space is left alone -/
theorem trimEnd_of_solid {cs : List Char} (h : ∀ c ∈ cs, isWhitespace c = false) :
    trimEnd cs = cs := by
  obtain rfl | ⟨init, last, rfl⟩ := List.eq_nil_or_concat' cs
  · rfl
  · exact trimEnd_concat (h last (List.mem_append_right _ (List.mem_singleton.mpr rfl)))

theorem trimEnd_ne_nil {cs : List Char} {c : Char} (hc : c ∈ cs) (h : isWhitespace c = false) :
    trimEnd cs ≠ [] := by
  intro hnil
  have hall := List.dropWhile_eq_nil_iff.mp (List.reverse_eq_nil_iff.mp hnil)
  have hwhite := hall c (List.mem_reverse.mpr hc)
  rw [h] at hwhite
  cases hwhite

theorem trimEnd_prefix (cs : List Char) : trimEnd cs <+: cs := by
  have hsuffix := List.reverse_prefix.mpr (List.dropWhile_suffix isWhitespace (l := cs.reverse))
  rw [List.reverse_reverse] at hsuffix
  exact hsuffix

/-- white space around a text that begins and ends with something else -/
theorem trim_around {before after : List Char} {first last : Char} {middle : List Char}
    (hbefore : ∀ c ∈ before, isWhitespace c = true) (hafter : ∀ c ∈ after, isWhitespace c = true)
    (hfirst : isWhitespace first = false) (hlast : isWhitespace last = false) :
    trim (before ++ ((first :: middle) ++ [last] ++ after)) = (first :: middle) ++ [last] := by
  unfold trim
  rw [List.dropWhile_append_of_pos hbefore, List.append_assoc, List.cons_append,
    List.dropWhile_cons_of_neg (by rw [hfirst]; exact Bool.false_ne_true), ← List.cons_append,
    ← List.append_assoc, trimEnd_append hafter, trimEnd_concat hlast]

theorem contains_prefix (part rest : List Char) : contains part (part ++ rest) = true := by
  have hbegins : part.isPrefixOf (part ++ rest) = true :=
    List.isPrefixOf_iff_prefix.mpr (List.prefix_append part rest)
  cases h : part ++ rest with
  | nil =>
    obtain ⟨hpart, _⟩ := List.append_eq_nil_iff.mp h
    rw [hpart]
    rfl
  | cons c cs =>
    rw [h] at hbegins
    unfold contains
    rw [hbegins]
    rfl

/-! ## lines -/

/-- the end of a line -/
def lineEnd (carriageReturn : Bool) : List Char :=
  if carriageReturn then ['\r', '\n'] else ['\n']

/-- lines, each with its end -/
def joined : List (List Char × Bool) → List Char
  | [] => []
  | (line, carriageReturn) :: rest => line ++ lineEnd carriageReturn ++ joined rest

theorem lines_cons {c : Char} {cs : List Char} (hn : c ≠ '\n')
    (hr : c = '\r' → ∀ rest, cs ≠ '\n' :: rest) {line : List Char} {rest : List (List Char)}
    (h : lines cs = line :: rest) : lines (c :: cs) = (c :: line) :: rest := by
  unfold lines
  split
  · next heq => cases heq
  · next heq =>
    cases heq
    exact absurd rfl hn
  · next heq =>
    cases heq
    exact absurd rfl (hr rfl _)
  · next heq =>
    cases heq
    rw [h]

/-- the first line, up to white space at its end -/
theorem lines_line {line : List Char} (hline : '\n' ∉ line) (carriageReturn : Bool)
    (rest : List Char) : ∃ first, lines (line ++ lineEnd carriageReturn ++ rest) =
      first :: lines rest ∧ trimEnd first = trimEnd line := by
  induction line with
  | nil =>
    cases carriageReturn with
    | false => exact ⟨[], by simp [lineEnd, lines], rfl⟩
    | true => exact ⟨[], by simp [lineEnd, lines], rfl⟩
  | cons c line ih =>
    have hn : c ≠ '\n' := fun h => hline (h ▸ List.mem_cons_self)
    obtain ⟨first, hfirst, htrim⟩ := ih fun h => hline (List.mem_cons_of_mem _ h)
    by_cases hbare : c = '\r' ∧ line = [] ∧ carriageReturn = false
    -- a carriage return that ends the line itself
    · obtain ⟨rfl, rfl, rfl⟩ := hbare
      exact ⟨[], by simp [lineEnd, lines], rfl⟩
    · refine ⟨c :: first, ?_, ?_⟩
      · refine lines_cons hn (fun hr rest' hrest => ?_) hfirst
        cases line with
        | nil =>
          cases carriageReturn with
          | false => exact hbare ⟨hr, rfl, rfl⟩
          | true => simp [lineEnd] at hrest
        | cons d line =>
          have hd : d = '\n' := by simpa using congrArg List.head? hrest
          exact hline (hd ▸ List.mem_cons_of_mem _ List.mem_cons_self)
      · rw [trimEnd_cons, trimEnd_cons c line, htrim]

theorem lines_last {line : List Char} (hline : '\n' ∉ line) (hne : line ≠ []) :
    lines line = [line] := by
  induction line with
  | nil => exact absurd rfl hne
  | cons c line ih =>
    have hn : c ≠ '\n' := fun h => hline (h ▸ List.mem_cons_self)
    cases line with
    | nil => simp [lines]
    | cons d line =>
      have hd : d ≠ '\n' := fun h => hline (h ▸ List.mem_cons_of_mem _ List.mem_cons_self)
      refine lines_cons hn (fun _ rest h => hd (List.cons.inj h).1) ?_
      exact ih (fun h => hline (List.mem_cons_of_mem _ h)) (List.cons_ne_nil _ _)

/-- the lines of a text, up to white space at their ends -/
theorem lines_joined {ls : List (List Char × Bool)} (h : ∀ l ∈ ls, '\n' ∉ l.1) (rest : List Char) :
    (lines (joined ls ++ rest)).map trimEnd =
      ls.map (fun l => trimEnd l.1) ++ (lines rest).map trimEnd := by
  induction ls with
  | nil => rfl
  | cons l ls ih =>
    obtain ⟨first, hfirst, htrim⟩ :=
      lines_line (h l List.mem_cons_self) l.2 (joined ls ++ rest)
    show (lines (l.1 ++ lineEnd l.2 ++ joined ls ++ rest)).map trimEnd = _
    rw [List.append_assoc, hfirst, List.map_cons, htrim,
      ih fun l' hl' => h l' (List.mem_cons_of_mem _ hl')]
    rfl

end Strings
