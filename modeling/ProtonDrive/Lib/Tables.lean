import Mathlib.Data.List.AList
import Mathlib.Data.List.Induction

/-!
# Tables that are filled from a list

`fill entries` is the table that is left when the entries are inserted one after the other, so that
the last entry under a key is the one that stays.  Where no key is listed twice a look-up finds
exactly what is listed (`lookup_fill_iff`).
-/

namespace Tables

variable {κ β : Type} [DecidableEq κ]

def fill (entries : List (κ × β)) : AList fun _ : κ => β :=
  entries.foldl (fun table entry => table.insert entry.1 entry.2) ∅

theorem fill_concat (entries : List (κ × β)) (entry : κ × β) :
    fill (entries ++ [entry]) = (fill entries).insert entry.1 entry.2 := List.foldl_concat _ _ _ _

theorem lookup_fill_iff {entries : List (κ × β)} (hnodup : (entries.map Prod.fst).Nodup) (key : κ)
    (value : β) : (fill entries).lookup key = some value ↔ (key, value) ∈ entries := by
  induction entries using List.reverseRecOn with
  | nil =>
    have hempty : (fill ([] : List (κ × β))).lookup key = none := AList.lookup_empty key
    rw [hempty]
    simp
  | append_singleton entries entry ih =>
    rw [List.map_append] at hnodup
    have hinit := ih hnodup.of_append_left
    have hfresh : entry.1 ∉ entries.map Prod.fst := by
      intro hmem
      exact List.disjoint_of_nodup_append hnodup hmem (List.mem_singleton.mpr rfl)
    rw [fill_concat, List.mem_append, List.mem_singleton]
    by_cases hkey : key = entry.1
    · subst hkey
      rw [AList.lookup_insert]
      constructor
      · intro h
        right
        rw [← Option.some.inj h]
      · rintro (h | h)
        · exact absurd (List.mem_map_of_mem h) hfresh
        · rw [← h]
    · rw [AList.lookup_insert_ne hkey, hinit]
      constructor
      · intro h
        exact .inl h
      · rintro (h | h)
        · exact h
        · exact absurd (congrArg Prod.fst h) hkey

/-- a table with one entry for each item of a list -/
theorem lookup_fill_map {ι : Type} {items : List ι} {key : ι → κ} (value : ι → β)
    (hnodup : (items.map key).Nodup) {item : ι} (hitem : item ∈ items) :
    (fill (items.map fun i => (key i, value i))).lookup (key item) = some (value item) := by
  have hkeys : ((items.map fun i => (key i, value i)).map Prod.fst).Nodup := by
    rw [List.map_map]
    exact hnodup
  rw [lookup_fill_iff hkeys]
  exact List.mem_map_of_mem hitem

end Tables
