import Mathlib.Data.List.Infix

/-!
# Entries of a delimited list

A list that is cut at every separator falls into its entries: the stretches without a separator
that reach from one separator, or the beginning, to the next, or the end.

Main results:

- Theorem {lit}`Delimited.mem_splitOn_iff`: the pieces of a list are its entries.
- Theorem {lit}`Delimited.nil_entry_iff`: when the empty list is an entry.
-/

namespace Delimited

variable {α : Type*}

/-- A stretch without a separator, from a separator or the beginning to a separator or the end. -/
structure Entry (sep : α) (l x : List α) : Prop where
  sep_not_mem : sep ∉ x
  between : ∃ pre post, l = pre ++ x ++ post ∧ (pre = [] ∨ [sep] <:+ pre) ∧
    (post = [] ∨ [sep] <+: post)

variable {sep : α} {l x : List α}

theorem entry_self (hnot : sep ∉ l) : Entry sep l l where
  sep_not_mem := hnot
  between := ⟨[], [], by simp, Or.inl rfl, Or.inl rfl⟩

/-- The first entry. -/
theorem entry_append (hnot : sep ∉ x) (rest : List α) : Entry sep (x ++ sep :: rest) x where
  sep_not_mem := hnot
  between := ⟨[], sep :: rest, rfl, Or.inl rfl, Or.inr ⟨rest, rfl⟩⟩

/-- The other entries are those after the first separator. -/
theorem Entry.append_left (hentry : Entry sep l x) (first : List α) :
    Entry sep (first ++ sep :: l) x := by
  rcases hentry with ⟨hnot, pre, post, rfl, hpre, hpost⟩
  refine ⟨hnot, first ++ sep :: pre, post, by simp, Or.inr ?_, hpost⟩
  rcases hpre with rfl | ⟨p, rfl⟩
  · exact ⟨first, rfl⟩
  · exact ⟨first ++ sep :: p, by simp⟩

variable [BEq α] [LawfulBEq α]

/-- Whatever is left and right of an entry, cutting at the separators finds it. -/
theorem Entry.mem_splitOn (hentry : Entry sep l x) : x ∈ l.splitOn sep := by
  rcases hentry with ⟨hnot, pre, post, rfl, hpre, hpost⟩
  have hhead : x ∈ (x ++ post).splitOn sep := by
    rcases hpost with rfl | ⟨q, rfl⟩
    · rw [List.append_nil, List.splitOn_eq_singleton hnot]
      exact List.mem_singleton_self x
    · rw [List.singleton_append, List.splitOn_append_cons_self_of_not_mem hnot]
      exact List.mem_cons_self
  rcases hpre with rfl | ⟨p, rfl⟩
  · exact hhead
  · rw [List.append_assoc, List.append_assoc, List.singleton_append,
      List.splitOn_append_cons_self]
    exact List.mem_append_right _ hhead

theorem entry_of_mem_splitOn (hmem : x ∈ l.splitOn sep) : Entry sep l x := by
  induction hlength : l.length using Nat.strongRecOn generalizing l with
  | ind n ih =>
      by_cases hsep : sep ∈ l
      · -- the first separator ends the first entry
        rcases List.eq_append_cons_of_mem hsep with ⟨first, rest, rfl, hnot⟩
        rw [List.splitOn_append_cons_self_of_not_mem hnot] at hmem
        rcases List.mem_cons.mp hmem with rfl | hrest
        · exact entry_append hnot rest
        · have hshorter : rest.length < n := by
            rw [← hlength, List.length_append, List.length_cons]
            omega
          exact (ih rest.length hshorter hrest rfl).append_left first
      · rw [List.splitOn_eq_singleton hsep, List.mem_singleton] at hmem
        subst hmem
        exact entry_self hsep

theorem mem_splitOn_iff : x ∈ l.splitOn sep ↔ Entry sep l x :=
  ⟨entry_of_mem_splitOn, Entry.mem_splitOn⟩

omit [BEq α] [LawfulBEq α] in
/-- The empty list is an entry of a list that is empty, begins or ends with a separator, or has
two in a row. -/
theorem nil_entry_iff :
    Entry sep l [] ↔ l = [] ∨ [sep] <+: l ∨ [sep] <:+ l ∨ [sep, sep] <:+: l := by
  constructor
  · rintro ⟨_, pre, post, rfl, hpre, hpost⟩
    rw [List.append_nil]
    rcases hpre with rfl | ⟨p, rfl⟩
    · rcases hpost with rfl | ⟨q, rfl⟩
      · exact Or.inl rfl
      · exact Or.inr (Or.inl ⟨q, rfl⟩)
    · rcases hpost with rfl | ⟨q, rfl⟩
      · exact Or.inr (Or.inr (Or.inl ⟨p, by simp⟩))
      · exact Or.inr (Or.inr (Or.inr ⟨p, q, by simp⟩))
  · have hnot : sep ∉ ([] : List α) := List.not_mem_nil
    rintro (rfl | ⟨q, rfl⟩ | ⟨p, rfl⟩ | ⟨p, q, rfl⟩)
    · exact entry_self hnot
    · exact ⟨hnot, [], [sep] ++ q, by simp, Or.inl rfl, Or.inr ⟨q, rfl⟩⟩
    · exact ⟨hnot, p ++ [sep], [], by simp, Or.inr ⟨p, rfl⟩, Or.inl rfl⟩
    · exact ⟨hnot, p ++ [sep], [sep] ++ q, by simp, Or.inr ⟨p, rfl⟩, Or.inr ⟨q, rfl⟩⟩

end Delimited
