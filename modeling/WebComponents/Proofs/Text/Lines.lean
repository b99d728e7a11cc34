import WebComponents.Text.Pieces

/-!
# The lines of a text

A text that was put together from lines, each with a line break after it, has these lines again and
an empty one after the last break (`lines_join`), provided that no line holds a break of its own.
-/

namespace WebComponents.Text

/-- The lines of a text; after the last line break there is one more, which may be empty. -/
def lines (text : String) : List String :=
  (split (· == '\n') text.toList).map String.ofList

theorem lines_append_break {line : String} (h : '\n' ∉ line.toList) (rest : String) :
    lines (line ++ "\n" ++ rest) = line :: lines rest := by
  have htext : (line ++ "\n" ++ rest).toList = line.toList ++ '\n' :: rest.toList := by simp
  have hbreak : ('\n' == '\n') = true := rfl
  rw [lines, htext, split_append_cons (· == '\n') _ _ hbreak, split_eq_singleton h,
    List.singleton_append, List.map_cons, String.ofList_toList, lines]

/-- Lines that are joined are the lines of the text. -/
theorem lines_join {all : List String} (h : ∀ line ∈ all, '\n' ∉ line.toList) :
    lines (String.join (all.map fun line => line ++ "\n")) = all ++ [""] := by
  induction all with
  | nil => rfl
  | cons line all ih =>
      obtain ⟨hline, hall⟩ := List.forall_mem_cons.mp h
      rw [List.map_cons, String.join_cons, lines_append_break hline, ih hall, List.cons_append]

end WebComponents.Text
