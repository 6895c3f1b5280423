/-! # Sorted names

Texts in the order of their characters' codes.
-/

namespace AgentControl.Text

def sorted (names : List String) : List String := names.mergeSort fun a b => decide (a ≤ b)

theorem sorted_perm (names : List String) : (sorted names).Perm names :=
  List.mergeSort_perm names _

end AgentControl.Text
