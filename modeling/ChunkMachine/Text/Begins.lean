/-!
# Beginnings

Whether one text begins with another is decided character by character.
-/

namespace ChunkMachine.Text

/-- Does the text `s` begin with `front`? -/
def begins (front s : String) : Bool := front.toList.isPrefixOf s.toList

/-- A text begins with another one if something can be appended to the other to give it. -/
theorem begins_iff {front s : String} : begins front s = true ↔ ∃ t, s = front ++ t := by
  unfold begins
  rw [List.isPrefixOf_iff_prefix]
  constructor
  · rintro ⟨t, ht⟩
    refine ⟨String.ofList t, String.toList_inj.1 ?_⟩
    simp [← ht]
  · rintro ⟨t, rfl⟩
    exact ⟨t.toList, by simp⟩

end ChunkMachine.Text
