/-!
# Keyed lists

Lists of keys with values, in the order in which the keys first came.
-/

namespace SourceSurvey

/-- Sets the value of a key: in its place if the key is there, at the end otherwise. -/
def put {α : Type} (key : String) (value : α) : List (String × α) → List (String × α)
  | [] => [(key, value)]
  | (k, v) :: rest => if k = key then (k, value) :: rest else (k, v) :: put key value rest

/-- Setting a value keeps the order of the keys and adds the key only if it is new. -/
theorem keys_put {α : Type} (key : String) (value : α) (l : List (String × α)) :
    (put key value l).map Prod.fst =
      if key ∈ l.map Prod.fst then l.map Prod.fst else l.map Prod.fst ++ [key] := by
  induction l with
  | nil => simp [put]
  | cons head rest ih =>
    by_cases h : head.1 = key
    · simp [put, h]
    · have h' : key ≠ head.1 := fun e => h e.symm
      simp only [put, h, if_false, List.map_cons, ih, List.mem_cons, h', false_or]
      split <;> simp

/-- A value that is found is there, under its key. -/
theorem mem_of_lookup {α β : Type} [BEq α] [LawfulBEq α] {key : α} {value : β} {l : List (α × β)}
    (found : l.lookup key = some value) : (key, value) ∈ l := by
  obtain ⟨front, back, split, -⟩ := List.lookup_eq_some_iff.mp found
  rw [split]
  exact List.mem_append_right front List.mem_cons_self

end SourceSurvey
