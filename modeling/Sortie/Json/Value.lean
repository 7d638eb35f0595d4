/-!
# JSON values

Integers that fit 64 bits are kept apart from all other numbers. The fields of
an object have distinct keys, in the order in which the keys first came.
-/

namespace Sortie.Json

inductive Number where
  | integer (n : Int)
  | real (x : Float)
deriving DecidableEq

namespace Number

def toFloat : Number → Float
  | integer n => Float.ofInt n
  | real x => x

end Number

inductive Scalar where
  | null
  | bool (b : Bool)
  | number (n : Number)
  | text (s : String)
deriving DecidableEq

inductive Value where
  | scalar (s : Scalar)
  | list (items : List Value)
  | map (fields : List (String × Value))

/-- Sets a key: in its place if it is there, else at the end. -/
def setField {α : Type} (key : String) (value : α) : List (String × α) → List (String × α)
  | [] => [(key, value)]
  | (k, v) :: rest => if k = key then (key, value) :: rest else (k, v) :: setField key value rest

theorem keys_setField_of_mem {α : Type} {key : String} {value : α} {fields : List (String × α)}
    (h : key ∈ fields.map Prod.fst) :
    (setField key value fields).map Prod.fst = fields.map Prod.fst := by
  induction fields with
  | nil => simp at h
  | cons head rest ih =>
    obtain ⟨k, v⟩ := head
    by_cases hk : k = key
    · simp [setField, hk]
    · have hmem : key ∈ rest.map Prod.fst := by
        rcases List.mem_cons.1 h with h | h
        · exact absurd h.symm hk
        · exact h
      simp [setField, hk, ih hmem]

theorem setField_of_not_mem {α : Type} {key : String} {value : α} {fields : List (String × α)}
    (h : key ∉ fields.map Prod.fst) : setField key value fields = fields ++ [(key, value)] := by
  induction fields with
  | nil => rfl
  | cons head rest ih =>
    obtain ⟨k, v⟩ := head
    simp only [List.map_cons, List.mem_cons, not_or] at h
    simp [setField, Ne.symm h.1, ih h.2]

end Sortie.Json
