/-!
# Parameters

The parameters of a task: a finite map from keys to flags, numbers and texts,
kept as a list that ascends strictly by key, so that equal maps are equal lists.
-/

namespace Sortie

inductive Param where
  | flag (b : Bool)
  | number (x : Float)
  | text (s : String)
deriving DecidableEq

namespace Param

def number? : Param → Option Float
  | number x => some x
  | _ => none

def text? : Param → Option String
  | text s => some s
  | _ => none

theorem number?_eq_some_iff {v : Param} {x : Float} : v.number? = some x ↔ v = number x := by
  cases v <;> simp [number?]

end Param

@[ext] structure Params where
  entries : List (String × Param) := []
  sorted : entries.Pairwise (fun a b => a.1 < b.1) := by simp
deriving DecidableEq

namespace Params

instance : EmptyCollection Params := ⟨{}⟩

@[simp] theorem entries_empty : (∅ : Params).entries = [] := rfl

def insertEntry (key : String) (value : Param) :
    List (String × Param) → List (String × Param)
  | [] => [(key, value)]
  | (k, v) :: rest =>
    if key < k then (key, value) :: (k, v) :: rest
    else if key = k then (key, value) :: rest
    else (k, v) :: insertEntry key value rest

theorem mem_insertEntry {key : String} {value : Param} {entries : List (String × Param)}
    {e : String × Param} (h : e ∈ insertEntry key value entries) :
    e = (key, value) ∨ e ∈ entries := by
  induction entries with
  | nil => simpa [insertEntry] using h
  | cons head rest ih =>
    obtain ⟨k, v⟩ := head
    simp only [insertEntry] at h
    split at h
    · simpa using h
    · split at h
      · rcases List.mem_cons.1 h with h | h
        · exact .inl h
        · exact .inr (List.mem_cons_of_mem _ h)
      · rcases List.mem_cons.1 h with h | h
        · exact .inr (h ▸ List.mem_cons_self)
        · exact (ih h).imp_right (List.mem_cons_of_mem _)

theorem pairwise_insertEntry {key : String} {value : Param} {entries : List (String × Param)}
    (h : entries.Pairwise (fun a b => a.1 < b.1)) :
    (insertEntry key value entries).Pairwise (fun a b => a.1 < b.1) := by
  induction entries with
  | nil => simp [insertEntry]
  | cons head rest ih =>
    obtain ⟨k, v⟩ := head
    obtain ⟨hk, hrest⟩ := List.pairwise_cons.1 h
    simp only [insertEntry]
    split
    · rename_i hlt
      refine List.pairwise_cons.2 ⟨fun e he => ?_, h⟩
      rcases List.mem_cons.1 he with he | he
      · exact he ▸ hlt
      · exact String.lt_trans hlt (hk e he)
    · split
      · rename_i heq
        exact List.pairwise_cons.2 ⟨fun e he => heq ▸ hk e he, hrest⟩
      · rename_i hnlt hne
        refine List.pairwise_cons.2 ⟨fun e he => ?_, ih hrest⟩
        rcases mem_insertEntry he with he | he
        · -- the new key is neither below nor equal to the head's
          subst he
          have hle : k ≤ key := String.not_lt.1 hnlt
          exact Classical.byContradiction fun hn =>
            hne (String.le_antisymm (String.not_lt.1 hn) hle)
        · exact hk e he

def insert (key : String) (value : Param) (p : Params) : Params where
  entries := insertEntry key value p.entries
  sorted := pairwise_insertEntry p.sorted

def ofList (l : List (String × Param)) : Params :=
  l.foldl (fun p e => p.insert e.1 e.2) ∅

def get? (p : Params) (key : String) : Option Param :=
  p.entries.lookup key

/-- The number under a key, rounded to a single. -/
def number32? (p : Params) (key : String) : Option Float32 :=
  ((p.get? key).bind Param.number?).map Float.toFloat32

variable {p : Params} {key : String}

theorem get?_eq_some_iff {v : Param} : p.get? key = some v ↔ (key, v) ∈ p.entries := by
  rw [get?, List.lookup_eq_some_iff]
  constructor
  · rintro ⟨before, after, hEntries, -⟩
    rw [hEntries]
    exact List.mem_append_right _ List.mem_cons_self
  · intro hMem
    obtain ⟨before, after, hEntries⟩ := List.append_of_mem hMem
    refine ⟨before, after, hEntries, fun e he => ?_⟩
    -- what stands before the key is below it
    have hSorted := hEntries ▸ p.sorted
    have hBelow : e.1 < key := (List.pairwise_append.mp hSorted).2.2 e he _ List.mem_cons_self
    rw [bne_iff_ne]
    rintro rfl
    exact String.lt_irrefl _ hBelow

theorem number32?_eq_some_iff {x : Float32} :
    p.number32? key = some x ↔ ∃ v, (key, .number v) ∈ p.entries ∧ x = v.toFloat32 := by
  simp only [number32?, Option.map_eq_some_iff, Option.bind_eq_some_iff, get?_eq_some_iff,
    Param.number?_eq_some_iff]
  constructor
  · rintro ⟨v, ⟨_, hMem, rfl⟩, rfl⟩
    exact ⟨v, hMem, rfl⟩
  · rintro ⟨v, hMem, rfl⟩
    exact ⟨v, ⟨_, hMem, rfl⟩, rfl⟩

end Params

end Sortie
