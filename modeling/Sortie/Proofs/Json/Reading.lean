import Sortie.Proofs.Json.Scalar

/-!
# Values that are read back

What is written of a value is read as a document that spells it: one without flaws
that holds the parts of the value in their order, wherever they stand in the text.
This holds as long as the numbers in the value are read back, its brackets nest no
deeper than a reader follows them, and the reader wants all its fields.
-/

namespace Sortie.Json

mutual

/-- A document without flaws that holds a value, wherever its parts stand. -/
inductive Doc.Spells : Doc → Value → Prop
  | scalar (s : Scalar) (stop : Nat) : Doc.Spells (.scalar s stop) (.scalar s)
  | list {start : Nat} {members : Members} {items : List Value} (h : Members.Spell members items) :
    Doc.Spells (.list start members) (.list items)
  | map {start : Nat} {fields : Fields} {pairs : List (String × Value)}
    (h : Fields.Spell fields pairs) : Doc.Spells (.map start fields) (.map pairs)

inductive Members.Spell : Members → List Value → Prop
  | done (stop : Nat) : Members.Spell (.done stop) []
  | member {start : Nat} {d : Doc} {v : Value} {rest : Members} {items : List Value}
    (hValue : Doc.Spells d v) (hRest : Members.Spell rest items) :
    Members.Spell (.member start d rest) (v :: items)

inductive Fields.Spell : Fields → List (String × Value) → Prop
  | done (stop : Nat) : Fields.Spell (.done stop) []
  | field {key : String} {keyEnd valueEnd : Nat} {d : Doc} {v : Value} {rest : Fields}
    {pairs : List (String × Value)} (hValue : Doc.Spells d v) (hRest : Fields.Spell rest pairs) :
    Fields.Spell (.field key keyEnd d valueEnd rest) ((key, v) :: pairs)

end

theorem Cursor.skipBlanks_of_head {a : Char} (h : isBlank a = false) (rest : List Char)
    (index : Nat) : skipBlanks ⟨a :: rest, index⟩ = ⟨a :: rest, index⟩ := by
  simp [skipBlanks, h]

theorem Cursor.isBlank_punctuation :
    isBlank ',' = false ∧ isBlank ':' = false ∧ isBlank '"' = false ∧ isBlank '[' = false ∧
      isBlank ']' = false ∧ isBlank '{' = false ∧ isBlank '}' = false := by
  decide

def Opens (cs : List Char) : Prop :=
  ∃ a rest, cs = a :: rest ∧ Cursor.isBlank a = false ∧ a ≠ ']'

theorem Opens.append {cs : List Char} (h : Opens cs) (after : List Char) : Opens (cs ++ after) := by
  obtain ⟨a, rest, rfl, hHead⟩ := h
  exact ⟨a, rest ++ after, rfl, hHead⟩

theorem Opens.length_pos {cs : List Char} (h : Opens cs) : 0 < cs.length := by
  obtain ⟨a, rest, rfl, -⟩ := h
  simp

namespace Value

def body (close : Char) (parts : List String) : List Char :=
  (",".intercalate parts).toList ++ [close]

def tail (close : Char) (parts : List String) : List Char :=
  parts.flatMap (fun p => ',' :: p.toList) ++ [close]

theorem tail_cons (close : Char) (p : String) (parts : List String) :
    tail close (p :: parts) = ',' :: (p.toList ++ tail close parts) := by
  simp [tail]

theorem body_nil (close : Char) : body close [] = [close] := by
  simp [body]

theorem body_cons (close : Char) (p : String) (parts : List String) :
    body close (p :: parts) = p.toList ++ tail close parts := by
  rw [body]
  induction parts generalizing p with
  | nil => simp [tail]
  | cons q parts ih =>
    rw [String.intercalate_cons_cons, tail_cons, ← ih q]
    simp

theorem length_tail_pos (close : Char) (parts : List String) : 0 < (tail close parts).length := by
  simp [tail]

theorem follows_tail {close : Char} (h : close = ']' ∨ close = '}') (parts : List String)
    (after : List Char) : Follows (tail close parts ++ after) := by
  cases parts with
  | nil => exact .cons (.inr h)
  | cons p parts =>
    rw [tail_cons]
    exact .cons (.inl rfl)

theorem renderItems_eq_map (items : List Value) : renderItems items = items.map render := by
  induction items with
  | nil => rw [renderItems, List.map_nil]
  | cons v items ih => rw [renderItems, List.map_cons, ih]

theorem renderFields_eq_map (pairs : List (String × Value)) :
    renderFields pairs = pairs.map renderField := by
  induction pairs with
  | nil => rw [renderFields, List.map_nil]
  | cons f pairs ih => rw [renderFields, List.map_cons, ih]

/-- A scan ends in front of what follows and has found what it should; or it fails, if it may. -/
def Ends {α : Type} (mayFail : Prop) (found : α → Prop) (after : List Char)
    (o : α × Except Fault Cursor) : Prop :=
  (∃ a i, found a ∧ o = (a, .ok ⟨after, i⟩)) ∨ mayFail ∧ ∃ a f, o = (a, .error f)

/-- What is written of a value is read as a document that spells it, up to what follows. -/
structure ReadsBack (mayFail : Prop) (wanted : Interest) (depth : Nat) (v : Value) : Prop where
  opens : Opens v.render.toList
  scan : ∀ fuel index after, v.render.toList.length ≤ fuel → Follows after →
    Ends mayFail (·.Spells v) after (Doc.scan wanted fuel depth ⟨v.render.toList ++ after, index⟩)

end Value

namespace Doc

variable {wanted : Interest} {fuel depth start index : Nat} {cs rest after : List Char} {v : Value}
  {mayFail : Prop}

def addMember (wanted : Interest) (fuel depth start : Nat) :
    Doc × Except Fault Cursor → Members × Except Fault Cursor
  | (value, .ok next) =>
    let (members, next) := scanMembers wanted fuel depth false next
    (.member start value members, next)
  | (value, .error f) => (.member start value (.gap (.inside f)), .error f)

theorem scanMembers_close (first : Bool) :
    scanMembers wanted (fuel + 1) depth first ⟨']' :: rest, index⟩ =
      (.done (index + 1), .ok ⟨rest, index + 1⟩) := by
  simp [scanMembers, Cursor.skipBlanks_of_head, Cursor.isBlank_punctuation]

theorem scanMembers_first (hOpens : Opens cs) :
    scanMembers wanted (fuel + 1) depth true ⟨cs, index⟩ =
      addMember wanted fuel depth index (scan wanted fuel depth ⟨cs, index⟩) := by
  obtain ⟨a, rest, rfl, hBlank, hClose⟩ := hOpens
  simp only [scanMembers, Cursor.skipBlanks_of_head hBlank, if_true]
  rfl

theorem scanMembers_next (hOpens : Opens cs) :
    scanMembers wanted (fuel + 1) depth false ⟨',' :: cs, index⟩ =
      addMember wanted fuel depth (index + 1) (scan wanted fuel depth ⟨cs, index + 1⟩) := by
  obtain ⟨a, rest, rfl, hBlank, hClose⟩ := hOpens
  simp [scanMembers, Cursor.skipBlanks_of_head, Cursor.isBlank_punctuation, hBlank, hClose]
  rfl

theorem ends_addMember {items : List Value} {o : Doc × Except Fault Cursor}
    (hValue : Value.Ends mayFail (·.Spells v) rest o)
    (hRest : ∀ i, Value.Ends mayFail (·.Spell items) after
      (scanMembers wanted fuel depth false ⟨rest, i⟩)) :
    Value.Ends mayFail (·.Spell (v :: items)) after (addMember wanted fuel depth start o) := by
  obtain ⟨d, i, hSpells, rfl⟩ | ⟨hMay, d, f, rfl⟩ := hValue
  · obtain ⟨members, j, hSpell, hScan⟩ | ⟨hMay, members, f, hScan⟩ := hRest i
    · exact .inl ⟨.member start d members, j, .member hSpells hSpell, by rw [addMember, hScan]⟩
    · exact .inr ⟨hMay, .member start d members, f, by rw [addMember, hScan]⟩
  · exact .inr ⟨hMay, _, f, rfl⟩

def addField (wanted : Interest) (fuel depth keyEnd : Nat) (key : String) :
    Doc × Except Fault Cursor → Fields × Except Fault Cursor
  | (value, .ok next) =>
    let (fields, after) := scanFields wanted fuel depth false next
    (.field key keyEnd value next.settle fields, after)
  | (value, .error f) => (.field key keyEnd value keyEnd (.gap f), .error f)

theorem scanFields_close (first : Bool) :
    scanFields wanted (fuel + 1) depth first ⟨'}' :: rest, index⟩ =
      (.done (index + 1), .ok ⟨rest, index + 1⟩) := by
  simp [scanFields, Cursor.skipBlanks_of_head, Cursor.isBlank_punctuation]

variable {key : String} {colon : Nat}

theorem scanFields_first (hKey : Text.scan ⟨cs, index + 1⟩ = .ok (key, ⟨':' :: rest, colon⟩))
    (hWanted : wanted depth key = true) :
    scanFields wanted (fuel + 1) depth true ⟨'"' :: cs, index⟩ =
      addField wanted fuel depth (Cursor.settle ⟨':' :: rest, colon⟩) key
        (scan wanted fuel depth ⟨rest, colon + 1⟩) := by
  simp [scanFields, Cursor.skipBlanks_of_head, Cursor.isBlank_punctuation, hKey, hWanted]
  rfl

theorem scanFields_next (hKey : Text.scan ⟨cs, index + 2⟩ = .ok (key, ⟨':' :: rest, colon⟩))
    (hWanted : wanted depth key = true) :
    scanFields wanted (fuel + 1) depth false ⟨',' :: '"' :: cs, index⟩ =
      addField wanted fuel depth (Cursor.settle ⟨':' :: rest, colon⟩) key
        (scan wanted fuel depth ⟨rest, colon + 1⟩) := by
  simp [scanFields, Cursor.skipBlanks_of_head, Cursor.isBlank_punctuation, hKey, hWanted]
  rfl

theorem ends_addField {keyEnd : Nat} {pairs : List (String × Value)} {o : Doc × Except Fault Cursor}
    (hValue : Value.Ends mayFail (·.Spells v) rest o)
    (hRest : ∀ i, Value.Ends mayFail (·.Spell pairs) after
      (scanFields wanted fuel depth false ⟨rest, i⟩)) :
    Value.Ends mayFail (·.Spell ((key, v) :: pairs)) after (addField wanted fuel depth keyEnd key o) := by
  obtain ⟨d, i, hSpells, rfl⟩ | ⟨hMay, d, f, rfl⟩ := hValue
  · obtain ⟨fields, j, hSpell, hScan⟩ | ⟨hMay, fields, f, hScan⟩ := hRest i
    · refine .inl ⟨.field key keyEnd d (Cursor.settle ⟨rest, i⟩) fields, j, .field hSpells hSpell, ?_⟩
      rw [addField, hScan]
    · refine .inr ⟨hMay, .field key keyEnd d (Cursor.settle ⟨rest, i⟩) fields, f, ?_⟩
      rw [addField, hScan]
  · exact .inr ⟨hMay, _, f, rfl⟩

end Doc

namespace Value

variable {mayFail : Prop} {wanted : Interest} {depth : Nat} {items : List Value}
  {pairs : List (String × Value)}

theorem readsBack_scalar {s : Scalar} (h : s.ReadsBack) : (scalar s).ReadsBack mayFail wanted depth := by
  have hHead : ∃ a rest, s.render.toList = a :: rest ∧
      Cursor.isBlank a = false ∧ a ≠ '[' ∧ a ≠ ']' ∧ a ≠ '{' := by
    obtain ⟨i, hScan⟩ := Doc.scanScalar_render h .nil 0
    simpa using Doc.head_of_scalar hScan
  obtain ⟨a, rest, hRender, hBlank, hList, hClose, hMap⟩ := hHead
  refine ⟨⟨a, rest, hRender, hBlank, hClose⟩, fun fuel index after hFuel hAfter => ?_⟩
  obtain ⟨i, hScan⟩ := Doc.scanScalar_render h hAfter index
  rw [render, hRender, List.cons_append]
  rw [hRender, List.cons_append] at hScan
  rw [render, hRender, List.length_cons] at hFuel
  obtain ⟨fuel, rfl⟩ : ∃ k, fuel = k + 1 := ⟨fuel - 1, by omega⟩
  refine .inl ⟨.scalar s i, i, .scalar s i, ?_⟩
  simp [Doc.scan, Cursor.skipBlanks_of_head hBlank, Doc.ofScalar, hScan, hList, hMap]

/-- The members behind the first one are read up to the bracket. -/
theorem scanMembers_tail (h : ∀ v ∈ items, v.ReadsBack mayFail wanted depth) (fuel index : Nat)
    (after : List Char) (hFuel : (tail ']' (items.map render)).length ≤ fuel) :
    Ends mayFail (·.Spell items) after
      (Doc.scanMembers wanted fuel depth false ⟨tail ']' (items.map render) ++ after, index⟩) := by
  induction items generalizing fuel index with
  | nil =>
    have hTail := length_tail_pos ']' []
    rw [List.map_nil] at hFuel
    obtain ⟨fuel, rfl⟩ : ∃ k, fuel = k + 1 := ⟨fuel - 1, by omega⟩
    exact .inl ⟨_, _, .done _, Doc.scanMembers_close false⟩
  | cons v items ih =>
    obtain ⟨hValue, hRest⟩ := List.forall_mem_cons.mp h
    rw [List.map_cons, tail_cons] at hFuel ⊢
    have hTail := length_tail_pos ']' (items.map render)
    -- a comma stands before the member, so what is left of the fuel outlasts it and the rest
    simp only [List.length_cons, List.length_append] at hFuel
    obtain ⟨fuel, rfl⟩ : ∃ k, fuel = k + 1 := ⟨fuel - 1, by omega⟩
    rw [List.cons_append, List.append_assoc, Doc.scanMembers_next (hValue.opens.append _)]
    exact Doc.ends_addMember (hValue.scan fuel _ _ (by omega) (follows_tail (.inl rfl) _ _))
      fun i => ih hRest fuel i (by omega)

theorem scanMembers_body (h : ∀ v ∈ items, v.ReadsBack mayFail wanted depth) (fuel index : Nat)
    (after : List Char) (hFuel : (body ']' (items.map render)).length ≤ fuel) :
    Ends mayFail (·.Spell items) after
      (Doc.scanMembers wanted fuel depth true ⟨body ']' (items.map render) ++ after, index⟩) := by
  cases items with
  | nil =>
    rw [List.map_nil, body_nil] at hFuel ⊢
    rw [List.length_singleton] at hFuel
    obtain ⟨fuel, rfl⟩ : ∃ k, fuel = k + 1 := ⟨fuel - 1, by omega⟩
    exact .inl ⟨_, _, .done _, Doc.scanMembers_close true⟩
  | cons v items =>
    obtain ⟨hValue, hRest⟩ := List.forall_mem_cons.mp h
    rw [List.map_cons, body_cons] at hFuel ⊢
    -- no comma stands here, but neither the member nor the rest is empty
    have hTail := length_tail_pos ']' (items.map render)
    have hHead := hValue.opens.length_pos
    rw [List.length_append] at hFuel
    obtain ⟨fuel, rfl⟩ : ∃ k, fuel = k + 1 := ⟨fuel - 1, by omega⟩
    rw [List.append_assoc, Doc.scanMembers_first (hValue.opens.append _)]
    exact Doc.ends_addMember (hValue.scan fuel _ _ (by omega) (follows_tail (.inl rfl) _ _))
      fun i => scanMembers_tail hRest fuel i after (by omega)

theorem readsBack_list (hDepth : depth < maxDepth ∨ mayFail)
    (h : ∀ v ∈ items, v.ReadsBack mayFail wanted (depth + 1)) :
    (Value.list items).ReadsBack mayFail wanted depth := by
  have hRender : (Value.list items).render.toList = '[' :: body ']' (items.map render) := by
    simp [render, body, renderItems_eq_map]
  refine ⟨⟨'[', _, hRender, by decide, by decide⟩, fun fuel index after hFuel _ => ?_⟩
  rw [hRender, List.length_cons] at hFuel
  obtain ⟨fuel, rfl⟩ : ∃ k, fuel = k + 1 := ⟨fuel - 1, by omega⟩
  rw [hRender, List.cons_append]
  simp only [Doc.scan, Cursor.skipBlanks_of_head, Cursor.isBlank_punctuation]
  split
  · exact .inr ⟨hDepth.resolve_left (by omega), _, _, rfl⟩
  · obtain ⟨members, i, hSpell, hScan⟩ | ⟨hMay, members, f, hScan⟩ :=
      scanMembers_body h fuel (index + 1) after (by omega)
    · exact .inl ⟨.list index members, i, .list hSpell, by rw [hScan]⟩
    · exact .inr ⟨hMay, .list index members, f, by rw [hScan]⟩

theorem toList_renderField (key : String) (v : Value) :
    (renderField (key, v)).toList =
      '"' :: (key.toList.flatMap escape ++ '"' :: ':' :: v.render.toList) := by
  simp [renderField, toList_renderText]

/-- The fields behind the first one are read up to the bracket. -/
theorem scanFields_tail (hWanted : ∀ f ∈ pairs, wanted depth f.1)
    (h : ∀ f ∈ pairs, f.2.ReadsBack mayFail wanted depth) (fuel index : Nat) (after : List Char)
    (hFuel : (tail '}' (pairs.map renderField)).length ≤ fuel) :
    Ends mayFail (·.Spell pairs) after
      (Doc.scanFields wanted fuel depth false ⟨tail '}' (pairs.map renderField) ++ after, index⟩) := by
  induction pairs generalizing fuel index with
  | nil =>
    have hTail := length_tail_pos '}' []
    rw [List.map_nil] at hFuel
    obtain ⟨fuel, rfl⟩ : ∃ k, fuel = k + 1 := ⟨fuel - 1, by omega⟩
    exact .inl ⟨_, _, .done _, Doc.scanFields_close false⟩
  | cons f pairs ih =>
    obtain ⟨key, v⟩ := f
    obtain ⟨hKeyWanted, hRestWanted⟩ := List.forall_mem_cons.mp hWanted
    obtain ⟨hValue, hRest⟩ := List.forall_mem_cons.mp h
    replace hValue : v.ReadsBack mayFail wanted depth := hValue
    rw [List.map_cons, tail_cons, toList_renderField] at hFuel ⊢
    have hTail := length_tail_pos '}' (pairs.map renderField)
    simp only [List.length_cons, List.length_append] at hFuel
    obtain ⟨fuel, rfl⟩ : ∃ k, fuel = k + 1 := ⟨fuel - 1, by omega⟩
    obtain ⟨colon, hKey⟩ := Text.scan_quoted key
      (':' :: (v.render.toList ++ (tail '}' (pairs.map renderField) ++ after))) (index + 2)
    simp only [List.cons_append, List.append_assoc]
    rw [Doc.scanFields_next hKey hKeyWanted]
    exact Doc.ends_addField (hValue.scan fuel _ _ (by omega) (follows_tail (.inr rfl) _ _))
      fun i => ih hRestWanted hRest fuel i (by omega)

theorem scanFields_body (hWanted : ∀ f ∈ pairs, wanted depth f.1)
    (h : ∀ f ∈ pairs, f.2.ReadsBack mayFail wanted depth) (fuel index : Nat) (after : List Char)
    (hFuel : (body '}' (pairs.map renderField)).length ≤ fuel) :
    Ends mayFail (·.Spell pairs) after
      (Doc.scanFields wanted fuel depth true ⟨body '}' (pairs.map renderField) ++ after, index⟩) := by
  cases pairs with
  | nil =>
    rw [List.map_nil, body_nil] at hFuel ⊢
    rw [List.length_singleton] at hFuel
    obtain ⟨fuel, rfl⟩ : ∃ k, fuel = k + 1 := ⟨fuel - 1, by omega⟩
    exact .inl ⟨_, _, .done _, Doc.scanFields_close true⟩
  | cons f pairs =>
    obtain ⟨key, v⟩ := f
    obtain ⟨hKeyWanted, hRestWanted⟩ := List.forall_mem_cons.mp hWanted
    obtain ⟨hValue, hRest⟩ := List.forall_mem_cons.mp h
    replace hValue : v.ReadsBack mayFail wanted depth := hValue
    rw [List.map_cons, body_cons, toList_renderField] at hFuel ⊢
    have hTail := length_tail_pos '}' (pairs.map renderField)
    simp only [List.cons_append, List.length_cons, List.length_append] at hFuel
    obtain ⟨fuel, rfl⟩ : ∃ k, fuel = k + 1 := ⟨fuel - 1, by omega⟩
    obtain ⟨colon, hKey⟩ := Text.scan_quoted key
      (':' :: (v.render.toList ++ (tail '}' (pairs.map renderField) ++ after))) (index + 1)
    simp only [List.cons_append, List.append_assoc]
    rw [Doc.scanFields_first hKey hKeyWanted]
    exact Doc.ends_addField (hValue.scan fuel _ _ (by omega) (follows_tail (.inr rfl) _ _))
      fun i => scanFields_tail hRestWanted hRest fuel i after (by omega)

theorem readsBack_map (hDepth : depth < maxDepth ∨ mayFail)
    (hWanted : ∀ f ∈ pairs, wanted (depth + 1) f.1)
    (h : ∀ f ∈ pairs, f.2.ReadsBack mayFail wanted (depth + 1)) :
    (Value.map pairs).ReadsBack mayFail wanted depth := by
  have hRender : (Value.map pairs).render.toList = '{' :: body '}' (pairs.map renderField) := by
    simp [render, body, renderFields_eq_map]
  refine ⟨⟨'{', _, hRender, by decide, by decide⟩, fun fuel index after hFuel _ => ?_⟩
  rw [hRender, List.length_cons] at hFuel
  obtain ⟨fuel, rfl⟩ : ∃ k, fuel = k + 1 := ⟨fuel - 1, by omega⟩
  rw [hRender, List.cons_append]
  simp only [Doc.scan, Cursor.skipBlanks_of_head, Cursor.isBlank_punctuation]
  split
  · exact .inr ⟨hDepth.resolve_left (by omega), _, _, rfl⟩
  · obtain ⟨fields, i, hSpell, hScan⟩ | ⟨hMay, fields, f, hScan⟩ :=
      scanFields_body hWanted h fuel (index + 1) after (by omega)
    · exact .inl ⟨.map index fields, i, .map hSpell, by rw [hScan]⟩
    · exact .inr ⟨hMay, .map index fields, f, by rw [hScan]⟩

/-- Scalars that are read back, wanted fields, and brackets that nest no deeper than they may. -/
inductive Legible (mayFail : Prop) (wanted : Interest) : Nat → Value → Prop
  | scalar {depth : Nat} {s : Scalar} (h : s.ReadsBack) : Legible mayFail wanted depth (.scalar s)
  | list {depth : Nat} {items : List Value} (hDepth : depth < maxDepth ∨ mayFail)
    (hItems : ∀ v ∈ items, Legible mayFail wanted (depth + 1) v) :
    Legible mayFail wanted depth (.list items)
  | map {depth : Nat} {pairs : List (String × Value)} (hDepth : depth < maxDepth ∨ mayFail)
    (hWanted : ∀ f ∈ pairs, wanted (depth + 1) f.1)
    (hFields : ∀ f ∈ pairs, Legible mayFail wanted (depth + 1) f.2) :
    Legible mayFail wanted depth (.map pairs)

theorem Legible.readsBack {v : Value} (h : v.Legible mayFail wanted depth) :
    v.ReadsBack mayFail wanted depth := by
  induction h with
  | scalar h => exact readsBack_scalar h
  | list hDepth _ ih => exact readsBack_list hDepth ih
  | map hDepth hWanted _ ih => exact readsBack_map hDepth hWanted ih

/-- The text of a legible value is a document that spells it, and nothing follows; or its scan fails. -/
theorem Legible.ofText_cases {v : Value} (h : v.Legible mayFail wanted 0) :
    ∃ d, Doc.ofText wanted v.render = (d, none) ∧ (d.Spells v ∨
      mayFail ∧ ∃ fuel c f, Doc.scan wanted fuel 0 c = (d, .error f)) := by
  have hEnds := h.readsBack.scan (2 * v.render.toList.length + 2) 0 [] (by omega) .nil
  rw [List.append_nil] at hEnds
  obtain ⟨d, i, hSpells, hScan⟩ | ⟨hMay, d, f, hScan⟩ := hEnds
  · exact ⟨d, by simp [Doc.ofText, hScan, Cursor.skipBlanks], .inl hSpells⟩
  · exact ⟨d, by simp [Doc.ofText, hScan], .inr ⟨hMay, _, _, f, hScan⟩⟩

theorem Legible.ofText_render {v : Value} (h : v.Legible False wanted 0) :
    ∃ d, d.Spells v ∧ Doc.ofText wanted v.render = (d, none) := by
  obtain ⟨d, hText, hSpells⟩ := h.ofText_cases
  exact ⟨d, hSpells.resolve_right And.left, hText⟩

/-- A reader of documents that answers the same for all spellings of a value reads its text so. -/
theorem Legible.read_render {α : Type} {v : Value} {reader : Doc → Except Fault α} {a : α}
    (h : v.Legible False wanted 0) (hReader : ∀ d, d.Spells v → reader d = .ok a) :
    Doc.read wanted reader v.render = .ok a := by
  obtain ⟨d, hSpells, hText⟩ := h.ofText_render
  simp only [Doc.read, hText, hReader d hSpells]
  rfl

end Value

end Sortie.Json
