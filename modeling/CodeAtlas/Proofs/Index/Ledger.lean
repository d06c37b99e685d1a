import CodeAtlas.Proofs.Index.Calls

/-!
# What was put into an index

A ledger tells, from the calls alone, which chunks an index was given since it was last
cleared.  An entry of the catalog is placed well if it points to the chunk that was given
last under its identifier.
-/

namespace CodeAtlas

/-- The dimension of an index, once there is one, whether it was made for at most 10000 chunks
and so is flat, and the chunks that it was given. -/
structure Ledger where
  dimension : Option Nat
  flat : Bool
  items : List Embedded

namespace Ledger

def empty : Ledger :=
  ⟨none, true, []⟩

/-- The ledger after an attempt to add chunks.  The first attempt fixes the dimension and the
kind of the index; all chunks come in, or none if one of them has another length. -/
def add (ledger : Ledger) : List Embedded → Ledger
  | [] => ledger
  | first :: rest =>
    let dimension := ledger.dimension.getD first.embedding.length
    let flat := ledger.dimension.elim (decide ((first :: rest).length ≤ 10000))
      (fun _ => ledger.flat)
    if ∀ item ∈ first :: rest, item.embedding.length = dimension then
      ⟨some dimension, flat, ledger.items ++ first :: rest⟩
    else ⟨some dimension, flat, ledger.items⟩

def record (ledger : Ledger) : IndexCall → Ledger
  | .add items => ledger.add items
  | .clear => empty
  | _ => ledger

def ofCalls (calls : List IndexCall) : Ledger :=
  calls.foldl record empty

def last? (ledger : Ledger) (identifier : String) : Option Embedded :=
  ledger.items.reverse.find? (fun item => item.identifier == identifier)

/-- The chunk at a position is the last one of its identifier. -/
structure LastAt (items : List Embedded) (identifier : String) (position : Nat)
    (item : Embedded) : Prop where
  found : items[position]? = some item
  named : item.identifier = identifier
  last : ∀ later other, position < later → items[later]? = some other →
    other.identifier ≠ identifier

namespace LastAt

variable {items : List Embedded} {identifier : String} {position : Nat}
  {item : Embedded}

theorem lt (lastAt : LastAt items identifier position item) :
    position < items.length :=
  (List.getElem?_eq_some_iff.mp lastAt.found).1

theorem find? (lastAt : LastAt items identifier position item) :
    items.reverse.find? (fun item => item.identifier == identifier) = some item := by
  obtain ⟨inside, equal⟩ := List.getElem?_eq_some_iff.mp lastAt.found
  have split : items =
      items.take position ++ item :: items.drop (position + 1) := by
    rw [← equal, List.getElem_cons_drop, List.take_append_drop]
  have later : ∀ other ∈ items.drop (position + 1),
      other.identifier ≠ identifier := by
    intro other member
    obtain ⟨offset, found⟩ := List.mem_iff_getElem?.mp member
    rw [List.getElem?_drop] at found
    exact lastAt.last _ other (by omega) found
  rw [split, List.reverse_append, List.reverse_cons, List.append_assoc,
    List.find?_append, List.find?_eq_none.mpr (by simpa using later)]
  simp [lastAt.named]

theorem concat (lastAt : LastAt items identifier position item)
    {added : Embedded} (different : added.identifier ≠ identifier) :
    LastAt (items ++ [added]) identifier position item where
  found := by
    rw [List.getElem?_append_left lastAt.lt]
    exact lastAt.found
  named := lastAt.named
  last later other after found := by
    rw [List.getElem?_append] at found
    split at found
    · exact lastAt.last later other after found
    · have single : other = added := by
        simpa [List.getElem?_singleton, eq_comm] using (List.mem_of_getElem? found)
      exact single ▸ different

theorem of_concat (items : List Embedded) (added : Embedded) :
    LastAt (items ++ [added]) added.identifier items.length added where
  found := by simp
  named := rfl
  last later other after found := by
    rw [List.getElem?_eq_none (by simp; omega)] at found
    cases found

end LastAt

/-- Every entry of the catalog points to the last chunk of its identifier. -/
def Places (items : List Embedded) (catalog : Catalog) : Prop :=
  ∀ identifier entry, catalog.get? identifier = some entry →
    ∃ item, LastAt items identifier entry.position item ∧ entry.record = item.record

namespace Places

variable {items : List Embedded} {catalog : Catalog}

theorem empty (items : List Embedded) : Places items Table.empty := by
  intro identifier entry found
  cases found

theorem erase (places : Places items catalog) (name : String) :
    Places items (catalog.erase name) := by
  intro identifier entry found
  rw [Table.get?_erase] at found
  split at found
  · cases found
  · exact places identifier entry found

private theorem insert (places : Places items catalog) (added : Embedded) :
    Places (items ++ [added])
      (catalog.insert added.identifier ⟨items.length, added.record⟩) := by
  intro identifier entry found
  rw [Table.get?_insert] at found
  split at found
  · rename_i same
    obtain rfl : identifier = added.identifier := eq_of_beq same
    cases found
    exact ⟨added, LastAt.of_concat items added, rfl⟩
  · rename_i different
    obtain ⟨item, lastAt, record⟩ := places identifier entry found
    refine ⟨item, lastAt.concat ?_, record⟩
    intro same
    exact different (by simp [same])

/-- Entering chunks at the next positions places them and keeps the others. -/
theorem enter (places : Places items catalog) (added : List Embedded) :
    Places (items ++ added) (catalog.enter items.length added) := by
  induction added generalizing items catalog with
  | nil => simpa [Catalog.enter] using places
  | cons first rest ih =>
    have step := ih (places.insert first)
    simpa [Catalog.enter, List.zipIdx_cons] using step

end Places

end Ledger

namespace Catalog

/-- The catalog is another one with some names taken out. -/
def Within (catalog whole : Catalog) : Prop :=
  ∃ erased : List String, catalog = erased.foldl Table.erase whole

namespace Within

theorem refl (catalog : Catalog) : catalog.Within catalog :=
  ⟨[], rfl⟩

theorem erase {catalog whole : Catalog} (within : catalog.Within whole)
    (name : String) : Catalog.Within (Table.erase catalog name) whole := by
  obtain ⟨erased, rfl⟩ := within
  exact ⟨erased ++ [name], by simp⟩

private theorem get?_foldl_erase {catalog : Catalog} {name : String}
    (missing : catalog.get? name = none) (erased : List String) :
    Table.get? (erased.foldl Table.erase catalog) name = none := by
  induction erased generalizing catalog with
  | nil => exact missing
  | cons other erased ih => exact ih (by simp [missing])

/-- If names that were there were taken out, one of them is missing. -/
theorem eq_or_missing {catalog whole : Catalog} (within : catalog.Within whole) :
    catalog = whole ∨ ∃ name entry, whole.get? name = some entry ∧
      catalog.get? name = none := by
  obtain ⟨erased, rfl⟩ := within
  induction erased generalizing whole with
  | nil => exact .inl rfl
  | cons name erased ih =>
    cases found : Table.get? whole name with
    | none => simpa [Table.erase_eq_self found] using @ih whole
    | some entry =>
      exact .inr ⟨name, entry, found, get?_foldl_erase (by simp) erased⟩

end Within

/-- Removing names keeps every property that taking out one name keeps. -/
theorem removeAll_induction (property : Catalog → Prop)
    (erase : ∀ catalog name, property catalog → property (Table.erase catalog name))
    (names : List String) (catalog : Catalog) (holds : property catalog) :
    property (catalog.removeAll names).1 := by
  induction names generalizing catalog with
  | nil => exact holds
  | cons name names ih =>
    rw [removeAll]
    split
    · exact ih _ (erase catalog name holds)
    · exact holds

end Catalog

end CodeAtlas
