import CodeAtlas.Data.Table

/-!
# Looking up in tables

What a table says about a key after values were put in or taken out.  A table that was
filled from a list of pairs says what the last pair of the key says.
-/

namespace CodeAtlas

namespace Table

variable {κ : Type v} {α : Type u} [BEq κ]
variable {key : κ} {value : α} {entries : List (κ × α)}

theorem lookup_cons_ite (key : κ) (entry : κ × α) (entries : List (κ × α)) :
    (entry :: entries).lookup key =
      if key == entry.1 then some entry.2 else entries.lookup key := by
  obtain ⟨name, value⟩ := entry
  rw [List.lookup_cons]
  cases key == name <;> rfl

@[simp]
theorem get?_empty (key : κ) : (empty : Table κ α).get? key = none := rfl

theorem lookup_map_value {β : Type w} (f : α → β) (entries : List (κ × α)) (key : κ) :
    (entries.map (fun entry => (entry.1, f entry.2))).lookup key =
      (entries.lookup key).map f := by
  induction entries with
  | nil => rfl
  | cons entry rest ih =>
    rw [List.map_cons, lookup_cons_ite, lookup_cons_ite, ih]
    split <;> rfl

theorem get?_map {β : Type w} (f : α → β) (table : Table κ α) (key : κ) :
    (table.map f).get? key = (table.get? key).map f :=
  lookup_map_value f table.entries key

theorem map_insert {β : Type w} (f : α → β) (table : Table κ α) (key : κ) (value : α) :
    (table.insert key value).map f = (table.map f).insert key (f value) := by
  obtain ⟨entries⟩ := table
  simp only [Table.map, Table.insert, Table.mk.injEq]
  induction entries with
  | nil => rfl
  | cons entry rest ih =>
    rw [List.map_cons, insertEntries, insertEntries]
    split
    · rfl
    · rw [List.map_cons, ih]

theorem map_erase {β : Type w} (f : α → β) (table : Table κ α) (key : κ) :
    (table.erase key).map f = (table.map f).erase key := by
  obtain ⟨entries⟩ := table
  simp only [Table.map, Table.erase, Table.mk.injEq, List.filter_map]
  rfl

variable [LawfulBEq κ]

theorem mem_insertEntries {entry : κ × α} (member : entry ∈ insertEntries key value entries) :
    entry = (key, value) ∨ entry ∈ entries := by
  induction entries with
  | nil => simpa [insertEntries] using member
  | cons other rest ih =>
    rw [insertEntries] at member
    split at member
    · rename_i same
      obtain rfl : key = other.1 := by simpa using same
      rcases List.mem_cons.mp member with here | later
      · exact .inl here
      · exact .inr (List.mem_cons_of_mem _ later)
    · rcases List.mem_cons.mp member with rfl | later
      · exact .inr List.mem_cons_self
      · exact (ih later).imp_right (List.mem_cons_of_mem _)

theorem insertEntries_of_fresh (value : α) (fresh : key ∉ entries.map Prod.fst) :
    insertEntries key value entries = entries ++ [(key, value)] := by
  induction entries with
  | nil => rfl
  | cons entry rest ih =>
    rw [List.map_cons, List.mem_cons, not_or] at fresh
    rw [insertEntries, if_neg (by simpa using fresh.1), ih fresh.2]
    rfl

theorem lookup_insertEntries (key other : κ) (value : α) (entries : List (κ × α)) :
    (insertEntries key value entries).lookup other =
      if other == key then some value else entries.lookup other := by
  induction entries with
  | nil => simp [insertEntries, lookup_cons_ite]
  | cons entry rest ih =>
    by_cases same : key == entry.1
    · have equality : entry.1 = key := (eq_of_beq same).symm
      by_cases found : other == key <;>
        simp [insertEntries, lookup_cons_ite, equality, found]
    · by_cases found : other == entry.1
      · have equality : other = entry.1 := eq_of_beq found
        have different : ¬ (other == key) = true := by
          rw [equality, BEq.comm]
          exact same
        simp [insertEntries, same, lookup_cons_ite, found, different]
      · simp [insertEntries, same, lookup_cons_ite, found, ih]

theorem lookup_filter_ne (key other : κ) (entries : List (κ × α)) :
    (entries.filter (fun entry => !(key == entry.1))).lookup other =
      if other == key then none else entries.lookup other := by
  induction entries with
  | nil => simp
  | cons entry rest ih =>
    by_cases same : key == entry.1
    · have equality : entry.1 = key := (eq_of_beq same).symm
      by_cases found : other == key <;>
        simp [lookup_cons_ite, equality, found, ih]
    · by_cases found : other == entry.1
      · have equality : other = entry.1 := eq_of_beq found
        have different : ¬ (other == key) = true := by
          rw [equality, BEq.comm]
          exact same
        simp [same, lookup_cons_ite, found, different]
      · simp [same, lookup_cons_ite, found, ih]

@[simp]
theorem get?_insert (table : Table κ α) (key other : κ) (value : α) :
    (table.insert key value).get? other =
      if other == key then some value else table.get? other :=
  lookup_insertEntries key other value table.entries

@[simp]
theorem get?_erase (table : Table κ α) (key other : κ) :
    (table.erase key).get? other =
      if other == key then none else table.get? other :=
  lookup_filter_ne key other table.entries

theorem erase_eq_self {table : Table κ α} (missing : table.get? key = none) :
    table.erase key = table := by
  have apart : ∀ entry ∈ table.entries, (!(key == entry.1)) = true := by
    intro entry member
    simpa using List.lookup_eq_none_iff.mp missing entry member
  exact congrArg Table.mk (List.filter_eq_self.mpr apart)

theorem isSome_lookup_iff :
    (entries.lookup key).isSome ↔ key ∈ entries.map Prod.fst := by
  induction entries with
  | nil => simp
  | cons entry rest ih =>
    rw [lookup_cons_ite, List.map_cons, List.mem_cons, ← ih]
    by_cases same : key = entry.1
    · simp [same]
    · simp [same]

theorem mem_of_lookup (found : entries.lookup key = some value) : (key, value) ∈ entries := by
  obtain ⟨before, after, split, -⟩ := List.lookup_eq_some_iff.mp found
  rw [split]
  simp

/-- What is looked up stands in the list, and nothing else is found if each key has one
value. -/
theorem lookup_eq_some_iff
    (single : ∀ first second, (key, first) ∈ entries → (key, second) ∈ entries →
      first = second) : entries.lookup key = some value ↔ (key, value) ∈ entries := by
  constructor
  · exact mem_of_lookup
  · intro member
    obtain ⟨other, found⟩ := Option.isSome_iff_exists.mp
      (isSome_lookup_iff.mpr (List.mem_map_of_mem member))
    rw [found, single other value (mem_of_lookup found) member]

theorem lookup_filter_value (single : (entries.map Prod.fst).Nodup) (accepts : α → Bool) (key : κ) :
    (entries.filter (fun entry => accepts entry.2)).lookup key =
      (entries.lookup key).filter accepts := by
  induction entries with
  | nil => rfl
  | cons entry rest ih =>
    rw [List.map_cons, List.nodup_cons] at single
    rw [List.filter_cons, lookup_cons_ite]
    by_cases same : key == entry.1
    · obtain rfl : key = entry.1 := eq_of_beq same
      have gone : rest.lookup entry.1 = none := by
        refine List.lookup_eq_none_iff.mpr (fun other member => ?_)
        rw [bne_iff_ne]
        intro equal
        exact single.1 (equal ▸ List.mem_map_of_mem member)
      by_cases accepted : accepts entry.2 = true
      · simp [accepted, lookup_cons_ite, Option.filter]
      · simp [accepted, ih single.2, gone, Option.filter]
    · by_cases accepted : accepts entry.2 = true
      · simp [accepted, lookup_cons_ite, same, ih single.2]
      · simp [accepted, same, ih single.2]

theorem nodup_insertEntries (key : κ) (value : α) (single : (entries.map Prod.fst).Nodup) :
    ((insertEntries key value entries).map Prod.fst).Nodup := by
  induction entries with
  | nil => simp [insertEntries]
  | cons entry rest ih =>
    rw [List.map_cons, List.nodup_cons] at single
    rw [insertEntries]
    split
    · exact List.nodup_cons.mpr single
    · rename_i different
      refine List.nodup_cons.mpr ⟨fun member => ?_, ih single.2⟩
      obtain ⟨other, inside, same⟩ := List.mem_map.mp member
      rcases mem_insertEntries inside with rfl | known
      · exact different (by simp [← same])
      · exact single.1 (List.mem_map.mpr ⟨other, known, same⟩)

theorem nodup_ofList (pairs : List (κ × α)) : (ofList pairs).keys.Nodup := by
  have each : ∀ (pairs : List (κ × α)) (table : Table κ α), table.keys.Nodup →
      (pairs.foldl (fun table pair => table.insert pair.1 pair.2) table).keys.Nodup := by
    intro pairs
    induction pairs with
    | nil => exact fun _ single => single
    | cons pair rest ih =>
      exact fun table single => ih _ (nodup_insertEntries pair.1 pair.2 single)
  exact each pairs empty List.nodup_nil

/-- After putting in pairs one after the other, the last pair of a key counts. -/
theorem get?_foldl_insert (pairs : List (κ × α)) (table : Table κ α) (key : κ) :
    (pairs.foldl (fun table pair => table.insert pair.1 pair.2) table).get? key =
      (pairs.reverse.lookup key).or (table.get? key) := by
  induction pairs generalizing table with
  | nil => simp
  | cons pair rest ih =>
    rw [List.foldl_cons, ih, get?_insert, List.reverse_cons,
      List.lookup_append, lookup_cons_ite, List.lookup_nil]
    cases rest.reverse.lookup key with
    | some value => simp
    | none => by_cases same : key == pair.1 <;> simp [same]

theorem get?_ofList (pairs : List (κ × α)) (key : κ) :
    (ofList pairs).get? key = pairs.reverse.lookup key := by
  simp [ofList, get?_foldl_insert]

/-- Where a key belongs to one item at most, it is found in the items together as it is
found in that one. -/
theorem lookup_reverse_flatMap {β : Type w} {parts : β → List (κ × α)} {items : List β}
    (single : ∀ first ∈ items, ∀ second ∈ items, key ∈ (parts first).map Prod.fst →
      key ∈ (parts second).map Prod.fst → parts first = parts second) :
    (items.flatMap parts).reverse.lookup key = some value ↔
      ∃ item ∈ items, (parts item).reverse.lookup key = some value := by
  have known : ∀ {item : β} {found : α}, (parts item).reverse.lookup key = some found →
      key ∈ (parts item).map Prod.fst := by
    intro item found looked
    have member := isSome_lookup_iff.mp (Option.isSome_of_mem looked)
    rwa [List.map_reverse, List.mem_reverse] at member
  induction items generalizing value with
  | nil => simp
  | cons item items ih =>
    have rest := fun {found : α} => @ih found (fun first member second member' =>
      single first (List.mem_cons_of_mem _ member) second (List.mem_cons_of_mem _ member'))
    rw [List.flatMap_cons, List.reverse_append, List.lookup_append]
    cases later : (items.flatMap parts).reverse.lookup key with
    | none =>
      rw [Option.none_or]
      constructor
      · intro here
        exact ⟨item, List.mem_cons_self, here⟩
      · rintro ⟨other, member, looked⟩
        rcases List.mem_cons.mp member with rfl | inside
        · exact looked
        · rw [rest.mpr ⟨other, inside, looked⟩] at later
          cases later
    | some found =>
      obtain ⟨other, inside, looked⟩ := rest.mp later
      have member := List.mem_cons_of_mem item inside
      rw [Option.some_or]
      constructor
      · intro same
        exact ⟨other, member, looked.trans same⟩
      · rintro ⟨third, member', looked'⟩
        rw [single third member' other member (known looked') (known looked), looked] at looked'
        exact looked'

end Table

end CodeAtlas
