import CodeAtlas.Path

/-!
# Texts of paths

How the text of a path grows with its components.
-/

namespace CodeAtlas

namespace Text

@[simp]
theorem join_nil (separator : String) : join separator [] = "" := rfl

@[simp]
theorem join_singleton (separator text : String) : join separator [text] = text := by
  simp [join, List.intercalate]

theorem join_cons_cons (separator first second : String) (rest : List String) :
    join separator (first :: second :: rest) =
      first ++ separator ++ join separator (second :: rest) := by
  simp [join, List.intercalate_cons_cons, String.ofList_append, String.append_assoc]

theorem join_append (separator : String) {front back : List String} (some : front ≠ [])
    (more : back ≠ []) :
    join separator (front ++ back) = join separator front ++ separator ++ join separator back := by
  obtain ⟨next, back, rfl⟩ := List.exists_cons_of_ne_nil more
  induction front with
  | nil => exact (some rfl).elim
  | cons first rest ih =>
    cases rest with
    | nil => simp [join_cons_cons]
    | cons second rest =>
      have later := ih (by simp)
      simp only [List.cons_append] at later ⊢
      rw [join_cons_cons, later, join_cons_cons]
      simp [String.append_assoc]

theorem join_concat (separator last : String) {texts : List String} (some : texts ≠ []) :
    join separator (texts ++ [last]) = join separator texts ++ separator ++ last := by
  rw [join_append separator some (by simp), join_singleton]

theorem exists_join_append (separator : String) (front : List String) {texts : List String}
    (some : texts ≠ []) :
    ∃ head, join separator (front ++ texts) = head ++ join separator texts := by
  induction front with
  | nil => exact ⟨"", by simp⟩
  | cons text front ih =>
    obtain ⟨head, rest⟩ := ih
    obtain ⟨second, more, split⟩ := List.exists_cons_of_ne_nil
      (List.append_ne_nil_of_right_ne_nil front some)
    refine ⟨text ++ separator ++ head, ?_⟩
    rw [List.cons_append, split, join_cons_cons, ← split, rest]
    simp only [String.append_assoc]

theorem contains_append (head tail : String) : contains (head ++ tail) tail = true := by
  unfold contains
  rw [String.toList_append]
  induction head.toList with
  | nil =>
    cases tail.toList with
    | nil => rfl
    | cons character rest => simp [occursIn]
  | cons character rest ih =>
    rw [List.cons_append, occursIn, ih, Bool.or_true]

theorem pieces_eq (separates : Char → Bool) (characters : List Char) :
    pieces separates characters = characters.splitOnP separates := by
  induction characters with
  | nil => rfl
  | cons character rest ih =>
    have some : pieces separates rest ≠ [] := ih ▸ List.splitOnP_ne_nil _ _
    obtain ⟨piece, later, known⟩ := List.exists_cons_of_ne_nil some
    rw [List.splitOnP_cons_eq_if_modifyHead, ← ih, pieces, List.foldr_cons, ← pieces, known]
    rfl

theorem pieces_of_none {separates : Char → Bool} {characters : List Char}
    (none : ∀ character ∈ characters, separates character = false) :
    pieces separates characters = [characters] := by
  rw [pieces_eq, List.splitOnP_eq_singleton none]

/-- Texts without a mark are told apart after they were joined by it. -/
theorem split_join {mark : String} {separator : Char} (single : mark.toList = [separator])
    {texts : List String} (some : texts ≠ []) (plain : ∀ text ∈ texts, separator ∉ text.toList) :
    split (join mark texts) separator = texts := by
  have apart : ∀ characters ∈ texts.map String.toList, separator ∉ characters :=
    List.forall_mem_map.mpr plain
  have told := List.splitOn_intercalate separator apart (by simpa using some)
  rw [split, pieces_eq, join, String.toList_ofList, single]
  exact (congrArg (List.map String.ofList) told).trans (by simp [Function.comp_def])

/-- A piece is made of characters of the whole that do not separate. -/
theorem of_mem_pieces {separates : Char → Bool} {characters piece : List Char}
    (member : piece ∈ pieces separates characters) :
    ∀ character ∈ piece, character ∈ characters ∧ separates character = false := by
  induction characters generalizing piece with
  | nil =>
    obtain rfl : piece = [] := by simpa [pieces] using member
    simp
  | cons first rest ih =>
    have later {part : List Char} (inside : part ∈ pieces separates rest) :
        ∀ character ∈ part, character ∈ first :: rest ∧ separates character = false :=
      fun character here => (ih inside character here).imp_left (List.mem_cons_of_mem _)
    rw [pieces_eq, List.splitOnP_cons_eq_if_modifyHead, ← pieces_eq] at member
    split at member
    · rcases List.mem_cons.mp member with rfl | inside
      · simp
      · exact later inside
    · rename_i here
      cases known : pieces separates rest with
      | nil => simp [known] at member
      | cons next more =>
        rw [known, List.modifyHead_cons] at member
        rcases List.mem_cons.mp member with rfl | inside
        · refine List.forall_mem_cons.mpr ⟨⟨List.mem_cons_self, by simpa using here⟩, ?_⟩
          exact later (known ▸ List.mem_cons_self)
        · exact later (known ▸ List.mem_cons_of_mem _ inside)

theorem not_mem_of_mem_split {text part : String} {separator : Char}
    (member : part ∈ split text separator) : separator ∉ part.toList := by
  obtain ⟨piece, inside, rfl⟩ := List.mem_map.mp member
  intro found
  have plain := (of_mem_pieces inside separator (by simpa using found)).2
  simp at plain

end Text

/-- A name that an entry of a folder can have. -/
structure ValidName (name : String) : Prop where
  notEmpty : name ≠ ""
  notHere : name ≠ "."
  notUp : name ≠ ".."
  noSlash : '/' ∉ name.toList
  noNull : Char.ofNat 0 ∉ name.toList

instance (name : String) : Decidable (ValidName name) :=
  decidable_of_iff (name ≠ "" ∧ name ≠ "." ∧ name ≠ ".." ∧ '/' ∉ name.toList ∧
      Char.ofNat 0 ∉ name.toList)
    ⟨fun ⟨notEmpty, notHere, notUp, noSlash, noNull⟩ =>
        ⟨notEmpty, notHere, notUp, noSlash, noNull⟩,
      fun valid => ⟨valid.notEmpty, valid.notHere, valid.notUp, valid.noSlash, valid.noNull⟩⟩

/-- A part between slashes that leads somewhere. -/
structure IsComponent (part : String) : Prop where
  notEmpty : part ≠ ""
  notHere : part ≠ "."
  noSlash : '/' ∉ part.toList

theorem ValidName.isComponent {name : String} (valid : ValidName name) : IsComponent name :=
  ⟨valid.notEmpty, valid.notHere, valid.noSlash⟩

/-- A path names a project if it is absolute and its names are valid. -/
structure Path.IsPlace (path : Path) : Prop where
  absolute : path.anchor = .root
  valid : ∀ part ∈ path.parts, ValidName part

namespace Path

theorem bareText_child (path : Path) (name : String) :
    (path.child name).bareText =
      path.bareText ++ (if path.parts = [] then "" else "/") ++ name := by
  unfold bareText child
  by_cases empty : path.parts = []
  · simp [empty]
  · simp [empty, Text.join_concat, String.append_assoc]

/-- The text of a path is a single dot, or no longer than that of an entry. -/
theorem toString_eq_or_size_le (path : Path) (name : String) :
    path.toString = "." ∨
      path.toString.utf8ByteSize ≤ (path.child name).toString.utf8ByteSize := by
  by_cases empty : path.bareText = ""
  · exact .inl (by simp [toString, empty])
  · have longer : (path.child name).bareText ≠ "" := by
      rw [bareText_child]
      simp [empty]
    right
    simp only [toString, String.isEmpty_iff, empty, longer, if_false]
    rw [bareText_child, String.utf8ByteSize_append, String.utf8ByteSize_append]
    omega

private theorem join_head {parts : List String} (some : parts ≠ [])
    (valid : ∀ part ∈ parts, IsComponent part) :
    ∃ character rest, (Text.join "/" parts).toList = character :: rest ∧
      character ≠ '/' := by
  cases parts with
  | nil => exact (some rfl).elim
  | cons first parts =>
    have firstValid := valid first (by simp)
    cases letters : first.toList with
    | nil => exact (firstValid.notEmpty (String.toList_eq_nil_iff.mp letters)).elim
    | cons character rest =>
      have different : character ≠ '/' := by
        rintro rfl
        exact firstValid.noSlash (by simp [letters])
      cases parts with
      | nil => exact ⟨character, rest, by simp [letters], different⟩
      | cons second parts =>
        have text : (Text.join "/" (first :: second :: parts)).toList =
            character :: (rest ++ ("/".toList ++
              (Text.join "/" (second :: parts)).toList)) := by
          rw [Text.join_cons_cons, String.toList_append, String.toList_append, letters,
            List.append_assoc, List.cons_append]
        exact ⟨character, _, text, different⟩

theorem toString_relative {parts : List String} (some : parts ≠ [])
    (valid : ∀ part ∈ parts, ValidName part) :
    toString ⟨.relative, parts⟩ = Text.join "/" parts := by
  obtain ⟨character, rest, start, -⟩ :=
    join_head some (fun part member => (valid part member).isComponent)
  have notEmpty : (Text.join "/" parts).isEmpty = false := by
    rw [Bool.eq_false_iff, ne_eq, String.isEmpty_iff]
    intro empty
    simp [empty] at start
  simp [toString, bareText, Anchor.text, notEmpty]

theorem toString_absolute {path : Path} (absolute : path.anchor = .root) :
    path.toString = "/" ++ Text.join "/" path.parts := by
  have notEmpty : ("/" ++ Text.join "/" path.parts).isEmpty = false := by
    rw [Bool.eq_false_iff, ne_eq, String.isEmpty_iff]
    intro empty
    have start := congrArg String.toList empty
    simp at start
  simp [toString, bareText, Anchor.text, absolute, notEmpty]

private theorem components_join {parts : List String} (some : parts ≠ [])
    (valid : ∀ part ∈ parts, IsComponent part) :
    (Text.split (Text.join "/" parts) '/').filter
        (fun part => !(part.isEmpty || part == ".")) = parts := by
  rw [Text.split_join rfl some (fun part member => (valid part member).noSlash)]
  apply List.filter_eq_self.mpr
  intro part member
  simp [(valid part member).notEmpty, (valid part member).notHere]

theorem ofString_toString_of_components {path : Path} (notDouble : path.anchor ≠ .doubleRoot)
    (valid : ∀ part ∈ path.parts, IsComponent part) : ofString path.toString = path := by
  obtain ⟨anchor, parts⟩ := path
  by_cases empty : parts = []
  · subst empty
    cases anchor with
    | relative => rfl
    | root => rfl
    | doubleRoot => exact (notDouble rfl).elim
  · obtain ⟨character, rest, letters, noSlash⟩ := join_head empty valid
    have known := components_join empty valid
    have notEmpty : Text.join "/" parts ≠ "" := by
      intro none
      simp [none] at letters
    cases anchor with
    | doubleRoot => exact (notDouble rfl).elim
    | relative =>
      have text : toString ⟨.relative, parts⟩ = Text.join "/" parts := by
        simp [toString, bareText, Anchor.text, notEmpty]
      rw [text]
      unfold ofString components
      rw [known, letters]
      simp [anchorOf, noSlash]
    | root =>
      have text : toString ⟨.root, parts⟩ = "/" ++ Text.join "/" parts := by
        simp [toString, bareText, Anchor.text]
      have slash : ("/" ++ Text.join "/" parts).toList =
          '/' :: (Text.join "/" parts).toList := by
        rw [String.toList_append]
        rfl
      have pieces : Text.split ("/" ++ Text.join "/" parts) '/' =
          "" :: Text.split (Text.join "/" parts) '/' := by
        unfold Text.split
        rw [slash]
        rfl
      rw [text]
      unfold ofString components
      rw [pieces, List.filter_cons_of_neg (by simp), known, slash, letters]
      simp [anchorOf, noSlash]

theorem ofString_toString {path : Path} (notDouble : path.anchor ≠ .doubleRoot)
    (valid : ∀ part ∈ path.parts, ValidName part) :
    ofString path.toString = path :=
  ofString_toString_of_components notDouble (fun part member => (valid part member).isComponent)

theorem isComponent_of_mem {text part : String} (member : part ∈ (ofString text).parts) :
    IsComponent part := by
  have whole := List.mem_filter.mp (show part ∈ components text from member)
  have named : part ≠ "" ∧ part ≠ "." := by simpa using whole.2
  exact ⟨named.1, named.2, Text.not_mem_of_mem_split whole.1⟩

/-- The components of a path text without null characters are valid names or lead up. -/
theorem validName_or_up {text part : String} (noNull : (ofString text).hasNull = false)
    (member : part ∈ (ofString text).parts) : ValidName part ∨ part = ".." := by
  by_cases up : part = ".."
  · exact .inr up
  · left
    have component := isComponent_of_mem member
    refine ⟨component.notEmpty, component.notHere, up, component.noSlash, ?_⟩
    have clean := List.any_eq_false.mp noNull part member
    simpa using clean

private theorem validNames_climb {parts : List String}
    (names : ∀ part ∈ parts, ValidName part ∨ part = "..") (passed : List String)
    (valid : ∀ part ∈ passed, ValidName part) :
    ∀ part ∈ parts.foldl climb passed, ValidName part := by
  induction parts generalizing passed with
  | nil => exact valid
  | cons first rest ih =>
    obtain ⟨here, later⟩ := List.forall_mem_cons.mp names
    refine ih later (climb passed first) ?_
    unfold climb
    split
    · exact fun part member => valid part (List.mem_of_mem_tail member)
    · rename_i notUp
      refine List.forall_mem_cons.mpr ⟨?_, valid⟩
      rcases here with name | up
      · exact name
      · simp [up] at notUp

/-- A path that was made absolute has valid names, if the working directory has. -/
theorem validNames_resolve {text : String} {workingDirectory : Path}
    (noNull : (ofString text).hasNull = false)
    (valid : ∀ part ∈ workingDirectory.parts, ValidName part) :
    ∀ part ∈ ((ofString text).resolve workingDirectory).parts, ValidName part := by
  intro part member
  have inside : part ∈
      ((workingDirectory ++ ofString text).parts.foldl climb []).reverse := member
  refine validNames_climb ?_ [] (by simp) part (List.mem_reverse.mp inside)
  intro other known
  have joined : (workingDirectory ++ ofString text).parts =
      (append workingDirectory (ofString text)).parts := rfl
  rw [joined, append] at known
  split at known
  · exact validName_or_up noNull known
  · rcases List.mem_append.mp known with own | further
    · exact .inl (valid other own)
    · exact validName_or_up noNull further

/-- Without double dots every component leads down. -/
theorem foldl_climb {parts : List String} (plain : ∀ part ∈ parts, part ≠ "..")
    (passed : List String) : parts.foldl climb passed = parts.reverse ++ passed := by
  induction parts generalizing passed with
  | nil => rfl
  | cons first rest ih =>
    obtain ⟨here, later⟩ := List.forall_mem_cons.mp plain
    have step : climb passed first = first :: passed := by
      simp [climb, here]
    rw [List.foldl_cons, step, ih later, List.reverse_cons, List.append_assoc]
    rfl

section Onward

variable {path base : Path} {more : List String} (anchor : path.anchor = base.anchor)
variable (parts : path.parts = base.parts ++ more)

include anchor parts

theorem parts_append (workingDirectory : Path) :
    (workingDirectory ++ path).parts = (workingDirectory ++ base).parts ++ more := by
  show (append _ _).parts = (append _ _).parts ++ more
  unfold append isAbsolute
  rw [anchor]
  split
  · exact parts
  · rw [parts, List.append_assoc]

/-- Without double dots, what goes on from a path leads below it. -/
theorem resolve_append (plain : ∀ part ∈ more, part ≠ "..") (workingDirectory : Path) :
    (path.resolve workingDirectory).parts = (base.resolve workingDirectory).parts ++ more := by
  rw [resolve, resolve, parts_append anchor parts, normalParts, List.foldl_append,
    foldl_climb plain, normalParts, List.reverse_append, List.reverse_reverse]

end Onward

theorem IsPlace.plain {path : Path} (isPlace : path.IsPlace) : ∀ part ∈ path.parts, part ≠ ".." :=
  fun part member => (isPlace.valid part member).notUp

theorem IsPlace.ofString_toString {path : Path} (isPlace : path.IsPlace) :
    ofString path.toString = path :=
  Path.ofString_toString (by simp [isPlace.absolute]) isPlace.valid

theorem resolve_toString {path : Path} (isPlace : path.IsPlace) (workingDirectory : Path) :
    (ofString path.toString).resolve workingDirectory = path := by
  rw [isPlace.ofString_toString]
  have plain := isPlace.plain
  obtain ⟨anchor, parts⟩ := path
  obtain rfl : anchor = .root := isPlace.absolute
  have joined : workingDirectory ++ (⟨.root, parts⟩ : Path) = ⟨.root, parts⟩ := rfl
  rw [resolve, joined, normalParts, foldl_climb plain, List.append_nil, List.reverse_reverse]

theorem eq_append_of_stripParts {leads parts rest : List String}
    (stripped : stripParts leads parts = some rest) : parts = leads ++ rest := by
  induction leads generalizing parts with
  | nil => simpa [stripParts] using stripped
  | cons lead leads ih =>
    cases parts with
    | nil => cases stripped
    | cons part parts =>
      simp only [stripParts, beq_iff_eq] at stripped
      split at stripped
      · rename_i same
        rw [same, ih stripped, List.cons_append]
      · cases stripped

theorem eq_of_relativeTo? {path base inside : Path} (seen : path.relativeTo? base = some inside) :
    inside.anchor = .relative ∧ path.anchor = base.anchor ∧
      path.parts = base.parts ++ inside.parts := by
  unfold relativeTo? at seen
  split at seen
  · rename_i here
    obtain ⟨anchor, parts⟩ : base.anchor = .relative ∧ base.parts = [] := by simpa using here
    split at seen
    · rename_i relative
      obtain rfl := Option.some.inj seen
      exact ⟨relative, relative.trans anchor.symm, by rw [parts, List.nil_append]⟩
    · cases seen
  · split at seen
    · rename_i anchor
      obtain ⟨parts, stripped, rfl⟩ := Option.map_eq_some_iff.mp seen
      exact ⟨rfl, anchor, eq_append_of_stripParts stripped⟩
    · cases seen

theorem hasNull_eq_false {path : Path} (valid : ∀ part ∈ path.parts, ValidName part) :
    path.hasNull = false := by
  refine List.any_eq_false.mpr (fun part member => ?_)
  simpa using (valid part member).noNull

theorem hasNull_ofString_toString {path : Path} (isPlace : path.IsPlace) :
    (ofString path.toString).hasNull = false := by
  rw [isPlace.ofString_toString]
  exact hasNull_eq_false isPlace.valid

end Path

end CodeAtlas
