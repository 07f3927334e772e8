import FormulaExport.Index
import FormulaExport.Proofs.Attempt
import FormulaExport.Proofs.OrderedMap

/-!
# What is in an index

Building an index succeeds exactly if every tuple that counts can be read: a pair as a source and a
target (`pair?`), an argument as a filling of a position (`Filling.ofTuple?`). The index then holds
the pairs of every field, put in one after the other, and the fillings, made one after the other
(`outcome_build_eq_ok_iff`).
-/

set_option autoImplicit false

namespace FormulaExport

/-! ## Pairs -/

/-- The source and the target of a tuple of two labels. -/
def pair? : Tuple → Option (String × String)
  | [source, target] => some (source, target)
  | _ => none

/-- A list of tuples reads as a list of values if each tuple reads as the value in its place. -/
def ReadAs {α : Type} (read? : Tuple → Option α) (tuples : List Tuple) (values : List α) : Prop :=
  tuples.map read? = values.map some

section

variable {α : Type} {read? : Tuple → Option α} {tuple : Tuple} {tuples : List Tuple}
  {values : List α}

theorem readAs_nil_iff : ReadAs read? [] values ↔ values = [] := by
  rw [ReadAs, List.map_nil, eq_comm, List.map_eq_nil_iff]

theorem readAs_cons_iff :
    ReadAs read? (tuple :: tuples) values ↔
      ∃ value rest, read? tuple = some value ∧ ReadAs read? tuples rest ∧
        values = value :: rest := by
  rw [ReadAs, List.map_cons, eq_comm, List.map_eq_cons_iff]
  constructor
  · rintro ⟨value, rest, rfl, first, behind⟩
    exact ⟨value, rest, first.symm, behind.symm, rfl⟩
  · rintro ⟨value, rest, first, behind, rfl⟩
    exact ⟨value, rest, rfl, first.symm, behind.symm⟩

theorem ReadAs.mem_iff (h : ReadAs read? tuples values) {value : α} :
    value ∈ values ↔ ∃ tuple ∈ tuples, read? tuple = some value := by
  calc value ∈ values ↔ some value ∈ values.map some := by simp
    _ ↔ some value ∈ tuples.map read? := by rw [h]
    _ ↔ ∃ tuple ∈ tuples, read? tuple = some value := List.mem_map

theorem ReadAs.unique {values' : List α} (h : ReadAs read? tuples values)
    (h' : ReadAs read? tuples values') : values = values' :=
  List.map_injective_iff.mpr (fun _ _ => Option.some.inj) (h.symm.trans h')

theorem ReadAs.exists_related {β : Type} {read' : Tuple → Option β} {related : Tuple → Tuple → Prop}
    {relatedValues : α → β → Prop} {tuples' : List Tuple} (h : ReadAs read? tuples values)
    (all : List.Forall₂ related tuples tuples')
    (step : ∀ tuple ∈ tuples, ∀ tuple' value, related tuple tuple' → read? tuple = some value →
      ∃ value', read' tuple' = some value' ∧ relatedValues value value') :
    ∃ values', ReadAs read' tuples' values' ∧ List.Forall₂ relatedValues values values' := by
  induction all generalizing values with
  | nil =>
      obtain rfl := readAs_nil_iff.mp h
      exact ⟨[], readAs_nil_iff.mpr rfl, .nil⟩
  | cons one _ ih =>
      obtain ⟨value, rest, read, behind, rfl⟩ := readAs_cons_iff.mp h
      obtain ⟨value', read', relatedValue⟩ := step _ List.mem_cons_self _ _ one read
      obtain ⟨rest', behind', relatedRest⟩ :=
        ih behind fun tuple inside => step tuple (List.mem_cons_of_mem _ inside)
      exact ⟨value' :: rest', readAs_cons_iff.mpr ⟨value', rest', read', behind', rfl⟩,
        .cons relatedValue relatedRest⟩

theorem ReadAs.exists_of_forall (h : ∀ tuple ∈ tuples, ∃ value, read? tuple = some value) :
    ∃ values, ReadAs read? tuples values := by
  induction tuples with
  | nil => exact ⟨[], readAs_nil_iff.mpr rfl⟩
  | cons tuple tuples ih =>
      obtain ⟨value, found⟩ := h tuple List.mem_cons_self
      obtain ⟨values, readAs⟩ := ih fun other inside => h other (List.mem_cons_of_mem _ inside)
      exact ⟨value :: values, readAs_cons_iff.mpr ⟨value, values, found, readAs, rfl⟩⟩

/-- A **reader of tuples** goes through them one by one and puts in what each of them reads as. At a
tuple that cannot be read it fails, and which error that is depends on this tuple alone. -/
structure TupleReader {σ ε : Type} (read? : Tuple → Option α) (put : σ → α → σ)
    (run : σ → List Tuple → Except ε σ) : Prop where
  nil : ∀ state, run state [] = .ok state
  read : ∀ {tuple value}, read? tuple = some value →
    ∀ state rest, run state (tuple :: rest) = run (put state value) rest
  unread : ∀ {tuple}, read? tuple = none →
    ∃ error, ∀ state rest, run state (tuple :: rest) = .error error

/-- A reader succeeds exactly if all tuples can be read, and then has put in one value after the
other. -/
theorem TupleReader.eq_ok_iff {σ ε : Type} {put : σ → α → σ} {run : σ → List Tuple → Except ε σ}
    (reader : TupleReader read? put run) {before behind : σ} :
    run before tuples = .ok behind ↔
      ∃ values, ReadAs read? tuples values ∧ behind = values.foldl put before := by
  induction tuples generalizing before with
  | nil =>
      simp only [readAs_nil_iff, exists_eq_left]
      rw [reader.nil, Except.ok.injEq, eq_comm]
      rfl
  | cons tuple tuples ih =>
      simp only [readAs_cons_iff]
      cases found : read? tuple with
      | none =>
          obtain ⟨error, failed⟩ := reader.unread found
          rw [failed]
          simp
      | some value =>
          rw [reader.read found, ih]
          constructor
          · rintro ⟨values, readAs, rfl⟩
            exact ⟨_, ⟨_, values, rfl, readAs, rfl⟩, rfl⟩
          · rintro ⟨_, ⟨_, values, ⟨⟩, readAs, rfl⟩, rfl⟩
            exact ⟨values, readAs, rfl⟩

end

theorem pair?_eq_some_iff {tuple : Tuple} {pair : String × String} :
    pair? tuple = some pair ↔ tuple = [pair.1, pair.2] := by
  constructor
  · intro h
    unfold pair? at h
    split at h
    · cases h
      rfl
    · cases h
  · rintro rfl
    rfl

/-- What holds of the six fields whose tuples are pairs holds of every field but the other two. -/
theorem Field.forall_pairs {holds : Field → Prop} (relation : holds .relation) (boundVar : holds .boundVar)
    (body : holds .body) (child : holds .child) (left : holds .left) (right : holds .right) :
    ∀ field, field ≠ .vars → field ≠ .root → holds field := by
  intro field notVars notRoot
  cases field with
  | vars => exact absurd rfl notVars
  | relation => exact relation
  | boundVar => exact boundVar
  | body => exact body
  | child => exact child
  | left => exact left
  | right => exact right
  | root => exact absurd rfl notRoot

namespace Index

theorem outcome_addPairs_cons (field : Field) (known : OrderedMap String String) {tuple : Tuple}
    (rest : List Tuple) {pair : String × String} (h : pair? tuple = some pair) :
    (addPairs field known (tuple :: rest)).outcome =
      (addPairs field (known.insert pair.1 pair.2) rest).outcome := by
  obtain rfl := pair?_eq_some_iff.mp h
  rw [addPairs]
  cases known.get? pair.1 <;> rfl

theorem outcome_addPairs_of_none (field : Field) (known : OrderedMap String String)
    {tuple : Tuple} (rest : List Tuple) (h : pair? tuple = none) :
    (addPairs field known (tuple :: rest)).outcome = .error (.arity field tuple) := by
  unfold addPairs
  split
  · next e => cases e
  · next e =>
    cases e
    cases h
  · next e =>
    cases e
    rfl

theorem tupleReader_addPairs (field : Field) :
    TupleReader pair? (fun map pair => OrderedMap.insert map pair.1 pair.2)
      fun known tuples => (addPairs field known tuples).outcome where
  nil _ := rfl
  read read known rest := outcome_addPairs_cons field known rest read
  unread unread := ⟨_, fun known rest => outcome_addPairs_of_none field known rest unread⟩

theorem outcome_addPairs_eq_ok_iff {field : Field} {known map : OrderedMap String String}
    {tuples : List Tuple} :
    (addPairs field known tuples).outcome = .ok map ↔
      ∃ pairs, ReadAs pair? tuples pairs ∧ map = known.insertAll pairs :=
  (tupleReader_addPairs field).eq_ok_iff

end Index

/-! ## Arguments -/

/-- A **filling** puts a label at a position of an atom. -/
structure Filling where
  atom : String
  position : Position
  label : String

/-- The filling that a tuple of an atom, a position and a label stands for. -/
def Filling.ofTuple? : Tuple → Option Filling
  | [atom, index, label] => (Position.ofLabel? index).map fun position => ⟨atom, position, label⟩
  | _ => none

theorem Filling.ofTuple?_eq_some_iff {tuple : Tuple} {filling : Filling} :
    Filling.ofTuple? tuple = some filling ↔
      ∃ index, tuple = [filling.atom, index, filling.label] ∧
        Position.ofLabel? index = some filling.position := by
  constructor
  · intro h
    unfold Filling.ofTuple? at h
    split at h
    · obtain ⟨position, found, rfl⟩ := Option.map_eq_some_iff.mp h
      exact ⟨_, rfl, found⟩
    · cases h
  · rintro ⟨index, rfl, found⟩
    rw [Filling.ofTuple?, found]
    rfl

namespace Arguments

theorem ext_get {arguments other : Arguments}
    (h : ∀ position, arguments.get position = other.get position) : arguments = other := by
  obtain ⟨first, second⟩ := arguments
  obtain ⟨first', second'⟩ := other
  have atFirst : first = first' := h .first
  have atSecond : second = second' := h .second
  rw [atFirst, atSecond]

theorem get_set (arguments : Arguments) (position other : Position) (term : Term) :
    (arguments.set position term).get other =
      if position = other then term else arguments.get other := by
  cases position <;> cases other <;> rfl

theorem get_unfilled (position : Position) : unfilled.get position = .placeholder := by
  cases position <;> rfl

end Arguments

namespace Index

/-- The arguments of an atom in a map; an atom without an entry has both left open. -/
def argumentsIn (map : OrderedMap String Arguments) (atom : String) : Arguments :=
  (map.get? atom).getD .unfilled

/-- The entry of an atom is known by its arguments and by whether it is there. -/
theorem get?_eq_of_argumentsIn {map other : OrderedMap String Arguments} {atom : String}
    (sameKeys : atom ∈ map.keys ↔ atom ∈ other.keys)
    (sameArguments : argumentsIn map atom = argumentsIn other atom) :
    map.get? atom = other.get? atom := by
  unfold argumentsIn at sameArguments
  cases found : map.get? atom with
  | none =>
      have outside := OrderedMap.get?_eq_none_iff.mp found
      exact (OrderedMap.get?_eq_none_iff.mpr fun inside => outside (sameKeys.mpr inside)).symm
  | some arguments =>
      have inside := sameKeys.mp (OrderedMap.mem_keys_of_get? found)
      cases found' : other.get? atom with
      | none => exact absurd inside (OrderedMap.get?_eq_none_iff.mp found')
      | some arguments' =>
          rw [found, found'] at sameArguments
          exact congrArg some sameArguments

def fill (map : OrderedMap String Arguments) (filling : Filling) : OrderedMap String Arguments :=
  map.insert filling.atom
    ((argumentsIn map filling.atom).set filling.position (.ofLabel filling.label))

theorem get?_fill (map : OrderedMap String Arguments) (filling : Filling) (atom : String) :
    (fill map filling).get? atom =
      if filling.atom = atom then
        some ((argumentsIn map atom).set filling.position (.ofLabel filling.label))
      else map.get? atom := by
  rw [fill, OrderedMap.get?_insert]
  by_cases same : filling.atom = atom
  · rw [if_pos same, if_pos same, same]
  · rw [if_neg same, if_neg same]

def fillAll (known : OrderedMap String Arguments) (fillings : List Filling) :
    OrderedMap String Arguments :=
  fillings.foldl fill known

theorem get_argumentsIn_fill (map : OrderedMap String Arguments) (filling : Filling)
    (atom : String) (position : Position) :
    (argumentsIn (fill map filling) atom).get position =
      if filling.atom = atom ∧ filling.position = position then .ofLabel filling.label
      else (argumentsIn map atom).get position := by
  rw [argumentsIn, get?_fill]
  by_cases same : filling.atom = atom
  · rw [if_pos same, Option.getD_some, Arguments.get_set]
    simp [same]
  · rw [if_neg same, if_neg fun h => same h.1, argumentsIn]

theorem get_fillAll_of_not_mem {atom : String} {position : Position} {fillings : List Filling}
    (h : ∀ filling ∈ fillings, ¬ (filling.atom = atom ∧ filling.position = position))
    (known : OrderedMap String Arguments) :
    (argumentsIn (fillAll known fillings) atom).get position =
      (argumentsIn known atom).get position := by
  induction fillings generalizing known with
  | nil => rfl
  | cons filling fillings ih =>
      have later := ih (fun other inside => h other (List.mem_cons_of_mem _ inside))
        (fill known filling)
      exact later.trans ((get_argumentsIn_fill known filling atom position).trans
        (if_neg (h filling List.mem_cons_self)))

theorem get_fillAll_of_mem {filling : Filling} {fillings : List Filling}
    (h : filling ∈ fillings)
    (unique : ∀ other ∈ fillings, other.atom = filling.atom → other.position = filling.position →
      other.label = filling.label)
    (known : OrderedMap String Arguments) :
    (argumentsIn (fillAll known fillings) filling.atom).get filling.position =
      .ofLabel filling.label := by
  induction fillings generalizing known with
  | nil => cases h
  | cons first fillings ih =>
      have unique' : ∀ other ∈ fillings, other.atom = filling.atom →
          other.position = filling.position → other.label = filling.label :=
        fun other inside => unique other (List.mem_cons_of_mem _ inside)
      by_cases later : filling ∈ fillings
      · exact ih later unique' _
      · -- then every filling of this argument behind the first one would be the same again
        have none : ∀ other ∈ fillings,
            ¬ (other.atom = filling.atom ∧ other.position = filling.position) := by
          rintro ⟨atom, position, label⟩ inside ⟨rfl, rfl⟩
          obtain rfl := unique' _ inside rfl rfl
          exact later inside
        obtain rfl : filling = first := (List.mem_cons.mp h).resolve_right later
        refine (get_fillAll_of_not_mem none _).trans ?_
        rw [get_argumentsIn_fill, if_pos ⟨rfl, rfl⟩]

theorem mem_keys_fillAll {known : OrderedMap String Arguments} {fillings : List Filling}
    {atom : String} :
    atom ∈ (fillAll known fillings).keys ↔
      atom ∈ known.keys ∨ ∃ filling ∈ fillings, filling.atom = atom := by
  induction fillings generalizing known with
  | nil => simp [fillAll]
  | cons filling fillings ih =>
      refine ih.trans ?_
      rw [fill, OrderedMap.mem_keys_insert, List.exists_mem_cons_iff, or_assoc, eq_comm]

/-- If no argument is filled with two labels, the order of the fillings makes no difference to a
look-up. -/
theorem get?_fillAll_of_perm {fillings fillings' : List Filling} (perm : fillings.Perm fillings')
    (unique : ∀ filling ∈ fillings, ∀ other ∈ fillings, other.atom = filling.atom →
      other.position = filling.position → other.label = filling.label)
    (known : OrderedMap String Arguments) (atom : String) :
    (fillAll known fillings).get? atom = (fillAll known fillings').get? atom := by
  have sameArguments : argumentsIn (fillAll known fillings) atom =
      argumentsIn (fillAll known fillings') atom := by
    apply Arguments.ext_get
    intro position
    by_cases there : ∃ filling ∈ fillings, filling.atom = atom ∧ filling.position = position
    · obtain ⟨filling, inside, rfl, rfl⟩ := there
      rw [get_fillAll_of_mem inside (unique filling inside),
        get_fillAll_of_mem (perm.mem_iff.mp inside) fun other inside' =>
          unique filling inside other (perm.mem_iff.mpr inside')]
    · have none : ∀ filling ∈ fillings, ¬ (filling.atom = atom ∧ filling.position = position) :=
        fun filling inside here => there ⟨filling, inside, here⟩
      rw [get_fillAll_of_not_mem none, get_fillAll_of_not_mem fun filling inside =>
        none filling (perm.mem_iff.mpr inside)]
  -- an atom with both arguments left open may have an entry all the same
  have sameKeys : atom ∈ (fillAll known fillings).keys ↔ atom ∈ (fillAll known fillings').keys := by
    rw [mem_keys_fillAll, mem_keys_fillAll]
    simp only [perm.mem_iff]
  exact get?_eq_of_argumentsIn sameKeys sameArguments

/-- Fillings with related labels, of an atom and another one at the same places, give these two
atoms related arguments. -/
theorem rel_get_fillAll {related : Term → Term → Prop} {atom atom' : String}
    {fillings fillings' : List Filling}
    (h : List.Forall₂ (fun filling filling' => (filling.atom = atom ↔ filling'.atom = atom') ∧
      filling'.position = filling.position ∧
        related (.ofLabel filling.label) (.ofLabel filling'.label)) fillings fillings')
    {position : Position} {known known' : OrderedMap String Arguments}
    (before : related ((argumentsIn known atom).get position)
      ((argumentsIn known' atom').get position)) :
    related ((argumentsIn (fillAll known fillings) atom).get position)
      ((argumentsIn (fillAll known' fillings') atom').get position) := by
  induction h generalizing known known' with
  | nil => exact before
  | @cons filling filling' _ _ one _ ih =>
      obtain ⟨sameAtom, samePosition, relatedLabels⟩ := one
      refine ih ?_
      rw [get_argumentsIn_fill, get_argumentsIn_fill]
      by_cases here : filling.atom = atom ∧ filling.position = position
      · rw [if_pos here, if_pos ⟨sameAtom.mp here.1, samePosition.trans here.2⟩]
        exact relatedLabels
      · rw [if_neg here, if_neg fun here' =>
          here ⟨sameAtom.mpr here'.1, samePosition.symm.trans here'.2⟩]
        exact before

theorem outcome_addArguments_cons (known : OrderedMap String Arguments) {tuple : Tuple}
    {filling : Filling} (rest : List Tuple) (h : Filling.ofTuple? tuple = some filling) :
    (addArguments known (tuple :: rest)).outcome = (addArguments (fill known filling) rest).outcome := by
  unfold Filling.ofTuple? at h
  split at h
  · next atom index label =>
    obtain ⟨position, found, rfl⟩ := Option.map_eq_some_iff.mp h
    rw [addArguments, found]
    dsimp only
    unfold fill argumentsIn
    cases (((known.get? atom).getD Arguments.unfilled).get position) <;> rfl
  · cases h

theorem outcome_addArguments_of_none {tuple : Tuple} (h : Filling.ofTuple? tuple = none) :
    ∃ error, ∀ known rest, (addArguments known (tuple :: rest)).outcome = .error error := by
  unfold Filling.ofTuple? at h
  split at h
  · next atom index label =>
    rw [Option.map_eq_none_iff] at h
    refine ⟨.position atom index, ?_⟩
    intro known rest
    rw [addArguments, h]
    rfl
  · next other =>
    refine ⟨.arity .vars tuple, ?_⟩
    intro known rest
    unfold addArguments
    split
    · next e => cases e
    · next e =>
      cases e
      exact absurd rfl (other _ _ _)
    · next e =>
      cases e
      rfl

theorem tupleReader_addArguments :
    TupleReader Filling.ofTuple? fill fun known tuples => (addArguments known tuples).outcome where
  nil _ := rfl
  read read known rest := outcome_addArguments_cons known rest read
  unread unread := outcome_addArguments_of_none unread

theorem outcome_addArguments_eq_ok_iff {known map : OrderedMap String Arguments}
    {tuples : List Tuple} :
    (addArguments known tuples).outcome = .ok map ↔
      ∃ fillings, ReadAs Filling.ofTuple? tuples fillings ∧ map = fillAll known fillings :=
  tupleReader_addArguments.eq_ok_iff

/-! ## The index -/

/-- The map of a field whose tuples are pairs. -/
def pairs (index : Index) : Field → OrderedMap String String
  | .relation => index.relationOf
  | .boundVar => index.boundOf
  | .body => index.bodyOf
  | .child => index.childOf
  | .left => index.leftOf
  | .right => index.rightOf
  | .vars => ∅
  | .root => ∅

theorem outcome_rootOf_cons (first : Tuple) (rest : List Tuple) :
    (rootOf (first :: rest)).outcome =
      match pair? first with
      | some pair => .ok (some pair.2)
      | none => .error (.arity .root first) := by
  -- with or without the report of further tuples
  rcases first with _ | ⟨_, _ | ⟨_, _ | ⟨_, _⟩⟩⟩ <;> cases rest <;> rfl

/-- An index is built exactly if every field can be read, and holds what was read. -/
theorem outcome_build_eq_ok_iff {relations : Relations} {index : Index} :
    (build relations).outcome = .ok index ↔
      (rootOf (relations.tuples Field.root.label)).outcome = .ok index.root ∧
        (addArguments ∅ (relations.tuples Field.vars.label)).outcome = .ok index.argumentsOf ∧
        ∀ field, field ≠ .vars → field ≠ .root →
          (pairsOf relations field).outcome = .ok (index.pairs field) := by
  simp only [build, Attempt.outcome_bind_eq_ok_iff, Attempt.outcome_note, Attempt.outcome_pure]
  constructor
  · rintro ⟨root, atRoot, relationOf, atRelation, argumentsOf, atVars, boundOf, atBound, bodyOf,
      atBody, childOf, atChild, leftOf, atLeft, rightOf, atRight, _, -, ⟨⟩⟩
    exact ⟨atRoot, atVars,
      Field.forall_pairs atRelation atBound atBody atChild atLeft atRight⟩
  · rintro ⟨atRoot, atVars, atPairs⟩
    exact ⟨index.root, atRoot, index.relationOf, atPairs .relation nofun nofun,
      index.argumentsOf, atVars, index.boundOf, atPairs .boundVar nofun nofun,
      index.bodyOf, atPairs .body nofun nofun, index.childOf, atPairs .child nofun nofun,
      index.leftOf, atPairs .left nofun nofun, index.rightOf, atPairs .right nofun nofun,
      (), trivial, rfl⟩

theorem exists_build {relations : Relations} {root : Option String}
    (atRoot : (rootOf (relations.tuples Field.root.label)).outcome = .ok root)
    (atVars : ∃ fillings, ReadAs Filling.ofTuple? (relations.tuples Field.vars.label) fillings)
    (atPairs : ∀ field : Field, field ≠ .vars → field ≠ .root →
      ∃ pairs, ReadAs pair? (relations.tuples field.label) pairs) :
    ∃ index, (build relations).outcome = .ok index ∧ index.root = root := by
  have maps : ∀ field : Field, field ≠ .vars → field ≠ .root →
      ∃ map, (pairsOf relations field).outcome = .ok map := by
    intro field notVars notRoot
    obtain ⟨pairs, readAs⟩ := atPairs field notVars notRoot
    exact ⟨_, outcome_addPairs_eq_ok_iff.mpr ⟨pairs, readAs, rfl⟩⟩
  obtain ⟨fillings, readAs⟩ := atVars
  obtain ⟨relationOf, atRelation⟩ := maps .relation nofun nofun
  obtain ⟨boundOf, atBound⟩ := maps .boundVar nofun nofun
  obtain ⟨bodyOf, atBody⟩ := maps .body nofun nofun
  obtain ⟨childOf, atChild⟩ := maps .child nofun nofun
  obtain ⟨leftOf, atLeft⟩ := maps .left nofun nofun
  obtain ⟨rightOf, atRight⟩ := maps .right nofun nofun
  refine ⟨⟨relationOf, fillAll ∅ fillings, boundOf, bodyOf, childOf, leftOf, rightOf, root⟩,
    outcome_build_eq_ok_iff.mpr ⟨atRoot, ?_, ?_⟩, rfl⟩
  · exact outcome_addArguments_eq_ok_iff.mpr ⟨fillings, readAs, rfl⟩
  · exact Field.forall_pairs atRelation atBound atBody atChild atLeft atRight

end Index

end FormulaExport
