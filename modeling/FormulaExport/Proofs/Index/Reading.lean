import Mathlib.Data.List.Basic
import FormulaExport.Proofs.FirstOccurrence
import FormulaExport.Proofs.Index.Build
import FormulaExport.Proofs.Index.Position

/-!
# Reading relations

The tuples that an index is built from are read in a fixed order (`Relations.readings`): the first
tuple of the root, and then all tuples of the other fields. The first of them with a flaw
(`Field.flaw?`) is the error. What is reported of a tuple depends on the earlier tuples of its field
alone (`Field.report?`), and what has been read so far is in step with the map of the field
(`MirrorsPairs`, `MirrorsArguments`). The main statement is `build_readings`: which error is found,
what an index holds, and what is reported.
-/

set_option autoImplicit false

namespace FormulaExport

/-! ## Flaws -/

/-- The position that a label spells. -/
def Position.spelled? (label : String) : Option Position :=
  [first, second].find? fun position => position.IsSpelled label

theorem Position.spelled?_eq_some_iff {label : String} {position : Position} :
    spelled? label = some position ↔ position.IsSpelled label := by
  unfold spelled?
  constructor
  · intro h
    simpa using List.find?_some h
  · intro spelled
    cases found : [first, second].find? fun position => position.IsSpelled label with
    | none =>
        have unspelled := List.find?_eq_none.mp found position (by cases position <;> simp)
        exact absurd (decide_eq_true spelled) unspelled
    | some other =>
        have isOther : other.IsSpelled label := by simpa using List.find?_some found
        rw [isOther.unique spelled]

theorem Position.spelled?_eq (label : String) : spelled? label = ofLabel? label :=
  Option.ext fun _ => spelled?_eq_some_iff.trans ofLabel?_eq_some_iff.symm

/-- What is wrong with a tuple of a field: the number of its labels, or its position. -/
def Field.flaw? : Field → Tuple → Option IndexError
  | .vars, [atom, index, _] =>
    if (Position.spelled? index).isSome then none else some (.position atom index)
  | field, tuple => if tuple.length = field.arity then none else some (.arity field tuple)

/-! ## What tuples say -/

/-- The target that a tuple of two labels names for a source. -/
def targetIn? (source : String) : Tuple → Option String
  | [other, target] => if other = source then some target else none
  | _ => none

/-- The label that a tuple of three labels puts at a position of an atom. -/
def labelIn? (atom : String) (position : Position) : Tuple → Option String
  | [other, index, label] => if other = atom ∧ position.IsSpelled index then some label else none
  | _ => none

/-- What the last one says of those tuples that say anything. -/
def lastOf? (value? : Tuple → Option String) (tuples : List Tuple) : Option String :=
  tuples.reverse.findSome? value?

theorem lastOf?_concat (value? : Tuple → Option String) (tuples : List Tuple) (tuple : Tuple) :
    lastOf? value? (tuples ++ [tuple]) = (value? tuple).or (lastOf? value? tuples) := by
  rw [lastOf?, List.reverse_append, List.reverse_singleton, List.singleton_append,
    List.findSome?_cons, lastOf?]
  cases value? tuple <;> rfl

theorem isSome_lastOf?_iff {value? : Tuple → Option String} {tuples : List Tuple} :
    (lastOf? value? tuples).isSome ↔ ∃ tuple ∈ tuples, (value? tuple).isSome := by
  simp [lastOf?]

/-! ## Reports -/

/-- What is reported of a tuple behind earlier ones of its field: that it replaces the target of its
source, or the label at a place of an atom. A placeholder is replaced without a report. -/
def Field.report? (earlier : List Tuple) : Field → Tuple → Option Diagnostic
  | .vars, [atom, index, label] =>
    (Position.spelled? index).bind fun position =>
      ((lastOf? (labelIn? atom position) earlier).filter (· ≠ placeholderMark)).map fun previous =>
        .replacedArgument atom position.number previous label
  | .vars, _ => none
  | field, [source, target] =>
    (lastOf? (targetIn? source) earlier).map fun previous =>
      .replacedTarget field source previous target
  | _, _ => none

def tuplesIn (field : Field) (readings : List (Field × Tuple)) : List Tuple :=
  (readings.filter fun reading => reading.1 = field).map Prod.snd

/-- What is reported of tuples that are read behind earlier ones. -/
def reportsBehind (earlier : List (Field × Tuple)) : List (Field × Tuple) → List Diagnostic
  | [] => []
  | (field, tuple) :: rest =>
    (field.report? (tuplesIn field earlier) tuple).toList ++
      reportsBehind (earlier ++ [(field, tuple)]) rest

/-- The tuples that are read to build an index, in order: the first one of the root, and then those
of the other fields. -/
def Relations.readings (relations : Relations) : List (Field × Tuple) :=
  ((relations.tuples Field.root.label).take 1).map (Field.root, ·) ++
    [Field.relation, .vars, .boundVar, .body, .child, .left, .right].flatMap fun field =>
      (relations.tuples field.label).map (field, ·)

/-- The first flaw among tuples. -/
def firstFlaw? (readings : List (Field × Tuple)) : Option IndexError :=
  readings.findSome? fun reading => reading.1.flaw? reading.2

/-- The tuples before the first one with a flaw. -/
def sound (readings : List (Field × Tuple)) : List (Field × Tuple) :=
  readings.takeWhile fun reading => (reading.1.flaw? reading.2).isNone

theorem firstFlaw?_append (front back : List (Field × Tuple)) :
    firstFlaw? (front ++ back) = (firstFlaw? front).or (firstFlaw? back) :=
  List.findSome?_append

theorem sound_append_of_none {front : List (Field × Tuple)} (h : firstFlaw? front = none)
    (back : List (Field × Tuple)) : sound (front ++ back) = front ++ sound back := by
  refine List.takeWhile_append_of_pos ?_
  intro reading inside
  rw [List.findSome?_eq_none_iff.mp h reading inside]
  rfl

theorem sound_of_none {readings : List (Field × Tuple)} (h : firstFlaw? readings = none) :
    sound readings = readings := by
  rw [← List.append_nil readings, sound_append_of_none h]
  rfl

theorem sound_append_of_some {front : List (Field × Tuple)} {error : IndexError}
    (h : firstFlaw? front = some error) (back : List (Field × Tuple)) :
    sound (front ++ back) = sound front := by
  induction front with
  | nil => cases h
  | cons reading front ih =>
      rw [firstFlaw?, List.findSome?_cons] at h
      rw [List.cons_append, sound, sound, List.takeWhile_cons, List.takeWhile_cons]
      cases flaw : reading.1.flaw? reading.2 with
      | some _ => rfl
      | none =>
          rw [flaw] at h
          exact congrArg (reading :: ·) (ih h)

theorem tuplesIn_append (field : Field) (front back : List (Field × Tuple)) :
    tuplesIn field (front ++ back) = tuplesIn field front ++ tuplesIn field back := by
  rw [tuplesIn, List.filter_append, List.map_append]
  rfl

theorem tuplesIn_map (field : Field) (tuples : List Tuple) :
    tuplesIn field (tuples.map (field, ·)) = tuples := by
  simp [tuplesIn, Function.comp_def, List.filter_map]

theorem tuplesIn_map_of_ne {field other : Field} (ne : other ≠ field) (tuples : List Tuple) :
    tuplesIn field (tuples.map (other, ·)) = [] := by
  simp [tuplesIn, Function.comp_def, List.filter_map, ne]

theorem reportsBehind_append (earlier front back : List (Field × Tuple)) :
    reportsBehind earlier (front ++ back) =
      reportsBehind earlier front ++ reportsBehind (earlier ++ front) back := by
  induction front generalizing earlier with
  | nil => simp [reportsBehind]
  | cons reading front ih =>
      rw [List.cons_append, reportsBehind, reportsBehind, ih, List.append_assoc, List.append_assoc]
      rfl

namespace Index

/-! ## Maps in step with what has been read -/

/-- A map is **in step** with tuples that name targets. -/
structure MirrorsPairs (map : OrderedMap String String) (tuples : List Tuple) : Prop where
  keys : ByFirstOccurrence map.keys (tuples.filterMap List.head?)
  get? : ∀ source, map.get? source = lastOf? (targetIn? source) tuples

/-- A map is **in step** with tuples that put labels at places of atoms. -/
structure MirrorsArguments (map : OrderedMap String Arguments) (tuples : List Tuple) : Prop where
  keys : ByFirstOccurrence map.keys (tuples.filterMap List.head?)
  get : ∀ atom position, (argumentsIn map atom).get position =
    .ofLabel ((lastOf? (labelIn? atom position) tuples).getD placeholderMark)

theorem mirrorsPairs_empty : MirrorsPairs ∅ [] :=
  ⟨byFirstOccurrence_nil, fun _ => rfl⟩

theorem mirrorsArguments_empty : MirrorsArguments ∅ [] :=
  ⟨byFirstOccurrence_nil, fun _ position => Arguments.get_unfilled position⟩

theorem MirrorsPairs.insert {map : OrderedMap String String} {tuples : List Tuple}
    (h : MirrorsPairs map tuples) (source target : String) :
    MirrorsPairs (map.insert source target) (tuples ++ [[source, target]]) := by
  constructor
  · rw [OrderedMap.keys_insert, List.filterMap_append]
    exact h.keys.add source
  · intro other
    rw [OrderedMap.get?_insert, lastOf?_concat, h.get?, targetIn?]
    by_cases same : source = other
    · rw [if_pos same, if_pos same, Option.some_or]
    · rw [if_neg same, if_neg same, Option.none_or]

theorem MirrorsArguments.fill {map : OrderedMap String Arguments} {tuples : List Tuple}
    (h : MirrorsArguments map tuples) (filling : Filling) {index : String}
    (spelled : filling.position.IsSpelled index) :
    MirrorsArguments (fill map filling) (tuples ++ [[filling.atom, index, filling.label]]) := by
  constructor
  · rw [Index.fill, OrderedMap.keys_insert, List.filterMap_append]
    exact h.keys.add filling.atom
  · intro atom position
    rw [get_argumentsIn_fill, lastOf?_concat, h.get, labelIn?]
    by_cases here : filling.atom = atom ∧ filling.position = position
    · obtain ⟨sameAtom, rfl⟩ := here
      rw [if_pos ⟨sameAtom, rfl⟩, if_pos ⟨sameAtom, spelled⟩, Option.some_or, Option.getD_some]
    · rw [if_neg here, if_neg, Option.none_or]
      rintro ⟨sameAtom, spelled'⟩
      exact here ⟨sameAtom, spelled.unique spelled'⟩

/-! ## Loops over the tuples of a field -/

/-- A **loop** over the tuples of a field stops at the first flaw. At any other tuple it reports
what there is to report, and its state keeps in step with what has been read. -/
structure TupleLoop {σ : Type} (field : Field) (Mirrors : σ → List Tuple → Prop)
    (run : σ → List Tuple → Attempt IndexError σ) : Prop where
  nil : ∀ state, run state [] = pure state
  flawed : ∀ {tuple error}, field.flaw? tuple = some error →
    ∀ state rest, run state (tuple :: rest) = throw error
  step : ∀ {tuple state earlier}, field.flaw? tuple = none → Mirrors state earlier →
    ∃ next, Mirrors next (earlier ++ [tuple]) ∧ ∀ rest,
      (run state (tuple :: rest)).outcome = (run next rest).outcome ∧
        (run state (tuple :: rest)).log =
          (field.report? earlier tuple).toList ++ (run next rest).log

theorem flaw?_of_ne_vars {field : Field} (notVars : field ≠ .vars) (tuple : Tuple) :
    field.flaw? tuple = if tuple.length = 2 then none else some (.arity field tuple) := by
  cases field <;> first | exact absurd rfl notVars | rfl

theorem report?_of_ne_vars {field : Field} (notVars : field ≠ .vars) (earlier : List Tuple)
    (source target : String) :
    field.report? earlier [source, target] =
      (lastOf? (targetIn? source) earlier).map (.replacedTarget field source · target) := by
  cases field <;> first | exact absurd rfl notVars | rfl

theorem tupleLoop_addPairs {field : Field} (notVars : field ≠ .vars) :
    TupleLoop field MirrorsPairs (addPairs field) where
  nil _ := rfl
  flawed {tuple error} flaw state rest := by
    rw [flaw?_of_ne_vars notVars] at flaw
    rcases tuple with _ | ⟨_, _ | ⟨_, _ | ⟨_, _⟩⟩⟩
    · cases flaw
      rfl
    · cases flaw
      rfl
    · cases flaw
    · cases flaw
      rfl
  step {tuple state earlier} flawless mirrors := by
    rw [flaw?_of_ne_vars notVars] at flawless
    rcases tuple with _ | ⟨source, _ | ⟨target, _ | ⟨_, _⟩⟩⟩
    · cases flawless
    · cases flawless
    · refine ⟨_, mirrors.insert source target, ?_⟩
      intro rest
      rw [report?_of_ne_vars notVars, ← mirrors.get?, addPairs]
      cases state.get? source <;> exact ⟨rfl, rfl⟩
    · cases flawless

/-- A place holds a variable if the last label put there is no placeholder. -/
theorem ofLabel_getD (last : Option String) :
    Term.ofLabel (last.getD placeholderMark) =
      match last.filter (· ≠ placeholderMark) with
      | some name => .var name
      | none => .placeholder := by
  cases last with
  | none => rfl
  | some label =>
      by_cases mark : label = placeholderMark <;> simp [Term.ofLabel, Option.filter, mark]

theorem tupleLoop_addArguments : TupleLoop .vars MirrorsArguments addArguments where
  nil _ := rfl
  flawed {tuple error} flaw state rest := by
    rcases tuple with _ | ⟨atom, _ | ⟨index, _ | ⟨label, _ | ⟨_, _⟩⟩⟩⟩
    · cases flaw
      rfl
    · cases flaw
      rfl
    · cases flaw
      rfl
    · -- only with three labels is there a position that can be wrong
      rw [Field.flaw?, Position.spelled?_eq] at flaw
      rw [addArguments]
      cases found : Position.ofLabel? index with
      | none =>
          rw [found] at flaw
          cases flaw
          rfl
      | some position =>
          rw [found] at flaw
          cases flaw
    · cases flaw
      rfl
  step {tuple state earlier} flawless mirrors := by
    rcases tuple with _ | ⟨atom, _ | ⟨index, _ | ⟨label, _ | ⟨_, _⟩⟩⟩⟩
    · cases flawless
    · cases flawless
    · cases flawless
    · rw [Field.flaw?] at flawless
      obtain ⟨position, spelled⟩ : ∃ position, Position.spelled? index = some position := by
        by_contra none
        rw [Option.eq_none_iff_forall_ne_some.mpr fun position found => none ⟨position, found⟩]
          at flawless
        cases flawless
      have found : Position.ofLabel? index = some position := by
        rw [← Position.spelled?_eq]
        exact spelled
      refine ⟨_, mirrors.fill ⟨atom, position, label⟩
        (Position.spelled?_eq_some_iff.mp spelled), ?_⟩
      intro rest
      -- the map holds at the place what the earlier tuples say
      have held := mirrors.get atom position
      rw [addArguments, found, Field.report?, spelled, Option.bind_some]
      unfold argumentsIn at held
      dsimp only
      rw [held, ofLabel_getD]
      cases (lastOf? (labelIn? atom position) earlier).filter (· ≠ placeholderMark) <;>
        exact ⟨rfl, rfl⟩
    · cases flawless

/-- What a loop yields is in step with everything that it has read. -/
theorem TupleLoop.mirrors {σ : Type} {field : Field} {Mirrors : σ → List Tuple → Prop}
    {run : σ → List Tuple → Attempt IndexError σ} (loop : TupleLoop field Mirrors run)
    {state behind : σ} {earlier tuples : List Tuple} (before : Mirrors state earlier)
    (h : (run state tuples).outcome = .ok behind) : Mirrors behind (earlier ++ tuples) := by
  induction tuples generalizing state earlier with
  | nil =>
      rw [loop.nil] at h
      cases h
      rw [List.append_nil]
      exact before
  | cons tuple tuples ih =>
      cases flaw : field.flaw? tuple with
      | some error =>
          rw [loop.flawed flaw] at h
          cases h
      | none =>
          obtain ⟨next, mirrors, goesOn⟩ := loop.step flaw before
          rw [(goesOn tuples).1] at h
          have behindAll := ih mirrors h
          rw [List.append_assoc] at behindAll
          exact behindAll

/-! ## Attempts that read tuples -/

/-- An attempt **reads** tuples behind earlier ones if its error is the first flaw among them, and
what it reports is something in front, what there is to report of the tuples before the first flaw,
and a summary of what it yields. -/
structure Reads {α : Type} (attempt : Attempt IndexError α) (front : List Diagnostic)
    (earlier readings : List (Field × Tuple)) (summary : α → List Diagnostic) : Prop where
  outcome : ∀ error, attempt.outcome = .error error ↔ firstFlaw? readings = some error
  log : attempt.log = front ++ reportsBehind earlier (sound readings) ++
    attempt.outcome.toOption.elim [] summary

theorem Reads.bind {α β : Type} {first : Attempt IndexError α} {next : α → Attempt IndexError β}
    {front : List Diagnostic} {earlier readings readings' : List (Field × Tuple)}
    {summary : β → List Diagnostic} (h : Reads first front earlier readings fun _ => [])
    (behind : ∀ a, Reads (next a) [] (earlier ++ readings) readings' summary) :
    Reads (first >>= next) front earlier (readings ++ readings') summary := by
  have log := h.log
  cases reached : first.outcome with
  | error error =>
      have flaw := (h.outcome error).mp reached
      -- the first part stops at its flaw, and nothing behind it is read
      have stopped : (first >>= next).outcome = .error error := by
        rw [Attempt.outcome_bind, reached]
      constructor
      · intro other
        rw [stopped, firstFlaw?_append, flaw, Option.some_or, Except.error.injEq, Option.some.injEq]
      · rw [stopped, Attempt.log_bind, reached, sound_append_of_some flaw, log, reached]
        simp [Except.toOption]
  | ok a =>
      -- the first part has read all its tuples, and the second goes on behind them
      have noFlaw : firstFlaw? readings = none := by
        cases flaw : firstFlaw? readings with
        | none => rfl
        | some error =>
            rw [(h.outcome error).mpr flaw] at reached
            cases reached
      have goesOn : (first >>= next).outcome = (next a).outcome := by
        rw [Attempt.outcome_bind, reached]
      constructor
      · intro other
        rw [goesOn, firstFlaw?_append, noFlaw, Option.none_or]
        exact (behind a).outcome other
      · rw [goesOn, Attempt.log_bind, reached, log, reached]
        dsimp only
        rw [(behind a).log, sound_append_of_none noFlaw, reportsBehind_append, sound_of_none noFlaw]
        simp [Except.toOption]

theorem TupleLoop.reads {σ : Type} {field : Field} {Mirrors : σ → List Tuple → Prop}
    {run : σ → List Tuple → Attempt IndexError σ} (loop : TupleLoop field Mirrors run)
    {state : σ} {earlier : List (Field × Tuple)} (before : Mirrors state (tuplesIn field earlier))
    (tuples : List Tuple) :
    Reads (run state tuples) [] earlier (tuples.map (field, ·)) fun _ => [] := by
  induction tuples generalizing state earlier with
  | nil =>
      rw [loop.nil]
      exact ⟨by simp [firstFlaw?], rfl⟩
  | cons tuple tuples ih =>
      cases flaw : field.flaw? tuple with
      | some error =>
          rw [loop.flawed flaw]
          constructor
          · intro other
            simp [firstFlaw?, flaw]
          · simp [sound, flaw, reportsBehind]
            rfl
      | none =>
          obtain ⟨next, mirrors, goesOn⟩ := loop.step flaw before
          obtain ⟨sameOutcome, log⟩ := goesOn tuples
          -- the state is in step with this tuple as well, so the others are read behind it
          have inStep : Mirrors next (tuplesIn field (earlier ++ [(field, tuple)])) := by
            rw [tuplesIn_append]
            exact (tuplesIn_map field [tuple]).symm ▸ mirrors
          have rest := ih inStep
          constructor
          · intro error
            rw [sameOutcome, rest.outcome]
            simp [firstFlaw?, flaw]
          · rw [log, sameOutcome, rest.log]
            simp [sound, flaw, reportsBehind]

/-! ## The index -/

def extraRootReport (tuples : List Tuple) : List Diagnostic :=
  if tuples.length ≤ 1 then [] else [.extraRoots tuples.length]

def summary (index : Index) : List Diagnostic :=
  [.indexed index.relationOf.size index.boundOf.size index.childOf.size index.leftOf.size]

theorem reads_rootOf (tuples : List Tuple) :
    Reads (rootOf tuples) (extraRootReport tuples) [] ((tuples.take 1).map (.root, ·))
      fun _ => [] := by
  rcases tuples with _ | ⟨first, more⟩
  · exact ⟨by simp [rootOf, firstFlaw?], rfl⟩
  · have answer := outcome_rootOf_cons first more
    have reported : (rootOf (first :: more)).log = extraRootReport (first :: more) := by
      rcases first with _ | ⟨_, _ | ⟨_, _ | ⟨_, _⟩⟩⟩ <;> cases more <;> rfl
    have flaw : Field.root.flaw? first =
        if first.length = 2 then none else some (.arity .root first) :=
      rfl
    rw [List.take_succ_cons, List.take_zero, List.map_singleton]
    constructor
    · intro error
      rw [answer, firstFlaw?, List.findSome?_singleton, flaw]
      rcases first with _ | ⟨_, _ | ⟨_, _ | ⟨_, _⟩⟩⟩ <;> simp [pair?]
    · have silent : reportsBehind [] (sound [(.root, first)]) = [] := by
        rw [sound, List.takeWhile_cons, flaw]
        rcases first with _ | ⟨_, _ | ⟨_, _ | ⟨_, _⟩⟩⟩ <;> rfl
      rw [reported, answer, silent]
      cases pair? first <;> simp [Except.toOption]

section

variable (relations : Relations) {earlier : List (Field × Tuple)}

theorem reads_pairsOf (field : Field) (notVars : field ≠ .vars)
    (fresh : tuplesIn field earlier = []) :
    Reads (pairsOf relations field) [] earlier ((relations.tuples field.label).map (field, ·))
      fun _ => [] :=
  (tupleLoop_addPairs notVars).reads (fresh ▸ mirrorsPairs_empty) _

theorem reads_addArguments (fresh : tuplesIn .vars earlier = []) :
    Reads (addArguments ∅ (relations.tuples Field.vars.label)) [] earlier
      ((relations.tuples Field.vars.label).map (.vars, ·)) fun _ => [] :=
  tupleLoop_addArguments.reads (fresh ▸ mirrorsArguments_empty) _

theorem reads_summary (index : Index) :
    Reads (do
      Traced.note (.indexed index.relationOf.size index.boundOf.size index.childOf.size
        index.leftOf.size)
      pure index : Attempt IndexError Index) [] earlier [] summary where
  outcome error := by
    show Except.ok index = .error error ↔ none = some error
    simp
  log := rfl

/-- Building an index reads the tuples of the relations, field by field. -/
theorem reads_build :
    Reads (build relations) (extraRootReport (relations.tuples Field.root.label)) []
      relations.readings summary := by
  have order : relations.readings = _ ++ (_ ++ (_ ++ (_ ++ (_ ++ (_ ++ (_ ++ (_ ++ []))))))) := rfl
  rw [order]
  dsimp only
  refine (reads_rootOf _).bind fun root => ?_
  refine (reads_pairsOf relations .relation nofun ?_).bind fun relationOf =>
    (reads_addArguments relations ?_).bind fun argumentsOf =>
    (reads_pairsOf relations .boundVar nofun ?_).bind fun boundOf =>
    (reads_pairsOf relations .body nofun ?_).bind fun bodyOf =>
    (reads_pairsOf relations .child nofun ?_).bind fun childOf =>
    (reads_pairsOf relations .left nofun ?_).bind fun leftOf =>
    (reads_pairsOf relations .right nofun ?_).bind fun rightOf =>
      reads_summary ⟨relationOf, argumentsOf, boundOf, bodyOf, childOf, leftOf, rightOf, root⟩
  -- no field has been read before its own turn
  all_goals simp only [List.nil_append, List.append_nil, tuplesIn_append, tuplesIn_map_of_ne, ne_eq,
    reduceCtorEq, not_false_eq_true]

end

/-! ## What an index holds -/

/-- An index **describes** relations: its root is the second label of their first root tuple, and
its maps are in step with the tuples of their fields. -/
structure Describes (index : Index) (relations : Relations) : Prop where
  root : index.root = (relations.tuples Field.root.label).head?.bind fun first => first[1]?
  pairs : ∀ field, field ≠ .vars → field ≠ .root →
    MirrorsPairs (index.pairs field) (relations.tuples field.label)
  arguments : MirrorsArguments index.argumentsOf (relations.tuples Field.vars.label)

theorem describes_of_build {relations : Relations} {index : Index}
    (h : (build relations).outcome = .ok index) : index.Describes relations := by
  obtain ⟨atRoot, atVars, atPairs⟩ := outcome_build_eq_ok_iff.mp h
  constructor
  · cases found : relations.tuples Field.root.label with
    | nil =>
        rw [found] at atRoot
        exact (Except.ok.inj atRoot).symm
    | cons first more =>
        rw [found, outcome_rootOf_cons] at atRoot
        cases isPair : pair? first with
        | none =>
            rw [isPair] at atRoot
            cases atRoot
        | some pair =>
            rw [isPair] at atRoot
            rw [← Except.ok.inj atRoot, pair?_eq_some_iff.mp isPair]
            rfl
  · intro field notVars notRoot
    exact (tupleLoop_addPairs notVars).mirrors mirrorsPairs_empty (atPairs field notVars notRoot)
  · exact tupleLoop_addArguments.mirrors mirrorsArguments_empty atVars

/-! ## Flaws and reports, tuple by tuple -/

theorem mem_readings_iff {relations : Relations} {field : Field} {tuple : Tuple} :
    (field, tuple) ∈ relations.readings ↔
      if field = .root then (relations.tuples Field.root.label).head? = some tuple
      else tuple ∈ relations.tuples field.label := by
  unfold Relations.readings
  rcases relations.tuples Field.root.label with _ | ⟨first, more⟩
  · cases field <;> simp
  · cases field <;> simp [eq_comm]

theorem exists_firstFlaw?_iff {readings : List (Field × Tuple)} :
    (∃ error, firstFlaw? readings = some error) ↔
      ∃ field tuple, (field, tuple) ∈ readings ∧ (Field.flaw? field tuple).isSome := by
  rw [← Option.isSome_iff_exists, firstFlaw?, List.findSome?_isSome_iff]
  exact Prod.exists

theorem isSome_flaw?_pair_iff {field : Field} (notVars : field ≠ .vars) {tuple : Tuple} :
    (field.flaw? tuple).isSome ↔ tuple.length ≠ 2 := by
  rw [flaw?_of_ne_vars notVars]
  split <;> simp_all

theorem isSome_flaw?_vars_iff {tuple : Tuple} :
    (Field.vars.flaw? tuple).isSome ↔ tuple.length ≠ 3 ∨
      ∃ atom index label, tuple = [atom, index, label] ∧
        ∀ position : Position, ¬ position.IsSpelled index := by
  rcases tuple with _ | ⟨atom, _ | ⟨index, _ | ⟨label, _ | ⟨_, _⟩⟩⟩⟩
  · simp [Field.flaw?, Field.arity]
  · simp [Field.flaw?, Field.arity]
  · simp [Field.flaw?, Field.arity]
  · have unspelled : Position.spelled? index = none ↔
        ∀ position : Position, ¬ position.IsSpelled index := by
      rw [Option.eq_none_iff_forall_ne_some]
      simp only [ne_eq, Position.spelled?_eq_some_iff]
    rw [Field.flaw?]
    cases found : Position.spelled? index with
    | none => simpa using unspelled.mp found
    | some position =>
        have spelled := Position.spelled?_eq_some_iff.mp found
        simpa using ⟨position, spelled⟩
  · simp [Field.flaw?, Field.arity]

theorem isSome_report?_pair_iff {field : Field} (notVars : field ≠ .vars) {earlier : List Tuple}
    {source target : String} :
    (field.report? earlier [source, target]).isSome ↔
      ∃ previous, [source, previous] ∈ earlier := by
  rw [report?_of_ne_vars notVars, Option.isSome_map, isSome_lastOf?_iff]
  constructor
  · rintro ⟨tuple, inside, names⟩
    unfold targetIn? at names
    split at names
    · next other previous =>
      split at names
      · next same =>
        subst same
        exact ⟨previous, inside⟩
      · cases names
    · cases names
  · rintro ⟨previous, inside⟩
    exact ⟨_, inside, by simp [targetIn?]⟩

/-- A tuple that puts a label at a place is reported exactly if the place holds a variable. -/
theorem isSome_report?_vars_iff {map : OrderedMap String Arguments} {earlier : List Tuple}
    (mirrors : MirrorsArguments map earlier) {atom index label : String} {position : Position}
    (spelled : position.IsSpelled index) :
    (Field.vars.report? earlier [atom, index, label]).isSome ↔
      (argumentsIn map atom).get position ≠ .placeholder := by
  rw [mirrors.get, ofLabel_getD, Field.report?, Position.spelled?_eq_some_iff.mpr spelled,
    Option.bind_some, Option.isSome_map]
  cases (lastOf? (labelIn? atom position) earlier).filter (· ≠ placeholderMark) <;> simp

/-- A flaw is in the first root tuple, in a tuple of another field of pairs or in one of arguments.
-/
theorem exists_firstFlaw?_readings_iff (relations : Relations) :
    (∃ error, firstFlaw? relations.readings = some error) ↔
      (∃ first, (relations.tuples Field.root.label).head? = some first ∧ first.length ≠ 2) ∨
      (∃ field : Field, field ≠ .root ∧ field ≠ .vars ∧
        ∃ tuple ∈ relations.tuples field.label, tuple.length ≠ 2) ∨
      ∃ tuple ∈ relations.tuples Field.vars.label, tuple.length ≠ 3 ∨
        ∃ atom index label, tuple = [atom, index, label] ∧
          ∀ position : Position, ¬ position.IsSpelled index := by
  have notVars : Field.root ≠ .vars := nofun
  rw [exists_firstFlaw?_iff]
  constructor
  · rintro ⟨field, tuple, inside, flawed⟩
    rw [mem_readings_iff] at inside
    by_cases isRoot : field = .root
    · subst isRoot
      rw [if_pos rfl] at inside
      exact Or.inl ⟨tuple, inside, (isSome_flaw?_pair_iff notVars).mp flawed⟩
    · rw [if_neg isRoot] at inside
      by_cases isVars : field = .vars
      · subst isVars
        exact Or.inr (Or.inr ⟨tuple, inside, isSome_flaw?_vars_iff.mp flawed⟩)
      · exact Or.inr (Or.inl ⟨field, isRoot, isVars, tuple, inside,
          (isSome_flaw?_pair_iff isVars).mp flawed⟩)
  · rintro (⟨first, isFirst, flawed⟩ | ⟨field, isRoot, isVars, tuple, inside, flawed⟩ |
      ⟨tuple, inside, flawed⟩)
    · exact ⟨.root, first, by rw [mem_readings_iff, if_pos rfl]; exact isFirst,
        (isSome_flaw?_pair_iff notVars).mpr flawed⟩
    · exact ⟨field, tuple, by rw [mem_readings_iff, if_neg isRoot]; exact inside,
        (isSome_flaw?_pair_iff isVars).mpr flawed⟩
    · exact ⟨.vars, tuple, by rw [mem_readings_iff, if_neg nofun]; exact inside,
        isSome_flaw?_vars_iff.mpr flawed⟩

/-! ## Building an index -/

/-- Building an index fails exactly if the first root tuple or a tuple of another field of pairs has
not two labels, or a tuple of arguments has not three or spells no position, and the error is that
of the first such tuple. Otherwise the index describes the relations. What is reported are root
tuples that are not used, every tuple that replaces what an earlier one of its field says, and a
summary of the index. -/
theorem build_readings (relations : Relations) :
    ((∃ error, (build relations).outcome = .error error) ↔
      (∃ first, (relations.tuples Field.root.label).head? = some first ∧ first.length ≠ 2) ∨
      (∃ field : Field, field ≠ .root ∧ field ≠ .vars ∧
        ∃ tuple ∈ relations.tuples field.label, tuple.length ≠ 2) ∨
      ∃ tuple ∈ relations.tuples Field.vars.label, tuple.length ≠ 3 ∨
        ∃ atom index label, tuple = [atom, index, label] ∧
          ∀ position : Position, ¬ position.IsSpelled index) ∧
    (∀ error, (build relations).outcome = .error error ↔
      firstFlaw? relations.readings = some error) ∧
    (∀ index, (build relations).outcome = .ok index → index.Describes relations) ∧
    (build relations).log =
      extraRootReport (relations.tuples Field.root.label) ++
        reportsBehind [] (sound relations.readings) ++
          (build relations).outcome.toOption.elim [] summary ∧
    (∀ (field : Field) (earlier : List Tuple) (source target : String), field ≠ .vars →
      ((field.report? earlier [source, target]).isSome ↔
        ∃ previous, [source, previous] ∈ earlier)) ∧
    ∀ (map : OrderedMap String Arguments) (earlier : List Tuple) (atom index label : String)
      (position : Position), MirrorsArguments map earlier → position.IsSpelled index →
        ((Field.vars.report? earlier [atom, index, label]).isSome ↔
          (argumentsIn map atom).get position ≠ .placeholder) := by
  have reads := reads_build relations
  refine ⟨?_, reads.outcome, fun _ => describes_of_build, reads.log, ?_, ?_⟩
  · simp only [reads.outcome]
    exact exists_firstFlaw?_readings_iff relations
  · intro field earlier source target notVars
    exact isSome_report?_pair_iff notVars
  · intro map earlier atom index label position mirrors spelled
    exact isSome_report?_vars_iff mirrors spelled

/-- Relations in which a root is not used, a target and an argument are replaced, and a placeholder
is replaced as well. -/
def repeatedTuples : Relations :=
  .ofList [("root", ["Separator$0", "Atom$0"]), ("root", ["Separator$1", "Or$0"]),
    ("relation", ["Atom$0", "E$0"]), ("relation", ["Atom$0", "E$1"]),
    ("vars", ["Atom$0", "+00", "V0$0"]), ("vars", ["Atom$0", "01", "_"]),
    ("vars", ["Atom$0", "1", "V1$0"]), ("vars", ["Atom$0", "0", "V2$0"])]

def lastTuples : Index where
  relationOf := .ofList [("Atom$0", "E$1")]
  argumentsOf := .ofList [("Atom$0", ⟨.var "V2$0", .var "V1$0"⟩)]
  root := some "Atom$0"

theorem build_repeatedTuples :
    (build repeatedTuples).outcome = .ok lastTuples ∧ lastTuples.Describes repeatedTuples ∧
      (build repeatedTuples).log =
        [.extraRoots 2, .replacedTarget .relation "Atom$0" "E$0" "E$1",
          .replacedArgument "Atom$0" 0 "V0$0" "V2$0", .indexed 1 0 0 0] ∧
      ∃ previous, ["Atom$0", previous] ∈ [["Atom$0", "E$0"]] := by
  obtain ⟨-, -, holds, -, pairs, -⟩ := build_readings repeatedTuples
  have built : (build repeatedTuples).outcome = .ok lastTuples := by rfl
  have reported := (pairs .relation [["Atom$0", "E$0"]] "Atom$0" "E$1" nofun).mp (by rfl)
  exact ⟨built, holds lastTuples built, by rfl, reported⟩

end Index

end FormulaExport
