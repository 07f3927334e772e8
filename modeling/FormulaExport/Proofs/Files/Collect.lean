import FormulaExport.Proofs.Files.Tree

/-!
# Collecting instance files

A path joined with the names of a place leads to what stands at that place (`find_joinNames`), and
different places have different paths (`joinNames_injective`). So the paths that stand for a
directory are those of the instance files below it, each of them once and in the order of their
places, and collecting them again changes nothing (`collect_instanceFiles`).
-/

set_option autoImplicit false

namespace FormulaExport

open FormulaExport.Tree (IsEntryName)

/-! ## Paths -/

theorem components_ne_nil (path : List Char) : components path ≠ [] := by
  cases path with
  | nil => exact List.cons_ne_nil _ _
  | cons c path =>
      rw [components]
      split
      · exact List.cons_ne_nil _ _
      · split <;> exact List.cons_ne_nil _ _

theorem components_append_separator (front rest : List Char) :
    components (front ++ separator :: rest) = components front ++ components rest := by
  induction front with
  | nil => rfl
  | cons c front ih =>
      rw [List.cons_append, components, components, ih]
      by_cases isSeparator : c = separator
      · rw [if_pos isSeparator, if_pos isSeparator]
        rfl
      · rw [if_neg isSeparator, if_neg isSeparator]
        obtain ⟨first, others, split⟩ := List.exists_cons_of_ne_nil (components_ne_nil front)
        rw [split]
        rfl

theorem components_of_not_mem {name : List Char} (h : separator ∉ name) :
    components name = [name] := by
  induction name with
  | nil => rfl
  | cons c name ih =>
      rw [List.mem_cons, not_or] at h
      rw [components, if_neg (Ne.symm h.1), ih h.2]

/-- The names of a path as far as more names can be added behind them: the empty one behind a
separator at the end does not count. -/
def pathTrunk (path : String) : List String :=
  if path.toList.getLast? = some separator then (pathNames path).dropLast else pathNames path

/-- A path with a separator at its end, put there if there is none. -/
def pathFront (path : String) : String :=
  if path.toList.getLast? = some separator then path else path.push separator

theorem joinNames_cons (path name : String) (names : List String) :
    joinNames path (name :: names) = joinNames (pathFront path ++ name) names := rfl

theorem pathNames_eq_trunk (path : String) :
    ∃ behind, (behind = [] ∨ behind = [""]) ∧ pathNames path = pathTrunk path ++ behind := by
  unfold pathTrunk
  by_cases ends : path.toList.getLast? = some separator
  · obtain ⟨front, split⟩ := List.getLast?_eq_some_iff.mp ends
    rw [if_pos ends, pathNames, split, components_append_separator, List.map_append]
    exact ⟨[""], Or.inr rfl, congrArg (· ++ [""]) List.dropLast_concat.symm⟩
  · rw [if_neg ends]
    exact ⟨[], Or.inl rfl, (List.append_nil _).symm⟩

section

variable {path name : String} {names names' : List String}

theorem pathNames_front_append (isName : IsEntryName name) :
    pathNames (pathFront path ++ name) = pathTrunk path ++ [name] := by
  have last : (components name.toList).map String.ofList = [name] := by
    rw [components_of_not_mem isName.noSeparator, List.map_singleton, String.ofList_toList]
  unfold pathFront pathTrunk
  by_cases ends : path.toList.getLast? = some separator
  · obtain ⟨front, split⟩ := List.getLast?_eq_some_iff.mp ends
    rw [if_pos ends, if_pos ends, pathNames, pathNames, String.toList_append, split,
      List.append_assoc, List.singleton_append, components_append_separator,
      components_append_separator, List.map_append, List.map_append, last]
    exact congrArg (· ++ [name]) List.dropLast_concat.symm
  · rw [if_neg ends, if_neg ends, pathNames, pathNames, String.toList_append, String.toList_push,
      List.append_assoc, List.singleton_append, components_append_separator, List.map_append, last]

theorem pathTrunk_front_append (isName : IsEntryName name) :
    pathTrunk (pathFront path ++ name) = pathTrunk path ++ [name] := by
  have endsOtherwise : (pathFront path ++ name).toList.getLast? ≠ some separator := by
    have nonempty := mt String.toList_eq_nil_iff.mp isName.notEmpty
    rw [String.toList_append, List.getLast?_append_of_ne_nil _ nonempty]
    exact fun last => isName.noSeparator (List.mem_of_getLast? last)
  rw [pathTrunk, if_neg endsOtherwise, pathNames_front_append isName]

/-- A joined path has the names of the path, and then those that were added. -/
theorem pathNames_joinNames (path : String) (nonempty : names ≠ [])
    (areNames : ∀ name ∈ names, IsEntryName name) :
    pathNames (joinNames path names) = pathTrunk path ++ names := by
  induction names generalizing path with
  | nil => exact absurd rfl nonempty
  | cons name names ih =>
      obtain ⟨isName, areNames⟩ := List.forall_mem_cons.mp areNames
      rw [joinNames_cons]
      cases names with
      | nil => exact pathNames_front_append isName
      | cons next names =>
          rw [ih _ (List.cons_ne_nil _ _) areNames, pathTrunk_front_append isName,
            List.append_assoc, List.singleton_append]

theorem joinNames_injective (nonempty : names ≠ []) (nonempty' : names' ≠ [])
    (areNames : ∀ name ∈ names, IsEntryName name) (areNames' : ∀ name ∈ names', IsEntryName name)
    (same : joinNames path names = joinNames path names') : names = names' := by
  have sameNames := congrArg pathNames same
  rw [pathNames_joinNames path nonempty areNames, pathNames_joinNames path nonempty' areNames']
    at sameNames
  exact List.append_cancel_left sameNames

theorem exists_joinNames_eq (path : String) (names : List String) :
    ∃ rest, (joinNames path names).toList = path.toList ++ rest := by
  induction names generalizing path with
  | nil => exact ⟨[], (List.append_nil _).symm⟩
  | cons name names ih =>
      obtain ⟨rest, split⟩ := ih (pathFront path ++ name)
      rw [joinNames_cons, split, String.toList_append]
      unfold pathFront
      split
      · exact ⟨name.toList ++ rest, List.append_assoc _ _ _⟩
      · rw [String.toList_push]
        exact ⟨[separator] ++ name.toList ++ rest, by simp only [List.append_assoc]⟩

end

namespace Workspace

/-! ## Resolution -/

section

variable {current tree : Tree} {above : List Tree} {names place : List String} {name : String}
  {entries : List (String × Tree)}

theorem follow_stay (stays : name = "" ∨ name = ".") :
    follow (.directory entries) above (name :: names) =
      follow (.directory entries) above names := by
  cases above <;> rw [follow, if_pos stays]

theorem follow_down (goesOn : ¬ (name = "" ∨ name = ".")) (notUp : name ≠ "..")
    (found : Tree.lookup name entries = some tree) :
    follow (.directory entries) above (name :: names) =
      follow tree (.directory entries :: above) names := by
  cases above <;> rw [follow, if_neg goesOn, if_neg notUp, found]

theorem follow_missing (goesOn : ¬ (name = "" ∨ name = ".")) (notUp : name ≠ "..")
    (missing : Tree.lookup name entries = none) :
    follow (.directory entries) above (name :: names) = .error .notFound := by
  cases above <;> rw [follow, if_neg goesOn, if_neg notUp, missing]

/-- Names are followed one part after the other: either the first part fails, or it leads somewhere
and the others are followed from there. -/
theorem follow_append (current : Tree) (above : List Tree) (front : List String) :
    (∃ error, ∀ names, follow current above (front ++ names) = .error error) ∨
      ∃ tree above', ∀ names, follow current above (front ++ names) = follow tree above' names := by
  fun_induction follow current above front with
  | case1 current above => exact Or.inr ⟨current, above, fun _ => rfl⟩
  | case2 => exact Or.inl ⟨.notDirectory, fun _ => rfl⟩
  | case3 above name front entries stays ih =>
      simp only [List.cons_append, follow_stay stays]
      exact ih
  | case4 front entries goesOn ih => exact ih
  | case5 front entries parent above goesOn ih => exact ih
  | case6 above name front entries goesOn notUp inner found ih =>
      simp only [List.cons_append, follow_down goesOn notUp found]
      exact ih
  | case7 above name front entries goesOn notUp missing =>
      exact Or.inl ⟨.notFound, fun names => follow_missing goesOn notUp missing⟩

theorem proper_of_follow (proper : current.Proper) (properAbove : ∀ tree ∈ above, tree.Proper)
    (h : follow current above names = .ok tree) : tree.Proper := by
  fun_induction follow current above names with
  | case1 current above =>
      cases h
      exact proper
  | case2 => cases h
  | case3 above name names entries stays ih => exact ih proper properAbove h
  | case4 names entries goesOn ih => exact ih proper properAbove h
  | case5 names entries parent above goesOn ih =>
      obtain ⟨properParent, properAbove⟩ := List.forall_mem_cons.mp properAbove
      exact ih properParent properAbove h
  | case6 above name names entries goesOn notUp inner found ih =>
      cases proper with
      | directory distinct areNames properEntries =>
          refine ih (properEntries _ (Tree.mem_of_lookup found)) ?_ h
          exact List.forall_mem_cons.mpr ⟨.directory distinct areNames properEntries, properAbove⟩
  | case7 => cases h

theorem follow_of_at? (areNames : ∀ name ∈ place, IsEntryName name)
    (h : current.at? place = some tree) : follow current above place = .ok tree := by
  induction place generalizing current above with
  | nil => exact congrArg Except.ok (Option.some.inj h)
  | cons name place ih =>
      obtain ⟨isName, areNames⟩ := List.forall_mem_cons.mp areNames
      obtain ⟨inner, found, reached⟩ := Option.bind_eq_some_iff.mp h
      cases current with
      | file content => cases found
      | directory entries =>
          have listed : Tree.lookup name entries = some inner := found
          rw [follow_down (not_or.mpr ⟨isName.notEmpty, isName.notHere⟩) isName.notUp listed]
          exact ih areNames reached

/-- Behind a path that leads to a directory, the names of a place there lead to what stands at that
place. -/
theorem follow_trunk_append {start : List String} {path : String}
    (found : follow current above (start ++ pathNames path) = .ok (.directory entries))
    (areNames : ∀ name ∈ place, IsEntryName name)
    (reached : (Tree.directory entries).at? place = some tree) :
    follow current above (start ++ (pathTrunk path ++ place)) = .ok tree := by
  obtain ⟨behind, short, split⟩ := pathNames_eq_trunk path
  rw [split, ← List.append_assoc] at found
  rw [← List.append_assoc]
  rcases follow_append current above (start ++ pathTrunk path) with ⟨_, fails⟩ | ⟨next, _, leads⟩
  · rw [fails] at found
    cases found
  · rw [leads] at found ⊢
    have here : next = .directory entries := by
      rcases short with rfl | rfl
      · exact Except.ok.inj found
      · cases next with
        | file content => cases found
        | directory inner =>
            rw [follow_stay (Or.inl rfl)] at found
            exact Except.ok.inj found
    rw [here]
    exact follow_of_at? areNames reached

end

section

variable {workspace : Workspace} {path : String} {place : List String} {tree : Tree}
  {entries : List (String × Tree)}

theorem proper_of_find (proper : workspace.root.Proper) (h : workspace.find path = .ok tree) :
    tree.Proper := by
  unfold find at h
  split at h
  · cases h
  · exact proper_of_follow proper (List.forall_mem_nil _) h

/-- A path of a directory joined with the names of a place leads to what stands at that place below
the directory. -/
theorem find_joinNames (proper : workspace.root.Proper)
    (found : workspace.find path = .ok (.directory entries))
    (reached : (Tree.directory entries).at? place = some tree) :
    workspace.find (joinNames path place) = .ok tree := by
  have areNames := (proper_of_find proper found).isEntryName reached
  cases place with
  | nil =>
      obtain rfl := Option.some.inj reached
      exact found
  | cons name place =>
      -- the joined path begins like the path, so it is followed from the same directory
      obtain ⟨rest, split⟩ := exists_joinNames_eq path (name :: place)
      have names := pathNames_joinNames path (List.cons_ne_nil name place) areNames
      unfold find at found ⊢
      rw [split]
      cases text : path.toList with
      | nil =>
          rw [text] at found
          cases found
      | cons c text' =>
          rw [text] at found
          rw [List.cons_append]
          show follow _ _ (_ ++ pathNames _) = _
          rw [names]
          exact follow_trunk_append found areNames reached

end

/-! ## Instance files -/

/-- The part of a name behind its last dot is its extension, if something stands before that dot. -/
def HasExtension (name extension : String) : Prop :=
  '.' ∉ extension.toList ∧ ∃ stem, stem ≠ "" ∧ name = stem ++ "." ++ extension

theorem hasInstanceExtension_iff {name : String} :
    hasInstanceExtension name = true ↔ HasExtension name "xml" := by
  have noDot : '.' ∉ "xml".toList := by decide
  rw [hasInstanceExtension, Bool.and_eq_true, List.isSuffixOf_iff_suffix, decide_eq_true_iff]
  constructor
  · rintro ⟨⟨stem, split⟩, longer⟩
    refine ⟨noDot, String.ofList stem, ?_, ?_⟩
    · intro empty
      rw [String.ofList_eq_empty_iff.mp empty, List.nil_append] at split
      rw [split] at longer
      exact Nat.lt_irrefl _ longer
    · apply String.toList_inj.mp
      rw [← split, String.toList_append, String.toList_append, String.toList_ofList,
        List.append_assoc]
      rfl
  · rintro ⟨-, stem, nonempty, rfl⟩
    rw [String.toList_append, String.toList_append, List.append_assoc]
    refine ⟨List.suffix_append _ _, ?_⟩
    have longer := List.length_pos_of_ne_nil (mt String.toList_eq_nil_iff.mp nonempty)
    rw [List.length_append]
    exact Nat.lt_add_of_pos_left longer

/-- Places are those of the **instance files** below a directory if they are the places of all
regular files there whose name has the extension, in the order of the bytes of their names, one name
after the other. -/
structure InstancePlaces (directory : Tree) (places : List (List String)) : Prop where
  complete : ∀ place, place ∈ places ↔
    (∃ content, directory.at? place = some (.file content)) ∧
      ∃ name, place.getLast? = some name ∧ HasExtension name "xml"
  ordered : places.Pairwise fun place place' => place.map utf8 < place'.map utf8

theorem isInstanceFile_iff {place : List String} :
    isInstanceFile place = true ↔ ∃ name, place.getLast? = some name ∧ HasExtension name "xml" := by
  rw [isInstanceFile, Option.any_eq_true]
  exact exists_congr fun name => and_congr_right' hasInstanceExtension_iff

theorem instancePlaces_filesBelow {directory : Tree} (proper : directory.Proper) :
    InstancePlaces directory (directory.filesBelow.filter isInstanceFile) where
  complete place := by
    rw [List.mem_filter, proper.mem_filesBelow_iff, isInstanceFile_iff]
  ordered := (proper.pairwise_filesBelow.filter _).imp fun less =>
    List.map_lt (fun _ _ => utf8_lt) less

-- names are compared one by one, so the order is not that of the paths they make up
example : ["b", "c.xml"].map utf8 < ["b.xml"].map utf8 ∧ utf8 "b.xml" < utf8 "b/c.xml" := by
  decide

namespace InstancePlaces

variable {directory : Tree} {places : List (List String)} {place : List String}

theorem ne_nil (h : InstancePlaces directory places) (inside : place ∈ places) : place ≠ [] := by
  rintro rfl
  obtain ⟨-, name, last, -⟩ := (h.complete []).mp inside
  cases last

theorem exists_content (h : InstancePlaces directory places) (inside : place ∈ places) :
    ∃ content, directory.at? place = some (.file content) :=
  ((h.complete place).mp inside).1

/-- Different places have different paths, so no path is listed twice. -/
theorem nodup_map_joinNames (h : InstancePlaces directory places) (proper : directory.Proper)
    (path : String) : (places.map (joinNames path)).Nodup := by
  have areNames : ∀ place ∈ places, ∀ name ∈ place, IsEntryName name := by
    intro place inside
    obtain ⟨content, reached⟩ := h.exists_content inside
    exact proper.isEntryName reached
  refine List.pairwise_map.mpr (h.ordered.imp_of_mem ?_)
  intro place place' inside inside' less same
  obtain rfl := joinNames_injective (h.ne_nil inside) (h.ne_nil inside')
    (areNames place inside) (areNames place' inside') same
  exact List.lt_irrefl _ less

end InstancePlaces

/-! ## Collecting -/

section

variable {workspace : Workspace} {path : String} {entries : List (String × Tree)}

theorem collect_append (workspace : Workspace) (a b : List String) :
    workspace.collect (a ++ b) = workspace.collect a ++ workspace.collect b :=
  List.flatMap_append

theorem collect_singleton (workspace : Workspace) (path : String) :
    workspace.collect [path] = workspace.expand path :=
  List.flatMap_singleton _ _

theorem expand_of_not_directory (h : ∀ entries, workspace.find path ≠ .ok (.directory entries)) :
    workspace.expand path = [path] := by
  unfold expand
  split
  · next found => exact absurd found (h _)
  · rfl

theorem expand_of_file {content : ByteArray} (h : workspace.find path = .ok (.file content)) :
    workspace.expand path = [path] := by
  apply expand_of_not_directory
  intro entries found
  rw [h] at found
  cases found

theorem collect_file {content : ByteArray} (h : workspace.find path = .ok (.file content)) :
    workspace.collect [path] = [path] := by
  rw [collect_singleton, expand_of_file h]

/-- A directory stands for the paths of its instance files, and these lead there. -/
theorem expand_directory (proper : workspace.root.Proper)
    (found : workspace.find path = .ok (.directory entries)) :
    ∃ places, InstancePlaces (.directory entries) places ∧
      workspace.expand path = places.map (joinNames path) ∧
      ∀ place ∈ places, ∃ content,
        (Tree.directory entries).at? place = some (.file content) ∧
          workspace.find (joinNames path place) = .ok (.file content) := by
  have listed := instancePlaces_filesBelow (proper_of_find proper found)
  refine ⟨_, listed, by rw [expand, found], ?_⟩
  intro place inside
  obtain ⟨content, reached⟩ := listed.exists_content inside
  exact ⟨content, reached, find_joinNames proper found reached⟩

theorem expand_of_mem_expand (proper : workspace.root.Proper) {listed : String}
    (h : listed ∈ workspace.expand path) : workspace.expand listed = [listed] := by
  by_cases isDirectory : ∃ entries, workspace.find path = .ok (.directory entries)
  · obtain ⟨entries, found⟩ := isDirectory
    obtain ⟨places, -, paths, leads⟩ := expand_directory proper found
    rw [paths] at h
    obtain ⟨place, inside, rfl⟩ := List.mem_map.mp h
    obtain ⟨content, -, isFile⟩ := leads place inside
    exact expand_of_file isFile
  · rw [not_exists] at isDirectory
    rw [expand_of_not_directory isDirectory, List.mem_singleton] at h
    rw [h]
    exact expand_of_not_directory isDirectory

/-- Several paths are collected one after the other. What is not a directory stands for itself. A
directory stands for the instance files below it, all of them and each once, in the order of their
places, and under paths that lead there. What has been collected stays the same when it is collected
again. -/
theorem collect_instanceFiles (workspace : Workspace) (proper : workspace.root.Proper) :
    (∀ a b, workspace.collect (a ++ b) = workspace.collect a ++ workspace.collect b) ∧
      (∀ path, (∀ entries, workspace.find path ≠ .ok (.directory entries)) →
        workspace.collect [path] = [path]) ∧
      (∀ path entries, workspace.find path = .ok (.directory entries) →
        ∃ places, InstancePlaces (.directory entries) places ∧
          workspace.collect [path] = places.map (joinNames path) ∧
          (workspace.collect [path]).Nodup ∧
          ∀ place ∈ places, ∃ content,
            (Tree.directory entries).at? place = some (.file content) ∧
              workspace.find (joinNames path place) = .ok (.file content)) ∧
      ∀ paths, workspace.collect (workspace.collect paths) = workspace.collect paths := by
  refine ⟨workspace.collect_append, ?_, ?_, ?_⟩
  · intro path notDirectory
    rw [collect_singleton, expand_of_not_directory notDirectory]
  · intro path entries found
    obtain ⟨places, listed, paths, leads⟩ := expand_directory proper found
    rw [collect_singleton, paths]
    exact ⟨places, listed, rfl,
      listed.nodup_map_joinNames (proper_of_find proper found) path, leads⟩
  · intro paths
    rw [collect, collect, List.flatMap_assoc]
    refine List.flatMap_congr fun path _ => ?_
    calc (workspace.expand path).flatMap workspace.expand
        = (workspace.expand path).flatMap fun listed => [listed] :=
          List.flatMap_congr fun _ inside => expand_of_mem_expand proper inside
      _ = workspace.expand path := List.flatMap_singleton' _

end

/-- A directory with files beside and below a directory of almost the same name. -/
def nestedEntries : List (String × Tree) :=
  [("b.xml", .file .empty),
    ("b", .directory [("notes.txt", .file .empty), ("c.xml", .file .empty),
      ("d.xml", .directory [(".xml", .file .empty), ("e.xml", .file .empty)])])]

def nestedFiles : Workspace := ⟨.directory nestedEntries, []⟩

theorem proper_nestedFiles : nestedFiles.root.Proper := by
  have inner : (Tree.directory [(".xml", .file .empty), ("e.xml", .file .empty)]).Proper := by
    refine .directory (by decide) (by decide) ?_
    exact List.forall_mem_cons.mpr ⟨.file, List.forall_mem_singleton.mpr .file⟩
  refine .directory (by decide) (by decide) ?_
  refine List.forall_mem_cons.mpr ⟨.file, List.forall_mem_singleton.mpr ?_⟩
  refine .directory (by decide) (by decide) ?_
  refine List.forall_mem_cons.mpr ⟨.file, List.forall_mem_cons.mpr ⟨.file, ?_⟩⟩
  exact List.forall_mem_singleton.mpr inner

theorem collect_nestedFiles :
    nestedFiles.root.Proper ∧
      (nestedFiles.collect ["none", "b.xml"] = ["none", "b.xml"] ∧
        nestedFiles.find "none" = .error .notFound ∧
        nestedFiles.find "b.xml" = .ok (.file .empty)) ∧
      (nestedFiles.find "." = .ok (.directory nestedEntries) ∧
        ∃ places, InstancePlaces (.directory nestedEntries) places ∧
          nestedFiles.collect ["."] = places.map (joinNames ".") ∧
          ["b.xml"] ∈ places ∧ ["b", "d.xml", "e.xml"] ∈ places ∧ ["b", "d.xml"] ∉ places) ∧
      nestedFiles.collect (nestedFiles.collect ["."]) = nestedFiles.collect ["."] := by
  have found : nestedFiles.find "." = .ok (.directory nestedEntries) := rfl
  have missing : nestedFiles.find "none" = .error .notFound := rfl
  have single : nestedFiles.find "b.xml" = .ok (.file .empty) := rfl
  obtain ⟨append, others, directories, again⟩ :=
    collect_instanceFiles nestedFiles proper_nestedFiles
  refine ⟨proper_nestedFiles, ⟨?_, missing, single⟩, ⟨found, ?_⟩, again ["."]⟩
  · have first : nestedFiles.collect ["none"] = ["none"] := by
      refine others "none" ?_
      intro entries found
      rw [missing] at found
      cases found
    have second : nestedFiles.collect ["b.xml"] = ["b.xml"] := by
      refine others "b.xml" ?_
      intro entries found
      rw [single] at found
      cases found
    rw [← List.singleton_append, append, first, second]
  · obtain ⟨places, listed, paths, -, -⟩ := directories "." nestedEntries found
    refine ⟨places, listed, paths, ?_, ?_, ?_⟩
    · exact (listed.complete _).mpr ⟨⟨.empty, rfl⟩, "b.xml", rfl, by decide, "b", by decide, rfl⟩
    · exact (listed.complete _).mpr ⟨⟨.empty, rfl⟩, "e.xml", rfl, by decide, "e", by decide, rfl⟩
    · intro inside
      obtain ⟨⟨_, isFile⟩, -⟩ := (listed.complete _).mp inside
      cases isFile

end Workspace

end FormulaExport
