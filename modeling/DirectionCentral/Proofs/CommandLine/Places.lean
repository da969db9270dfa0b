import DirectionCentral.Proofs.CommandLine.Files
import DirectionCentral.Proofs.Text.Cut

/-!
# Places of files

A path that leads to a file leads into a directory and names the file there, and any other name in
the place of its last one leads into the same directory (`exists_directory_of_walk`). So two paths
that differ in their last names alone lead to two files (`ne_of_resolve`), and a file keeps its
content when a text is written elsewhere (`read_write_elsewhere`): the directories that a path is
followed through are there before anything is written.
-/

namespace DirectionCentral

namespace Place

/-- A place lies under another one if the names to the other one are the first of its own. -/
theorem isUnder_iff {place directory : Place} :
    place.isUnder directory = true ↔
      place.base = directory.base ∧ directory.names <+: place.names := by
  rw [isUnder, Bool.and_eq_true, beq_iff_eq, List.isPrefixOf_iff_prefix]

/-- A place under one that lies under another lies under the other. -/
theorem isUnder_trans {place directory above : Place} (below : place.isUnder directory = true)
    (under : directory.isUnder above = true) : place.isUnder above = true := by
  rw [isUnder_iff] at *
  exact ⟨below.1.trans under.1, under.2.trans below.2⟩

/-- Two places that lie under each other are the same. -/
theorem isUnder_antisymm {place other : Place} (one : place.isUnder other = true)
    (two : other.isUnder place = true) : place = other := by
  rw [isUnder_iff] at *
  obtain ⟨base, names⟩ := place
  obtain ⟨base', names'⟩ := other
  rw [mk.injEq]
  exact ⟨one.1, two.2.eq_of_length_le one.2.length_le⟩

/-- What a name in a directory lies under is the place itself or has the directory under it. -/
theorem isUnder_child {directory above : Place} {name : List Char}
    (under : (directory.child name).isUnder above = true) :
    directory.child name = above ∨ directory.isUnder above = true := by
  obtain ⟨base, names⟩ := isUnder_iff.1 under
  obtain whole | front := List.prefix_concat_iff.1 names
  · exact .inl (by rw [mk.injEq]; exact ⟨base, whole.symm⟩)
  · exact .inr (isUnder_iff.2 ⟨base, front⟩)

end Place

namespace Path

/-- A name that is followed as such: neither empty nor made of one or two points. -/
def IsProper (name : List Char) : Prop := name ≠ [] ∧ name ≠ ['.'] ∧ name ≠ ['.', '.']

/-- A text without a slash is one name. -/
theorem splitOn_of_free {text : List Char} (free : '/' ∉ text) : text.splitOn '/' = [text] :=
  List.splitOnP_eq_singleton fun _ member => beq_eq_false_iff_ne.2 fun slash =>
    free (slash ▸ member)

/-- What follows the last slash of a text is its last name. -/
theorem splitOn_append {tail : List Char} (front : List Char) (free : '/' ∉ tail) :
    (front ++ '/' :: tail).splitOn '/' = front.splitOn '/' ++ [tail] := by
  rw [← splitOn_of_free free]
  exact List.splitOnP_append_cons _ _ rfl

/-- What stands in front of a text without a slash is some names and the beginning of the last
one. -/
theorem exists_pieces (front : List Char) :
    ∃ parents first, ∀ tail, '/' ∉ tail →
      (front ++ tail).splitOn '/' = parents ++ [first ++ tail] := by
  cases cut : Text.splitAtLast (· == '/') front with
  | none =>
    refine ⟨[], front, fun tail free => splitOn_of_free fun member => ?_⟩
    obtain before | after := List.mem_append.1 member
    · exact absurd (Text.splitAtLast_eq_none_iff.1 cut '/' before) (by decide)
    · exact free after
  | some parts =>
    obtain ⟨c, stops, whole, last⟩ := Text.splitAtLast_eq_some_iff.1 cut
    obtain rfl : c = '/' := by simpa using stops
    refine ⟨parts.1.splitOn '/', parts.2, fun tail free => ?_⟩
    rw [whole, List.append_assoc, List.cons_append]
    refine splitOn_append _ fun member => ?_
    obtain before | after := List.mem_append.1 member
    · exact absurd (last '/' before) (by decide)
    · exact free after

/-- Whether a path begins at the root does not depend on a last part without a slash. -/
theorem isAbsolute_eq {path path' : String} {front name name' : List Char}
    (shape : path.toList = front ++ name) (shape' : path'.toList = front ++ name')
    (free : '/' ∉ name) (free' : '/' ∉ name') : isAbsolute path = isAbsolute path' := by
  have relative {text : List Char} (free : '/' ∉ text) : (text.head? == some '/') = false := by
    rw [beq_eq_false_iff_ne]
    exact fun first => free (List.mem_of_mem_head? first)
  rw [isAbsolute, isAbsolute, shape, shape']
  cases front with
  | nil => exact (relative free).trans (relative free').symm
  | cons c front => rfl

/-! ### Extensions -/

/-- A text that names a kind of file where it ends a name: without a slash, and not of points
alone. -/
def IsEnding (text : String) : Prop := '/' ∉ text.toList ∧ ∃ c ∈ text.toList, c ≠ '.'

/-- What has such an ending is a proper name. -/
theorem IsEnding.isProper {ending : String} (ends : IsEnding ending) (first : List Char) :
    IsProper (first ++ ending.toList) := by
  obtain ⟨-, c, member, other⟩ := ends
  have inside : c ∈ first ++ ending.toList := List.mem_append_right _ member
  refine ⟨List.ne_nil_of_mem inside, ?_, ?_⟩
  all_goals
    intro same
    rw [same] at inside
    simp [other] at inside

/-- The last name of a path counts, if it is proper. -/
theorem exists_names_eq {path : String} {parents : List (List Char)} {name : List Char}
    (shape : pieces path = parents ++ [name]) (proper : IsProper name) :
    ∃ front, names path = front ++ [name] := by
  have last (more : List (List Char)) :
      (more ++ [name]).filter (fun name => name != [] && name != ['.']) =
        more.filter (fun name => name != [] && name != ['.']) ++ [name] := by
    rw [List.filter_append]
    simp [proper.1, proper.2.1]
  rw [names, shape]
  split
  · rename_i rest cut
    cases parents with
    | nil => exact absurd (List.cons.inj cut).1 proper.2.1
    | cons first more =>
      obtain rfl := (List.cons.inj cut).2
      exact ⟨_ :: _, congrArg _ (last more)⟩
  · exact ⟨_, last parents⟩

/-- A path with an ending is some names and one more with that ending, whatever the ending. -/
theorem exists_pieces_append (path : String) :
    ∃ parents first, ∀ {ending : String}, IsEnding ending →
      pieces (path ++ ending) = parents ++ [first ++ ending.toList] := by
  obtain ⟨parents, first, cut⟩ := exists_pieces path.toList
  refine ⟨parents, first, fun ends => ?_⟩
  rw [pieces, String.toList_append, cut _ ends.1]

/-- Paths with different endings are not taken for the same. -/
theorem same_append_eq_false {path ending ending' : String} (ends : IsEnding ending)
    (ends' : IsEnding ending') (differ : ending ≠ ending') :
    same (path ++ ending) (path ++ ending') = false := by
  obtain ⟨parents, first, shape⟩ := exists_pieces_append path
  obtain ⟨front, names⟩ := exists_names_eq (shape ends) (ends.isProper first)
  obtain ⟨front', names'⟩ := exists_names_eq (shape ends') (ends'.isProper first)
  rw [same, Bool.and_eq_false_iff, beq_eq_false_iff_ne, beq_eq_false_iff_ne, names, names']
  exact .inr fun together =>
    differ (String.toList_inj.1 (List.append_cancel_left (List.append_singleton_inj.1 together).2))

end Path

namespace Files

variable {files saved : Files} {place other directory : Place} {bytes : ByteArray}

/-! ## Directories -/

/-- What a directory lies under is a directory. -/
theorem hasDirectory_of_isUnder (present : files.hasDirectory place = true)
    (under : place.isUnder directory = true) : files.hasDirectory directory = true := by
  obtain ⟨base, first⟩ := Place.isUnder_iff.1 under
  rw [hasDirectory, Bool.or_eq_true, Bool.or_eq_true] at *
  obtain (root | standard) | inhabited := present
  · rw [List.isEmpty_iff.1 root, List.prefix_nil] at first
    exact .inl (.inl (List.isEmpty_iff.2 first))
  · have single : ∀ d ∈ Place.standardDirectories, d.names.length ≤ 1 := by decide
    have short := single place (List.contains_iff_mem.1 standard)
    by_cases empty : directory.names = []
    · exact .inl (.inl (List.isEmpty_iff.2 empty))
    · have one := List.length_pos_iff.2 empty
      have same : place = directory := Place.isUnder_antisymm under
        (Place.isUnder_iff.2 ⟨base.symm, (first.eq_of_length_le (by omega)) ▸ List.prefix_rfl⟩)
      exact .inl (.inr (same ▸ standard))
  · obtain ⟨⟨file, content⟩, member, inside⟩ := List.any_eq_true.1 inhabited
    rw [Bool.and_eq_true, bne_iff_ne] at inside
    refine .inr (List.any_eq_true.2 ⟨(file, content), member, ?_⟩)
    rw [Bool.and_eq_true, bne_iff_ne]
    refine ⟨Place.isUnder_trans inside.1 under, ?_⟩
    rintro rfl
    exact inside.2 (Place.isUnder_antisymm inside.1 under)

/-- The directory that a directory is in is a directory. -/
theorem hasDirectory_parent (present : files.hasDirectory place = true) :
    files.hasDirectory place.parent = true := by
  rw [Place.parent]
  split
  · cases base : place.base with
    | above levels => rfl
    | root => exact present
  · exact hasDirectory_of_isUnder present (Place.isUnder_iff.2 ⟨rfl, List.dropLast_prefix _⟩)

/-- Names that lead to a file lead into a directory and end in the proper name of the file there;
another proper name at the end leads into the same directory. -/
theorem exists_directory_of_walk {start : Place} {names : List (List Char)}
    (present : files.hasDirectory start = true)
    (walked : files.walk start names = .ok (place, false)) :
    ∃ parents name directory, names = parents ++ [name] ∧ Path.IsProper name ∧
      place = directory.child name ∧ files.hasDirectory directory = true ∧
      ∀ last, Path.IsProper last →
        files.walk start (parents ++ [last]) = .ok (directory.child last, false) := by
  fun_induction walk files start names with
  | case1 => simp at walked
  | case2 start first rest skipped ih =>
    obtain ⟨parents, name, directory, rfl, proper, here, kept, others⟩ := ih present walked
    refine ⟨first :: parents, name, directory, rfl, proper, here, kept, fun last named => ?_⟩
    rw [List.cons_append, walk, if_pos skipped, others last named]
  | case3 start rest named ih =>
    obtain ⟨parents, name, directory, rfl, proper, here, kept, others⟩ :=
      ih (hasDirectory_parent present) walked
    refine ⟨_ :: parents, name, directory, rfl, proper, here, kept, fun last proper => ?_⟩
    rw [List.cons_append, walk, if_neg named, if_pos rfl, others last proper]
  | case4 start first rest named down final =>
    obtain ⟨rfl, ends⟩ := Prod.mk.inj (Except.ok.inj walked)
    obtain rfl : rest = [] := by simpa using ends
    rw [not_or] at named
    refine ⟨[], first, start, rfl, ⟨named.1, named.2, down⟩, rfl, present, fun last proper => ?_⟩
    rw [List.nil_append, walk, if_neg (not_or.2 ⟨proper.1, proper.2.1⟩), if_neg proper.2.2]
    rfl
  | case6 start first rest named down goesOn short inside ih =>
    obtain ⟨parents, name, directory, rfl, proper, here, kept, others⟩ := ih inside walked
    refine ⟨first :: parents, name, directory, rfl, proper, here, kept, fun last proper => ?_⟩
    have further : ¬ (parents ++ [last]).all (·.isEmpty) = true := by
      simp [proper.1]
    rw [List.cons_append, walk, if_neg named, if_neg down, if_neg further, if_neg short,
      if_pos inside, others last proper]
  | case5 | case7 | case8 => contradiction

/-- The directory that a path begins in. -/
def base (path : String) : Place := { base := if Path.isAbsolute path then .root else .above 0 }

/-- A path that leads somewhere does so by its names, from where it begins. -/
theorem walk_of_resolve {path : String} {found : Place × Bool}
    (resolved : files.resolve path = .ok found) :
    files.walk (base path) (Path.pieces path) = .ok found := by
  rw [resolve] at resolved
  split at resolved
  · contradiction
  · split at resolved
    · contradiction
    · exact resolved

/-- Paths that differ in their last names alone lead to two files. -/
theorem ne_of_resolve {path path' : String} {front name name' : List Char}
    (shape : path.toList = front ++ name) (shape' : path'.toList = front ++ name')
    (free : '/' ∉ name) (free' : '/' ∉ name') (differ : name ≠ name')
    (resolved : files.resolve path = .ok (place, false))
    (resolved' : files.resolve path' = .ok (other, false)) : place ≠ other := by
  obtain ⟨parents, first, pieces⟩ := Path.exists_pieces front
  have walked := walk_of_resolve resolved
  have walked' := walk_of_resolve resolved'
  rw [base, Path.pieces, shape, pieces name free] at walked
  rw [base, Path.pieces, shape', pieces name' free', ← Path.isAbsolute_eq shape shape' free free']
    at walked'
  obtain ⟨_, _, directory, split, -, rfl, -, others⟩ := exists_directory_of_walk rfl walked
  obtain ⟨_, _, _, split', proper, -, -, -⟩ := exists_directory_of_walk rfl walked'
  obtain ⟨rfl, rfl⟩ := List.append_singleton_inj.1 split
  obtain ⟨rfl, rfl⟩ := List.append_singleton_inj.1 split'
  rw [others _ proper] at walked'
  obtain rfl := (Prod.mk.inj (Except.ok.inj walked')).1
  intro same
  have names := List.append_cancel_left (congrArg Place.names same)
  exact differ (List.append_cancel_left (List.singleton_inj.1 names))

/-- A path with an ending that the null device has not leads elsewhere. -/
theorem ne_nullDevice_of_resolve {path ending : String} (ends : Path.IsEnding ending)
    (other : ¬ ending.toList <:+ "null".toList)
    (resolved : files.resolve (path ++ ending) = .ok (place, false)) : place ≠ .nullDevice := by
  obtain ⟨parents, first, shape⟩ := Path.exists_pieces_append path
  have walked := walk_of_resolve resolved
  rw [shape ends] at walked
  obtain ⟨_, name, directory, cut, -, rfl, -, -⟩ := exists_directory_of_walk rfl walked
  obtain rfl := (List.append_singleton_inj.1 cut).2
  intro same
  have names : directory.names ++ [first ++ ending.toList] = ["dev".toList] ++ ["null".toList] :=
    congrArg Place.names same
  exact other ⟨first, (List.append_singleton_inj.1 names).2⟩

/-! ## Writing elsewhere -/

/-- What is kept of entries at other places is found as before. -/
theorem lookup_filter (apart : other ≠ place) (entries : List (Place × ByteArray)) :
    (entries.filter fun (file, _) => file != place).lookup other = entries.lookup other := by
  induction entries with
  | nil => rfl
  | cons entry rest ih =>
    obtain ⟨file, content⟩ := entry
    by_cases replaced : file = place
    · rw [List.filter_cons_of_neg (by simp [replaced]), ih, List.lookup_cons, replaced,
        beq_eq_false_iff_ne.2 apart]
    · rw [List.filter_cons_of_pos (by simp [replaced]), List.lookup_cons, List.lookup_cons, ih]

/-- A content at another place stays. -/
theorem content?_put_of_ne (apart : other ≠ place) :
    (files.put place bytes).content? other = files.content? other := by
  rw [put]
  split
  · rfl
  · rw [content?, content?, List.lookup_cons, beq_eq_false_iff_ne.2 apart]
    exact congrArg _ (lookup_filter apart files.entries)

/-- A file keeps its content when a text is written under a path that leads elsewhere. -/
theorem read_write_elsewhere {path path' text : String} (read : files.read path = .ok bytes)
    (written : files.write path' text = .ok saved)
    (apart : files.resolve path' ≠ files.resolve path) : saved.read path = .ok bytes := by
  obtain ⟨place, resolved, short, plain, content⟩ := read_eq_ok_iff.1 read
  obtain ⟨other, resolved', -, -, rfl⟩ := write_eq_ok_iff.1 written
  obtain ⟨-, name, directory, -, -, here, present, -⟩ :=
    exists_directory_of_walk rfl (walk_of_resolve resolved')
  have differ : place ≠ other := by
    rintro rfl
    exact apart (resolved'.trans resolved.symm)
  have kept : (files.put other text.toUTF8).hasDirectory place = false := by
    refine hasDirectory_put_eq_false plain fun under => ?_
    rw [here] at under ⊢
    obtain same | above := Place.isUnder_child under
    · exact same
    · rw [hasDirectory_of_isUnder present above] at plain
      contradiction
  exact read_eq_ok_iff.2 ⟨place, resolve_put resolved, short, kept,
    (content?_put_of_ne differ).trans content⟩

end Files

end DirectionCentral
