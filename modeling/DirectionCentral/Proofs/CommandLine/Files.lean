import Mathlib.Tactic.SplitIfs
import DirectionCentral.CommandLine.Files
import DirectionCentral.Proofs.Outcome

/-!
# What is written is read

A text that has been written under a path is read back under the same path (`readText_write`):
giving a file a content takes no directory away, and so the path leads to the same place. Only what
is written to the null device is lost.
-/

namespace DirectionCentral

/-- The bytes of a text are read as that text. -/
theorem textOfBytes_toUTF8 (text : String) : textOfBytes text.toUTF8 = .ok text := by
  have valid : String.fromUTF8? text.toUTF8 = some text := dif_pos text.isValidUTF8
  rw [textOfBytes, valid]

namespace Files

/-- Whether a path leads to the null device. -/
def isDevice (files : Files) (path : String) : Bool :=
  match files.resolve path with
  | .ok (place, _) => place == .nullDevice
  | .error _ => false

variable {files files' : Files} {place other : Place} {bytes : ByteArray}

/-- Giving a file a content takes no directory away. -/
theorem hasDirectory_put (directory : files.hasDirectory other = true) :
    (files.put place bytes).hasDirectory other = true := by
  rw [put]
  split
  · exact directory
  · rw [hasDirectory, Bool.or_eq_true] at directory ⊢
    refine directory.imp_right fun inhabited => ?_
    obtain ⟨⟨file, content⟩, member, under⟩ := List.any_eq_true.1 inhabited
    by_cases same : file = place
    · subst same
      exact List.any_eq_true.2 ⟨(file, bytes), List.mem_cons_self, under⟩
    · refine List.any_eq_true.2 ⟨(file, content), List.mem_cons_of_mem _ ?_, under⟩
      exact List.mem_filter.2 ⟨member, bne_iff_ne.2 same⟩

/-- Giving a file a content makes no directory but of what the file lies under. -/
theorem hasDirectory_put_eq_false (plain : files.hasDirectory other = false)
    (apart : place.isUnder other = true → place = other) :
    (files.put place bytes).hasDirectory other = false := by
  rw [put]
  split
  · exact plain
  · rw [hasDirectory, Bool.or_eq_false_iff] at plain ⊢
    refine plain.imp_right fun empty => ?_
    rw [List.any_eq_false] at empty ⊢
    intro file member
    rcases List.mem_cons.1 member with rfl | member
    · simpa using apart
    · exact empty file (List.mem_filter.1 member).1

/-- The content that a file was given is found. -/
theorem content?_put (file : place ≠ .nullDevice) :
    (files.put place bytes).content? place = some bytes := by
  rw [put, if_neg file, content?, if_neg file]
  exact List.lookup_cons_self

/-- Names lead to the same place after a file has been given a content. -/
theorem walk_put {names : List (List Char)} {found : Place × Bool}
    (walked : files.walk other names = .ok found) :
    (files.put place bytes).walk other names = .ok found := by
  fun_induction walk files other names with
  | case1 => exact walked
  | case2 _ _ _ skipped ih =>
    rw [walk, if_pos skipped]
    exact ih walked
  | case3 _ _ named ih =>
    rw [walk, if_neg named, if_pos rfl]
    exact ih walked
  | case4 _ _ _ named down last => rwa [walk, if_neg named, if_neg down, if_pos last]
  | case6 _ _ _ named down goesOn short directory ih =>
    rw [walk, if_neg named, if_neg down, if_neg goesOn, if_neg short,
      if_pos (hasDirectory_put directory)]
    exact ih walked
  | case5 | case7 | case8 => contradiction

/-- A path leads to the same place after a file has been given a content. -/
theorem resolve_put {path : String} {found : Place × Bool}
    (resolved : files.resolve path = .ok found) :
    (files.put place bytes).resolve path = .ok found := by
  rw [resolve] at resolved ⊢
  split_ifs at resolved ⊢ with named short
  all_goals exact walk_put resolved

/-- A text is written just if the path leads to a file, whose content it becomes. -/
theorem write_eq_ok_iff {path text : String} :
    files.write path text = .ok files' ↔
      ∃ place, files.resolve path = .ok (place, false) ∧ place.names.any isTooLong = false ∧
        files.hasDirectory place = false ∧ files' = files.put place text.toUTF8 := by
  rw [write, bind_eq_ok_iff]
  constructor
  · rintro ⟨⟨place, asDirectory⟩, resolved, written⟩
    simp only at written
    split_ifs at written with plain short free
    rw [Bool.not_eq_true] at plain short free
    subst plain
    exact ⟨place, resolved, short, free, (Except.ok.inj written).symm⟩
  · rintro ⟨place, resolved, short, free, rfl⟩
    exact ⟨_, resolved, by simp [short, free]⟩

/-- A content is read just if the path leads to a file with that content. -/
theorem read_eq_ok_iff {path : String} :
    files.read path = .ok bytes ↔
      ∃ place, files.resolve path = .ok (place, false) ∧ place.names.any isTooLong = false ∧
        files.hasDirectory place = false ∧ files.content? place = some bytes := by
  rw [read, bind_eq_ok_iff]
  constructor
  · rintro ⟨⟨place, asDirectory⟩, resolved, found⟩
    simp only at found
    split_ifs at found with short plain closing
    · cases content : files.content? place with
      | none => simp [content] at found
      | some held => simp [content] at found
    · rw [Bool.not_eq_true] at short plain closing
      cases content : files.content? place with
      | none => simp [content] at found
      | some held =>
        simp only [content, Except.ok.injEq] at found
        subst closing found
        exact ⟨place, resolved, short, plain, content⟩
  · rintro ⟨place, resolved, short, plain, content⟩
    exact ⟨_, resolved, by simp [short, plain, content]⟩

/-- A text that was written is read, unless the null device has swallowed it. -/
theorem readText_write {path text : String} (kept : files.isDevice path = false)
    (written : files.write path text = .ok files') : files'.readText path = .ok text := by
  obtain ⟨place, resolved, short, free, rfl⟩ := write_eq_ok_iff.1 written
  have file : place ≠ .nullDevice := by
    rintro rfl
    simp [isDevice, resolved] at kept
  have read : (files.put place text.toUTF8).read path = .ok text.toUTF8 :=
    read_eq_ok_iff.2 ⟨place, resolve_put resolved, short,
      hasDirectory_put_eq_false free fun _ => rfl, content?_put file⟩
  exact bind_eq_ok_iff.2 ⟨_, read, textOfBytes_toUTF8 text⟩

end Files

end DirectionCentral
